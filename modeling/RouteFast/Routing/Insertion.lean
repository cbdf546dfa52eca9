import RouteFast.Routing.Route

/-! The insertion loop: each order with a valid demand goes into the route at its cheapest
feasible positions, and no other order is rejected. -/

namespace RouteFast

open RoutePlanner

/-- `best` inserts the order's pair into the route within the capacity, no other such list costs
less, and one with earlier positions costs more. -/
def CheapestInsertion (cost : List InternalStop → ℚ) (capacity : ℚ) (order : RoutePlanOrder)
    (route best : List InternalStop) : Prop :=
  ∃ i j, PairInserted order.pickupStop order.dropoffStop route i j best ∧
    WithinCapacity capacity best ∧ ∀ i' j' other,
      PairInserted order.pickupStop order.dropoffStop route i' j' other →
      WithinCapacity capacity other → cost best ≤ cost other ∧
        (i' < i ∨ i' = i ∧ j' < j → cost best < cost other)

/-- The demand is an integer between 1 and the capacity. -/
def Serviceable (capacity : ℚ) (order : RoutePlanOrder) : Prop :=
  order.demand.isInt = true ∧ 1 ≤ order.demand ∧ order.demand ≤ capacity

instance (capacity : ℚ) : DecidablePred (Serviceable capacity) := fun _ =>
  inferInstanceAs (Decidable (_ ∧ _))

namespace RoutePlanner

variable {haversineKm : RoutePoint → RoutePoint → ℚ} {origin : RoutePoint} {capacity : ℚ}
  {route : List InternalStop} {accepted : List RoutePlanOrder} {order : RoutePlanOrder}

theorem tryCandidate_eq : tryCandidate haversineKm origin capacity =
    keepLess (isCapacityFeasible · capacity) (distanceOf haversineKm origin) := by
  funext best candidate
  rcases best with _ | ⟨best, bestDistance⟩ <;>
    cases h : isCapacityFeasible candidate capacity <;> simp [tryCandidate, keepLess, h]

/-- The two loops are one scan of the candidates. -/
theorem bestInsertion_eq : bestInsertion haversineKm origin route order capacity =
    ((((positions route.length).map fun x =>
      insertAt (insertAt route x.1 order.pickupStop) x.2 order.dropoffStop).foldl
      (keepLess (isCapacityFeasible · capacity) (distanceOf haversineKm origin)) none).map
        Prod.fst) := by
  have hlen : ∀ i, (insertAt route i order.pickupStop).length = route.length + 1 := by
    intro i
    simp only [insertAt, List.length_append, List.length_cons, List.length_take, List.length_drop]
    omega
  unfold insertAt at hlen
  simp only [bestInsertion, positions, List.foldl_map, List.foldl_flatMap, hlen, tryCandidate_eq]
  rfl

variable (haversineKm origin) in
theorem bestInsertion_spec (h : ValidRoute capacity accepted route)
    (hnew : ∀ other ∈ accepted, other.orderId ≠ order.orderId)
    (hdemand : Serviceable capacity order) :
    ∃ best, bestInsertion haversineKm origin route order capacity = some best ∧
      CheapestInsertion (distanceOf haversineKm origin) capacity order route best := by
  obtain ⟨-, hone, hle⟩ := hdemand
  have hfeasible : ∀ {i j stops},
      PairInserted order.pickupStop order.dropoffStop route i j stops →
        (isCapacityFeasible stops capacity = true ↔ WithinCapacity capacity stops) :=
    fun hins => h.feasible_iff hnew (by linarith) hins
  set candidates := (positions route.length).map fun x =>
    insertAt (insertAt route x.1 order.pickupStop) x.2 order.dropoffStop with hcandidates
  have hleast := FirstLeast.foldl (isCapacityFeasible · capacity) (distanceOf haversineKm origin)
    candidates
  have hmem : ∀ i j stops, PairInserted order.pickupStop order.dropoffStop route i j stops →
      (i, j) ∈ positions route.length ∧
        stops = insertAt (insertAt route i order.pickupStop) j order.dropoffStop := by
    intro i j stops hins
    obtain ⟨hij, hj, rfl⟩ := pairInserted_iff.1 hins
    exact ⟨mem_positions.2 ⟨hij, hj⟩, rfl⟩
  have happend := pairInserted_append route order
  obtain ⟨best, hbest⟩ := hleast.exists_of_mem
    (List.mem_map.2 ⟨_, (hmem _ _ _ happend).1, (hmem _ _ _ happend).2.symm⟩)
    ((hfeasible happend).2 (h.append hle))
  refine ⟨best, by rw [bestInsertion_eq, ← hcandidates, hbest]; rfl, ?_⟩
  rw [hbest] at hleast
  obtain ⟨⟨i, j⟩, hpos, rfl, hok, hfirst⟩ := hleast.of_map (positions_sorted _)
  have hins : PairInserted order.pickupStop order.dropoffStop route i j _ :=
    pairInserted_iff.2 ⟨(mem_positions.1 hpos).1, (mem_positions.1 hpos).2, rfl⟩
  refine ⟨i, j, hins, (hfeasible hins).1 hok, fun i' j' other hother hwithin => ?_⟩
  obtain ⟨hpos', rfl⟩ := hmem _ _ _ hother
  obtain ⟨hcost, hstrict⟩ := hfirst (i', j') hpos' ((hfeasible hother).2 hwithin)
  refine ⟨hcost, fun hearlier => hstrict ?_ ?_⟩
  · simp only
    omega
  · simp only [ne_eq, Prod.mk.injEq]
    omega

end RoutePlanner

/-- What the loop has done with the orders it went through. -/
structure Inserted (capacity : ℚ) (orders : List RoutePlanOrder) (s : RouteProgress) : Prop where
  valid : ValidRoute capacity s.accepted s.route
  accepted : s.accepted = orders.filter fun order => Serviceable capacity order
  rejected : s.rejectedOrderIds =
    (orders.filter fun order => ¬ Serviceable capacity order).map RoutePlanOrder.orderId

namespace RoutePlanner

variable {haversineKm : RoutePoint → RoutePoint → ℚ} {origin : RoutePoint} {capacity : ℚ}
  {s : RouteProgress} {orders : List RoutePlanOrder} {order : RoutePlanOrder}

theorem not_serviceable_iff : ¬ Serviceable capacity order ↔
    order.demand.isInt = false ∨ order.demand < 1 ∨ capacity < order.demand := by
  rw [Serviceable, not_and_or, not_and_or, Bool.not_eq_true, not_le, not_le]

theorem insertOrder_of_not_serviceable (h : ¬ Serviceable capacity order) :
    insertOrder haversineKm origin capacity s order =
      { s with rejectedOrderIds := s.rejectedOrderIds ++ [order.orderId] } := by
  rw [insertOrder, if_pos (not_serviceable_iff.1 h)]

variable (haversineKm origin) in
/-- One round of the loop, for an order it takes. -/
theorem insertOrder_of_serviceable (h : ValidRoute capacity s.accepted s.route)
    (hnew : ∀ other ∈ s.accepted, other.orderId ≠ order.orderId)
    (hdemand : Serviceable capacity order) : ∃ best,
      insertOrder haversineKm origin capacity s order =
        { s with
          route := best
          accepted := s.accepted ++ [order] } ∧
      CheapestInsertion (distanceOf haversineKm origin) capacity order s.route best := by
  obtain ⟨best, hbest, hcheapest⟩ :=
    bestInsertion_spec haversineKm origin h hnew hdemand
  refine ⟨best, ?_, hcheapest⟩
  have htest : ¬ (order.demand.isInt = false ∨ order.demand < 1 ∨ capacity < order.demand) :=
    fun ht => not_serviceable_iff.2 ht hdemand
  rw [insertOrder, if_neg htest, hbest]

variable (haversineKm origin) in
theorem inserted_insertOrder (h : Inserted capacity orders s)
    (hnew : ∀ other ∈ orders, other.orderId ≠ order.orderId) :
    Inserted capacity (orders ++ [order]) (insertOrder haversineKm origin capacity s order) := by
  have hnew' : ∀ other ∈ s.accepted, other.orderId ≠ order.orderId := by
    intro other hother
    rw [h.accepted] at hother
    exact hnew other (List.mem_of_mem_filter hother)
  by_cases hdemand : Serviceable capacity order
  · obtain ⟨best, hstep, i, j, hins, hwithin, -⟩ :=
      insertOrder_of_serviceable haversineKm origin h.valid hnew' hdemand
    have hnonneg : 0 ≤ order.demand := zero_le_one.trans hdemand.2.1
    rw [hstep]
    exact ⟨h.valid.insert hnew' hnonneg hins hwithin, by simp [h.accepted, hdemand],
      by simp [h.rejected, hdemand]⟩
  · rw [insertOrder_of_not_serviceable hdemand]
    exact ⟨h.valid, by simp [h.accepted, hdemand], by simp [h.rejected, hdemand]⟩

variable (haversineKm origin) in
theorem inserted_insertOrders (hcapacity : 0 ≤ capacity)
    (hids : (orders.map RoutePlanOrder.orderId).Nodup) :
    Inserted capacity orders (insertOrders haversineKm origin capacity orders) := by
  induction orders using List.reverseRecOn with
  | nil => exact ⟨ValidRoute.nil hcapacity, rfl, rfl⟩
  | append_singleton orders order ih =>
    rw [List.map_append, List.map_singleton, List.nodup_append] at hids
    obtain ⟨hids, -, hdisjoint⟩ := hids
    rw [insertOrders, List.foldl_append]
    exact inserted_insertOrder haversineKm origin (ih hids) fun other hother =>
      hdisjoint _ (List.mem_map_of_mem hother) _ (List.mem_singleton_self _)

end RoutePlanner

end RouteFast
