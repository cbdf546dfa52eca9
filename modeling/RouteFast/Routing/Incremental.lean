import RouteFast.Routing.Baseline

/-! Plans of growing lists of orders: what the planner has settled for the first orders it does
not rearrange for the later ones, and for two orders there is nothing better to be found. -/

namespace RouteFast

open RoutePlanner

/-- Fewer stops on the way are no detour. -/
theorem distanceOf_le_of_sublist {d : RoutePoint → RoutePoint → ℚ} (hd : Metric d)
    {l l' : List InternalStop} (h : l.Sublist l') (origin : RoutePoint) :
    distanceOf d origin l ≤ distanceOf d origin l' := by
  induction h generalizing origin with
  | slnil => exact le_refl _
  | @cons l l' stop _ ih =>
    have hskip : distanceOf d origin l ≤
        d origin stop.toRoutePoint + distanceOf d stop.toRoutePoint l := by
      cases l with
      | nil =>
        rw [distanceOf_nil, distanceOf_nil, add_zero]
        exact hd.nonneg _ _
      | cons next l =>
        have htri := hd.triangle origin stop.toRoutePoint next.toRoutePoint
        simp only [distanceOf_cons]
        linarith
    have hrest := ih stop.toRoutePoint
    rw [distanceOf_cons]
    linarith
  | cons_cons stop _ ih =>
    rw [distanceOf_cons, distanceOf_cons]
    exact add_le_add (le_refl _) (ih _)

section Grows

variable {d : RoutePoint → RoutePoint → ℚ} {origin : RoutePoint} {capacity : ℚ}
  {orders before : List RoutePlanOrder} {order : RoutePlanOrder} {s : RouteProgress}

/-- The stops of these orders. -/
def stopsOf (orders : List RoutePlanOrder) (route : List InternalStop) : List InternalStop :=
  route.filter fun stop => stop.orderId ∈ orders.map RoutePlanOrder.orderId

variable (d origin) in
/-- A round of the loop puts its stops between the others. -/
theorem insertOrder_pairInserted (h : Inserted capacity orders s)
    (hnew : ∀ other ∈ orders, other.orderId ≠ order.orderId) :
    (insertOrder d origin capacity s order).route = s.route ∨
    ∃ i j, PairInserted order.pickupStop order.dropoffStop s.route i j
      (insertOrder d origin capacity s order).route := by
  by_cases hdemand : Serviceable capacity order
  · obtain ⟨best, hstep, i, j, hins, -, -⟩ := insertOrder_of_serviceable d origin h.valid
      (fun other hother => hnew other (h.mem_accepted_iff.1 hother).1) hdemand
    rw [hstep]
    exact Or.inr ⟨i, j, hins⟩
  · rw [insertOrder_of_not_serviceable hdemand]
    exact Or.inl rfl

variable (d origin) in
/-- The loop on more orders: their stops come in between those it has placed already. -/
theorem insertOrders_append (hcapacity : 0 ≤ capacity) {after : List RoutePlanOrder}
    (hids : ((before ++ after).map RoutePlanOrder.orderId).Nodup) :
    let s := insertOrders d origin capacity before
    let s' := insertOrders d origin capacity (before ++ after)
    stopsOf before s'.route = s.route ∧ s.route.Sublist s'.route := by
  induction after using List.reverseRecOn with
  | nil =>
    rw [List.append_nil]
    refine ⟨?_, List.Sublist.refl _⟩
    have hids : (before.map RoutePlanOrder.orderId).Nodup := by simpa using hids
    have hins := inserted_insertOrders d origin hcapacity hids
    refine List.filter_eq_self.2 fun stop hstop => ?_
    obtain ⟨other, hother, hid⟩ := hins.valid.owned stop hstop
    have hmem := List.mem_map_of_mem (f := RoutePlanOrder.orderId) (hins.mem_accepted_iff.1 hother).1
    simpa [hid] using hmem
  | append_singleton after order ih =>
    rw [← List.append_assoc] at hids ⊢
    obtain ⟨hids, hnew⟩ := nodup_snoc hids
    obtain ⟨hstops, hsub⟩ := ih hids
    have hins := inserted_insertOrders d origin hcapacity hids
    dsimp only
    rw [insertOrders_snoc]
    rcases insertOrder_pairInserted d origin hins hnew with heq | ⟨i, j, hpair⟩
    · rw [heq]
      exact ⟨hstops, hsub⟩
    · have hnot : order.orderId ∉ before.map RoutePlanOrder.orderId := by
        intro hmem
        obtain ⟨other, hother, hid⟩ := List.mem_map.1 hmem
        exact hnew other (List.mem_append_left _ hother) hid
      refine ⟨?_, hsub.trans hpair.sublist⟩
      rw [← hstops]
      exact hpair.filter (by simpa using hnot) (by simpa using hnot)

end Grows

theorem AcceptedInput.beginning {input : RoutePlanInput} (h : AcceptedInput input)
    {before : List RoutePlanOrder} (hbefore : before <+: input.orders) (hne : before ≠ []) :
    AcceptedInput { input with orders := before } where
  origin := h.origin
  capacity := h.capacity
  count := ⟨List.length_pos_of_ne_nil hne, hbefore.length_le.trans h.count.2⟩
  orderId order horder := h.orderId order (hbefore.subset horder)
  distinct := h.distinct.sublist (hbefore.sublist.map _)
  points order horder := h.points order (hbefore.subset horder)

section Plan

variable {d : RoutePoint → RoutePoint → ℚ} {input : RoutePlanInput} {result : RoutePlanResult}

/-- The route of a plan. -/
def RoutePlanResult.route (result : RoutePlanResult) : List InternalStop :=
  result.stops.map PlannedStop.toInternalStop

theorem route_planned : (planned d input).route =
    (insertOrders d input.origin input.vehicleCapacity input.orders).route := by
  rw [RoutePlanResult.route, planned, materialize, stops_materializeFrom]

/-- Planning the first orders only is planning all and leaving out the others' stops. The
later orders reject nothing that was taken, and by a metric they make no route shorter. -/
theorem plan_incremental (h : plan d input = .ok result) {before : List RoutePlanOrder}
    (hbefore : before <+: input.orders) (hne : before ≠ []) :
    ∃ first, plan d { input with orders := before } = .ok first ∧
      stopsOf before result.route = first.route ∧
      first.rejectedOrderIds = result.rejectedOrderIds.filter
        (fun id => id ∈ before.map RoutePlanOrder.orderId) ∧
      (Metric d → first.totalDistanceKm ≤ result.totalDistanceKm) := by
  obtain ⟨hinput, rfl⟩ := plan_ok_iff.1 h
  refine ⟨_, plan_ok_iff.2 ⟨hinput.beginning hbefore hne, rfl⟩, ?_⟩
  have hcapacity : 0 ≤ input.vehicleCapacity := zero_le_one.trans hinput.capacity.2
  have hins := hinput.inserted d (List.prefix_refl _)
  have hinsBefore := hinput.inserted d hbefore
  obtain ⟨after, horders⟩ := hbefore
  have hids := hinput.distinct
  rw [← horders] at hids
  obtain ⟨hstops, hsub⟩ := insertOrders_append d input.origin hcapacity hids
  rw [horders] at hstops hsub
  refine ⟨by rw [route_planned, route_planned, hstops], ?_, fun hd => ?_⟩
  · show (insertOrders d input.origin input.vehicleCapacity before).rejectedOrderIds =
      (insertOrders d input.origin input.vehicleCapacity input.orders).rejectedOrderIds.filter _
    rw [hins.rejected, hinsBefore.rejected, ← horders, List.filter_append, List.map_append,
      List.filter_append]
    have hkept : ∀ (l : List RoutePlanOrder), (∀ order ∈ l, order ∈ before) →
        (l.map RoutePlanOrder.orderId).filter
          (fun id => id ∈ before.map RoutePlanOrder.orderId) = l.map RoutePlanOrder.orderId := by
      intro l hl
      refine List.filter_eq_self.2 fun id hid => ?_
      obtain ⟨order, horder, rfl⟩ := List.mem_map.1 hid
      simpa using ⟨order, hl order horder, rfl⟩
    have hdropped : ((after.filter fun order => ¬ Serviceable input.vehicleCapacity order).map
        RoutePlanOrder.orderId).filter (fun id => id ∈ before.map RoutePlanOrder.orderId) = [] := by
      rw [List.map_append, List.nodup_append] at hids
      refine List.filter_eq_nil_iff.2 fun id hid => ?_
      obtain ⟨order, horder, rfl⟩ := List.mem_map.1 hid
      have hnew : order.orderId ∉ before.map RoutePlanOrder.orderId := fun hmem =>
        hids.2.2 _ hmem _ (List.mem_map_of_mem (List.mem_of_mem_filter horder)) rfl
      simpa using hnew
    rw [hkept _ fun order horder => List.mem_of_mem_filter horder, hdropped, List.append_nil]
  · exact Js.toFixed_mono 3 (distanceOf_le_of_sublist hd hsub input.origin)

theorem plan_incremental_deliveries :
    let result := planned gridKm deliveries
    ∃ first, plan gridKm { deliveries with orders := [orderA, oversize] } = .ok first ∧
      stopsOf [orderA, oversize] result.route = first.route ∧
      first.rejectedOrderIds = result.rejectedOrderIds.filter
        (fun id => id ∈ [orderA, oversize].map RoutePlanOrder.orderId) ∧
      (Metric gridKm → first.totalDistanceKm ≤ result.totalDistanceKm) :=
  plan_incremental plan_deliveries (show [orderA, oversize] <+: _ from ⟨[orderB], rfl⟩) (by simp)

section Exact

variable {capacity : ℚ} {a b : RoutePlanOrder} {route other : List InternalStop}

/-- A route that serves one order is its pair of stops. -/
theorem ValidRoute.of_one (h : ValidRoute capacity [a] route) :
    route = [a.pickupStop, a.dropoffStop] := by
  rw [← h.served a (List.mem_singleton_self a)]
  refine (List.filter_eq_self.2 fun stop hstop => ?_).symm
  obtain ⟨order, horder, hid⟩ := h.owned stop hstop
  obtain rfl := List.mem_singleton.1 horder
  simpa using hid

/-- Two orders can only be served by a route that has the pair of the second inserted into that
of the first. -/
theorem ValidRoute.of_two (h : ValidRoute capacity [a, b] route) (hne : a.orderId ≠ b.orderId) :
    ∃ i j, PairInserted b.pickupStop b.dropoffStop [a.pickupStop, a.dropoffStop] i j route := by
  have hb := h.served b (by simp)
  have ha := h.served a (by simp)
  obtain ⟨i, j, hpair⟩ := pairInserted_of_filter hb
  have hrest : (route.filter fun stop => !decide (stop.orderId = b.orderId)) =
      [a.pickupStop, a.dropoffStop] := by
    rw [← ha]
    refine List.filter_congr fun stop hstop => ?_
    obtain ⟨order, horder, hid⟩ := h.owned stop hstop
    rcases List.mem_pair.1 horder with rfl | rfl
    · simp [hid, hne]
    · simp [hid, hne.symm]
  rw [hrest] at hpair
  exact ⟨i, j, hpair⟩

theorem ValidRoute.of_none (h : ValidRoute capacity [] route) : route = [] := by
  refine List.eq_nil_iff_forall_not_mem.2 fun stop hstop => ?_
  obtain ⟨order, horder, -⟩ := h.owned stop hstop
  cases horder

variable (d) in
/-- Up to the second order served, no route is shorter than the one the loop has built. -/
theorem totalOf_le_of_two {orders : List RoutePlanOrder} (origin : RoutePoint)
    (hcapacity : 0 ≤ capacity) (hids : (orders.map RoutePlanOrder.orderId).Nodup)
    (htwo : (orders.filter fun order => Serviceable capacity order).length ≤ 2)
    (hother : ValidRoute capacity (orders.filter fun order => Serviceable capacity order) other) :
    totalOf d origin (insertOrders d origin capacity orders) ≤ distanceOf d origin other := by
  induction orders using List.reverseRecOn with
  | nil =>
    obtain rfl := hother.of_none
    exact le_refl _
  | append_singleton orders order ih =>
    obtain ⟨hids, hnew⟩ := nodup_snoc hids
    have hins := inserted_insertOrders d origin hcapacity hids
    rw [insertOrders_snoc]
    by_cases hdemand : Serviceable capacity order
    · rw [List.filter_append, List.filter_singleton, decide_eq_true hdemand] at hother htwo
      simp only [cond_true, ← hins.accepted] at hother htwo
      obtain ⟨i, j, hpair⟩ : ∃ i j, PairInserted order.pickupStop order.dropoffStop
          (insertOrders d origin capacity orders).route i j other := by
        rcases haccepted : (insertOrders d origin capacity orders).accepted with
          _ | ⟨first, _ | ⟨second, rest⟩⟩
        · rw [haccepted] at hother
          rw [route_eq_nil hins haccepted, hother.of_one]
          exact ⟨_, _, pairInserted_append [] order⟩
        · have hvalid := hins.valid
          rw [haccepted] at hother hvalid
          have hmem : first ∈ (insertOrders d origin capacity orders).accepted := by
            simp [haccepted]
          have hfirst := hins.mem_accepted_iff.1 hmem
          rw [hvalid.of_one]
          exact hother.of_two (hnew first hfirst.1)
        · simp [haccepted] at htwo
      exact (insertOrder_le d origin hins hnew hdemand).2 i j other hpair hother.within
    · rw [insertOrder_of_not_serviceable hdemand]
      rw [List.filter_append, List.filter_singleton, decide_eq_false hdemand] at hother htwo
      simp only [cond_false, List.append_nil] at hother htwo
      exact ih hids htwo hother

end Exact

/-- Where at most two orders can be served, the planner finds the shortest of all routes that
serve them, whatever the distances; with three it may not. -/
theorem plan_optimal (h : plan d input = .ok result)
    (htwo : (input.orders.filter fun order =>
      Serviceable input.vehicleCapacity order).length ≤ 2)
    {other : List InternalStop} (hother : ValidRoute input.vehicleCapacity
      (input.orders.filter fun order => Serviceable input.vehicleCapacity order) other) :
    result.totalDistanceKm ≤ roundKm (distanceOf d input.origin other) := by
  obtain ⟨hinput, rfl⟩ := plan_ok_iff.1 h
  have hcapacity : 0 ≤ input.vehicleCapacity := zero_le_one.trans hinput.capacity.2
  exact Js.toFixed_mono 3
    (totalOf_le_of_two d input.origin hcapacity hinput.distinct htwo hother)

theorem plan_optimal_deliveries : (planned gridKm deliveries).totalDistanceKm ≤
    roundKm (distanceOf gridKm deliveries.origin (sequentialRoute [orderA, orderB])) := by
  have horders : (deliveries.orders.filter fun order =>
      Serviceable deliveries.vehicleCapacity order) = [orderA, orderB] := by decide +kernel
  have hnil : ValidRoute 2 [] [] := .nil (by norm_num)
  have hone : ValidRoute 2 [orderA] (sequentialRoute [orderA]) :=
    hnil.insert (by simp) (by decide +kernel) (pairInserted_append [] orderA)
      (hnil.append (by decide +kernel))
  have htwo : ValidRoute 2 [orderA, orderB] (sequentialRoute [orderA, orderB]) :=
    hone.insert (by decide +kernel) (by decide +kernel) (pairInserted_append _ orderB)
      (hone.append (by decide +kernel))
  exact plan_optimal plan_deliveries (by rw [horders]; decide) (by rw [horders]; exact htwo)

example : distanceOf gridKm zigzag.origin (sequentialRoute zigzag.orders) <
    totalOf gridKm zigzag.origin (insertOrders gridKm zigzag.origin 3 zigzag.orders) := by
  decide +kernel

end Plan

end RouteFast
