import RouteFast.Routing.Plans

/-! The planned route against its sequential baseline. Appending a pair is always among the
candidates, but the planned route may end elsewhere than the baseline does. -/

namespace RouteFast

open RoutePlanner

structure Metric (d : RoutePoint → RoutePoint → ℚ) : Prop where
  symm : ∀ a b, d a b = d b a
  nonneg : ∀ a b, 0 ≤ d a b
  triangle : ∀ a b c, d a c ≤ d a b + d b c

/-- The point where the stops end. -/
def endOf (previous : RoutePoint) : List InternalStop → RoutePoint
  | [] => previous
  | stop :: stops => endOf stop.toRoutePoint stops

section Distance

variable {d : RoutePoint → RoutePoint → ℚ} {origin previous : RoutePoint}

@[simp] theorem endOf_nil : endOf previous [] = previous := rfl

@[simp] theorem endOf_cons (stop : InternalStop) (stops : List InternalStop) :
    endOf previous (stop :: stops) = endOf stop.toRoutePoint stops := rfl

@[simp] theorem endOf_append (l r : List InternalStop) :
    endOf previous (l ++ r) = endOf (endOf previous l) r := by
  induction l generalizing previous with
  | nil => rfl
  | cons stop l ih => exact ih

theorem endOf_eq_getLast (stops : List InternalStop) :
    endOf previous stops = (stops.getLast?.map InternalStop.toRoutePoint).getD previous := by
  induction stops using List.reverseRecOn with
  | nil => rfl
  | append_singleton stops stop ih => simp

@[simp] theorem distanceOf_nil : distanceOf d origin [] = 0 := rfl

@[simp] theorem distanceOf_cons (stop : InternalStop) (stops : List InternalStop) :
    distanceOf d origin (stop :: stops) =
      d origin stop.toRoutePoint + distanceOf d stop.toRoutePoint stops := by
  simp [distanceOf_eq, legsOf]

@[simp] theorem distanceOf_append (l r : List InternalStop) :
    distanceOf d origin (l ++ r) = distanceOf d origin l + distanceOf d (endOf origin l) r := by
  induction l generalizing origin with
  | nil => simp
  | cons stop l ih =>
    rw [List.cons_append, distanceOf_cons, distanceOf_cons, ih, endOf_cons, add_assoc]

theorem distanceOf_nonneg (hd : Metric d) (stops : List InternalStop) :
    0 ≤ distanceOf d origin stops := by
  induction stops generalizing origin with
  | nil => simp
  | cons stop stops ih =>
    rw [distanceOf_cons]
    exact add_nonneg (hd.nonneg _ _) ih

/-- A detour from a point of the route costs at most the way out and back. -/
theorem distanceOf_detour (hd : Metric d) (a : RoutePoint) (p q : InternalStop)
    (r : List InternalStop) : distanceOf d a (p :: q :: r) ≤ distanceOf d a r +
      2 * (d a p.toRoutePoint + d p.toRoutePoint q.toRoutePoint) := by
  have hap := hd.nonneg a p.toRoutePoint
  have hpq := hd.nonneg p.toRoutePoint q.toRoutePoint
  cases r with
  | nil =>
    simp only [distanceOf_cons, distanceOf_nil]
    linarith
  | cons x r =>
    have hback : d q.toRoutePoint x.toRoutePoint ≤ d p.toRoutePoint q.toRoutePoint +
        (d a p.toRoutePoint + d a x.toRoutePoint) := calc
      d q.toRoutePoint x.toRoutePoint
          ≤ d q.toRoutePoint p.toRoutePoint + d p.toRoutePoint x.toRoutePoint :=
            hd.triangle _ _ _
      _ ≤ d q.toRoutePoint p.toRoutePoint +
            (d p.toRoutePoint a + d a x.toRoutePoint) := by
              gcongr
              exact hd.triangle _ _ _
      _ = d p.toRoutePoint q.toRoutePoint + (d a p.toRoutePoint + d a x.toRoutePoint) := by
            rw [hd.symm q.toRoutePoint, hd.symm p.toRoutePoint a]
    simp only [distanceOf_cons]
    linarith

end Distance

namespace RoutePlanner

theorem sequentialRoute_append (accepted : List RoutePlanOrder) (order : RoutePlanOrder) :
    sequentialRoute (accepted ++ [order]) =
      sequentialRoute accepted ++ [order.pickupStop, order.dropoffStop] := by
  simp [sequentialRoute]

theorem getLast?_sequentialRoute (accepted : List RoutePlanOrder) :
    (sequentialRoute accepted).getLast? = accepted.getLast?.map RoutePlanOrder.dropoffStop := by
  induction accepted using List.reverseRecOn with
  | nil => rfl
  | append_singleton accepted order ih => simp [sequentialRoute_append]

end RoutePlanner

/-- The planned route ends where the baseline of the orders accepted so far does. -/
def EndsInOrder (s : RouteProgress) : Prop :=
  s.route.getLast? = s.accepted.getLast?.map RoutePlanOrder.dropoffStop

/-- The distances `plan` compares, before rounding. -/
def totalOf (haversineKm : RoutePoint → RoutePoint → ℚ) (origin : RoutePoint)
    (s : RouteProgress) : ℚ := distanceOf haversineKm origin s.route

def sequentialOf (haversineKm : RoutePoint → RoutePoint → ℚ) (origin : RoutePoint)
    (s : RouteProgress) : ℚ := distanceOf haversineKm origin (sequentialRoute s.accepted)

section Bounds

variable {haversineKm : RoutePoint → RoutePoint → ℚ} {origin : RoutePoint} {capacity : ℚ}
  {orders : List RoutePlanOrder} {order : RoutePlanOrder} {s : RouteProgress}

theorem EndsInOrder.endOf_eq (h : EndsInOrder s) :
    endOf origin s.route = endOf origin (sequentialRoute s.accepted) := by
  rw [endOf_eq_getLast, endOf_eq_getLast, getLast?_sequentialRoute, h]

/-- The baseline grows by the way to the pickup and on to the dropoff. -/
theorem sequentialOf_snoc {s' : RouteProgress} (h : s'.accepted = s.accepted ++ [order]) :
    sequentialOf haversineKm origin s' = sequentialOf haversineKm origin s +
      (haversineKm (endOf origin (sequentialRoute s.accepted)) order.pickup +
        haversineKm order.pickup order.dropoff) := by
  simp [sequentialOf, h, sequentialRoute_append, RoutePlanOrder.pickupStop,
    RoutePlanOrder.dropoffStop]

variable (haversineKm origin) in
/-- A round of the loop costs no more than any insertion that fits. -/
theorem insertOrder_le (h : Inserted capacity orders s)
    (hnew : ∀ other ∈ orders, other.orderId ≠ order.orderId)
    (hdemand : Serviceable capacity order) :
    (insertOrder haversineKm origin capacity s order).accepted = s.accepted ++ [order] ∧
    ∀ i j other, PairInserted order.pickupStop order.dropoffStop s.route i j other →
      WithinCapacity capacity other →
      totalOf haversineKm origin (insertOrder haversineKm origin capacity s order) ≤
        distanceOf haversineKm origin other := by
  obtain ⟨best, hstep, i, j, -, -, hleast⟩ := insertOrder_of_serviceable
    haversineKm origin h.valid
    (fun other hother => hnew other (h.mem_accepted_iff.1 hother).1) hdemand
  rw [hstep]
  exact ⟨rfl, fun i' j' other hins hwithin => (hleast i' j' other hins hwithin).1⟩

variable (haversineKm origin) in
theorem totalOf_le_append (h : Inserted capacity orders s)
    (hnew : ∀ other ∈ orders, other.orderId ≠ order.orderId)
    (hdemand : Serviceable capacity order) :
    totalOf haversineKm origin (insertOrder haversineKm origin capacity s order) ≤
      distanceOf haversineKm origin (s.route ++ [order.pickupStop, order.dropoffStop]) :=
  (insertOrder_le haversineKm origin h hnew hdemand).2 _ _ _ (pairInserted_append s.route order)
    (h.valid.append hdemand.2.2)

theorem insertOrders_snoc : insertOrders haversineKm origin capacity (orders ++ [order]) =
    insertOrder haversineKm origin capacity (insertOrders haversineKm origin capacity orders)
      order := by
  rw [insertOrders, List.foldl_append]
  rfl

theorem nodup_snoc (h : ((orders ++ [order]).map RoutePlanOrder.orderId).Nodup) :
    (orders.map RoutePlanOrder.orderId).Nodup ∧
      ∀ other ∈ orders, other.orderId ≠ order.orderId := by
  rw [List.map_append, List.map_singleton, List.nodup_append] at h
  exact ⟨h.1, fun other hother =>
    h.2.2 _ (List.mem_map_of_mem hother) _ (List.mem_singleton_self _)⟩

variable (haversineKm origin) in
/-- As long as the route ends where the baseline does, appending keeps it no longer. -/
theorem totalOf_le_of_endsInOrder (hcapacity : 0 ≤ capacity)
    (hids : (orders.map RoutePlanOrder.orderId).Nodup)
    (hends : ∀ before order after, orders = before ++ order :: after → Serviceable capacity order →
      EndsInOrder (insertOrders haversineKm origin capacity before)) :
    totalOf haversineKm origin (insertOrders haversineKm origin capacity orders) ≤
      sequentialOf haversineKm origin (insertOrders haversineKm origin capacity orders) := by
  induction orders using List.reverseRecOn with
  | nil => exact le_refl _
  | append_singleton orders order ih =>
    obtain ⟨hids, hnew⟩ := nodup_snoc hids
    have hins := inserted_insertOrders haversineKm origin hcapacity hids
    have hbefore := ih hids fun before other after heq =>
      hends before other (after ++ [order]) (by simp [heq])
    rw [insertOrders_snoc]
    by_cases hdemand : Serviceable capacity order
    · have happend := totalOf_le_append haversineKm origin hins hnew
        hdemand
      rw [distanceOf_append, (hends orders order [] rfl hdemand).endOf_eq] at happend
      rw [sequentialOf_snoc (insertOrder_le haversineKm origin hins hnew hdemand).1]
      refine happend.trans ?_
      simpa [totalOf, RoutePlanOrder.pickupStop, RoutePlanOrder.dropoffStop] using hbefore
    · rw [insertOrder_of_not_serviceable hdemand]
      exact hbefore

variable (haversineKm origin) in
/-- Nothing along the route weighs more than all the orders it serves together. -/
theorem loadOf_le_sum (hcapacity : 0 ≤ capacity)
    (hids : (orders.map RoutePlanOrder.orderId).Nodup) :
    let s := insertOrders haversineKm origin capacity orders
    WithinCapacity (s.accepted.map RoutePlanOrder.demand).sum s.route := by
  induction orders using List.reverseRecOn with
  | nil =>
    intro s before hbefore
    obtain rfl : before = [] := List.prefix_nil.1 hbefore
    exact le_refl _
  | append_singleton orders order ih =>
    obtain ⟨hids, hnew⟩ := nodup_snoc hids
    have hins := inserted_insertOrders haversineKm origin hcapacity hids
    dsimp only
    rw [insertOrders_snoc]
    by_cases hdemand : Serviceable capacity order
    · obtain ⟨best, hstep, i, j, hpair, -, -⟩ := insertOrder_of_serviceable
        haversineKm origin hins.valid
        (fun other hother => hnew other (hins.mem_accepted_iff.1 hother).1) hdemand
      rw [hstep]
      intro before hbefore
      obtain ⟨old, hold, hload⟩ := load_pairInserted hpair hbefore
      have hle := ih hids old hold
      have hone := hdemand.2.1
      simp only [List.map_append, List.map_singleton, List.sum_append, List.sum_singleton]
      rcases hload with hload | hload <;> rw [hload] <;> linarith
    · rw [insertOrder_of_not_serviceable hdemand]
      exact ih hids

theorem route_eq_nil (h : Inserted capacity orders s) (hnone : s.accepted = []) :
    s.route = [] := by
  refine List.eq_nil_iff_forall_not_mem.2 fun stop hstop => ?_
  obtain ⟨other, hother, -⟩ := h.valid.owned stop hstop
  simp [hnone] at hother

/-- The route of one order can only end in its dropoff. -/
theorem endsInOrder_of_length_le_one (h : Inserted capacity orders s)
    (hlen : s.accepted.length ≤ 1) : EndsInOrder s := by
  unfold EndsInOrder
  rcases haccepted : s.accepted with _ | ⟨only, _ | ⟨other, rest⟩⟩
  · rw [route_eq_nil h haccepted]
    rfl
  · have hserved := h.valid.served only (by simp [haccepted])
    have hall : s.route.filter (fun stop => stop.orderId = only.orderId) = s.route := by
      rw [List.filter_eq_self]
      intro stop hstop
      obtain ⟨other, hother, hid⟩ := h.valid.owned stop hstop
      obtain rfl : other = only := by simpa [haccepted] using hother
      simpa using hid
    rw [← hall, hserved]
    rfl
  · simp [haccepted] at hlen

variable (origin) in
/-- Where the capacity leaves room everywhere, the pair fits right behind the dropoff of any
order served, for no more than the way there and back. -/
theorem exists_detour (hd : Metric haversineKm) (h : Inserted capacity orders s)
    {last : RoutePlanOrder} (hlast : last ∈ s.accepted) (hdemand : 0 ≤ order.demand)
    (hroom : ∀ old, old <+: s.route → loadOf old + order.demand ≤ capacity) : ∃ i j other,
      PairInserted order.pickupStop order.dropoffStop s.route i j other ∧
      WithinCapacity capacity other ∧ distanceOf haversineKm origin other ≤
        totalOf haversineKm origin s + 2 * (haversineKm last.dropoff order.pickup +
          haversineKm order.pickup order.dropoff) := by
  have hmem : last.dropoffStop ∈ s.route.filter (fun stop => stop.orderId = last.orderId) := by
    rw [h.valid.served last hlast]
    simp
  obtain ⟨l, r, hroute⟩ := List.append_of_mem (List.mem_filter.1 hmem).1
  have hpair : PairInserted order.pickupStop order.dropoffStop s.route (l.length + 1)
      (l.length + 2) (l ++ last.dropoffStop :: order.pickupStop :: order.dropoffStop :: r) :=
    ⟨l ++ [last.dropoffStop], [], r, by simp [hroute], by simp, by simp, by simp⟩
  refine ⟨_, _, _, hpair, ?_, ?_⟩
  · intro before hbefore
    obtain ⟨old, hold, hload⟩ := load_pairInserted hpair hbefore
    have hle := hroom old hold
    rcases hload with hload | hload <;> rw [hload] <;> linarith
  · have hdetour := distanceOf_detour hd last.dropoff order.pickupStop order.dropoffStop r
    simp only [totalOf, hroute, distanceOf_append, distanceOf_cons, RoutePlanOrder.pickupStop,
      RoutePlanOrder.dropoffStop] at hdetour ⊢
    linarith

variable (origin) in
/-- One round adds at most twice what the baseline adds. -/
theorem insertOrder_le_two_mul (hd : Metric haversineKm) (h : Inserted capacity orders s)
    (hnew : ∀ other ∈ orders, other.orderId ≠ order.orderId)
    (hdemand : Serviceable capacity order)
    (hroom : ∀ old, old <+: s.route → loadOf old + order.demand ≤ capacity) :
    totalOf haversineKm origin (insertOrder haversineKm origin capacity s order) ≤
      totalOf haversineKm origin s + 2 *
        (haversineKm (endOf origin (sequentialRoute s.accepted)) order.pickup +
          haversineKm order.pickup order.dropoff) := by
  have hnonneg : 0 ≤ order.demand := zero_le_one.trans hdemand.2.1
  rcases List.eq_nil_or_concat' s.accepted with hnone | ⟨init, last, hlast⟩
  · have happend := totalOf_le_append haversineKm origin h hnew
      hdemand
    have hpickup := hd.nonneg origin order.pickup
    have hdropoff := hd.nonneg order.pickup order.dropoff
    rw [route_eq_nil h hnone] at happend
    simp only [List.nil_append, distanceOf_cons, distanceOf_nil, add_zero,
      RoutePlanOrder.pickupStop, RoutePlanOrder.dropoffStop] at happend
    have htotal : totalOf haversineKm origin s = 0 := by
      rw [totalOf, route_eq_nil h hnone, distanceOf_nil]
    simp only [htotal, hnone, sequentialRoute, List.flatMap_nil, endOf_nil]
    linarith
  · obtain ⟨i, j, other, hpair, hwithin, hcost⟩ := exists_detour origin hd h
      (show last ∈ s.accepted by simp [hlast]) hnonneg hroom
    have hend : endOf origin (sequentialRoute s.accepted) = last.dropoff := by
      rw [endOf_eq_getLast, getLast?_sequentialRoute, hlast]
      simp [RoutePlanOrder.dropoffStop]
    rw [hend]
    exact ((insertOrder_le haversineKm origin h hnew hdemand).2 _ _ _ hpair hwithin).trans hcost

theorem totalOf_le_two_mul (hd : Metric haversineKm) (hcapacity : 0 ≤ capacity)
    (hids : (orders.map RoutePlanOrder.orderId).Nodup)
    (hfit : ((insertOrders haversineKm origin capacity orders).accepted.map
      RoutePlanOrder.demand).sum ≤ capacity) :
    totalOf haversineKm origin (insertOrders haversineKm origin capacity orders) ≤
      2 * sequentialOf haversineKm origin (insertOrders haversineKm origin capacity orders) := by
  induction orders using List.reverseRecOn with
  | nil => simp [totalOf, sequentialOf, insertOrders, sequentialRoute]
  | append_singleton orders order ih =>
    obtain ⟨hids, hnew⟩ := nodup_snoc hids
    have hins := inserted_insertOrders haversineKm origin hcapacity hids
    have hload := loadOf_le_sum haversineKm origin hcapacity hids
    rw [insertOrders_snoc] at hfit ⊢
    by_cases hdemand : Serviceable capacity order
    · have haccepted := (insertOrder_le haversineKm origin hins hnew
        hdemand).1
      rw [haccepted] at hfit
      simp only [List.map_append, List.map_singleton, List.sum_append, List.sum_singleton] at hfit
      have hbefore := ih hids (by linarith [hdemand.2.1])
      have hround := insertOrder_le_two_mul origin hd hins hnew hdemand
        fun old hold => by linarith [hload old hold]
      rw [sequentialOf_snoc haccepted]
      linarith
    · rw [insertOrder_of_not_serviceable hdemand] at hfit ⊢
      exact ih hids hfit

end Bounds

/-- The clamped savings are the true ones where there are any. -/
theorem savings_eq {total sequential : ℚ} (htotal : 0 ≤ total) :
    (if sequential ≤ 0 then 0 else max 0 ((1 - total / sequential) * 100)) =
      if total < sequential then (1 - total / sequential) * 100 else 0 := by
  by_cases hseq : sequential ≤ 0
  · rw [if_pos hseq, if_neg (by linarith)]
  · have hpos : 0 < sequential := not_le.1 hseq
    rw [if_neg hseq]
    by_cases hlt : total < sequential
    · have hratio : total / sequential < 1 := (div_lt_one hpos).2 hlt
      rw [if_pos hlt, max_eq_right (by linarith)]
    · have hratio : 1 ≤ total / sequential := (one_le_div hpos).2 (not_lt.1 hlt)
      rw [if_neg hlt, max_eq_left (by linarith)]

/-- What the plan reports of the distances, and how far the baseline bounds the route. -/
theorem plan_baseline {haversineKm : RoutePoint → RoutePoint → ℚ} (hd : Metric haversineKm)
    {input : RoutePlanInput} {result : RoutePlanResult}
    (h : plan haversineKm input = .ok result) :
    let s := insertOrders haversineKm input.origin input.vehicleCapacity input.orders
    let total := totalOf haversineKm input.origin s
    let sequential := sequentialOf haversineKm input.origin s
    (result.totalDistanceKm = roundKm total ∧ result.sequentialDistanceKm = roundKm sequential ∧
      result.estimatedDistanceSavingsPct =
        roundKm (if total < sequential then (1 - total / sequential) * 100 else 0)) ∧
    (∀ before order, before ++ [order] <+: input.orders →
      Serviceable input.vehicleCapacity order →
      let s' := insertOrders haversineKm input.origin input.vehicleCapacity before
      totalOf haversineKm input.origin
        (insertOrder haversineKm input.origin input.vehicleCapacity s' order) ≤
        distanceOf haversineKm input.origin
          (s'.route ++ [order.pickupStop, order.dropoffStop])) ∧
    (s.accepted.length ≤ 2 → total ≤ sequential) ∧
    ((∀ before order after, input.orders = before ++ order :: after →
      Serviceable input.vehicleCapacity order →
      EndsInOrder (insertOrders haversineKm input.origin input.vehicleCapacity before)) →
      total ≤ sequential) ∧
    ((s.accepted.map RoutePlanOrder.demand).sum ≤ input.vehicleCapacity →
      total ≤ 2 * sequential) := by
  obtain ⟨hinput, rfl⟩ := plan_ok_iff.1 h
  have hcapacity : 0 ≤ input.vehicleCapacity := zero_le_one.trans hinput.capacity.2
  have hins := hinput.inserted haversineKm (List.prefix_refl _)
  intro s total sequential
  have hends := totalOf_le_of_endsInOrder haversineKm input.origin hcapacity
    hinput.distinct
  refine ⟨⟨rfl, rfl, ?_⟩, ?_, ?_, hends, totalOf_le_two_mul hd hcapacity hinput.distinct⟩
  · exact congrArg roundKm (savings_eq (distanceOf_nonneg hd s.route))
  · intro before order hbefore hdemand
    have hids := hinput.distinct.sublist (hbefore.sublist.map RoutePlanOrder.orderId)
    have hshort : before <+: input.orders := (List.prefix_append _ _).trans hbefore
    exact totalOf_le_append haversineKm input.origin (hinput.inserted haversineKm hshort)
      (nodup_snoc hids).2 hdemand
  · intro hlen
    refine hends fun before order after heq hdemand => ?_
    have hbefore := hinput.inserted haversineKm ⟨_, heq.symm⟩
    refine endsInOrder_of_length_le_one hbefore ?_
    -- the order itself is accepted, and leaves one at most for those before it
    have hsplit := congrArg List.length hins.accepted
    rw [heq, List.filter_append, List.filter_cons_of_pos (by simpa using hdemand),
      List.length_append, List.length_cons, ← hbefore.accepted, ← heq] at hsplit
    have hsame : s.accepted.length = _ := hsplit
    omega

theorem metric_gridKm : Metric gridKm where
  symm a b := by rw [gridKm, gridKm, abs_sub_comm, abs_sub_comm a.longitude]
  nonneg a b := add_nonneg (abs_nonneg _) (abs_nonneg _)
  triangle a b c := by
    have hlat := abs_sub_le a.latitude b.latitude c.latitude
    have hlon := abs_sub_le a.longitude b.longitude c.longitude
    simp only [gridKm]
    linarith

/-- Three orders on one meridian, each delivered where it is picked up. -/
def zigzag : RoutePlanInput where
  origin := ⟨0, 0⟩
  vehicleCapacity := 3
  orders := [⟨"A", 1, ⟨10, 0⟩, ⟨10, 0⟩⟩, ⟨"B", 1, ⟨-9, 0⟩, ⟨-9, 0⟩⟩, ⟨"C", 1, ⟨-20, 0⟩, ⟨-20, 0⟩⟩]

theorem check_zigzag : check zigzag = .ok () := by decide +kernel

theorem plan_zigzag : plan gridKm zigzag = .ok (planned gridKm zigzag) :=
  plan_ok_iff.2 ⟨check_ok_iff.1 check_zigzag, rfl⟩

theorem le_two_mul_baseline_zigzag :
    let s := insertOrders gridKm zigzag.origin zigzag.vehicleCapacity zigzag.orders
    totalOf gridKm zigzag.origin s ≤ 2 * sequentialOf gridKm zigzag.origin s :=
  (plan_baseline metric_gridKm plan_zigzag).2.2.2.2 (by decide +kernel)

/-- B goes in front of A, which it makes 28 long instead of 29; with C the route is 50 long. -/
theorem not_le_baseline : ¬ ∀ (d : RoutePoint → RoutePoint → ℚ) (input : RoutePlanInput)
    (result : RoutePlanResult), Metric d → plan d input = .ok result →
    let s := insertOrders d input.origin input.vehicleCapacity input.orders
    totalOf d input.origin s ≤ sequentialOf d input.origin s := by
  intro h
  have hle := h gridKm zigzag _ metric_gridKm plan_zigzag
  have htotal : totalOf gridKm zigzag.origin
      (insertOrders gridKm zigzag.origin zigzag.vehicleCapacity zigzag.orders) = 50 := by
    decide +kernel
  have hsequential : sequentialOf gridKm zigzag.origin
      (insertOrders gridKm zigzag.origin zigzag.vehicleCapacity zigzag.orders) = 40 := by
    decide +kernel
  simp only [htotal, hsequential] at hle
  norm_num at hle

end RouteFast
