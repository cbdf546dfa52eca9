import RouteFast.Routing.Insertion
import Mathlib.Algebra.Order.Group.Unbundled.Abs
import Mathlib.Data.List.Nodup

/-! What the planner returns: the inputs it accepts, the plan's stops against the route, and the
orders that it rejects. -/

namespace RouteFast

open RoutePlanner

def ValidPoint (point : RoutePoint) : Prop :=
  (-90 ≤ point.latitude ∧ point.latitude ≤ 90) ∧ -180 ≤ point.longitude ∧ point.longitude ≤ 180

structure AcceptedInput (input : RoutePlanInput) : Prop where
  origin : ValidPoint input.origin
  capacity : input.vehicleCapacity.isInt = true ∧ 1 ≤ input.vehicleCapacity
  count : 1 ≤ input.orders.length ∧ input.orders.length ≤ 25
  orderId : ∀ order ∈ input.orders, Js.trim order.orderId ≠ ""
  distinct : (input.orders.map RoutePlanOrder.orderId).Nodup
  points : ∀ order ∈ input.orders, ValidPoint order.pickup ∧ ValidPoint order.dropoff

theorem assertPoint_ok_iff {point : RoutePoint} {label : String} :
    assertPoint point label = .ok () ↔ ValidPoint point := by
  unfold assertPoint ValidPoint
  split_ifs with hlat hlon
  · simp only [false_iff]
    rintro ⟨⟨hlo, hhi⟩, -⟩
    rcases hlat with hlat | hlat <;> linarith
  · simp only [false_iff]
    rintro ⟨-, hlo, hhi⟩
    rcases hlon with hlon | hlon <;> linarith
  · push Not at hlat hlon
    simp [hlat, hlon]

theorem bind_ok_iff {ε α : Type} {x : Except ε Unit} {f : Unit → Except ε α} {a : α} :
    x >>= f = .ok a ↔ x = .ok () ∧ f () = .ok a := by
  cases x with
  | error e => simp [bind, Except.bind]
  | ok u => simp [bind, Except.bind]

namespace RoutePlanner

theorem checkOrders_ok_iff {seen : List String} {orders : List RoutePlanOrder} :
    checkOrders seen orders = .ok () ↔
      (∀ order ∈ orders, Js.trim order.orderId ≠ "") ∧
      (orders.map RoutePlanOrder.orderId).Nodup ∧ (∀ order ∈ orders, order.orderId ∉ seen) ∧
      ∀ order ∈ orders, ValidPoint order.pickup ∧ ValidPoint order.dropoff := by
  induction orders generalizing seen with
  | nil => simp [checkOrders]
  | cons order orders ih =>
    unfold checkOrders
    have hdisjoint : (∀ other ∈ orders, other.orderId ∉ order.orderId :: seen) ↔
        order.orderId ∉ orders.map RoutePlanOrder.orderId ∧
          ∀ other ∈ orders, other.orderId ∉ seen := by
      simp only [List.mem_cons, not_or, List.mem_map, not_exists, not_and, forall_and]
    by_cases hblank : Js.trim order.orderId = ""
    · simp [hblank, bind, Except.bind]
    · by_cases hseen : order.orderId ∈ seen
      · simp [hblank, hseen, bind, Except.bind]
      · simp only [hblank, hseen, if_false, bind_ok_iff, assertPoint_ok_iff, ih, hdisjoint,
          List.forall_mem_cons, List.map_cons, List.nodup_cons, ne_eq, not_false_eq_true, true_and]
        refine ⟨fun h => ?_, fun h => ?_⟩
        · obtain ⟨hpickup, hdropoff, hids, hnodup, ⟨hnew, hunseen⟩, hpoints⟩ := h
          exact ⟨hids, ⟨hnew, hnodup⟩, hunseen, ⟨hpickup, hdropoff⟩, hpoints⟩
        · obtain ⟨hids, ⟨hnew, hnodup⟩, hunseen, ⟨hpickup, hdropoff⟩, hpoints⟩ := h
          exact ⟨hpickup, hdropoff, hids, hnodup, ⟨hnew, hunseen⟩, hpoints⟩

theorem check_ok_iff {input : RoutePlanInput} : check input = .ok () ↔ AcceptedInput input := by
  have hiff : check input = .ok () ↔ ValidPoint input.origin ∧
      ¬ (input.vehicleCapacity.isInt = false ∨ input.vehicleCapacity < 1) ∧
      ¬ (input.orders.length < 1 ∨ 25 < input.orders.length) ∧
      checkOrders [] input.orders = .ok () := by
    unfold check
    by_cases hcapacity : input.vehicleCapacity.isInt = false ∨ input.vehicleCapacity < 1
    · simp [hcapacity, bind_ok_iff]
    · by_cases hcount : input.orders.length < 1 ∨ 25 < input.orders.length
      · simp only [hcapacity, hcount, if_true, if_false, bind_ok_iff, reduceCtorEq, false_and,
          not_true_eq_false, and_false]
      · simp only [hcapacity, hcount, if_false, bind_ok_iff, assertPoint_ok_iff]
        simp
  rw [hiff, checkOrders_ok_iff, not_or, not_or, Bool.not_eq_false, not_lt, not_lt, not_lt]
  constructor
  · rintro ⟨horigin, hcapacity, hcount, hids, hdistinct, -, hpoints⟩
    exact ⟨horigin, hcapacity, hcount, hids, hdistinct, hpoints⟩
  · rintro ⟨horigin, hcapacity, hcount, hids, hdistinct, hpoints⟩
    exact ⟨horigin, hcapacity, hcount, hids, hdistinct, by simp, hpoints⟩

theorem plan_ok_iff {haversineKm : RoutePoint → RoutePoint → ℚ} {input : RoutePlanInput}
    {result : RoutePlanResult} : plan haversineKm input = .ok result ↔
      AcceptedInput input ∧ planned haversineKm input = result := by
  rw [plan, bind_ok_iff, check_ok_iff, Except.ok.injEq]

end RoutePlanner

theorem AcceptedInput.inserted {input : RoutePlanInput} (h : AcceptedInput input)
    (haversineKm : RoutePoint → RoutePoint → ℚ) {before : List RoutePlanOrder}
    (hbefore : before <+: input.orders) : Inserted input.vehicleCapacity before
      (insertOrders haversineKm input.origin input.vehicleCapacity before) :=
  inserted_insertOrders haversineKm input.origin (zero_le_one.trans h.capacity.2)
    (h.distinct.sublist (hbefore.sublist.map _))

/-- The next order goes in at its cheapest. -/
theorem AcceptedInput.bestInsertion {input : RoutePlanInput} (h : AcceptedInput input)
    (haversineKm : RoutePoint → RoutePoint → ℚ) {before : List RoutePlanOrder}
    (hbefore : before <+: input.orders) {order : RoutePlanOrder}
    (hnew : ∀ other ∈ before, other.orderId ≠ order.orderId)
    (hdemand : Serviceable input.vehicleCapacity order) :
    let route := (insertOrders haversineKm input.origin input.vehicleCapacity before).route
    ∃ best, bestInsertion haversineKm input.origin route order input.vehicleCapacity = some best ∧
      CheapestInsertion (distanceOf haversineKm input.origin) input.vehicleCapacity order route
        best := by
  have hins := h.inserted haversineKm hbefore
  refine bestInsertion_spec haversineKm input.origin hins.valid
    (fun other hother => hnew other ?_) hdemand
  rw [hins.accepted] at hother
  exact List.mem_of_mem_filter hother

namespace Inserted

variable {capacity : ℚ} {orders : List RoutePlanOrder} {s : RouteProgress}
  {order : RoutePlanOrder}

theorem mem_rejected_iff (h : Inserted capacity orders s)
    (hids : (orders.map RoutePlanOrder.orderId).Nodup) (horder : order ∈ orders) :
    order.orderId ∈ s.rejectedOrderIds ↔ ¬ Serviceable capacity order := by
  rw [h.rejected, List.mem_map]
  constructor
  · rintro ⟨other, hother, hid⟩
    obtain ⟨hmem, hnot⟩ := List.mem_filter.1 hother
    obtain rfl : other = order := List.inj_on_of_nodup_map hids hmem horder hid
    simpa using hnot
  · intro hnot
    exact ⟨order, List.mem_filter.2 ⟨horder, by simpa using hnot⟩, rfl⟩

theorem mem_accepted_iff (h : Inserted capacity orders s) :
    order ∈ s.accepted ↔ order ∈ orders ∧ Serviceable capacity order := by
  simp [h.accepted]

/-- The orders with stops are those that are not rejected. -/
theorem fresh_iff (h : Inserted capacity orders s)
    (hids : (orders.map RoutePlanOrder.orderId).Nodup) (horder : order ∈ orders) :
    order.orderId ∈ s.rejectedOrderIds ↔ Fresh order s.route := by
  rw [h.mem_rejected_iff hids horder]
  constructor
  · intro hnot
    refine h.valid.fresh fun other hother hid => hnot ?_
    obtain ⟨hmem, hdemand⟩ := h.mem_accepted_iff.1 hother
    obtain rfl : other = order := List.inj_on_of_nodup_map hids hmem horder hid
    exact hdemand
  · intro hfresh hdemand
    have hserved := h.valid.served order (h.mem_accepted_iff.2 ⟨horder, hdemand⟩)
    have hmem : order.pickupStop ∈ s.route.filter (fun stop => stop.orderId = order.orderId) := by
      rw [hserved]
      exact List.mem_cons_self
    exact hfresh _ (List.mem_filter.1 hmem).1 rfl

end Inserted

/-- The distances between the stops, from the origin on. -/
def legsOf (haversineKm : RoutePoint → RoutePoint → ℚ) (previous : RoutePoint) :
    List InternalStop → List ℚ
  | [] => []
  | stop :: stops =>
    haversineKm previous stop.toRoutePoint :: legsOf haversineKm stop.toRoutePoint stops

namespace RoutePlanner

variable {haversineKm : RoutePoint → RoutePoint → ℚ}

theorem distanceFrom_eq (previous : RoutePoint) (total : ℚ) (stops : List InternalStop) :
    distanceFrom haversineKm previous total stops =
      total + (legsOf haversineKm previous stops).sum := by
  induction stops generalizing previous total with
  | nil => simp [distanceFrom, legsOf]
  | cons stop stops ih =>
    rw [distanceFrom, ih, legsOf, List.sum_cons]
    ring

theorem distanceOf_eq (origin : RoutePoint) (stops : List InternalStop) :
    distanceOf haversineKm origin stops = (legsOf haversineKm origin stops).sum := by
  rw [distanceOf, distanceFrom_eq, zero_add]

section Materialize

variable (previous : RoutePoint) (load : ℚ) (index : ℕ) (stops : List InternalStop)

theorem stops_materializeFrom :
    (materializeFrom haversineKm previous load index stops).map PlannedStop.toInternalStop =
      stops := by
  induction stops generalizing previous load index with
  | nil => rfl
  | cons stop stops ih => rw [materializeFrom, List.map_cons, ih]

theorem sequence_materializeFrom :
    (materializeFrom haversineKm previous load index stops).map PlannedStop.sequence =
      List.range' (index + 1) stops.length := by
  induction stops generalizing previous load index with
  | nil => rfl
  | cons stop stops ih =>
    rw [materializeFrom, List.map_cons, ih, List.length_cons, List.range'_succ]

theorem legs_materializeFrom :
    (materializeFrom haversineKm previous load index stops).map PlannedStop.legDistanceKm =
      (legsOf haversineKm previous stops).map roundKm := by
  induction stops generalizing previous load index with
  | nil => rfl
  | cons stop stops ih => rw [materializeFrom, List.map_cons, ih, legsOf, List.map_cons]

variable {previous load index stops}

/-- The load after a stop is what all stops up to it add to the load. -/
theorem loadAfter_materializeFrom {before after : List PlannedStop} {stop : PlannedStop}
    (h : materializeFrom haversineKm previous load index stops = before ++ stop :: after) :
    stop.loadAfter =
      load + loadOf ((before ++ [stop]).map PlannedStop.toInternalStop) := by
  induction stops generalizing previous load index before with
  | nil => simp [materializeFrom] at h
  | cons first stops ih =>
    rw [materializeFrom] at h
    cases before with
    | nil =>
      obtain ⟨rfl, -⟩ := List.cons.inj h
      cases htype : first.type <;> simp [InternalStop.change, htype]
    | cons head before =>
      obtain ⟨rfl, htail⟩ := List.cons.inj h
      rw [ih htail]
      cases htype : first.type <;> simp [InternalStop.change, htype, add_assoc]

end Materialize

end RoutePlanner

/-- A plan as its reader understands it. -/
structure ValidPlan (haversineKm : RoutePoint → RoutePoint → ℚ) (input : RoutePlanInput)
    (result : RoutePlanResult) : Prop where
  /-- Every order is either rejected or has stops. -/
  partition : ∀ order ∈ input.orders, order.orderId ∈ result.rejectedOrderIds ↔
    ∀ stop ∈ result.stops, stop.orderId ≠ order.orderId
  rejected : ∀ id ∈ result.rejectedOrderIds, ∃ order ∈ input.orders, order.orderId = id
  owned : ∀ stop ∈ result.stops, ∃ order ∈ input.orders, order.orderId = stop.orderId
  /-- The stops of an order that is not rejected are its pickup and then its dropoff. -/
  served : ∀ order ∈ input.orders, order.orderId ∉ result.rejectedOrderIds →
    Served order (result.stops.map PlannedStop.toInternalStop)
  sequence : result.stops.map PlannedStop.sequence = List.range' 1 result.stops.length
  load : ∀ before stop after, result.stops = before ++ stop :: after →
    stop.loadAfter = loadOf ((before ++ [stop]).map PlannedStop.toInternalStop) ∧
      0 ≤ stop.loadAfter ∧ stop.loadAfter ≤ input.vehicleCapacity ∧
      (after = [] → stop.loadAfter = 0)
  legs : result.stops.map PlannedStop.legDistanceKm = (legsOf haversineKm input.origin
    (result.stops.map PlannedStop.toInternalStop)).map roundKm
  total : result.totalDistanceKm = roundKm (legsOf haversineKm input.origin
    (result.stops.map PlannedStop.toInternalStop)).sum

section Plan

variable {haversineKm : RoutePoint → RoutePoint → ℚ} {input : RoutePlanInput}
  {result : RoutePlanResult}

theorem plan_valid (h : plan haversineKm input = .ok result) :
    ValidPlan haversineKm input result := by
  obtain ⟨hinput, rfl⟩ := plan_ok_iff.1 h
  have hins := hinput.inserted haversineKm (List.prefix_refl _)
  set s := insertOrders haversineKm input.origin input.vehicleCapacity input.orders with hs
  have hstops : (planned haversineKm input).stops = materialize haversineKm input.origin s.route :=
    rfl
  have hroute : (planned haversineKm input).stops.map PlannedStop.toInternalStop = s.route := by
    rw [hstops, materialize, stops_materializeFrom]
  have hrejected : (planned haversineKm input).rejectedOrderIds = s.rejectedOrderIds := rfl
  have hforall : ∀ P : InternalStop → Prop, (∀ stop ∈ s.route, P stop) ↔
      ∀ stop ∈ (planned haversineKm input).stops, P stop.toInternalStop := by
    intro P
    rw [← hroute, List.forall_mem_map]
  constructor
  case partition =>
    intro order horder
    rw [hrejected, hins.fresh_iff hinput.distinct horder]
    exact hforall fun stop => stop.orderId ≠ order.orderId
  case rejected =>
    intro id hid
    rw [hrejected, hins.rejected, List.mem_map] at hid
    obtain ⟨order, horder, rfl⟩ := hid
    exact ⟨order, List.mem_of_mem_filter horder, rfl⟩
  case owned =>
    refine (hforall fun stop => ∃ order ∈ input.orders, order.orderId = stop.orderId).1 ?_
    intro stop hstop
    obtain ⟨order, horder, hid⟩ := hins.valid.owned stop hstop
    exact ⟨order, (hins.mem_accepted_iff.1 horder).1, hid.symm⟩
  case served =>
    intro order horder hnot
    rw [hrejected, hins.mem_rejected_iff hinput.distinct horder, not_not] at hnot
    rw [hroute]
    exact hins.valid.served order (hins.mem_accepted_iff.2 ⟨horder, hnot⟩)
  case sequence =>
    have hlen := congrArg List.length hroute
    rw [List.length_map] at hlen
    rw [hlen, hstops, materialize, sequence_materializeFrom]
  case load =>
    intro before stop after heq
    have hload := loadAfter_materializeFrom heq
    rw [zero_add] at hload
    have hpre : (before ++ [stop]).map PlannedStop.toInternalStop ++
        after.map PlannedStop.toInternalStop = s.route := by
      rw [← hroute, heq]
      simp
    refine ⟨hload, ?_, ?_, ?_⟩
    · rw [hload]
      exact hins.valid.nonneg _ ⟨_, hpre⟩
    · rw [hload]
      exact hins.valid.within _ ⟨_, hpre⟩
    · rintro rfl
      rw [List.map_nil, List.append_nil] at hpre
      rw [hload, hpre, hins.valid.total]
  case legs => rw [hroute, hstops, materialize, legs_materializeFrom]
  case total =>
    rw [hroute, ← distanceOf_eq]
    rfl

/-- Only the demand decides whether an order is rejected: a pair that may be picked up can
always be inserted. -/
theorem plan_rejected (h : plan haversineKm input = .ok result) :
    (∀ order ∈ input.orders,
      (order.orderId ∈ result.rejectedOrderIds ↔ ¬ Serviceable input.vehicleCapacity order)) ∧
    result.rejectedOrderIds = (input.orders.filter fun order =>
      ¬ Serviceable input.vehicleCapacity order).map RoutePlanOrder.orderId ∧
    ∀ before order, before <+: input.orders →
      (∀ other ∈ before, other.orderId ≠ order.orderId) →
      Serviceable input.vehicleCapacity order →
      bestInsertion haversineKm input.origin
        (insertOrders haversineKm input.origin input.vehicleCapacity before).route order
        input.vehicleCapacity ≠ none := by
  obtain ⟨hinput, rfl⟩ := plan_ok_iff.1 h
  have hins := hinput.inserted haversineKm (List.prefix_refl _)
  refine ⟨fun order horder => hins.mem_rejected_iff hinput.distinct horder, hins.rejected, ?_⟩
  intro before order hbefore hnew hdemand
  have hbest := hinput.bestInsertion haversineKm hbefore hnew hdemand
  obtain ⟨best, hbest, -⟩ := hbest
  simp [hbest]

/-- Each order planned next is inserted at its cheapest. -/
theorem bestInsertion_cheapest (h : plan haversineKm input = .ok result)
    {before : List RoutePlanOrder} (hbefore : before <+: input.orders) {order : RoutePlanOrder}
    (hnew : ∀ other ∈ before, other.orderId ≠ order.orderId)
    (hdemand : Serviceable input.vehicleCapacity order) :
    let route := (insertOrders haversineKm input.origin input.vehicleCapacity before).route
    ∃ best, bestInsertion haversineKm input.origin route order input.vehicleCapacity = some best ∧
      CheapestInsertion (distanceOf haversineKm input.origin) input.vehicleCapacity order route
        best :=
  (plan_ok_iff.1 h).1.bestInsertion haversineKm hbefore hnew hdemand

end Plan

/-- A distance to plan with. -/
def gridKm (a b : RoutePoint) : ℚ := |a.latitude - b.latitude| + |a.longitude - b.longitude|

def orderA : RoutePlanOrder := ⟨"A", 1, ⟨-17 / 100, -7847 / 100⟩, ⟨-19 / 100, -7849 / 100⟩⟩

def orderB : RoutePlanOrder := ⟨"B", 1, ⟨-175 / 1000, -78465 / 1000⟩, ⟨-185 / 1000, -7848 / 100⟩⟩

def oversize : RoutePlanOrder := ⟨"oversize", 3, ⟨1 / 100, 0⟩, ⟨2 / 100, 0⟩⟩

def deliveries : RoutePlanInput := ⟨⟨-1807 / 10000, -784678 / 10000⟩, 2, [orderA, oversize, orderB]⟩

theorem check_deliveries : check deliveries = .ok () := by decide +kernel

theorem plan_deliveries : plan gridKm deliveries = .ok (planned gridKm deliveries) :=
  plan_ok_iff.2 ⟨check_ok_iff.1 check_deliveries, rfl⟩

theorem plan_valid_deliveries : ValidPlan gridKm deliveries (planned gridKm deliveries) :=
  plan_valid plan_deliveries

theorem plan_rejected_deliveries :
    (planned gridKm deliveries).rejectedOrderIds = ["oversize"] :=
  (plan_rejected plan_deliveries).2.1.trans (by decide +kernel)

theorem bestInsertion_cheapest_orderB :
    let route := (insertOrders gridKm deliveries.origin 2 [orderA, oversize]).route
    ∃ best, bestInsertion gridKm deliveries.origin route orderB 2 = some best ∧
      CheapestInsertion (distanceOf gridKm deliveries.origin) 2 orderB route best :=
  bestInsertion_cheapest plan_deliveries (show [orderA, oversize] <+: _ from ⟨[orderB], rfl⟩)
    (by decide +kernel) (by decide +kernel)

end RouteFast
