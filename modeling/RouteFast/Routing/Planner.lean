import RouteFast.Base.PairInsertion
import RouteFast.Common
import Mathlib.Algebra.BigOperators.Group.List.Basic

/-! The route planner of the dispatch service: one vehicle, and each order inserted as a pair
of stops where it lengthens the route least. The distance between two points is a parameter. -/

namespace RouteFast

structure RoutePoint where
  latitude : ℚ
  longitude : ℚ
  deriving DecidableEq

structure RoutePlanOrder where
  orderId : String
  demand : ℚ
  pickup : RoutePoint
  dropoff : RoutePoint
  deriving DecidableEq

structure RoutePlanInput where
  origin : RoutePoint
  vehicleCapacity : ℚ
  orders : List RoutePlanOrder

inductive StopType where
  | pickup
  | dropoff
  deriving DecidableEq

structure InternalStop extends RoutePoint where
  orderId : String
  type : StopType
  demand : ℚ
  deriving DecidableEq

structure PlannedStop extends InternalStop where
  sequence : ℕ
  loadAfter : ℚ
  legDistanceKm : ℚ
  deriving DecidableEq

structure RoutePlanResult where
  strategyVersion : String
  totalDistanceKm : ℚ
  sequentialDistanceKm : ℚ
  estimatedDistanceSavingsPct : ℚ
  stops : List PlannedStop
  rejectedOrderIds : List String

namespace RoutePlanOrder

variable (order : RoutePlanOrder)

def pickupStop : InternalStop := ⟨order.pickup, order.orderId, .pickup, order.demand⟩

def dropoffStop : InternalStop := ⟨order.dropoff, order.orderId, .dropoff, order.demand⟩

end RoutePlanOrder

/-- `round` -/
def roundKm (value : ℚ) : ℚ := Js.toFixed 3 value

def assertPoint (point : RoutePoint) (label : String) : Except ServiceError Unit :=
  if point.latitude < -90 ∨ 90 < point.latitude then
    .error (.error s!"{label}.latitude must be between -90 and 90")
  else if point.longitude < -180 ∨ 180 < point.longitude then
    .error (.error s!"{label}.longitude must be between -180 and 180")
  else .ok ()

namespace RoutePlanner

/-- The checks of each order in turn, with the ids seen so far. -/
def checkOrders (seenOrderIds : List String) : List RoutePlanOrder → Except ServiceError Unit
  | [] => .ok ()
  | order :: orders => do
    if Js.trim order.orderId = "" then .error (.error "orderId is required")
    if order.orderId ∈ seenOrderIds then
      .error (.error s!"duplicate orderId: {order.orderId}")
    assertPoint order.pickup s!"pickup:{order.orderId}"
    assertPoint order.dropoff s!"dropoff:{order.orderId}"
    checkOrders (order.orderId :: seenOrderIds) orders

/-- What is thrown before the planning starts. -/
def check (input : RoutePlanInput) : Except ServiceError Unit := do
  assertPoint input.origin "origin"
  if input.vehicleCapacity.isInt = false ∨ input.vehicleCapacity < 1 then
    .error (.error "vehicleCapacity must be a positive integer")
  if input.orders.length < 1 ∨ 25 < input.orders.length then
    .error (.error "orders must contain between 1 and 25 items")
  checkOrders [] input.orders

/-- The scan of `isCapacityFeasible`; `picked` keeps every id ever picked up. -/
def feasibleFrom (capacity load : ℚ) (picked : List String) : List InternalStop → Bool
  | [] => load == 0
  | stop :: stops =>
    match stop.type with
    | .pickup =>
      if stop.orderId ∈ picked then false
      else
        let load := load + stop.demand
        if load < 0 ∨ capacity < load then false
        else feasibleFrom capacity load (stop.orderId :: picked) stops
    | .dropoff =>
      if stop.orderId ∉ picked then false
      else
        let load := load - stop.demand
        if load < 0 ∨ capacity < load then false
        else feasibleFrom capacity load picked stops

def isCapacityFeasible (stops : List InternalStop) (capacity : ℚ) : Bool :=
  feasibleFrom capacity 0 [] stops

section Distance

variable (haversineKm : RoutePoint → RoutePoint → ℚ)

def distanceFrom (previous : RoutePoint) (total : ℚ) : List InternalStop → ℚ
  | [] => total
  | stop :: stops =>
    distanceFrom stop.toRoutePoint (total + haversineKm previous stop.toRoutePoint) stops

def distanceOf (origin : RoutePoint) (stops : List InternalStop) : ℚ :=
  distanceFrom haversineKm origin 0 stops

def materializeFrom (previous : RoutePoint) (load : ℚ) (index : ℕ) :
    List InternalStop → List PlannedStop
  | [] => []
  | stop :: stops =>
    let load := load + match stop.type with
      | .pickup => stop.demand
      | .dropoff => -stop.demand
    { stop with
      sequence := index + 1
      loadAfter := load
      legDistanceKm := roundKm (haversineKm previous stop.toRoutePoint) } ::
        materializeFrom stop.toRoutePoint load (index + 1) stops

def materialize (origin : RoutePoint) (route : List InternalStop) : List PlannedStop :=
  materializeFrom haversineKm origin 0 0 route

/-- `best` and `bestDistance`, `none` while they are `null` and infinite. -/
def tryCandidate (origin : RoutePoint) (capacity : ℚ) (best : Option (List InternalStop × ℚ))
    (candidate : List InternalStop) : Option (List InternalStop × ℚ) :=
  if !isCapacityFeasible candidate capacity then best
  else
    let distance := distanceOf haversineKm origin candidate
    match best with
    | none => some (candidate, distance)
    | some (_, bestDistance) => if distance < bestDistance then some (candidate, distance) else best

def bestInsertion (origin : RoutePoint) (route : List InternalStop) (order : RoutePlanOrder)
    (capacity : ℚ) : Option (List InternalStop) :=
  let pickup := order.pickupStop
  let dropoff := order.dropoffStop
  let best := (List.range (route.length + 1)).foldl (fun best pickupIndex =>
    let withPickup := route.take pickupIndex ++ pickup :: route.drop pickupIndex
    (List.range' (pickupIndex + 1) (withPickup.length - pickupIndex)).foldl
      (fun best dropoffIndex =>
        let candidate := withPickup.take dropoffIndex ++ dropoff :: withPickup.drop dropoffIndex
        tryCandidate haversineKm origin capacity best candidate) best) none
  best.map Prod.fst

end Distance

end RoutePlanner

/-- The variables of the insertion loop. -/
structure RouteProgress where
  route : List InternalStop
  accepted : List RoutePlanOrder
  rejectedOrderIds : List String

namespace RoutePlanner

variable (haversineKm : RoutePoint → RoutePoint → ℚ)

/-- The body of the loop over `input.orders`. -/
def insertOrder (origin : RoutePoint) (vehicleCapacity : ℚ) (s : RouteProgress)
    (order : RoutePlanOrder) : RouteProgress :=
  if order.demand.isInt = false ∨ order.demand < 1 ∨ vehicleCapacity < order.demand then
    { s with rejectedOrderIds := s.rejectedOrderIds ++ [order.orderId] }
  else
    match bestInsertion haversineKm origin s.route order vehicleCapacity with
    | none => { s with rejectedOrderIds := s.rejectedOrderIds ++ [order.orderId] }
    | some best =>
      { s with
        route := best
        accepted := s.accepted ++ [order] }

/-- The loop, over the orders given. -/
def insertOrders (origin : RoutePoint) (vehicleCapacity : ℚ) (orders : List RoutePlanOrder) :
    RouteProgress :=
  orders.foldl (insertOrder haversineKm origin vehicleCapacity) ⟨[], [], []⟩

def sequentialRoute (accepted : List RoutePlanOrder) : List InternalStop :=
  accepted.flatMap fun order => [order.pickupStop, order.dropoffStop]

/-- What `plan` computes from an input that passes the checks. -/
def planned (input : RoutePlanInput) : RoutePlanResult :=
  let s := insertOrders haversineKm input.origin input.vehicleCapacity input.orders
  let totalDistanceKm := distanceOf haversineKm input.origin s.route
  let sequentialDistanceKm := distanceOf haversineKm input.origin (sequentialRoute s.accepted)
  let savings :=
    if sequentialDistanceKm ≤ 0 then 0
    else max 0 ((1 - totalDistanceKm / sequentialDistanceKm) * 100)
  { strategyVersion := "paired-insertion-v1"
    totalDistanceKm := roundKm totalDistanceKm
    sequentialDistanceKm := roundKm sequentialDistanceKm
    estimatedDistanceSavingsPct := roundKm savings
    stops := materialize haversineKm input.origin s.route
    rejectedOrderIds := s.rejectedOrderIds }

def plan (input : RoutePlanInput) : Except ServiceError RoutePlanResult := do
  check input
  .ok (planned haversineKm input)

end RoutePlanner

end RouteFast
