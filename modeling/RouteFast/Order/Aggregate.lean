import RouteFast.Common

/-! The Order aggregate: its value objects, its statuses and the methods that move
it between them. -/

namespace RouteFast

inductive OrderPriority where
  | standard
  | express
  | scheduled
  deriving DecidableEq, Repr

def OrderPriority.text : OrderPriority → String
  | .standard => "STANDARD"
  | .express => "EXPRESS"
  | .scheduled => "SCHEDULED"

inductive OrderStatus where
  | pendingDispatch
  | dispatching
  | assigned
  | inTransit
  | delivered
  | cancelled
  deriving DecidableEq, Repr

def OrderStatus.text : OrderStatus → String
  | .pendingDispatch => "PENDING_DISPATCH"
  | .dispatching => "DISPATCHING"
  | .assigned => "ASSIGNED"
  | .inTransit => "IN_TRANSIT"
  | .delivered => "DELIVERED"
  | .cancelled => "CANCELLED"

/-- A point `Coordinates.create` accepts. Numbers are the finite ones, as rationals. -/
structure Coordinates where
  latitude : ℚ
  longitude : ℚ
  latitude_range : -90 ≤ latitude ∧ latitude ≤ 90
  longitude_range : -180 ≤ longitude ∧ longitude ≤ 180
  deriving DecidableEq

def Coordinates.create (latitude longitude : ℚ) : Except ServiceError Coordinates :=
  if hlat : -90 ≤ latitude ∧ latitude ≤ 90 then
    if hlng : -180 ≤ longitude ∧ longitude ≤ 180 then .ok ⟨latitude, longitude, hlat, hlng⟩
    else .error (.invalidLongitude longitude)
  else .error (.invalidLatitude latitude)

/-- A location `Location.create` accepts: label and address trimmed and not empty. -/
structure Location where
  label : String
  address : String
  coordinates : Coordinates
  label_trimmed : Js.trim label = label
  label_ne : label ≠ ""
  address_trimmed : Js.trim address = address
  address_ne : address ≠ ""
  deriving DecidableEq

/-- The location as `{ label, address, latitude, longitude }`, in a request or a row. -/
structure StoredLocation where
  label : String
  address : String
  latitude : ℚ
  longitude : ℚ
  deriving DecidableEq

def Location.create (input : StoredLocation) : Except ServiceError Location :=
  if hl : Js.trim input.label = "" then .error (.error "Location label is required")
  else if ha : Js.trim input.address = "" then .error (.error "Location address is required")
  else
    match Coordinates.create input.latitude input.longitude with
    | .error e => .error e
    | .ok c => .ok ⟨Js.trim input.label, Js.trim input.address, c, Js.trim_trim _, hl,
        Js.trim_trim _, ha⟩

def Location.stored (l : Location) : StoredLocation :=
  ⟨l.label, l.address, l.coordinates.latitude, l.coordinates.longitude⟩

/-- What a location is stored as is accepted again, as the same location. -/
theorem Location.create_stored (l : Location) : Location.create l.stored = .ok l := by
  have hc : Coordinates.create l.coordinates.latitude l.coordinates.longitude =
      .ok l.coordinates := by
    simp [Coordinates.create, l.coordinates.latitude_range, l.coordinates.longitude_range]
  simp [Location.create, Location.stored, hc, l.label_trimmed, l.address_trimmed, l.label_ne,
    l.address_ne]

structure DomainEvent where
  eventName : String
  aggregateId : Uuid
  deriving DecidableEq

structure Order where
  id : Uuid
  customerId : String
  priority : OrderPriority
  pickup : Location
  dropoff : Location
  status : OrderStatus
  assignedDriverId : Option Uuid
  lastDispatchFailureReason : Option String
  createdAt : Date
  updatedAt : Date
  domainEvents : List DomainEvent
  deriving DecidableEq

namespace Order

def create (id : Uuid) (customerId : String) (priority : OrderPriority)
    (pickup dropoff : Location) (now : Date) : Except ServiceError Order :=
  let customerId := Js.trim customerId
  if customerId = "" then .error (.error "customerId is required")
  else .ok
    { id, customerId, priority, pickup, dropoff
      status := .pendingDispatch
      assignedDriverId := none
      lastDispatchFailureReason := none
      createdAt := now
      updatedAt := now
      domainEvents := [⟨"order.created", id⟩] }

theorem status_create {id : Uuid} {customerId : String} {priority : OrderPriority}
    {pickup dropoff : Location} {now : Date} {o : Order}
    (h : create id customerId priority pickup dropoff now = .ok o) :
    o.status = .pendingDispatch := by
  simp only [create] at h
  split at h
  · cases h
  · rw [← Except.ok.inj h]

def beginDispatch (o : Order) (now : Date) : Order :=
  if o.status ≠ .pendingDispatch then o
  else { o with status := .dispatching, lastDispatchFailureReason := none, updatedAt := now }

def assignDriver (o : Order) (driverId : Uuid) (now : Date) : Except ServiceError Order :=
  if o.status = .assigned ∧ o.assignedDriverId = some driverId then .ok o
  else if o.status ≠ .dispatching then
    .error (.invalidOrderState s!"Order {o.id} cannot be assigned from {o.status.text}")
  else .ok { o with assignedDriverId := some driverId, status := .assigned, updatedAt := now }

def dispatchFailed (o : Order) (reason : String) (now : Date) : Order :=
  if o.status ≠ .dispatching then o
  else
    { o with status := .pendingDispatch, lastDispatchFailureReason := some reason,
             updatedAt := now }

def cancelAfterDispatch (o : Order) (now : Date) : Except ServiceError Order :=
  if o.status = .cancelled then .ok o
  else if o.status ≠ .assigned ∧ o.status ≠ .dispatching then
    .error (.invalidOrderState
      s!"Order {o.id} cannot complete dispatch compensation from {o.status.text}")
  else .ok { o with status := .cancelled, updatedAt := now }

def cancel (o : Order) (now : Date) : Except ServiceError Order :=
  if o.status ≠ .pendingDispatch then
    .error (.invalidOrderState s!"Order {o.id} cannot be cancelled from {o.status.text}")
  else .ok
    { o with status := .cancelled, updatedAt := now,
             domainEvents := o.domainEvents ++ [⟨"order.cancelled", o.id⟩] }

/-- An order just created, to try the laws on. -/
def sample (id : Uuid) : Order where
  id := id
  customerId := "customer-1"
  priority := .standard
  pickup := ⟨"Depot", "Calle 1", ⟨4, -74, by decide, by decide⟩, by decide, by decide, by decide,
    by decide⟩
  dropoff := ⟨"Office", "Calle 2", ⟨5, -74, by decide, by decide⟩, by decide, by decide, by decide,
    by decide⟩
  status := .pendingDispatch
  assignedDriverId := none
  lastDispatchFailureReason := none
  createdAt := 1
  updatedAt := 1
  domainEvents := []

end Order

/-- The lifecycle use cases, each one method of the aggregate between a read and a save. -/
inductive OrderCommand where
  | cancelOrder
  | markOrderDispatching
  | assignOrderDriver (driverId : Uuid)
  | markDispatchFailed (reason : String)
  | completeDispatchCancellation
  deriving DecidableEq

def OrderCommand.apply (now : Date) (o : Order) : OrderCommand → Except ServiceError Order
  | .cancelOrder => o.cancel now
  | .markOrderDispatching => .ok (o.beginDispatch now)
  | .assignOrderDriver driverId => o.assignDriver driverId now
  | .markDispatchFailed reason => .ok (o.dispatchFailed reason now)
  | .completeDispatchCancellation => o.cancelAfterDispatch now

namespace OrderCommand

/-- Where the method takes an order with this status and driver; `none` when it throws. -/
def target (status : OrderStatus) (driver : Option Uuid) : OrderCommand → Option OrderStatus
  | .cancelOrder => if status = .pendingDispatch then some .cancelled else none
  | .markOrderDispatching =>
    some (if status = .pendingDispatch then .dispatching else status)
  | .assignOrderDriver driverId =>
    if status = .dispatching ∨ (status = .assigned ∧ driver = some driverId) then some .assigned
    else none
  | .markDispatchFailed _ => some (if status = .dispatching then .pendingDispatch else status)
  | .completeDispatchCancellation =>
    if status = .assigned ∨ status = .dispatching ∨ status = .cancelled then some .cancelled
    else none

/-- The methods depend on status and driver only, and move the status as `target` says. -/
theorem apply_status (now : Date) (o : Order) (cmd : OrderCommand) :
    (cmd.apply now o).toOption.map Order.status = cmd.target o.status o.assignedDriverId := by
  cases cmd with
  | cancelOrder =>
    by_cases h : o.status = .pendingDispatch <;>
      simp [apply, Order.cancel, target, h, Except.toOption]
  | markOrderDispatching =>
    by_cases h : o.status = .pendingDispatch <;>
      simp [apply, Order.beginDispatch, target, h, Except.toOption]
  | assignOrderDriver driverId =>
    by_cases ha : o.status = .assigned ∧ o.assignedDriverId = some driverId
    · simp [apply, Order.assignDriver, target, ha, Except.toOption]
    · by_cases hd : o.status = .dispatching <;>
        simp [apply, Order.assignDriver, target, ha, hd, Except.toOption]
  | markDispatchFailed reason =>
    by_cases h : o.status = .dispatching <;>
      simp [apply, Order.dispatchFailed, target, h, Except.toOption]
  | completeDispatchCancellation =>
    cases h : o.status <;> simp [apply, Order.cancelAfterDispatch, target, h, Except.toOption]

theorem status_of_apply {now : Date} {o o' : Order} {cmd : OrderCommand}
    (h : cmd.apply now o = .ok o') : cmd.target o.status o.assignedDriverId = some o'.status := by
  rw [← apply_status now, h]
  rfl

/-- A method leaves the order's identity, parties and places alone. -/
theorem id_of_apply {now : Date} {o o' : Order} {cmd : OrderCommand}
    (h : cmd.apply now o = .ok o') : o'.id = o.id := by
  cases cmd with
  | cancelOrder | assignOrderDriver | completeDispatchCancellation =>
    simp only [apply, Order.cancel, Order.assignDriver, Order.cancelAfterDispatch] at h
    repeat' split at h
    all_goals first | (cases h; rfl) | cases h
  | markOrderDispatching | markDispatchFailed =>
    simp only [apply, Order.beginDispatch, Order.dispatchFailed, Except.ok.injEq] at h
    split at h <;> subst h <;> rfl

/-- Every method but `cancel` may run again on the order it leaves. -/
theorem target_again {now : Date} {o o' : Order} {cmd : OrderCommand}
    (h : cmd.apply now o = .ok o') (hcmd : cmd ≠ .cancelOrder) :
    cmd.target o'.status o'.assignedDriverId = some o'.status := by
  cases cmd with
  | cancelOrder => exact absurd rfl hcmd
  | markOrderDispatching | markDispatchFailed =>
    simp only [apply, Order.beginDispatch, Order.dispatchFailed, Except.ok.injEq] at h
    split at h <;> subst h <;> simp_all [target]
  | assignOrderDriver | completeDispatchCancellation =>
    simp only [apply, Order.assignDriver, Order.cancelAfterDispatch] at h
    repeat' split at h
    all_goals first | (cases h; simp_all [target]) | cases h

/-- No method brings a cancelled order back. -/
theorem target_cancelled {driver : Option Uuid} {cmd : OrderCommand} {status : OrderStatus}
    (h : cmd.target .cancelled driver = some status) : status = .cancelled := by
  cases cmd <;> simp_all [target]

end OrderCommand

end RouteFast
