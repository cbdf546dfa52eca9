import RouteFast.Dispatch.Outcome
import RouteFast.Driver.Outcome
import RouteFast.Order.Creation
import RouteFast.System.Delivery

/-! The Order, Dispatch and Driver services on one bus: their events controllers, the
handlers behind them, and the requests and jobs that come from outside. -/

namespace RouteFast

open Transition

structure Databases where
  order : OrderDb
  dispatch : DispatchDb
  driver : DriverDb

/-- Configuration and what the database computes. -/
structure Settings where
  maxRetries : ℕ
  searchRadiusKm : ℚ
  hashtext : String → ℤ

/-- What a handler draws from outside: its `randomUUID()`s in order, the clock, the rows
that others hold at its skip-locked statements, and how the calls to other services end. -/
structure Draw where
  uuid : ℕ → Uuid
  now : Date
  locked : ℕ → DriverLock → Bool
  ranked : Except ServiceError (List ScoredDriverCandidate)
  scheduled : Option ServiceError

def OutboxRow.publish (now : Date) (r : OutboxRow) : OutboxRow :=
  { r with status := .published, publishedAt := some now, attempts := r.attempts + 1 }

namespace Databases

def outbox (w : Databases) : List OutboxRow :=
  w.order.outbox ++ w.dispatch.outbox ++ w.driver.outbox

/-- The ids the model has to tell apart; duplicates of the others are rejected as such. -/
def issued (w : Databases) : List Uuid :=
  w.outbox.map OutboxRow.id ++ w.driver.drivers.map Driver.id

/-- The relay's save, in whichever outbox the row is. -/
def markPublished (id : Uuid) (now : Date) (w : Databases) : Databases where
  order := { w.order with outbox := Table.update OutboxRow.id id (.publish now) w.order.outbox }
  dispatch :=
    { w.dispatch with outbox := Table.update OutboxRow.id id (.publish now) w.dispatch.outbox }
  driver := { w.driver with outbox := Table.update OutboxRow.id id (.publish now) w.driver.outbox }

end Databases

section Databases

variable {α : Type}

def onOrder (p : Proc OrderDb ServiceError α) : Proc Databases ServiceError Unit :=
  p.within Databases.order fun db w => { w with order := db }

def onDispatch (p : Proc DispatchDb ServiceError α) : Proc Databases ServiceError Unit :=
  p.within Databases.dispatch fun db w => { w with dispatch := db }

def onDriver (p : Proc DriverDb ServiceError α) : Proc Databases ServiceError Unit :=
  p.within Databases.driver fun db w => { w with driver := db }

end Databases

def dispatchTransaction (tx : DispatchTx) : Proc DispatchDb ServiceError Unit :=
  .atomically (tx.run fun _ _ => false)

def driverTransaction (locked : ℕ → DriverLock → Bool) (tx : DriverTx) :
    Proc DriverDb ServiceError Unit :=
  .atomically (tx.run locked)

/-- The search radius `StartDispatchHandler` uses for the priority. -/
def searchRadiusKm (baseRadius : ℚ) (priority : String) : ℚ :=
  if priority = "EXPRESS" then min baseRadius 5
  else if priority = "SCHEDULED" then baseRadius * (3 / 2)
  else baseRadius

/-- `workflow.start`, then the timeout job. -/
def startAndSchedule (dispatch : Dispatch) (plan : Option DispatchStartPlan) (draw : Draw) :
    Proc DispatchDb ServiceError Unit :=
  (dispatchTransaction (DispatchWorkflow.start dispatch plan (draw.uuid 1) (draw.uuid 2)
    (draw.uuid 3) draw.now)).andThen
      (match draw.scheduled with
        | none => .done ()
        | some e => .throw e)

/-- `StartDispatchHandler.execute` -/
def startDispatch (settings : Settings) (orderId correlationId priority : String)
    (pickup : Option (ℚ × ℚ)) (draw : Draw) : Proc DispatchDb ServiceError Unit :=
  .read fun db =>
    match db.findByOrderId orderId with
    | some _ => .done ()
    | none =>
      let dispatch := Dispatch.start (draw.uuid 0) orderId correlationId draw.now
      match pickup with
      | none => startAndSchedule dispatch none draw
      | some (latitude, longitude) =>
        match draw.ranked with
        | .error e => .throw e
        | .ok rankedCandidates =>
          startAndSchedule dispatch (some
            { strategyVersion := "geo-score-v1"
              priority
              searchRadiusKm := searchRadiusKm settings.searchRadiusKm priority
              pickupLatitude := latitude
              pickupLongitude := longitude
              rankedCandidates }) draw

namespace Message

variable (m : Message)

def string (f : Field) : Option String := m.payload.string f

/-- `event.pickup ?? null` -/
def pickup : Option (ℚ × ℚ) :=
  match m.payload.get .pickup with
  | some (.point latitude longitude) => some (latitude, longitude)
  | _ => none

def candidateDriverIds : Option (List Uuid) :=
  match m.payload.get .candidateDriverIds with
  | some (.strings l) => some l
  | _ => none

/-- The received object as the Driver use cases get it. -/
def reserveDriverInput : Option ReserveDriverInput := do
  let orderId ← m.string .orderId
  let dispatchId ← m.string .dispatchId
  let correlationId ← m.string .correlationId
  some
    { event := m.payload
      orderId
      dispatchId
      correlationId
      candidateDriverIds := m.candidateDriverIds }

def releaseDriverInput : Option ReleaseDriverInput := do
  let input ← m.reserveDriverInput
  let driverId ← m.string .driverId
  some { input with driverId }

/-- The commands of `driver.reserved` and `driver.reservation_failed`. -/
def reservationResultInput : Option ReservationResultInput := do
  let dispatchId ← m.string .dispatchId
  let orderId ← m.string .orderId
  let correlationId ← m.string .correlationId
  match m.eventType with
  | .driverReserved =>
    let driverId ← m.string .driverId
    some ⟨dispatchId, orderId, some driverId, none, correlationId⟩
  | _ =>
    let reason ← m.string .reason
    some ⟨dispatchId, orderId, none, some reason, correlationId⟩

end Message

theorem OutboxRow.string_message {r : OutboxRow} {f : Field} {s : String}
    (h : r.payload.string f = some s) : r.message.string f = some s := h

/-- `OrderEventsController` -/
def handleOrderEvent (m : Message) (draw : Draw) : Option (Proc Databases ServiceError Unit) := do
  let orderId ← m.string .orderId
  match m.eventType with
  | .dispatchStarted =>
    some (onOrder (OrderRequest.execute ⟨orderId, .markOrderDispatching, draw.now⟩))
  | .dispatchAssigned =>
    let driverId ← m.string .driverId
    some (onOrder (OrderRequest.execute ⟨orderId, .assignOrderDriver driverId, draw.now⟩))
  | .dispatchFailed =>
    let reason ← m.string .reason
    some (onOrder (OrderRequest.execute ⟨orderId, .markDispatchFailed reason, draw.now⟩))
  | .dispatchCancelled =>
    some (onOrder (OrderRequest.execute ⟨orderId, .completeDispatchCancellation, draw.now⟩))
  | _ => none

/-- `DispatchEventsController` -/
def handleDispatchEvent (settings : Settings) (m : Message) (draw : Draw) :
    Option (Proc Databases ServiceError Unit) :=
  match m.eventType with
  | .orderReadyForDispatch => do
    let orderId ← m.string .orderId
    let correlationId ← m.string .correlationId
    some (onDispatch (startDispatch settings orderId correlationId
      ((m.string .priority).getD "STANDARD") m.pickup draw))
  | .driverReserved | .driverReservationFailed => do
    let input ← m.reservationResultInput
    some (onDispatch (dispatchTransaction
      (DispatchWorkflow.completeReservation input (draw.uuid 0) draw.now)))
  | .driverReleased => do
    let dispatchId ← m.string .dispatchId
    let correlationId ← m.string .correlationId
    some (onDispatch (dispatchTransaction
      (DispatchWorkflow.completeCompensation dispatchId correlationId (draw.uuid 0) draw.now)))
  | _ => none

/-- `DriverEventsController` -/
def handleDriverEvent (settings : Settings) (m : Message) (draw : Draw) :
    Option (Proc Databases ServiceError Unit) :=
  match m.eventType with
  | .driverReservationRequested => do
    let input ← m.reserveDriverInput
    some (onDriver (driverTransaction draw.locked
      (DriverReservations.reserve settings.hashtext input (draw.uuid 0) (draw.uuid 1) draw.now)))
  | .driverReleaseRequested => do
    let input ← m.releaseDriverInput
    some (onDriver (driverTransaction draw.locked
      (DriverReservations.release settings.hashtext input (draw.uuid 0) draw.now)))
  | _ => none

def handle (settings : Settings) :
    Queue → Message → Draw → Option (Proc Databases ServiceError Unit)
  | .orderEvents => handleOrderEvent
  | .dispatchEvents => handleDispatchEvent settings
  | .driverEvents => handleDriverEvent settings

/-- HTTP requests and timeout jobs, each with the ids it draws. -/
inductive Request where
  | createOrder (id : Uuid) (customerId : String) (priority : OrderPriority)
      (pickup dropoff : Location) (correlationId idempotencyKey : Option String) (eventId : Uuid)
      (now : Date)
  | cancelOrder (orderId : Uuid) (now : Date)
  | cancelDispatch (dispatchId : Uuid) (reason correlationId : String) (eventId : Uuid)
      (now : Date)
  | timeoutDispatch (dispatchId : Uuid) (correlationId : String) (eventId : Uuid) (now : Date)
  | createDriver (id : Uuid) (displayName : String) (capacity : ℚ) (now : Date)

/-- `CreateOrderUseCase.execute` -/
def createOrder (settings : Settings) (id : Uuid) (customerId : String) (priority : OrderPriority)
    (pickup dropoff : Location) (correlationId idempotencyKey : Option String) (eventId : Uuid)
    (now : Date) : Proc OrderDb ServiceError (Option Order) :=
  match Order.create id customerId priority pickup dropoff now with
  | .error e => .throw e
  | .ok order =>
    .atomically ((persistReadyForDispatch settings.hashtext { order with domainEvents := [] }
      (correlationId.getD order.id) idempotencyKey eventId now).run fun _ _ => false)

def Request.execute (settings : Settings) : Request → Proc Databases ServiceError Unit
  | .createOrder id customerId priority pickup dropoff correlationId idempotencyKey eventId now =>
    onOrder (RouteFast.createOrder settings id customerId priority pickup dropoff correlationId
      idempotencyKey eventId now)
  | .cancelOrder orderId now => onOrder (OrderRequest.execute ⟨orderId, .cancelOrder, now⟩)
  | .cancelDispatch dispatchId reason correlationId eventId now =>
    onDispatch (dispatchTransaction
      (DispatchWorkflow.startCompensation dispatchId reason correlationId eventId now))
  | .timeoutDispatch dispatchId correlationId eventId now =>
    onDispatch (dispatchTransaction
      (DispatchWorkflow.timeout dispatchId correlationId eventId now))
  | .createDriver id displayName capacity now =>
    onDriver (driverTransaction (fun _ _ => false)
      (DriverReservations.createDriver id displayName capacity now))

def wiring (settings : Settings) : Wiring Databases Request Draw where
  outbox := Databases.outbox
  issued := Databases.issued
  markPublished := Databases.markPublished
  handle := handle settings
  execute := Request.execute settings
  maxRetries := settings.maxRetries

abbrev Fleet := Bus Databases Request

abbrev FleetLabel := BusLabel Request Draw

abbrev FleetMove := Move Fleet FleetLabel

/-- The three services from their first day. -/
def fleet (settings : Settings) : System Fleet FleetLabel :=
  (wiring settings).system fun w => w.order.orders = [] ∧ w.dispatch.dispatches = [] ∧
    w.driver.drivers = [] ∧ w.driver.reservations = []

section Samples

/-- Settings, requests and draws to try the laws on. -/
def sampleSettings : Settings := ⟨3, 8, fun orderId => orderId.length⟩

def emptyFleet : Fleet :=
  ⟨⟨⟨[], []⟩, ⟨[], [], []⟩, ⟨[], [], []⟩⟩, fun _ => [], fun _ => none, [], [], fun _ => none⟩

theorem init_emptyFleet : (fleet sampleSettings).init emptyFleet :=
  ⟨⟨⟨rfl, rfl, rfl, rfl⟩, rfl, List.nodup_nil, List.not_mem_nil⟩, fun _ => rfl, fun _ => rfl, rfl,
    rfl, fun _ => rfl⟩

def sampleOrder : Request :=
  .createOrder "order-1" "customer-1" .standard (Order.sample "order-1").pickup
    (Order.sample "order-1").dropoff none none "ready-1" 1

def sampleCandidate : ScoredDriverCandidate :=
  ⟨"driver-1", 1, 1, 1, 1, 0, 1, .healthy, ⟨1, 1, 1, 1⟩⟩

/-- A draw of these ids, with one ranked candidate. -/
def sampleDraw (ids : List Uuid) : Draw :=
  ⟨fun n => ids.getD n "", 1, fun _ _ => false, .ok [sampleCandidate], none⟩

/-- A row is published, and its message handled to the end in `n` steps. -/
def deliver (id : Uuid) (draw : Draw) (n : ℕ) : List FleetLabel :=
  [.publish id 0, .confirm id 2, .receive 0 draw] ++ List.replicate n (.advance 0 2) ++ [.settle 0]

/-- One driver, one order, and its dispatch started. -/
def startedLabels : List FleetLabel :=
  [.request 0 (.createDriver "driver-1" "Ana" 1 1), .work 0, .request 1 sampleOrder, .work 1] ++
    deliver "ready-1" (sampleDraw ["dispatch-1", "decision-1", "started-1", "requested-1"]) 5

theorem delivered_of_replay {K : Queue → Message → Prop} {S : Fleet} {labels : List FleetLabel}
    {n : ℕ} (h : (fleet sampleSettings).replay emptyFleet labels = some S)
    (hused : ∀ a ∈ labels, ∀ j ∈ a.parcels, j < n) (hnone : ∀ i < n, (S.parcels i).isNone)
    (hrows : ∀ r ∈ S.world.outbox, K r.targetQueue r.message → r.status ≠ .pending) :
    S.Delivered (wiring sampleSettings) K := by
  refine ⟨fun i x hi => ?_, hrows⟩
  have hempty : S.parcels i = none := by
    by_cases hin : i < n
    · exact Option.isNone_iff_eq_none.1 (hnone i hin)
    · exact Wiring.parcels_of_replay (fun a ha hj => hin (hused a ha i hj)) h
  rw [hi] at hempty
  cases hempty

end Samples

end RouteFast
