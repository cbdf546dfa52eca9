import RouteFast.Base.ReadCommitted
import RouteFast.Dispatch.Aggregate
import RouteFast.Reliability.Event

/-! The dispatch workflow: five transactions over the `dispatches`, `dispatch_decisions`
and `outbox_events` tables. Four of them lock the dispatch row first. -/

namespace RouteFast

open ReadCommitted

inductive SlaRisk where
  | healthy
  | atRisk
  | breach
  deriving DecidableEq, Repr

structure ScoreComponents where
  distance : ℚ
  capacity : ℚ
  load : ℚ
  freshness : ℚ
  deriving DecidableEq

structure ScoredDriverCandidate where
  driverId : Uuid
  score : ℚ
  distanceKm : ℚ
  locationAgeSeconds : ℚ
  remainingCapacity : ℚ
  loadRatio : ℚ
  estimatedPickupMinutes : ℚ
  slaRisk : SlaRisk
  components : ScoreComponents
  deriving DecidableEq

structure DispatchStartPlan where
  strategyVersion : String
  priority : String
  searchRadiusKm : ℚ
  pickupLatitude : ℚ
  pickupLongitude : ℚ
  rankedCandidates : List ScoredDriverCandidate
  deriving DecidableEq

/-- A row of `dispatch_decisions`. -/
structure DispatchDecision where
  id : Uuid
  dispatchId : Uuid
  strategyVersion : String
  priority : String
  searchRadiusKm : ℚ
  pickupLatitude : ℚ
  pickupLongitude : ℚ
  rankedCandidates : List ScoredDriverCandidate
  selectedCandidateId : Option Uuid
  deriving DecidableEq

/-- The decision recorded with a planned start. -/
def dispatchDecision (id : Uuid) (dispatch : Dispatch) (plan : DispatchStartPlan) :
    DispatchDecision where
  id := id
  dispatchId := dispatch.id
  strategyVersion := plan.strategyVersion
  priority := plan.priority
  searchRadiusKm := plan.searchRadiusKm
  pickupLatitude := plan.pickupLatitude
  pickupLongitude := plan.pickupLongitude
  rankedCandidates := plan.rankedCandidates
  selectedCandidateId := plan.rankedCandidates.head?.map ScoredDriverCandidate.driverId

structure ReservationResultInput where
  dispatchId : Uuid
  orderId : Uuid
  driverId : Option Uuid
  reason : Option String
  correlationId : String
  deriving DecidableEq

/-- The driver id when `if (input.driverId)` holds: not null and not empty. -/
def ReservationResultInput.driver (input : ReservationResultInput) : Option Uuid :=
  input.driverId.filter (· ≠ "")

/-- The tables of the dispatch database. -/
structure DispatchDb where
  dispatches : List Dispatch
  decisions : List DispatchDecision
  outbox : List OutboxRow

/-- What a workflow transaction can lock: a row or primary key of `dispatches`, or an
entry of the unique index on `order_id`. -/
inductive DispatchLock where
  | dispatch (id : Uuid)
  | order (orderId : Uuid)
  deriving DecidableEq

namespace DispatchDb

/-- The stored row of a dispatch. -/
def row (db : DispatchDb) (dispatchId : Uuid) : Option Dispatch :=
  Table.find Dispatch.id dispatchId db.dispatches

/-- `dispatches.findOne({ where: { orderId } })` -/
def findByOrderId (db : DispatchDb) (orderId : Uuid) : Option Dispatch :=
  Table.find Dispatch.orderId orderId db.dispatches

def save (db : DispatchDb) (d : Dispatch) : DispatchDb :=
  { db with dispatches := Table.save Dispatch.id d db.dispatches }

def insertOutbox (db : DispatchDb) (r : OutboxRow) : DispatchDb :=
  { db with outbox := db.outbox ++ [r] }

/-- Why the database rejects a new row of `dispatches`, if it does. -/
def rejects (db : DispatchDb) (d : Dispatch) : Option ServiceError :=
  if (db.row d.id).isSome then some (.database "dispatches_pkey")
  else if (db.findByOrderId d.orderId).isSome then some (.database "dispatches_order_id")
  else none

end DispatchDb

/-- The row `enqueue` saves: the fresh `eventId` first, then the payload spread over it. -/
def dispatchEvent (eventId : Uuid) (targetQueue : Queue) (eventType : EventType)
    (payload : Payload) (correlationId : String) (now : Date) : OutboxRow :=
  .pending eventId eventType targetQueue
    (Js.Obj.spread [(.eventId, .string eventId)] payload) correlationId now

abbrev DispatchTx := Tx DispatchDb DispatchLock ServiceError Unit

namespace DispatchEvent

def started (d : Dispatch) (eventId : Uuid) (now : Date) : OutboxRow :=
  dispatchEvent eventId .orderEvents .dispatchStarted
    [(.dispatchId, .string d.id), (.orderId, .string d.orderId),
      (.correlationId, .string d.correlationId)] d.correlationId now

def reservationRequested (d : Dispatch) (plan : Option DispatchStartPlan) (eventId : Uuid)
    (now : Date) : OutboxRow :=
  dispatchEvent eventId .driverEvents .driverReservationRequested
    [(.dispatchId, .string d.id), (.orderId, .string d.orderId),
      (.correlationId, .string d.correlationId),
      (.candidateDriverIds, match plan with
        | some plan => .strings (plan.rankedCandidates.map ScoredDriverCandidate.driverId)
        | none => .undefined),
      (.selectionStrategy, .string ((plan.map DispatchStartPlan.strategyVersion).getD
        "capacity-fallback-v1"))] d.correlationId now

def assigned (d : Dispatch) (driverId : Uuid) (correlationId : String) (eventId : Uuid)
    (now : Date) : OutboxRow :=
  dispatchEvent eventId .orderEvents .dispatchAssigned
    [(.dispatchId, .string d.id), (.orderId, .string d.orderId), (.driverId, .string driverId),
      (.correlationId, .string correlationId)] correlationId now

def failed (d : Dispatch) (reason : String) (correlationId : String) (eventId : Uuid)
    (now : Date) : OutboxRow :=
  dispatchEvent eventId .orderEvents .dispatchFailed
    [(.dispatchId, .string d.id), (.orderId, .string d.orderId), (.reason, .string reason),
      (.correlationId, .string correlationId)] correlationId now

def cancelled (d : Dispatch) (correlationId : String) (eventId : Uuid) (now : Date) : OutboxRow :=
  dispatchEvent eventId .orderEvents .dispatchCancelled
    [(.dispatchId, .string d.id), (.orderId, .string d.orderId),
      (.correlationId, .string correlationId)] correlationId now

def releaseRequested (d : Dispatch) (driverId : Option Uuid) (reason correlationId : String)
    (eventId : Uuid) (now : Date) : OutboxRow :=
  dispatchEvent eventId .driverEvents .driverReleaseRequested
    [(.dispatchId, .string d.id), (.orderId, .string d.orderId),
      (.driverId, (driverId.map Value.string).getD .null), (.correlationId, .string correlationId),
      (.reason, .string reason)] correlationId now

end DispatchEvent

namespace DispatchWorkflow

def enqueue (r : OutboxRow) (next : DispatchTx) : DispatchTx :=
  .write [] (fun _ => none) (fun db => db.insertOutbox r) next

/-- `decisionId`, `startedId` and `requestedId` are the `randomUUID()`s of the inserts. -/
def start (dispatch : Dispatch) (plan : Option DispatchStartPlan)
    (decisionId startedId requestedId : Uuid) (now : Date) : DispatchTx :=
  .select fun db =>
    match db.findByOrderId dispatch.orderId with
    | some _ => .commit ()
    | none =>
      .write [.dispatch dispatch.id, .order dispatch.orderId]
        (fun db => db.rejects dispatch) (fun db => db.save dispatch) <|
      .write [] (fun _ => none)
        (fun db => { db with
          decisions := db.decisions ++ (plan.map (dispatchDecision decisionId dispatch)).toList }) <|
      enqueue (DispatchEvent.started dispatch startedId now) <|
      enqueue (DispatchEvent.reservationRequested dispatch plan requestedId now) <|
      .commit ()

/-- `SELECT .. WHERE dispatch.id = :dispatchId FOR UPDATE` -/
def lockDispatch (dispatchId : Uuid) (next : Option Dispatch → DispatchTx) : DispatchTx :=
  .selectForUpdate (fun db => ((db.row dispatchId).map fun _ => .dispatch dispatchId).toList)
    fun db => next (db.row dispatchId)

/-- `dispatches.save(..)` of the locked row -/
def saveDispatch (d : Dispatch) (next : DispatchTx) : DispatchTx :=
  .write [.dispatch d.id] (fun _ => none) (fun db => db.save d) next

def completeReservation (input : ReservationResultInput) (eventId : Uuid) (now : Date) :
    DispatchTx :=
  lockDispatch input.dispatchId fun
  | none => .commit ()
  | some dispatch =>
    if dispatch.status ≠ .searchingDriver then
      match input.driver with
      | some driverId =>
        -- a late successful reservation after timeout or failure must be released
        if dispatch.status ≠ .assigned ∧ dispatch.status ≠ .compensating then
          enqueue (DispatchEvent.releaseRequested dispatch (some driverId)
            "LATE_RESERVATION_COMPENSATION" input.correlationId eventId now) <| .commit ()
        else .commit ()
      | none => .commit ()
    else
      match input.driver with
      | some driverId =>
        let dispatch := dispatch.assign driverId now
        saveDispatch dispatch <|
        enqueue (DispatchEvent.assigned dispatch driverId input.correlationId eventId now) <|
        .commit ()
      | none =>
        let reason := input.reason.getD "DRIVER_RESERVATION_FAILED"
        let dispatch := dispatch.fail reason now
        saveDispatch dispatch <|
        enqueue (DispatchEvent.failed dispatch reason input.correlationId eventId now) <|
        .commit ()

def startCompensation (dispatchId : Uuid) (reason correlationId : String) (eventId : Uuid)
    (now : Date) : DispatchTx :=
  lockDispatch dispatchId fun
  | none => .throw (.error s!"Dispatch {dispatchId} not found")
  | some dispatch =>
    if dispatch.status = .cancelled ∨ dispatch.status = .compensating then .commit ()
    else
      match dispatch.startCompensation reason now with
      | .error e => .throw e
      | .ok dispatch =>
        saveDispatch dispatch <|
        enqueue (DispatchEvent.releaseRequested dispatch dispatch.driverId reason correlationId
          eventId now) <| .commit ()

def completeCompensation (dispatchId : Uuid) (correlationId : String) (eventId : Uuid)
    (now : Date) : DispatchTx :=
  lockDispatch dispatchId fun
  | none => .commit ()
  | some dispatch =>
    if dispatch.status = .cancelled then .commit ()
    else if dispatch.status ≠ .compensating then .commit ()
    else
      let dispatch := dispatch.completeCompensation now
      saveDispatch dispatch <|
      enqueue (DispatchEvent.cancelled dispatch correlationId eventId now) <| .commit ()

def timeout (dispatchId : Uuid) (correlationId : String) (eventId : Uuid) (now : Date) :
    DispatchTx :=
  lockDispatch dispatchId fun
  | none => .commit ()
  | some dispatch =>
    if dispatch.status ≠ .searchingDriver then .commit ()
    else
      let reason := "ASSIGNMENT_TIMEOUT"
      let dispatch := dispatch.fail reason now
      saveDispatch dispatch <|
      enqueue (DispatchEvent.failed dispatch reason correlationId eventId now) <| .commit ()

end DispatchWorkflow

end RouteFast
