import RouteFast.Base.ReadCommitted
import RouteFast.Driver.Aggregate
import RouteFast.Reliability.Event
import Mathlib.Data.List.Sort

/-! Driver reservations: the transactions that reserve a driver for an order and release
it again, over the `drivers`, `driver_reservations` and `outbox_events` tables. -/

namespace RouteFast

open ReadCommitted

inductive DriverReservationStatus where
  | active
  | released
  deriving DecidableEq, Repr

/-- A row of `driver_reservations`. -/
structure DriverReservation where
  id : Uuid
  orderId : Uuid
  dispatchId : Uuid
  driverId : Uuid
  status : DriverReservationStatus
  createdAt : Date
  releasedAt : Option Date
  deriving DecidableEq

/-- The received event as the use case gets it: the fields its type names, and the whole
object, which is what a payload is spread from. -/
structure ReserveDriverInput where
  event : Payload
  orderId : Uuid
  dispatchId : Uuid
  correlationId : String
  candidateDriverIds : Option (List Uuid)
  deriving DecidableEq

structure ReleaseDriverInput extends ReserveDriverInput where
  driverId : Uuid
  deriving DecidableEq

/-- The tables of the driver database. -/
structure DriverDb where
  drivers : List Driver
  reservations : List DriverReservation
  outbox : List OutboxRow

/-- What a transaction of the driver database can lock: an advisory lock, rows or primary
keys, or an entry of the unique index on `driver_reservations.order_id`. -/
inductive DriverLock where
  | advisory (hash : ℤ)
  | driver (id : Uuid)
  | reservation (id : Uuid)
  | order (orderId : Uuid)
  deriving DecidableEq

namespace DriverDb

/-- The stored row of a driver. -/
def driver (db : DriverDb) (driverId : Uuid) : Option Driver :=
  Table.find Driver.id driverId db.drivers

/-- `reservations.findOne({ where: { orderId } })` -/
def reservation (db : DriverDb) (orderId : Uuid) : Option DriverReservation :=
  Table.find DriverReservation.orderId orderId db.reservations

def reservationById (db : DriverDb) (id : Uuid) : Option DriverReservation :=
  Table.find DriverReservation.id id db.reservations

def saveDriver (db : DriverDb) (d : Driver) : DriverDb :=
  { db with drivers := Table.save Driver.id d db.drivers }

def saveReservation (db : DriverDb) (r : DriverReservation) : DriverDb :=
  { db with reservations := Table.save DriverReservation.id r db.reservations }

def insertOutbox (db : DriverDb) (r : OutboxRow) : DriverDb :=
  { db with outbox := db.outbox ++ [r] }

/-- Why the database rejects a new row of `driver_reservations`, if it does. -/
def rejects (db : DriverDb) (r : DriverReservation) : Option ServiceError :=
  if (db.reservationById r.id).isSome then some (.database "driver_reservations_pkey")
  else if (db.reservation r.orderId).isSome then some (.database "driver_reservations_order_id")
  else none

/-- `ORDER BY jsonb_array_length(reserved_order_ids) ASC, created_at ASC` -/
def byLoad (a b : Driver) : Prop :=
  a.reservedOrderIds.length < b.reservedOrderIds.length ∨
    (a.reservedOrderIds.length = b.reservedOrderIds.length ∧ a.createdAt ≤ b.createdAt)

instance : DecidableRel byLoad := fun _ _ => inferInstanceAs (Decidable (_ ∨ _))

/-- The eligible drivers, least loaded first. -/
def eligible (db : DriverDb) : List Driver :=
  (db.drivers.filter fun d => d.Eligible).insertionSort byLoad

end DriverDb

/-- The row `enqueue` saves: the fresh `eventId` first, then the payload spread over it. -/
def driverEvent (eventId : Uuid) (eventType : EventType) (payload : Payload)
    (correlationId : String) (now : Date) : OutboxRow :=
  .pending eventId eventType .dispatchEvents
    (Js.Obj.spread [(.eventId, .string eventId)] payload) correlationId now

theorem string_driverEvent (eventId : Uuid) (ty : EventType) (payload : Payload) (c : String)
    (now : Date) {f : Field} {s : String} (hf : payload.string f = some s) :
    (driverEvent eventId ty payload c now).payload.string f = some s := by
  have hpayload : payload.get f = some (.string s) := by
    simp only [Payload.string] at hf
    split at hf
    · next heq => rw [heq, Option.some.inj hf]
    · cases hf
  have hget : (Js.Obj.spread [(.eventId, .string eventId)] payload : Payload).get f =
      some (.string s) := by rw [Js.Obj.get_spread, hpayload, Option.some_or]
  simp [driverEvent, OutboxRow.pending, Payload.string, Payload.get_json, hget]

/-- Spread over an event, a property overrides the event's own, -/
theorem Payload.string_spread_self (event : Payload) (k : Field) (s : String) :
    Payload.string (Js.Obj.spread event [(k, .string s)]) k = some s := by
  simp [Payload.string, Js.Obj.get_spread]

/-- and leaves the others. -/
theorem Payload.string_spread_ne (event : Payload) {k f : Field} (s : String) (hf : k ≠ f) :
    Payload.string (Js.Obj.spread event [(k, .string s)]) f = event.string f := by
  simp [Payload.string, Js.Obj.get_spread, Js.Obj.get_cons_ne hf]

abbrev DriverTx := Tx DriverDb DriverLock ServiceError Unit

namespace DriverEvent

/-- `{ ...input, driverId }` -/
def reserved (input : ReserveDriverInput) (driverId : Uuid) (eventId : Uuid) (now : Date) :
    OutboxRow :=
  driverEvent eventId .driverReserved
    (Js.Obj.spread input.event [(.driverId, .string driverId)]) input.correlationId now

/-- `{ ...input, reason }` -/
def reservationFailed (input : ReserveDriverInput) (reason : String) (eventId : Uuid)
    (now : Date) : OutboxRow :=
  driverEvent eventId .driverReservationFailed
    (Js.Obj.spread input.event [(.reason, .string reason)]) input.correlationId now

/-- `{ ...input, driverId }` -/
def released (input : ReleaseDriverInput) (driverId : Uuid) (eventId : Uuid) (now : Date) :
    OutboxRow :=
  driverEvent eventId .driverReleased
    (Js.Obj.spread input.event [(.driverId, .string driverId)]) input.correlationId now

end DriverEvent

namespace DriverReservations

/-- `await this.enqueue(..)` as the last statement -/
def enqueue (r : OutboxRow) : DriverTx :=
  .write [] (fun _ => none) (fun db => db.insertOutbox r) (.commit ())

/-- A lock that names a driver's row, with that row. -/
def lockedDriver (db : DriverDb) : Option DriverLock → Option Driver
  | some (.driver id) => db.driver id
  | _ => none

/-- `WHERE driver.id = :driverId` and eligible -/
def candidateLocks (driverId : Uuid) (db : DriverDb) : List DriverLock :=
  ((db.driver driverId).filter fun d => d.Eligible).toList.map fun d => .driver d.id

def eligibleLocks (db : DriverDb) : List DriverLock := db.eligible.map fun d => .driver d.id

/-- The loop over the ranked candidates: each is locked if it is eligible and free. -/
def selectCandidate (next : Option Driver → DriverTx) : List Uuid → DriverTx
  | [] => next none
  | candidateDriverId :: rest =>
    .selectSkipLocked (candidateLocks candidateDriverId) fun db got =>
      match lockedDriver db got.head? with
      | some entity => next (some entity)
      | none => selectCandidate next rest

/-- Without a ranking: all eligible and free drivers are locked, and the first is taken. -/
def selectLeastLoaded (next : Option Driver → DriverTx) : DriverTx :=
  .selectSkipLocked eligibleLocks fun db got => next (lockedDriver db got.head?)

/-- The rest of `reserve` once a driver is locked, or none could be. `reservationId` and
`eventId` are the `randomUUID()`s of the inserts. -/
def grant (input : ReserveDriverInput) (reservationId eventId : Uuid) (now : Date) :
    Option Driver → DriverTx
  | none => enqueue (DriverEvent.reservationFailed input "NO_AVAILABLE_DRIVER" eventId now)
  | some entity =>
    match entity.reserve input.orderId now with
    | .error e => .throw e
    | .ok driver =>
      let reservation : DriverReservation :=
        { id := reservationId
          orderId := input.orderId
          dispatchId := input.dispatchId
          driverId := driver.id
          status := .active
          createdAt := now
          releasedAt := none }
      .write [.driver driver.id] (fun _ => none) (fun db => db.saveDriver driver) <|
      .write [.reservation reservationId, .order input.orderId]
        (fun db => db.rejects reservation) (fun db => db.saveReservation reservation) <|
      enqueue (DriverEvent.reserved input driver.id eventId now)

def reserve (hashtext : String → ℤ) (input : ReserveDriverInput) (reservationId eventId : Uuid)
    (now : Date) : DriverTx :=
  .lock (.advisory (hashtext input.orderId)) <| .select fun db =>
    match (db.reservation input.orderId).filter fun r => r.status = .active with
    | some existing => enqueue (DriverEvent.reserved input existing.driverId eventId now)
    | none =>
      match input.candidateDriverIds with
      | some [] =>
        enqueue (DriverEvent.reservationFailed input "NO_GEO_ELIGIBLE_DRIVER" eventId now)
      | some candidates => selectCandidate (grant input reservationId eventId now) candidates
      | none => selectLeastLoaded (grant input reservationId eventId now)

def release (hashtext : String → ℤ) (input : ReleaseDriverInput) (eventId : Uuid) (now : Date) :
    DriverTx :=
  .lock (.advisory (hashtext input.orderId)) <| .select fun db =>
    match db.reservation input.orderId with
    | none => enqueue (DriverEvent.released input input.driverId eventId now)
    | some reservation =>
      if reservation.status = .released then
        enqueue (DriverEvent.released input reservation.driverId eventId now)
      else
        let finish : DriverTx :=
          .write [.reservation reservation.id] (fun _ => none)
            (fun db => db.saveReservation
              { reservation with status := .released, releasedAt := some now }) <|
          enqueue (DriverEvent.released input reservation.driverId eventId now)
        .selectForUpdate
          (fun db => ((db.driver reservation.driverId).map fun d => .driver d.id).toList)
          fun db =>
            match db.driver reservation.driverId with
            | some entity =>
              let driver := entity.release input.orderId now
              .write [.driver driver.id] (fun _ => none) (fun db => db.saveDriver driver) finish
            | none => finish

/-- `CreateDriverUseCase`: the new row, under a fresh id. -/
def createDriver (id : Uuid) (displayName : String) (capacity : ℚ) (now : Date) : DriverTx :=
  match Driver.create id displayName capacity now with
  | .error e => .throw e
  | .ok driver =>
    .write [.driver driver.id]
      (fun db => if (db.driver driver.id).isSome then some (.database "drivers_pkey") else none)
      (fun db => db.saveDriver driver) (.commit ())

section Selection

variable {db : DriverDb} {d : Driver}

/-- The first of the locks got, and the row it names. -/
theorem lockedDriver_head {got rows : List DriverLock} {d : Driver} (hsub : got.Sublist rows)
    (hd : lockedDriver db got.head? = some d) :
    DriverLock.driver d.id ∈ got ∧ DriverLock.driver d.id ∈ rows ∧ db.driver d.id = some d := by
  cases got with
  | nil => simp [lockedDriver] at hd
  | cons k got =>
    cases k with
    | driver id =>
      have hrow : db.driver id = some d := by simpa [lockedDriver] using hd
      obtain rfl : d.id = id := Table.key_of_find hrow
      exact ⟨List.mem_cons_self, hsub.subset List.mem_cons_self, hrow⟩
    | advisory | reservation | order => simp [lockedDriver] at hd

/-- What the loop locks is eligible, -/
theorem eligible_of_candidate {candidate : Uuid}
    (hrows : DriverLock.driver d.id ∈ candidateLocks candidate db)
    (hrow : db.driver d.id = some d) : d.Eligible := by
  obtain ⟨e, ⟨he, helig⟩, hid⟩ : ∃ e, (db.driver candidate = some e ∧ e.Eligible) ∧
      e.id = d.id := by simpa [candidateLocks, Option.filter_eq_some_iff] using hrows
  have hce : e.id = candidate := Table.key_of_find he
  rw [← hce, hid, hrow] at he
  obtain rfl := Option.some.inj he
  exact helig

/-- and so is what is locked without a ranking. -/
theorem eligible_of_eligible (hids : (db.drivers.map Driver.id).Nodup)
    (hrows : DriverLock.driver d.id ∈ eligibleLocks db) (hrow : db.driver d.id = some d) :
    d.Eligible := by
  obtain ⟨e, ⟨he, helig⟩, hid⟩ : ∃ e, (e ∈ db.drivers ∧ e.Eligible) ∧ e.id = d.id := by
    simpa [eligibleLocks, DriverDb.eligible] using hrows
  have hfind : db.driver e.id = some e := Table.find_of_mem hids he
  rw [hid, hrow] at hfind
  obtain rfl := Option.some.inj hfind
  exact helig

end Selection

end DriverReservations

end RouteFast
