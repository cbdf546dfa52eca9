import RouteFast.Common
import RouteFast.Base.Table

/-! Integration events: their types, their payloads as JavaScript objects, and the
outbox rows that carry them. -/

namespace RouteFast

inductive EventType where
  /-- `order.ready_for_dispatch.v1` -/
  | orderReadyForDispatch
  /-- `dispatch.started.v1`, and so on for the others. -/
  | dispatchStarted
  | dispatchAssigned
  | dispatchFailed
  | dispatchCancelled
  | driverReservationRequested
  | driverReleaseRequested
  | driverReserved
  | driverReservationFailed
  | driverReleased
  deriving DecidableEq, Repr

/-- The main queues, `ORDER_EVENTS_QUEUE`, `DISPATCH_EVENTS_QUEUE` and `DRIVER_EVENTS_QUEUE`. -/
inductive Queue where
  | orderEvents
  | dispatchEvents
  | driverEvents
  deriving DecidableEq, Repr

/-- The property names the services read or write. -/
inductive Field where
  | eventId
  | orderId
  | dispatchId
  | driverId
  | correlationId
  | candidateDriverIds
  | selectionStrategy
  | reason
  | priority
  | pickup
  | dropoff
  deriving DecidableEq, Repr

inductive Value where
  | undefined
  | null
  | string (s : String)
  | strings (l : List String)
  | point (latitude longitude : ℚ)
  deriving DecidableEq, Repr

abbrev Payload := Js.Obj Field Value

namespace Payload

/-- What `JSON.stringify` keeps: properties whose value is `undefined` go. -/
def json (o : Payload) : Payload := o.filter fun p => o.get p.1 ≠ some .undefined

/-- `event.field` where the code uses it as a string. -/
def string (o : Payload) (f : Field) : Option String :=
  match o.get f with
  | some (.string s) => some s
  | _ => none

theorem get_filter (keep : Field → Bool) (o : Payload) (f : Field) :
    Js.Obj.get (o.filter fun p => keep p.1) f = if keep f then Js.Obj.get o f else none := by
  induction o with
  | nil => simp
  | cons p o ih =>
    obtain ⟨k, v⟩ := p
    by_cases hk : keep k = true
    · rw [List.filter_cons_of_pos (by simpa using hk)]
      simp only [Js.Obj.get, ih]
      by_cases hf : k = f
      · subst hf; simp [hk]
      · by_cases hkf : keep f = true <;> simp [hf, hkf]
    · rw [List.filter_cons_of_neg (by simpa using hk), ih]
      by_cases hf : k = f
      · subst hf; simp [hk]
      · simp [Js.Obj.get, hf]

theorem get_json (o : Payload) (f : Field) :
    (json o).get f = if o.get f = some .undefined then none else o.get f := by
  have h := get_filter (fun k => decide (o.get k ≠ some .undefined)) o f
  by_cases hf : o.get f = some .undefined <;> simpa [json, hf] using h

end Payload

inductive OutboxStatus where
  | pending
  | published
  deriving DecidableEq, Repr

/-- A row of `outbox_events`. -/
structure OutboxRow where
  id : Uuid
  eventType : EventType
  targetQueue : Queue
  payload : Payload
  status : OutboxStatus
  attempts : ℕ
  correlationId : String
  availableAt : Date
  publishedAt : Option Date
  createdAt : Date
  deriving DecidableEq

/-- A row as the transactions insert it; `eventId` is the `randomUUID()` of the insert. -/
def OutboxRow.pending (eventId : Uuid) (eventType : EventType) (targetQueue : Queue)
    (payload : Payload) (correlationId : String) (now : Date) : OutboxRow where
  id := eventId
  eventType := eventType
  targetQueue := targetQueue
  payload := payload.json
  status := .pending
  attempts := 0
  correlationId := correlationId
  availableAt := now
  publishedAt := none
  createdAt := now

end RouteFast
