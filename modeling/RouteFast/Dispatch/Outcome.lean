import RouteFast.Dispatch.Workflow

/-! The workflow transactions as functions of the row they lock: which row each saves,
which event it enqueues, and the moves of the state machine these amount to. -/

namespace RouteFast

open ReadCommitted DispatchEvent

/-- The four transactions on a dispatch that has been started. -/
inductive DispatchOp where
  | completeReservation (input : ReservationResultInput) (eventId : Uuid) (now : Date)
  | startCompensation (dispatchId : Uuid) (reason correlationId : String) (eventId : Uuid)
      (now : Date)
  | completeCompensation (dispatchId : Uuid) (correlationId : String) (eventId : Uuid) (now : Date)
  | timeout (dispatchId : Uuid) (correlationId : String) (eventId : Uuid) (now : Date)
  deriving DecidableEq

/-- What a transaction does to the row it locked: the row it saves, if any, and the event
it enqueues, if any. -/
structure DispatchOutcome where
  saved : Option Dispatch
  event : Option OutboxRow
  deriving DecidableEq

namespace DispatchOp

def dispatchId : DispatchOp → Uuid
  | .completeReservation input _ _ => input.dispatchId
  | .startCompensation dispatchId .. => dispatchId
  | .completeCompensation dispatchId .. => dispatchId
  | .timeout dispatchId .. => dispatchId

def body : DispatchOp → DispatchTx
  | .completeReservation input eventId now =>
    DispatchWorkflow.completeReservation input eventId now
  | .startCompensation dispatchId reason correlationId eventId now =>
    DispatchWorkflow.startCompensation dispatchId reason correlationId eventId now
  | .completeCompensation dispatchId correlationId eventId now =>
    DispatchWorkflow.completeCompensation dispatchId correlationId eventId now
  | .timeout dispatchId correlationId eventId now =>
    DispatchWorkflow.timeout dispatchId correlationId eventId now

/-- The transaction as a function of the row it locked. -/
def outcome (d : Dispatch) : DispatchOp → Except ServiceError DispatchOutcome
  | .completeReservation input eventId now =>
    match d.status, input.driver with
    | .searchingDriver, some driverId =>
      let d' := d.assign driverId now
      .ok ⟨some d', some (DispatchEvent.assigned d' driverId input.correlationId eventId now)⟩
    | .searchingDriver, none =>
      let reason := input.reason.getD "DRIVER_RESERVATION_FAILED"
      let d' := d.fail reason now
      .ok ⟨some d', some (DispatchEvent.failed d' reason input.correlationId eventId now)⟩
    | .failed, some driverId | .cancelled, some driverId =>
      .ok ⟨none, some (DispatchEvent.releaseRequested d (some driverId)
        "LATE_RESERVATION_COMPENSATION" input.correlationId eventId now)⟩
    | _, _ => .ok ⟨none, none⟩
  | .startCompensation _ reason correlationId eventId now =>
    match d.status with
    | .compensating | .cancelled => .ok ⟨none, none⟩
    | _ => (d.startCompensation reason now).map fun d' =>
      ⟨some d', some (DispatchEvent.releaseRequested d' d'.driverId reason correlationId
        eventId now)⟩
  | .completeCompensation _ correlationId eventId now =>
    match d.status with
    | .compensating =>
      let d' := d.completeCompensation now
      .ok ⟨some d', some (DispatchEvent.cancelled d' correlationId eventId now)⟩
    | _ => .ok ⟨none, none⟩
  | .timeout _ correlationId eventId now =>
    match d.status with
    | .searchingDriver =>
      let d' := d.fail "ASSIGNMENT_TIMEOUT" now
      .ok ⟨some d', some (DispatchEvent.failed d' "ASSIGNMENT_TIMEOUT" correlationId
        eventId now)⟩
    | _ => .ok ⟨none, none⟩

/-- What the transactions do when there is no such dispatch. -/
def missing : DispatchOp → Except ServiceError Unit
  | .startCompensation dispatchId .. => .error (.error s!"Dispatch {dispatchId} not found")
  | _ => .ok ()

end DispatchOp

/-- The tables after an outcome. -/
def DispatchDb.after (db : DispatchDb) (o : DispatchOutcome) : DispatchDb where
  dispatches := o.saved.elim db.dispatches fun d => Table.save Dispatch.id d db.dispatches
  decisions := db.decisions
  outbox := db.outbox ++ o.event.toList

/-- A transaction run alone is its outcome on the stored row. -/
theorem DispatchOp.run_body (op : DispatchOp) (locked : ℕ → DispatchLock → Bool)
    (db : DispatchDb) :
    op.body.run locked db =
      match db.row op.dispatchId with
      | none => op.missing.map fun _ => ((), db)
      | some d => (op.outcome d).map fun o => ((), db.after o) := by
  cases hrow : db.row op.dispatchId with
  | none =>
    cases op <;> simp only [dispatchId] at hrow <;>
      simp [body, DispatchWorkflow.completeReservation, DispatchWorkflow.startCompensation,
        DispatchWorkflow.completeCompensation, DispatchWorkflow.timeout,
        DispatchWorkflow.lockDispatch, Tx.run, hrow, missing, Except.map]
  | some d =>
    cases op with
    | completeReservation input eventId now =>
      simp only [dispatchId] at hrow
      cases hs : d.status <;> cases hd : input.driver <;>
        simp [body, DispatchWorkflow.completeReservation, DispatchWorkflow.lockDispatch, Tx.run,
          hrow, outcome, hs, hd, DispatchWorkflow.enqueue, DispatchWorkflow.saveDispatch, Except.map,
          DispatchDb.after, DispatchDb.save, DispatchDb.insertOutbox]
    | startCompensation dispatchId reason correlationId eventId now =>
      simp only [DispatchOp.dispatchId] at hrow
      cases hs : d.status <;> cases hc : d.startCompensation reason now <;>
        simp [body, DispatchWorkflow.startCompensation, DispatchWorkflow.lockDispatch, Tx.run,
          hrow, outcome, hs, hc, DispatchWorkflow.enqueue, DispatchWorkflow.saveDispatch, Except.map,
          DispatchDb.after, DispatchDb.save, DispatchDb.insertOutbox]
    | completeCompensation dispatchId correlationId eventId now =>
      simp only [DispatchOp.dispatchId] at hrow
      cases hs : d.status <;>
        simp [body, DispatchWorkflow.completeCompensation, DispatchWorkflow.lockDispatch, Tx.run,
          hrow, outcome, hs, DispatchWorkflow.enqueue, DispatchWorkflow.saveDispatch, Except.map,
          DispatchDb.after, DispatchDb.save, DispatchDb.insertOutbox]
    | timeout dispatchId correlationId eventId now =>
      simp only [DispatchOp.dispatchId] at hrow
      cases hs : d.status <;>
        simp [body, DispatchWorkflow.timeout, DispatchWorkflow.lockDispatch, Tx.run,
          hrow, outcome, hs, DispatchWorkflow.enqueue, DispatchWorkflow.saveDispatch, Except.map,
          DispatchDb.after, DispatchDb.save, DispatchDb.insertOutbox]

/-- Reads a field of the payload `{ eventId, ...payload }` as it is stored. -/
theorem string_dispatchEvent (eventId : Uuid) (q : Queue) (ty : EventType) (payload : Payload)
    (c : String) (now : Date) {f : Field} {s : String} (hf : payload.get f = some (.string s)) :
    (dispatchEvent eventId q ty payload c now).payload.string f = some s := by
  have hget : (Js.Obj.spread [(.eventId, .string eventId)] payload : Payload).get f =
      some (.string s) := by rw [Js.Obj.get_spread, hf, Option.some_or]
  simp [dispatchEvent, OutboxRow.pending, Payload.string, Payload.get_json, hget]

/-- The dispatch an outbox row is about. -/
def OutboxRow.dispatch (r : OutboxRow) : Option Uuid := r.payload.string .dispatchId

namespace DispatchEvent

variable (d : Dispatch) (plan : Option DispatchStartPlan) (driverId : Uuid)
  (driver : Option Uuid) (reason c : String) (eventId : Uuid) (now : Date)

@[simp] theorem eventType_dispatchEvent (q : Queue) (ty : EventType) (payload : Payload) :
    (dispatchEvent eventId q ty payload c now).eventType = ty := rfl

@[simp] theorem dispatch_started : (started d eventId now).dispatch = some d.id :=
  string_dispatchEvent _ _ _ _ _ _ rfl

@[simp] theorem dispatch_reservationRequested :
    (reservationRequested d plan eventId now).dispatch = some d.id :=
  string_dispatchEvent _ _ _ _ _ _ rfl

@[simp] theorem dispatch_assigned : (assigned d driverId c eventId now).dispatch = some d.id :=
  string_dispatchEvent _ _ _ _ _ _ rfl

@[simp] theorem dispatch_failed : (failed d reason c eventId now).dispatch = some d.id :=
  string_dispatchEvent _ _ _ _ _ _ rfl

@[simp] theorem dispatch_cancelled : (cancelled d c eventId now).dispatch = some d.id :=
  string_dispatchEvent _ _ _ _ _ _ rfl

@[simp] theorem dispatch_releaseRequested :
    (releaseRequested d driver reason c eventId now).dispatch = some d.id :=
  string_dispatchEvent _ _ _ _ _ _ rfl

@[simp] theorem driver_releaseRequested :
    (releaseRequested d (some driverId) reason c eventId now).payload.string .driverId =
      some driverId :=
  string_dispatchEvent _ _ _ _ _ _ rfl

end DispatchEvent

/-- A status change of a dispatch, with the event that announces it. -/
inductive DispatchMove (d : Dispatch) : Dispatch → OutboxRow → Prop
  | assign (driverId c eventId : String) (now : Date) :
      d.status = .searchingDriver → driverId ≠ "" →
      DispatchMove d { d with driverId := some driverId, status := .assigned, updatedAt := now }
        (DispatchEvent.assigned d driverId c eventId now)
  | fail (reason c eventId : String) (now : Date) : d.status = .searchingDriver →
      DispatchMove d { d with status := .failed, failureReason := some reason, updatedAt := now }
        (DispatchEvent.failed d reason c eventId now)
  | compensate (driverId reason c eventId : String) (now : Date) :
      d.status = .assigned → d.driverId = some driverId → driverId ≠ "" →
      DispatchMove d
        { d with status := .compensating, failureReason := some reason, updatedAt := now }
        (DispatchEvent.releaseRequested d (some driverId) reason c eventId now)
  | cancel (c eventId : String) (now : Date) : d.status = .compensating →
      DispatchMove d { d with status := .cancelled, updatedAt := now }
        (DispatchEvent.cancelled d c eventId now)

/-- The drivers whose release the transaction requests: that of a reservation that comes
too late, or the assigned one when the compensation starts. -/
def DispatchOp.releases (d : Dispatch) : DispatchOp → List Uuid
  | .completeReservation input _ _ =>
    if d.status = .failed ∨ d.status = .cancelled then input.driver.toList else []
  | .startCompensation .. => if d.status = .assigned then d.driverId.toList else []
  | _ => []

/-- Everything a committed transaction can do: a move, the release of a late reservation,
or nothing. -/
inductive DispatchStep (d : Dispatch) : DispatchOutcome → Prop
  | move {d' : Dispatch} {r : OutboxRow} : DispatchMove d d' r → DispatchStep d ⟨some d', some r⟩
  | late (driverId c eventId : String) (now : Date) : d.status = .failed ∨ d.status = .cancelled →
      DispatchStep d ⟨none, some (DispatchEvent.releaseRequested d (some driverId)
        "LATE_RESERVATION_COMPENSATION" c eventId now)⟩
  | idle : DispatchStep d ⟨none, none⟩

theorem ReservationResultInput.driver_ne {input : ReservationResultInput} {driverId : Uuid}
    (h : input.driver = some driverId) : driverId ≠ "" := by
  simpa using (Option.filter_eq_some_iff.1 h).2

theorem DispatchOp.step_of_outcome {d : Dispatch} {op : DispatchOp} {o : DispatchOutcome}
    (h : op.outcome d = .ok o) : DispatchStep d o := by
  cases op with
  | completeReservation input eventId now =>
    simp only [outcome] at h
    split at h <;> obtain rfl := Except.ok.inj h
    · next driverId hs hd =>
      rw [Dispatch.assign_eq hs]
      exact .move (.assign driverId _ _ now hs (ReservationResultInput.driver_ne hd))
    · next hs _ =>
      rw [Dispatch.fail_eq hs]
      exact .move (.fail _ _ _ now hs)
    · next hs _ => exact .late _ _ _ now (Or.inl hs)
    · next hs _ => exact .late _ _ _ now (Or.inr hs)
    · exact .idle
  | startCompensation dispatchId reason c eventId now =>
    simp only [outcome] at h
    split at h
    · obtain rfl := Except.ok.inj h
      exact .idle
    · obtain rfl := Except.ok.inj h
      exact .idle
    · next h1 h2 =>
      cases hc : d.startCompensation reason now with
      | error e => simp [hc, Except.map] at h
      | ok d' =>
        rw [hc] at h
        obtain rfl := Except.ok.inj h
        obtain ⟨hs, ⟨driverId, hd, hne⟩, rfl⟩ := Dispatch.startCompensation_eq ⟨h1, h2⟩ hc
        have hmove := DispatchMove.compensate driverId reason c eventId now hs hd hne
        rw [← hd] at hmove
        exact .move hmove
  | completeCompensation dispatchId c eventId now =>
    simp only [outcome] at h
    split at h <;> obtain rfl := Except.ok.inj h
    · next hs =>
      rw [Dispatch.completeCompensation_eq hs]
      exact .move (.cancel _ _ now hs)
    · exact .idle
  | timeout dispatchId c eventId now =>
    simp only [outcome] at h
    split at h <;> obtain rfl := Except.ok.inj h
    · next hs =>
      rw [Dispatch.fail_eq hs]
      exact .move (.fail _ _ _ now hs)
    · exact .idle

/-- A reservation result is never refused. -/
theorem DispatchOp.outcome_completeReservation (d : Dispatch) (input : ReservationResultInput)
    (eventId : Uuid) (now : Date) :
    ∃ o, (DispatchOp.completeReservation input eventId now).outcome d = .ok o := by
  simp only [outcome]
  split <;> exact ⟨_, rfl⟩

/-- The driver that a reservation result names. -/
def DispatchOp.names : DispatchOp → Option Uuid
  | .completeReservation input _ _ => input.driver
  | _ => none

theorem DispatchOp.names_of_assigned {d d' : Dispatch} {op : DispatchOp} {e : OutboxRow}
    {driverId : Uuid} (h : op.outcome d = .ok ⟨some d', some e⟩) (hs : d.status = .searchingDriver)
    (hnone : d.driverId = none) (hd : d'.driverId = some driverId) : op.names = some driverId := by
  cases op with
  | completeReservation input eventId now =>
    cases hi : input.driver with
    | none =>
      obtain ⟨rfl, -⟩ : d.fail _ now = d' ∧ _ := by simpa [outcome, hs, hi] using h
      simp [Dispatch.fail_eq hs, hnone] at hd
    | some driver =>
      obtain ⟨rfl, -⟩ : d.assign driver now = d' ∧ _ := by simpa [outcome, hs, hi] using h
      simpa [names, hi, Dispatch.assign_eq hs] using hd
  | startCompensation dispatchId reason c eventId now =>
    simp [outcome, hs, Dispatch.startCompensation, Except.map] at h
  | completeCompensation dispatchId c eventId now => simp [outcome, hs] at h
  | timeout dispatchId c eventId now =>
    obtain ⟨rfl, -⟩ : d.fail _ now = d' ∧ _ := by simpa [outcome, hs] using h
    simp [Dispatch.fail_eq hs, hnone] at hd

theorem DispatchOp.names_of_late {d : Dispatch} {op : DispatchOp} {e : OutboxRow}
    (h : op.outcome d = .ok ⟨none, some e⟩) : ∃ driverId, op.names = some driverId := by
  cases op with
  | completeReservation input eventId now =>
    cases hi : input.driver with
    | none => cases hs : d.status <;> simp [outcome, hs, hi] at h
    | some driverId => exact ⟨driverId, hi⟩
  | startCompensation dispatchId reason c eventId now =>
    cases hs : d.status <;> cases hc : d.startCompensation reason now <;>
      simp [outcome, hs, hc, Except.map] at h
  | completeCompensation dispatchId c eventId now => cases hs : d.status <;> simp [outcome, hs] at h
  | timeout dispatchId c eventId now => cases hs : d.status <;> simp [outcome, hs] at h

/-- The driver whose release an outbox row requests. -/
def OutboxRow.release (r : OutboxRow) : Option Uuid :=
  if r.eventType = .driverReleaseRequested then r.payload.string .driverId else none

@[simp] theorem DispatchEvent.release_releaseRequested (d : Dispatch)
    (driverId reason c eventId : String) (now : Date) :
    (releaseRequested d (some driverId) reason c eventId now).release = some driverId := by
  have hty : (releaseRequested d (some driverId) reason c eventId now).eventType =
      .driverReleaseRequested := rfl
  rw [OutboxRow.release, if_pos hty, driver_releaseRequested]

/-- The releases enqueued are those the transaction owes. -/
theorem DispatchOp.release_of_outcome {d : Dispatch} {op : DispatchOp} {o : DispatchOutcome}
    (h : op.outcome d = .ok o) : o.event.toList.filterMap OutboxRow.release = op.releases d := by
  cases op with
  | completeReservation input eventId now =>
    cases hs : d.status <;> cases hd : input.driver <;>
      simp only [outcome, hs, hd, Except.ok.injEq] at h <;> subst h <;>
      simp [releases, hs, hd, OutboxRow.release, DispatchEvent.assigned, DispatchEvent.failed]
    all_goals rfl
  | startCompensation dispatchId reason c eventId now =>
    simp only [outcome] at h
    split at h
    · next hs => obtain rfl := Except.ok.inj h; simp [releases, hs]
    · next hs => obtain rfl := Except.ok.inj h; simp [releases, hs]
    · next h1 h2 =>
      cases hc : d.startCompensation reason now with
      | error e => simp [hc, Except.map] at h
      | ok d' =>
        rw [hc] at h
        obtain rfl := Except.ok.inj h
        obtain ⟨hs, ⟨driverId, hd, -⟩, rfl⟩ := Dispatch.startCompensation_eq ⟨h1, h2⟩ hc
        simp [releases, hs, hd]
  | completeCompensation dispatchId c eventId now =>
    simp only [outcome] at h
    split at h <;> obtain rfl := Except.ok.inj h <;>
      simp [releases, OutboxRow.release, DispatchEvent.cancelled]
  | timeout dispatchId c eventId now =>
    simp only [outcome] at h
    split at h <;> obtain rfl := Except.ok.inj h <;>
      simp [releases, OutboxRow.release, DispatchEvent.failed]

end RouteFast
