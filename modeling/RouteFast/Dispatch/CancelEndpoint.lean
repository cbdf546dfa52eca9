import RouteFast.Base.Js
import RouteFast.Base.Proc
import RouteFast.Dispatch.Ledger

/-! `POST /dispatches/:dispatchId/cancel` among the other transactions of the workflow. The
controller decides on the dispatch it read in one statement, and the command it then
sends locks and reads the row again; in between anything may commit. Nothing has looked at the
request before: what the database cannot read or store comes back as a 500. -/

namespace RouteFast

open Transition

/-- What a caller of the controller gets instead of an answer: one of its own exceptions, or the
500 that Nest makes of any other. -/
inductive HttpError where
  | notFound (message : String)
  | conflict (message : String)
  | internal
  deriving DecidableEq

structure CancelResponse where
  dispatchId : String
  status : String
  deriving DecidableEq

/-- What the endpoint reads of the body; the service has no validation pipe. -/
inductive CancelBody where
  /-- There is none, and `body.reason` throws. -/
  | absent
  /-- `reason` is undefined or null. -/
  | noReason
  | reason (text : String)
  /-- `reason` is something that has no `trim`. -/
  | other
  deriving DecidableEq

/-- A call of the endpoint, with the ids it draws and how its calls of the database end.
`dispatchId` is the path as it was sent. -/
structure CancelRequest where
  dispatchId : String
  body : CancelBody
  correlationHeader : Option String
  randomUUID : Uuid
  eventId : Uuid
  now : Date
  queryEnd : CallEnd
  commandEnd : CallEnd

/-- A `varchar(width)` takes the text. -/
def FitsColumn (width : ℕ) (text : String) : Prop :=
  text.length ≤ width ∧ Char.ofNat 0 ∉ text.toList

instance (width : ℕ) : DecidablePred (FitsColumn width) := fun _ =>
  inferInstanceAs (Decidable (_ ∧ _))

namespace CancelRequest

variable (r : CancelRequest)

/-- `body.reason?.trim() || 'OPERATOR_CANCELLED'`; `none` when it throws. -/
def reason : Option String :=
  match r.body with
  | .absent | .other => none
  | .noReason => some "OPERATOR_CANCELLED"
  | .reason text => some (if Js.trim text = "" then "OPERATOR_CANCELLED" else Js.trim text)

/-- `correlationId || randomUUID()` -/
def correlationId : String := (r.correlationHeader.filter (· ≠ "")).getD r.randomUUID

/-- The transaction of `CancelDispatchCommand`. -/
def command (id : Uuid) (reason : String) : DispatchOp :=
  .startCompensation id reason r.correlationId r.eventId r.now

/-- The row the command leaves of an assigned dispatch. -/
def compensated (reason : String) (d : Dispatch) : Dispatch :=
  { d with
    status := .compensating
    failureReason := some reason
    updatedAt := r.now }

def response : CancelResponse := ⟨r.dispatchId, "COMPENSATION_REQUESTED"⟩

/-- What the command writes fits `dispatches.failure_reason` and `outbox_events.correlation_id`. -/
def Fits (reason : String) : Prop := FitsColumn 120 reason ∧ FitsColumn 120 r.correlationId

end CancelRequest

def Dispatch.Fits (d : Dispatch) : Prop :=
  FitsColumn 100 d.correlationId ∧ ∀ reason ∈ d.failureReason, FitsColumn 120 reason

instance : DecidablePred Dispatch.Fits := fun _ => inferInstanceAs (Decidable (_ ∧ _))

def DispatchDecision.Fits (x : DispatchDecision) : Prop :=
  FitsColumn 40 x.strategyVersion ∧ FitsColumn 20 x.priority

instance : DecidablePred DispatchDecision.Fits := fun _ => inferInstanceAs (Decidable (_ ∧ _))

def OutboxRow.Fits (r : OutboxRow) : Prop := FitsColumn 120 r.correlationId

instance : DecidablePred OutboxRow.Fits := fun _ => inferInstanceAs (Decidable (FitsColumn _ _))

namespace DispatchDb

/-- Every value fits its column. -/
def Storable (db : DispatchDb) : Prop :=
  (∀ d ∈ db.dispatches, d.Fits) ∧ (∀ x ∈ db.decisions, x.Fits) ∧ ∀ r ∈ db.outbox, r.Fits

instance : DecidablePred Storable := fun _ => inferInstanceAs (Decidable (_ ∧ _ ∧ _))

/-- The tables after the transaction, which is rolled back if they do not take what it writes. -/
def commit (db : DispatchDb) (tx : DispatchTx) : DispatchDb :=
  if (db.exec tx).Storable then db.exec tx else db

end DispatchDb

abbrev DispatchProc := Proc DispatchDb HttpError (Option CancelResponse)

/-- How a call ends whose transaction is run on these tables. -/
def replyAfter (tx : DispatchTx) (answer : Option CancelResponse) (db : DispatchDb) :
    DispatchProc :=
  match tx.run (fun _ _ => false) db with
  | .ok (_, db') => if db'.Storable then .done answer else .throw .internal
  | .error _ => .throw .internal

/-- A transaction of the workflow, and what its caller answers. -/
def transact (ending : CallEnd) (tx : DispatchTx) (answer : Option CancelResponse) : DispatchProc :=
  .call ending .internal (fun db => db.commit tx) (replyAfter tx answer)

namespace DispatchesController

/-- What follows the query for `id`, given what it found. -/
def cancelFound (r : CancelRequest) (id : Uuid) (found : Option Dispatch) : DispatchProc :=
  match found with
  | none => .throw (.notFound s!"Dispatch {r.dispatchId} not found")
  | some dispatch =>
    if dispatch.status ≠ .assigned ∧ dispatch.status ≠ .compensating ∧
        dispatch.status ≠ .cancelled then
      .throw (.conflict
        s!"Dispatch {r.dispatchId} cannot be cancelled from {dispatch.status.text}")
    else if dispatch.status = .assigned then
      match r.reason with
      | some reason => transact r.commandEnd (r.command id reason).body (some r.response)
      | none => .throw .internal
    else .done (some r.response)

/-- `uuidInput` is how Postgres reads a `uuid`; it rejects the query if it cannot. -/
def cancel (uuidInput : String → Option Uuid) (r : CancelRequest) : DispatchProc :=
  match uuidInput r.dispatchId with
  | some id => .call r.queryEnd .internal (fun db => db) fun db => cancelFound r id (db.row id)
  | none => .read fun _ => .throw .internal

end DispatchesController

/-- The endpoint and the other commands of the workflow, each with its arguments. How the calls of
the others end covers whatever else the database may have against them. -/
inductive DispatchActivity where
  | cancel (request : CancelRequest)
  | start (id orderId : Uuid) (correlationId : String) (plan : Option DispatchStartPlan)
      (decisionId startedId requestedId : Uuid) (now : Date) (ending : CallEnd)
  | completeReservation (input : ReservationResultInput) (eventId : Uuid) (now : Date)
      (ending : CallEnd)
  | completeCompensation (dispatchId : Uuid) (correlationId : String) (eventId : Uuid) (now : Date)
      (ending : CallEnd)
  | timeout (dispatchId : Uuid) (correlationId : String) (eventId : Uuid) (now : Date)
      (ending : CallEnd)

def DispatchActivity.execute (uuidInput : String → Option Uuid) : DispatchActivity → DispatchProc
  | .cancel r => DispatchesController.cancel uuidInput r
  | .start id orderId correlationId plan decisionId startedId requestedId now ending =>
    transact ending (DispatchWorkflow.start (.start id orderId correlationId now) plan decisionId
      startedId requestedId now) none
  | .completeReservation input eventId now ending =>
    transact ending (DispatchWorkflow.completeReservation input eventId now) none
  | .completeCompensation dispatchId correlationId eventId now ending =>
    transact ending (DispatchWorkflow.completeCompensation dispatchId correlationId eventId now)
      none
  | .timeout dispatchId correlationId eventId now ending =>
    transact ending (DispatchWorkflow.timeout dispatchId correlationId eventId now) none

abbrev DispatchPool := Pool DispatchDb HttpError (Option CancelResponse) DispatchActivity

/-- Any number of them at once, from the empty tables. -/
def dispatchPool (uuidInput : String → Option Uuid) :
    System DispatchPool (PoolLabel DispatchActivity) :=
  Pool.system (fun db => db = ⟨[], [], []⟩) (DispatchActivity.execute uuidInput)

abbrev DispatchPoolMove := Move DispatchPool (PoolLabel DispatchActivity)

/-- The transition is a step of the endpoint, called with `r`. -/
def StepOfCancel (r : CancelRequest) (t : DispatchPoolMove) : Prop :=
  ∃ i rest seen, t.label = .advance i ∧ t.pre.threads i = some ⟨.cancel r, rest, seen⟩

/-- The driver was given, its release is being asked for or has been answered. -/
def DispatchStatus.ending : DispatchStatus → Bool
  | .compensating | .cancelled => true
  | .searchingDriver | .assigned | .failed => false

/-- The call that cancels the dispatch: it finds it assigned, and leaves it compensating with
the call's reason and one event that asks for the driver's release. -/
structure Cancels (id : Uuid) (r : CancelRequest) (d : Dispatch) (t : DispatchPoolMove) :
    Prop where
  step : StepOfCancel r t
  assigned : ∃ before driverId reason, t.pre.shared.row id = some before ∧
    before.status = .assigned ∧ before.driverId = some driverId ∧ r.reason = some reason ∧
    t.post.shared.row id = some (r.compensated reason before) ∧
    t.post.shared.outbox = t.pre.shared.outbox ++
      [DispatchEvent.releaseRequested before (some driverId) reason r.correlationId r.eventId
        r.now] ∧
    d.driverId = some driverId ∧ d.failureReason = some reason

section Calls

variable (uuidInput : String → Option Uuid)

/-- No call of the endpoint for this dispatch changes anything here. -/
def Idle (id : Uuid) (t : DispatchPoolMove) : Prop :=
  ∀ r, StepOfCancel r t → uuidInput r.dispatchId = some id → t.post.shared = t.pre.shared

/-- Of all the calls for the dispatch, the run has one that took effect. -/
def CancelledOnce (id : Uuid) (d : Dispatch) (ts : List DispatchPoolMove) : Prop :=
  ∃ l t r call, ts = l ++ t :: r ∧ uuidInput call.dispatchId = some id ∧ Cancels id call d t ∧
    ∀ u ∈ l ++ r, Idle uuidInput id u

/-- Why a call of the endpoint ends in a 500, in the tables its last step met. -/
inductive CancelFailed (r : CancelRequest) (db : DispatchDb) : Prop
  /-- The path is no uuid. -/
  | noUuid : uuidInput r.dispatchId = none → CancelFailed r db
  | query : r.queryEnd ≠ .answered → CancelFailed r db
  /-- The body of a call for an assigned dispatch has no reason that it could trim. -/
  | body (id : Uuid) (d : Dispatch) : uuidInput r.dispatchId = some id → db.row id = some d →
      d.status = .assigned → r.reason = none → CancelFailed r db
  | command : r.commandEnd ≠ .answered → CancelFailed r db
  /-- What it writes of a dispatch that is still assigned is too long, or has a NUL. -/
  | columns (id : Uuid) (d : Dispatch) (reason : String) : uuidInput r.dispatchId = some id →
      db.row id = some d → d.status = .assigned → r.reason = some reason → ¬ r.Fits reason →
      CancelFailed r db

/-- Why the endpoint refuses a call, in the tables its last step met. -/
def CancelRefused (r : CancelRequest) (db : DispatchDb) (e : HttpError) : Prop :=
  (∃ id, uuidInput r.dispatchId = some id ∧ db.row id = none ∧
    e = .notFound s!"Dispatch {r.dispatchId} not found") ∨
  (∃ id d, uuidInput r.dispatchId = some id ∧ db.row id = some d ∧ d.status.hasDriver = false ∧
    e = .conflict s!"Dispatch {r.dispatchId} cannot be cancelled from {d.status.text}") ∨
  e = .internal ∧ CancelFailed uuidInput r db

end Calls

/-- How a dispatch goes on: it keeps its driver, and the reason it is cancelled for. -/
structure Dispatch.Onward (d d' : Dispatch) : Prop where
  driver : d.status.hasDriver = true → d'.status.hasDriver = true ∧ d'.driverId = d.driverId
  ending : d.status.ending = true → d'.status.ending = true ∧ d'.failureReason = d.failureReason

theorem DispatchMove.onward {d d' : Dispatch} {e : OutboxRow} (h : DispatchMove d d' e) :
    d.Onward d' := by
  cases h with
  | assign driverId c eventId now hs hne =>
    constructor <;> simp [hs, DispatchStatus.hasDriver, DispatchStatus.ending]
  | fail reason c eventId now hs =>
    constructor <;> simp [hs, DispatchStatus.hasDriver, DispatchStatus.ending]
  | compensate driverId reason c eventId now hs hd hne =>
    constructor <;> simp [hs, DispatchStatus.hasDriver, DispatchStatus.ending]
  | cancel c eventId now hs =>
    constructor <;> simp [DispatchStatus.hasDriver, DispatchStatus.ending]

namespace DispatchDb

/-- Every dispatch is still there and has gone on. -/
def Onward (db db' : DispatchDb) : Prop :=
  ∀ id d, db.row id = some d → ∃ d', db'.row id = some d' ∧ d.Onward d'

theorem Onward.refl (db : DispatchDb) : db.Onward db :=
  fun _ d hd => ⟨d, hd, fun h => ⟨h, rfl⟩, fun h => ⟨h, rfl⟩⟩

theorem Onward.trans {a b c : DispatchDb} (hab : a.Onward b) (hbc : b.Onward c) : a.Onward c := by
  intro id d hd
  obtain ⟨d₁, hd₁, hdriver₁, hending₁⟩ := hab id d hd
  obtain ⟨d₂, hd₂, hdriver₂, hending₂⟩ := hbc id d₁ hd₁
  refine ⟨d₂, hd₂, fun h => ?_, fun h => ?_⟩
  · obtain ⟨h₁, heq₁⟩ := hdriver₁ h
    obtain ⟨h₂, heq₂⟩ := hdriver₂ h₁
    exact ⟨h₂, heq₂.trans heq₁⟩
  · obtain ⟨h₁, heq₁⟩ := hending₁ h
    obtain ⟨h₂, heq₂⟩ := hending₂ h₁
    exact ⟨h₂, heq₂.trans heq₁⟩

/-- Every assigned dispatch names its driver. -/
def Driven (db : DispatchDb) : Prop :=
  ∀ id d, db.row id = some d → d.status = .assigned → ∃ x, d.driverId = some x ∧ x ≠ ""

/-- What a transaction makes of the row of a dispatch. -/
inductive RowStep (id : Uuid) (db db' : DispatchDb) : Prop
  | same : db'.row id = db.row id → RowStep id db db'
  | start (orderId : Uuid) (c : String) (now : Date) :
      db.row id = none → db'.row id = some (.start id orderId c now) → RowStep id db db'
  | move {d d' : Dispatch} {e : OutboxRow} :
      db.row id = some d → DispatchMove d d' e → db'.row id = some d' → RowStep id db db'

theorem row_exec_op_ne (db : DispatchDb) {op : DispatchOp} {id : Uuid} (hid : op.dispatchId ≠ id) :
    (db.exec op.body).row id = db.row id := by
  cases hrow : db.row op.dispatchId with
  | none => rw [exec_op_of_none hrow]
  | some d =>
    rw [exec_op_of_row hrow]
    cases ho : op.outcome d with
    | error e => rfl
    | ok o =>
      cases hsaved : o.saved with
      | none => simp [row, DispatchDb.after, hsaved]
      | some d' =>
        have hd' : d'.id = d.id := (saved_id (DispatchOp.step_of_outcome ho) d' hsaved).1
        have hne : d'.id ≠ id := by rw [hd', Table.key_of_find hrow]; exact hid
        simp [row, DispatchDb.after, hsaved, Table.find_save_ne hne]

theorem rowStep_op (db : DispatchDb) (op : DispatchOp) (id : Uuid) :
    RowStep id db (db.exec op.body) := by
  by_cases hid : op.dispatchId = id
  · subst hid
    cases hrow : db.row op.dispatchId with
    | none => exact .same (by rw [exec_op_of_none hrow])
    | some d =>
      rw [exec_op_of_row hrow]
      cases ho : op.outcome d with
      | error e => exact .same rfl
      | ok o =>
        have hdid : d.id = op.dispatchId := Table.key_of_find hrow
        have hstep := DispatchOp.step_of_outcome ho
        have hafter : (db.after o).row op.dispatchId = some (o.saved.getD d) :=
          row_after_ne hrow fun d' hd' => (saved_id hstep d' hd').1.trans hdid
        cases hstep with
        | move hm => exact .move hrow hm hafter
        | late | idle => exact .same (hafter.trans hrow.symm)
  · exact .same (row_exec_op_ne db hid)

theorem row_exec_start_of_some {db : DispatchDb} {id : Uuid} {d : Dispatch}
    (hd : db.row id = some d) (new : Dispatch) (plan : Option DispatchStartPlan)
    (decisionId startedId requestedId : Uuid) (now : Date) :
    (db.exec (DispatchWorkflow.start new plan decisionId startedId requestedId now)).row id =
      some d := by
  rcases db.exec_start_cases new plan decisionId startedId requestedId now with hsame |
    ⟨-, -, hstart⟩
  · rw [hsame, hd]
  · have hold : Table.find Dispatch.id id db.dispatches = some d := hd
    rw [hstart]
    simp [row, Table.find_append_singleton, hold]

theorem rowStep_start (db : DispatchDb) (newId orderId : Uuid) (c : String)
    (plan : Option DispatchStartPlan) (decisionId startedId requestedId : Uuid) (now : Date)
    (id : Uuid) : RowStep id db (db.exec (DispatchWorkflow.start (.start newId orderId c now) plan
      decisionId startedId requestedId now)) := by
  rcases db.exec_start_cases (.start newId orderId c now) plan decisionId startedId requestedId
    now with hsame | ⟨hnone, -, hstart⟩
  · rw [hsame]
    exact .same rfl
  · rw [hstart]
    by_cases hid : newId = id
    · subst hid
      have hnew : Table.find Dispatch.id newId db.dispatches = none := hnone
      refine .start orderId c now hnone ?_
      simp [row, Table.find_append_singleton, hnew, Dispatch.start]
    · refine .same ?_
      simp [row, Table.find_append_singleton, Dispatch.start, hid]

variable {db db' : DispatchDb}

theorem onward_of_rowStep (h : ∀ id, RowStep id db db') : db.Onward db' := by
  intro id d hd
  cases h id with
  | same hrow => exact ⟨d, hrow.trans hd, fun h => ⟨h, rfl⟩, fun h => ⟨h, rfl⟩⟩
  | start orderId c now hnone => simp [hnone] at hd
  | move hrow hm hrow' =>
    obtain rfl := Option.some.inj (hrow.symm.trans hd)
    exact ⟨_, hrow', hm.onward⟩

theorem Driven.step (h : db.Driven) (hstep : ∀ id, RowStep id db db') : db'.Driven := by
  intro id d hd hs
  cases hstep id with
  | same hrow => exact h id d (hrow.symm.trans hd) hs
  | start orderId c now _ hrow =>
    obtain rfl := Option.some.inj (hrow.symm.trans hd)
    cases hs
  | move hrow hm hrow' =>
    obtain rfl := Option.some.inj (hrow'.symm.trans hd)
    cases hm with
    | assign driverId c eventId now hsearching hne => exact ⟨driverId, rfl, hne⟩
    | fail | compensate | cancel => cases hs

end DispatchDb

/-- Unless an assigned dispatch is compensated, those that are ending have been so before. -/
theorem DispatchDb.RowStep.ending_before {id : Uuid} {db db' : DispatchDb} {d' : Dispatch}
    (h : RowStep id db db')
    (hassigned : ∀ d, db.row id = some d → d.status = .assigned → db'.row id = some d)
    (hd' : db'.row id = some d') (hending : d'.status.ending = true) :
    ∃ d, db.row id = some d ∧ d.status.ending = true ∧ d'.driverId = d.driverId ∧
      d'.failureReason = d.failureReason := by
  cases h with
  | same hrow => exact ⟨d', hrow.symm.trans hd', hending, rfl, rfl⟩
  | start orderId c now _ hrow =>
    obtain rfl := Option.some.inj (hrow.symm.trans hd')
    cases hending
  | @move d d₁ e hrow hm hrow' =>
    obtain rfl := Option.some.inj (hrow'.symm.trans hd')
    cases hm with
    | assign | fail => cases hending
    | compensate driverId reason c eventId now hs hd hne =>
      have hsame := (hassigned d hrow hs).symm.trans hrow'
      have hstatus := congrArg (Option.map Dispatch.status) hsame
      simp [hs] at hstatus
    | cancel c eventId now hs => exact ⟨d, hrow, by simp [hs, DispatchStatus.ending], rfl, rfl⟩

/-- The commands that compensate nothing. -/
def DispatchOp.IsOther (op : DispatchOp) : Prop :=
  ∀ dispatchId reason c eventId now, op ≠ .startCompensation dispatchId reason c eventId now

/-- The other commands leave an assigned dispatch as it is. -/
theorem DispatchOp.outcome_of_assigned {op : DispatchOp} {d : Dispatch} (hop : op.IsOther)
    (hs : d.status = .assigned) : op.outcome d = .ok ⟨none, none⟩ := by
  cases op with
  | startCompensation dispatchId reason c eventId now => exact absurd rfl (hop _ _ _ _ _)
  | completeReservation input eventId now => simp [outcome, hs]
  | completeCompensation => simp [outcome, hs]
  | timeout => simp [outcome, hs]

namespace DispatchDb

/-- A transaction is rolled back, or commits what the tables take. -/
theorem commit_cases (db : DispatchDb) (tx : DispatchTx) :
    db.commit tx = db ∨ (db.commit tx).Storable ∧ db.commit tx = db.exec tx := by
  unfold commit
  split
  · next hstorable => exact Or.inr ⟨hstorable, rfl⟩
  · exact Or.inl rfl

theorem Storable.after {db : DispatchDb} {o : DispatchOutcome} (h : db.Storable)
    (hsaved : ∀ d ∈ o.saved, d.Fits) (hevent : ∀ e ∈ o.event, e.Fits) :
    (db.after o).Storable := by
  obtain ⟨hdispatches, hdecisions, houtbox⟩ := h
  refine ⟨fun d hd => ?_, hdecisions, fun e he => ?_⟩
  · cases ho : o.saved with
    | none => exact hdispatches d (by simpa [DispatchDb.after, ho] using hd)
    | some d' =>
      have hd : d ∈ Table.save Dispatch.id d' db.dispatches := by
        simpa [DispatchDb.after, ho] using hd
      rcases Table.mem_of_mem_save hd with rfl | hd
      · exact hsaved d ho
      · exact hdispatches d hd
  · have he : e ∈ db.outbox ++ o.event.toList := he
    rcases List.mem_append.1 he with he | he
    · exact houtbox e he
    · exact hevent e (Option.mem_toList.1 he)

end DispatchDb

namespace CancelRequest

variable (r : CancelRequest) {reason : String} {d : Dispatch} {driverId id : Uuid}

theorem outcome_of_assigned (hs : d.status = .assigned) (hd : d.driverId = some driverId)
    (hne : driverId ≠ "") : (r.command id reason).outcome d = .ok ⟨some (r.compensated reason d),
      some (DispatchEvent.releaseRequested d (some driverId) reason r.correlationId r.eventId
        r.now)⟩ := by
  simp [command, compensated, DispatchOp.outcome, hs, Dispatch.startCompensation, hd, hne,
    Except.map, DispatchEvent.releaseRequested]

theorem outcome_of_ending (hs : d.status.ending = true) :
    (r.command id reason).outcome d = .ok ⟨none, none⟩ := by
  cases hstatus : d.status <;> simp_all [DispatchStatus.ending, command, DispatchOp.outcome]

variable {r} {db : DispatchDb}

theorem exec_of_ending (hd : db.row id = some d) (hs : d.status.ending = true) :
    db.exec (r.command id reason).body = db := by
  have hrow : db.row (r.command id reason).dispatchId = some d := hd
  rw [DispatchDb.exec_op_of_row hrow, r.outcome_of_ending hs]
  simp [DispatchDb.after]

theorem exec_of_assigned (reason : String) (hd : db.row id = some d) (hs : d.status = .assigned)
    (hdriver : d.driverId = some driverId) (hne : driverId ≠ "") :
    (db.exec (r.command id reason).body).row id = some (r.compensated reason d) ∧
    (db.exec (r.command id reason).body).outbox = db.outbox ++
      [DispatchEvent.releaseRequested d (some driverId) reason r.correlationId r.eventId
        r.now] := by
  have hrow : db.row (r.command id reason).dispatchId = some d := hd
  rw [DispatchDb.exec_op_of_row hrow, r.outcome_of_assigned hs hdriver hne]
  refine ⟨DispatchDb.row_after_ne hd fun d' hd' => ?_, rfl⟩
  obtain rfl := Option.some.inj hd'
  have hid : d.id = id := Table.key_of_find hd
  exact hid

/-- The command writes nothing that does not fit but the texts of the call. -/
theorem storable_exec (hdb : db.Storable) (hd : db.row id = some d) (hs : d.status = .assigned)
    (hdriver : d.driverId = some driverId) (hne : driverId ≠ "") (hfits : r.Fits reason) :
    (db.exec (r.command id reason).body).Storable := by
  have hrow : db.row (r.command id reason).dispatchId = some d := hd
  rw [DispatchDb.exec_op_of_row hrow, r.outcome_of_assigned hs hdriver hne]
  refine hdb.after (fun d' hd' => ?_) fun e he => ?_
  · obtain rfl := Option.some.inj hd'
    have hold : d.Fits := hdb.1 d (Table.mem_of_find hd)
    refine ⟨hold.1, fun text htext => ?_⟩
    obtain rfl := Option.some.inj htext
    exact hfits.1
  · obtain rfl := Option.some.inj he
    exact hfits.2

/-- The command does not throw where there is a row for it: only the tables can refuse it. -/
theorem replyAfter_of_outcome {o : DispatchOutcome} {answer : Option CancelResponse}
    (hd : db.row id = some d) (ho : (r.command id reason).outcome d = .ok o) :
    replyAfter (r.command id reason).body answer db =
      if (db.exec (r.command id reason).body).Storable then .done answer
      else .throw .internal := by
  have hrow : db.row (r.command id reason).dispatchId = some d := hd
  have hrun : (r.command id reason).body.run (fun _ _ => false) db = .ok ((), db.after o) := by
    rw [DispatchOp.run_body, hrow]
    simp [ho, Except.map]
  rw [DispatchDb.exec_op_of_row hrow, ho, replyAfter, hrun]

end CancelRequest

section Steps

open Pool DispatchesController

variable {uuidInput : String → Option Uuid} {r : CancelRequest} {p : DispatchActivity}
  {seen : Option DispatchDb} {rest : DispatchProc} {effect : DispatchDb → DispatchDb}
  {next : DispatchDb → DispatchProc} {ending : CallEnd} {tx : DispatchTx}
  {answer : Option CancelResponse}

theorem finished_replyAfter (db : DispatchDb) : (replyAfter tx answer db).finished = true := by
  unfold replyAfter
  split
  · split <;> rfl
  · rfl

/-- After a transaction nothing is left to do. -/
theorem finished_of_transact (h : .step effect next = transact ending tx answer)
    (db : DispatchDb) : (next db).finished = true := by
  rcases (Proc.call_cases h db).2 with ⟨-, hnext⟩ | ⟨-, hnext⟩
  · rw [hnext]
    exact finished_replyAfter db
  · rw [hnext]
    rfl

/-- The endpoint goes on to its command only from an assigned dispatch, and with a reason. -/
theorem assigned_of_cancelFound {id : Uuid} {found : Option Dispatch}
    (h : .step effect next = cancelFound r id found) :
    (∃ d, found = some d ∧ d.status = .assigned) ∧ ∃ reason, r.reason = some reason ∧
      .step effect next = transact r.commandEnd (r.command id reason).body (some r.response) := by
  unfold cancelFound at h
  split at h
  · cases h
  · next d =>
    split at h
    · cases h
    · split at h
      · next hs =>
        refine ⟨⟨d, rfl, hs⟩, ?_⟩
        split at h
        · next reason hreason => exact ⟨reason, hreason, h⟩
        · cases h
      · cases h

/-- What is left of a call of the endpoint, and what its query found. -/
theorem cancel_residual (h : Residual (DispatchActivity.execute uuidInput) (.cancel r) seen rest) :
    (seen = none ∧ rest = cancel uuidInput r) ∨ ∃ s, seen = some s ∧ (rest.finished = true ∨
      ∃ id, uuidInput r.dispatchId = some id ∧ rest = cancelFound r id (s.row id)) := by
  induction h with
  | start => exact Or.inl ⟨rfl, rfl⟩
  | @next _ effect k s _ ih =>
    refine Or.inr ⟨s, rfl, ?_⟩
    rcases ih with ⟨-, heq⟩ | ⟨s₀, -, hfin | ⟨id, hid, heq⟩⟩
    · cases hid : uuidInput r.dispatchId with
      | none =>
        rw [cancel, hid] at heq
        obtain ⟨-, rfl⟩ := Proc.step.inj heq
        exact Or.inl rfl
      | some id =>
        rw [cancel, hid] at heq
        rcases (Proc.call_cases heq s).2 with ⟨-, hnext⟩ | ⟨-, hnext⟩
        · exact Or.inr ⟨id, rfl, hnext⟩
        · exact Or.inl (by rw [hnext]; rfl)
    · cases hfin
    · obtain ⟨-, reason, -, hcommand⟩ := assigned_of_cancelFound heq
      exact Or.inl (finished_of_transact hcommand s)

/-- The other activities are one transaction each. -/
theorem transact_residual (hp : p.execute uuidInput = transact ending tx none)
    (h : Residual (DispatchActivity.execute uuidInput) p seen rest) :
    rest = transact ending tx none ∨ rest.finished = true := by
  induction h with
  | start => exact Or.inl hp
  | next s _ ih =>
    rcases ih with heq | hfin
    · exact Or.inr (finished_of_transact heq s)
    · cases hfin

/-- The step commits the transaction. -/
structure Commits (tx : DispatchTx) (t : DispatchPoolMove) : Prop where
  exec : t.post.shared = t.pre.shared.exec tx
  storable : t.post.shared.Storable

theorem commits_of_transact {S S' : DispatchPool} (a : PoolLabel DispatchActivity)
    (h : .step effect next = transact ending tx answer) (hpost : S'.shared = effect S.shared) :
    S'.shared = S.shared ∨ Commits tx ⟨S, a, S'⟩ := by
  rw [(Proc.call_cases h S.shared).1] at hpost
  rcases ending.apply_cases (fun db : DispatchDb => db.commit tx) with heffect | heffect
  · rw [heffect] at hpost
    rcases S.shared.commit_cases tx with hback | ⟨hstorable, hexec⟩
    · exact Or.inl (hpost.trans hback)
    · exact Or.inr ⟨hpost.trans hexec, hpost ▸ hstorable⟩
  · rw [heffect] at hpost
    exact Or.inl hpost

/-- What a step of the pool does to the tables: nothing, the command of a call that found its
dispatch assigned, or one of the other transactions. -/
inductive Does (uuidInput : String → Option Uuid) (t : DispatchPoolMove) : Prop
  | nothing : t.post.shared = t.pre.shared → Does uuidInput t
  | command (i : ℕ) (r : CancelRequest) (rest : DispatchProc) (s : DispatchDb) (id : Uuid)
      (d : Dispatch) (reason : String) : t.label = .advance i →
      t.pre.threads i = some ⟨.cancel r, rest, some s⟩ → uuidInput r.dispatchId = some id →
      s.row id = some d → d.status = .assigned → r.reason = some reason →
      Commits (r.command id reason).body t → Does uuidInput t
  | op (op : DispatchOp) : (∀ r, ¬ StepOfCancel r t) → op.IsOther → Commits op.body t →
      Does uuidInput t
  | start (id orderId : Uuid) (c : String) (plan : Option DispatchStartPlan)
      (decisionId startedId requestedId : Uuid) (now : Date) : (∀ r, ¬ StepOfCancel r t) →
      Commits (DispatchWorkflow.start (.start id orderId c now) plan decisionId startedId
        requestedId now) t → Does uuidInput t

theorem does_of_step {ts : List DispatchPoolMove} {S S' : DispatchPool}
    {a : PoolLabel DispatchActivity} (hrun : (dispatchPool uuidInput).Run ts S)
    (hs : (dispatchPool uuidInput).step S a = some S') : Does uuidInput ⟨S, a, S'⟩ := by
  rcases Pool.step_cases hs with ⟨i, p, rfl, hi, rfl⟩ | ⟨i, p, effect, next, seen, rfl, hi, hS'⟩
  · exact .nothing rfl
  have hpost : S'.shared = effect S.shared := by
    rw [hS']
    rfl
  have hres := Pool.run_residual hrun i _ hi
  have hother (hp : ∀ r, p ≠ .cancel r) : ∀ r, ¬ StepOfCancel r ⟨S, .advance i, S'⟩ := by
    rintro r ⟨j, rest, seen', hlabel, hj⟩
    obtain rfl : i = j := by simpa using hlabel
    exact hp r (Thread.mk.inj (Option.some.inj (hi.symm.trans hj))).1
  have hsingle {ending : CallEnd} {tx : DispatchTx}
      (hp : p.execute uuidInput = transact ending tx none)
      (hdoes : Commits tx ⟨S, .advance i, S'⟩ → Does uuidInput ⟨S, .advance i, S'⟩) :
      Does uuidInput ⟨S, .advance i, S'⟩ := by
    rcases transact_residual hp hres with heq | hfin
    · rcases commits_of_transact (.advance i) heq hpost with hsame | hcommits
      · exact .nothing hsame
      · exact hdoes hcommits
    · cases hfin
  cases p with
  | cancel r =>
    rcases cancel_residual hres with ⟨-, heq⟩ | ⟨s, hseen, hfin | ⟨id, hid, heq⟩⟩
    · have hsame : effect S.shared = S.shared := by
        cases hid : uuidInput r.dispatchId with
        | none =>
          rw [cancel, hid] at heq
          obtain ⟨rfl, -⟩ := Proc.step.inj heq
          rfl
        | some id =>
          rw [cancel, hid] at heq
          rw [(Proc.call_cases heq S.shared).1]
          rcases r.queryEnd.apply_cases (fun db : DispatchDb => db) with heffect | heffect
          · rw [heffect]
          · rw [heffect]
            rfl
      exact .nothing (hpost.trans hsame)
    · cases hfin
    · obtain ⟨⟨d, hd, hstatus⟩, reason, hreason, hcommand⟩ := assigned_of_cancelFound heq
      have hseen : seen = some s := hseen
      rw [hseen] at hi
      rcases commits_of_transact (.advance i) hcommand hpost with hsame | hcommits
      · exact .nothing hsame
      · exact .command i r _ s id d reason rfl hi hid hd hstatus hreason hcommits
  | start id orderId c plan decisionId startedId requestedId now ending =>
    exact hsingle rfl (.start id orderId c plan decisionId startedId requestedId now
      (hother (by simp)))
  | completeReservation input eventId now ending =>
    exact hsingle rfl (.op (.completeReservation input eventId now) (hother (by simp))
      (by simp [DispatchOp.IsOther]))
  | completeCompensation dispatchId c eventId now ending =>
    exact hsingle rfl (.op (.completeCompensation dispatchId c eventId now) (hother (by simp))
      (by simp [DispatchOp.IsOther]))
  | timeout dispatchId c eventId now ending =>
    exact hsingle rfl (.op (.timeout dispatchId c eventId now) (hother (by simp))
      (by simp [DispatchOp.IsOther]))

theorem Does.rowStep {t : DispatchPoolMove} (h : Does uuidInput t) (id : Uuid) :
    DispatchDb.RowStep id t.pre.shared t.post.shared := by
  cases h with
  | nothing heq => exact .same (by rw [heq])
  | command i r rest s callId d reason _ _ _ _ _ _ hcommits =>
    exact hcommits.exec ▸ DispatchDb.rowStep_op _ (r.command callId reason) id
  | op op _ _ hcommits => exact hcommits.exec ▸ DispatchDb.rowStep_op _ op id
  | start newId orderId c plan decisionId startedId requestedId now _ hcommits =>
    exact hcommits.exec ▸ DispatchDb.rowStep_start _ _ _ _ _ _ _ _ _ id

theorem Does.storable {t : DispatchPoolMove} (h : Does uuidInput t)
    (hpre : t.pre.shared.Storable) : t.post.shared.Storable := by
  cases h with
  | nothing heq => exact heq ▸ hpre
  | command i r rest s callId d reason _ _ _ _ _ _ hcommits => exact hcommits.storable
  | op op _ _ hcommits => exact hcommits.storable
  | start newId orderId c plan decisionId startedId requestedId now _ hcommits =>
    exact hcommits.storable

end Steps

section Runs

open DispatchesController

variable {uuidInput : String → Option Uuid} {ts : List DispatchPoolMove} {S S' : DispatchPool}
  {r : CancelRequest} {i : ℕ} {id : Uuid} {d d' : Dispatch} {t : DispatchPoolMove}

theorem driven_of_run (hrun : (dispatchPool uuidInput).Run ts S) : S.shared.Driven := by
  induction hrun with
  | nil hinit =>
    intro id d hd
    have hempty : _ = (⟨[], [], []⟩ : DispatchDb) := hinit.1
    rw [hempty] at hd
    cases hd
  | snoc hrun hs ih => exact ih.step (does_of_step hrun hs).rowStep

theorem storable_of_run (hrun : (dispatchPool uuidInput).Run ts S) : S.shared.Storable := by
  induction hrun with
  | nil hinit =>
    have hempty : _ = (⟨[], [], []⟩ : DispatchDb) := hinit.1
    rw [hempty]
    simp [DispatchDb.Storable]
  | snoc hrun hs ih => exact (does_of_step hrun hs).storable ih

theorem does_of_mem (hrun : (dispatchPool uuidInput).Run ts S) (ht : t ∈ ts) :
    Does uuidInput t := by
  obtain ⟨l, -, hpre, hs⟩ := hrun.of_mem ht
  exact does_of_step hpre hs

theorem onward_after (hrun : (dispatchPool uuidInput).Run ts S) {l rs : List DispatchPoolMove}
    (hts : ts = l ++ t :: rs) : t.post.shared.Onward S.shared := by
  refine hrun.across (C := Does uuidInput) (R := fun P Q => P.shared.Onward Q.shared)
    (fun P => .refl P.shared) (fun _ _ _ => .trans) (fun _ _ _ _ hdoes => ?_)
    (fun u hu => does_of_mem hrun hu) hts
  exact DispatchDb.onward_of_rowStep hdoes.rowStep

/-- What a call has seen has gone on since. -/
theorem onward_of_seen (hrun : (dispatchPool uuidInput).Run ts S)
    {th : Thread DispatchDb HttpError (Option CancelResponse) DispatchActivity}
    (hi : S.threads i = some th) {s : DispatchDb} (hseen : th.seen = some s) :
    s.Onward S.shared := by
  obtain ⟨l, u, rs, -, -, -, hts, -, rfl, -⟩ := Pool.last_step hrun hi hseen
  have hu : u ∈ ts := by simp [hts]
  have hlast := DispatchDb.onward_of_rowStep (does_of_mem hrun hu).rowStep
  exact hlast.trans (onward_after hrun hts)

/-- When the command of a call is run, its dispatch has a driver still. -/
theorem row_of_command (hrun : (dispatchPool uuidInput).Run ts S) {s : DispatchDb}
    {rest : DispatchProc} (hi : S.threads i = some ⟨.cancel r, rest, some s⟩)
    (hd : s.row id = some d) (hs : d.status = .assigned) :
    ∃ d', S.shared.row id = some d' ∧ (d'.status.ending = true ∨
      d'.status = .assigned ∧ ∃ x, d'.driverId = some x ∧ x ≠ "") := by
  obtain ⟨d', hd', honward⟩ := onward_of_seen hrun hi rfl id d hd
  have hdriver := (honward.driver (by rw [hs]; rfl)).1
  refine ⟨d', hd', ?_⟩
  cases hstatus : d'.status with
  | searchingDriver | failed => simp [hstatus, DispatchStatus.hasDriver] at hdriver
  | compensating | cancelled => exact Or.inl rfl
  | assigned => exact Or.inr ⟨rfl, driven_of_run hrun id d' hd' hstatus⟩

theorem CancelledOnce.snoc (h : CancelledOnce uuidInput id d ts) (hidle : Idle uuidInput id t)
    (hdriver : d'.driverId = d.driverId) (hreason : d'.failureReason = d.failureReason) :
    CancelledOnce uuidInput id d' (ts ++ [t]) := by
  obtain ⟨l, u, r, call, rfl, hid, ⟨hstep, before, driverId, reason, hb⟩, hothers⟩ := h
  refine ⟨l, u, r ++ [t], call, by simp, hid, ⟨hstep, before, driverId, reason, ?_⟩,
    fun v hv => ?_⟩
  · obtain ⟨hrow, hs, hd, htext, hpost, houtbox, hlast, hfor⟩ := hb
    exact ⟨hrow, hs, hd, htext, hpost, houtbox, hdriver.trans hlast, hreason.trans hfor⟩
  · rw [← List.append_assoc] at hv
    rcases List.mem_append.1 hv with hv | hv
    · exact hothers v hv
    · exact List.mem_singleton.1 hv ▸ hidle

/-- The dispatch has been cancelled by one call exactly, or by none so far. -/
structure Accounted (uuidInput : String → Option Uuid) (id : Uuid) (ts : List DispatchPoolMove)
    (S : DispatchPool) : Prop where
  once : ∀ d, S.shared.row id = some d → d.status.ending = true → CancelledOnce uuidInput id d ts
  none : (∀ d, S.shared.row id = some d → d.status.ending = false) →
    ∀ t ∈ ts, Idle uuidInput id t

/-- A step that compensates nothing keeps the account. -/
theorem Accounted.snoc {a : PoolLabel DispatchActivity} (h : Accounted uuidInput id ts S)
    (hidle : Idle uuidInput id ⟨S, a, S'⟩) (hrow : DispatchDb.RowStep id S.shared S'.shared)
    (hassigned : ∀ d, S.shared.row id = some d → d.status = .assigned →
      S'.shared.row id = some d) : Accounted uuidInput id (ts ++ [⟨S, a, S'⟩]) S' := by
  refine ⟨fun d' hd' hending => ?_, fun hnot t ht => ?_⟩
  · obtain ⟨d, hd, hbefore, hdriver, hreason⟩ := hrow.ending_before hassigned hd' hending
    exact (h.once d hd hbefore).snoc hidle hdriver hreason
  · have hold : ∀ d, S.shared.row id = some d → d.status.ending = false := by
      intro d hd
      obtain ⟨d', hd', honward⟩ : ∃ d', S'.shared.row id = some d' ∧ d.Onward d' := by
        cases hrow with
        | same heq => exact ⟨d, heq.trans hd, fun h => ⟨h, rfl⟩, fun h => ⟨h, rfl⟩⟩
        | start orderId c now hnone => simp [hnone] at hd
        | move hd₀ hm hd' =>
          obtain rfl := Option.some.inj (hd₀.symm.trans hd)
          exact ⟨_, hd', hm.onward⟩
      have hnot' := hnot d' hd'
      by_contra hbefore
      have hafter := (honward.ending (by simpa using hbefore)).1
      rw [hnot'] at hafter
      cases hafter
    rcases List.mem_append.1 ht with ht | ht
    · exact h.none hold t ht
    · exact List.mem_singleton.1 ht ▸ hidle

theorem idle_of_same (h : t.post.shared = t.pre.shared) : Idle uuidInput id t := fun _ _ _ => h

theorem idle_of_other (h : ∀ r, ¬ StepOfCancel r t) : Idle uuidInput id t :=
  fun r hr _ => absurd hr (h r)

theorem accounted_of_run (hrun : (dispatchPool uuidInput).Run ts S) (id : Uuid) :
    Accounted uuidInput id ts S := by
  induction hrun with
  | nil hinit =>
    refine ⟨fun d hd => ?_, fun _ t ht => absurd ht List.not_mem_nil⟩
    have hempty : _ = (⟨[], [], []⟩ : DispatchDb) := hinit.1
    rw [hempty] at hd
    cases hd
  | @snoc ts S S' a hrun hs ih =>
    have hdoes := does_of_step hrun hs
    have hrow := hdoes.rowStep id
    cases hdoes with
    | nothing heq =>
      refine ih.snoc (idle_of_same heq) hrow fun d hd _ => ?_
      rw [show S'.shared = S.shared from heq]
      exact hd
    | op op hnot hop hcommits =>
      refine ih.snoc (idle_of_other hnot) hrow fun d hd hs => ?_
      rw [show S'.shared = S.shared.exec op.body from hcommits.exec]
      by_cases hid : op.dispatchId = id
      · subst hid
        rw [DispatchDb.exec_op_of_row hd, DispatchOp.outcome_of_assigned hop hs]
        simpa [DispatchDb.after, DispatchDb.row] using hd
      · rw [DispatchDb.row_exec_op_ne _ hid, hd]
    | start newId orderId c plan decisionId startedId requestedId now hnot hcommits =>
      refine ih.snoc (idle_of_other hnot) hrow fun d hd _ => ?_
      exact hcommits.exec ▸ DispatchDb.row_exec_start_of_some hd _ plan _ _ _ _
    | command i r rest s callId d₀ reason hlabel hi hcall hd₀ hs₀ hreason hcommits =>
      have hstep : StepOfCancel r ⟨S, a, S'⟩ := ⟨i, _, _, hlabel, hi⟩
      have heq : S'.shared = S.shared.exec (r.command callId reason).body := hcommits.exec
      by_cases hid : callId = id
      · subst hid
        obtain ⟨d, hd, hstatus⟩ := row_of_command hrun hi hd₀ hs₀
        rcases hstatus with hending | ⟨hassigned, driverId, hdriver, hne⟩
        · -- another call was first: this one finds nothing to do
          have hsame : S'.shared = S.shared := heq.trans (CancelRequest.exec_of_ending hd hending)
          refine ih.snoc (idle_of_same hsame) hrow fun d hd _ => ?_
          rw [hsame]
          exact hd
        · have hnone := ih.none fun d' hd' => by
            obtain rfl := Option.some.inj (hd.symm.trans hd')
            simp [hassigned, DispatchStatus.ending]
          obtain ⟨hpost, houtbox⟩ :=
            CancelRequest.exec_of_assigned (r := r) reason hd hassigned hdriver hne
          rw [← heq] at hpost houtbox
          refine ⟨fun d' hd' _ => ?_, fun hnot => ?_⟩
          · obtain rfl := Option.some.inj (hpost.symm.trans hd')
            exact ⟨ts, ⟨S, a, S'⟩, [], r, rfl, hcall, ⟨hstep, d, driverId, reason, hd, hassigned,
              hdriver, hreason, hpost, houtbox, hdriver, rfl⟩, by simpa using hnone⟩
          · have hfalse := hnot _ hpost
            cases hfalse
      · refine ih.snoc (fun r' hr' hid' => ?_) hrow fun d hd _ => ?_
        · obtain ⟨j, rest', seen, hj, hthread⟩ := hr'
          have hij : PoolLabel.advance i = .advance j := hlabel.symm.trans hj
          obtain rfl := PoolLabel.advance.inj hij
          have hsame := (Thread.mk.inj (Option.some.inj (hi.symm.trans hthread))).1
          rw [← DispatchActivity.cancel.inj hsame, hcall] at hid'
          exact absurd (Option.some.inj hid') hid
        · have hother : (r.command callId reason).dispatchId ≠ id := hid
          rw [heq, DispatchDb.row_exec_op_ne _ hother]
          exact hd

/-- How a call that is over has ended: refused, or answered for a dispatch that is ending. -/
def CancelEnded (uuidInput : String → Option Uuid) (r : CancelRequest) (t : DispatchPoolMove)
    (rest : DispatchProc) : Prop :=
  (∃ e, rest = .throw e ∧ CancelRefused uuidInput r t.pre.shared e) ∨
    rest = .done (some r.response) ∧ ∃ id d, uuidInput r.dispatchId = some id ∧
      t.post.shared.row id = some d ∧ d.status.ending = true

theorem CancelEnded.internal {rest : DispatchProc} (hrest : rest = .throw .internal)
    (hcause : CancelFailed uuidInput r t.pre.shared) : CancelEnded uuidInput r t rest :=
  Or.inl ⟨.internal, hrest, Or.inr (Or.inr ⟨rfl, hcause⟩)⟩

/-- The query decides the call, unless the dispatch is assigned. -/
theorem ended_cancelFound (hid : uuidInput r.dispatchId = some id)
    (hpost : t.post.shared = t.pre.shared)
    (h : (cancelFound r id (t.pre.shared.row id)).finished = true) :
    CancelEnded uuidInput r t (cancelFound r id (t.pre.shared.row id)) := by
  cases hrow : t.pre.shared.row id with
  | none => exact Or.inl ⟨_, rfl, Or.inl ⟨id, hid, hrow, rfl⟩⟩
  | some d =>
    cases hs : d.status with
    | searchingDriver | failed =>
      refine Or.inl ⟨_, by simp [cancelFound, hs], Or.inr (Or.inl ⟨id, d, hid, hrow, ?_, rfl⟩)⟩
      rw [hs]
      rfl
    | compensating | cancelled =>
      refine Or.inr ⟨by simp [cancelFound, hs], id, d, hid, ?_, ?_⟩
      · rw [hpost, hrow]
      · rw [hs]
        rfl
    | assigned =>
      cases hreason : r.reason with
      | none =>
        exact .internal (by simp [cancelFound, hs, hreason]) (.body id d hid hrow hs hreason)
      | some reason =>
        rw [hrow, cancelFound] at h
        simp [hs, hreason, transact, Proc.call, Proc.finished] at h

/-- The command that follows it throws only if the database does not take what it writes. -/
theorem ended_command (hrun : (dispatchPool uuidInput).Run ts t.pre) {rest : DispatchProc}
    {s : DispatchDb} {reason : String}
    (hi : t.pre.threads i = some ⟨.cancel r, rest, some s⟩) (hid : uuidInput r.dispatchId = some id)
    (hd : s.row id = some d) (hs : d.status = .assigned) (hreason : r.reason = some reason)
    (hpost : t.post.shared = t.pre.shared.commit (r.command id reason).body) :
    CancelEnded uuidInput r t
      (replyAfter (r.command id reason).body (some r.response) t.pre.shared) := by
  obtain ⟨d', hd', hstatus⟩ := row_of_command hrun hi hd hs
  have hstorable := storable_of_run hrun
  rcases hstatus with hending | ⟨hassigned, driverId, hdriver, hne⟩
  · have hexec : t.pre.shared.exec (r.command id reason).body = t.pre.shared :=
      CancelRequest.exec_of_ending hd' hending
    rw [DispatchDb.commit, hexec, if_pos hstorable] at hpost
    rw [CancelRequest.replyAfter_of_outcome hd' (r.outcome_of_ending hending), hexec,
      if_pos hstorable]
    exact Or.inr ⟨rfl, id, d', hid, hpost ▸ hd', hending⟩
  · rw [CancelRequest.replyAfter_of_outcome hd'
      (r.outcome_of_assigned hassigned hdriver hne)]
    by_cases hfits : (t.pre.shared.exec (r.command id reason).body).Storable
    · rw [DispatchDb.commit, if_pos hfits] at hpost
      rw [if_pos hfits]
      refine Or.inr ⟨rfl, id, r.compensated reason d', hid, ?_, rfl⟩
      rw [hpost]
      exact (CancelRequest.exec_of_assigned reason hd' hassigned hdriver hne).1
    · rw [if_neg hfits]
      refine .internal rfl (.columns id d' reason hid hd' hassigned hreason fun h => hfits ?_)
      exact CancelRequest.storable_exec hstorable hd' hassigned hdriver hne h

/-- How a call that is over has ended, at the step that ended it. -/
theorem ended_of_run (hrun : (dispatchPool uuidInput).Run ts S) {rest : DispatchProc}
    {seen : Option DispatchDb} (hi : S.threads i = some ⟨.cancel r, rest, seen⟩)
    (hfin : rest.finished = true) :
    ∃ t ∈ ts, t.label = .advance i ∧ CancelEnded uuidInput r t rest := by
  have hres := Pool.run_residual hrun i _ hi
  cases hseen : seen with
  | none =>
    rcases cancel_residual hres with ⟨-, heq⟩ | ⟨s, hs, -⟩
    · have heq : rest = cancel uuidInput r := heq
      rw [heq, cancel] at hfin
      cases hid : uuidInput r.dispatchId <;> simp [hid, Proc.read, Proc.call, Proc.finished] at hfin
    · exact absurd (hs.symm.trans hseen) (by simp)
  | some s =>
    obtain ⟨l, u, rs, effect, next, seen', hts, hlabel, rfl, hu, hpost, hrest⟩ :=
      Pool.last_step hrun hi hseen
    refine ⟨u, by simp [hts], hlabel, ?_⟩
    have hpre := (hrun.split hts).1
    have hrest : rest = next u.pre.shared := hrest
    rcases cancel_residual (Pool.run_residual hpre i _ hu) with ⟨-, heq⟩ |
      ⟨s₀, hs₀, hnever | ⟨id, hid, heq⟩⟩
    · -- the call ended at its query
      cases hid : uuidInput r.dispatchId with
      | none =>
        rw [cancel, hid] at heq
        obtain ⟨-, rfl⟩ := Proc.step.inj heq
        exact .internal hrest (.noUuid hid)
      | some id =>
        rw [cancel, hid] at heq
        obtain ⟨rfl, hnext⟩ := Proc.call_cases heq u.pre.shared
        rcases hnext with ⟨hanswered, hnext⟩ | ⟨hfailed, hnext⟩
        · rw [hanswered] at hpost
          rw [hrest.trans hnext] at hfin ⊢
          exact ended_cancelFound hid hpost hfin
        · exact .internal (hrest.trans hnext) (.query hfailed)
    · cases hnever
    · -- the call ended at its command
      obtain ⟨⟨d₀, hd₀, hstatus₀⟩, reason, hreason, hcommand⟩ := assigned_of_cancelFound heq
      obtain ⟨rfl, hnext⟩ := Proc.call_cases hcommand u.pre.shared
      rcases hnext with ⟨hanswered, hnext⟩ | ⟨hfailed, hnext⟩
      · rw [hanswered] at hpost
        have hs₀ : seen' = some s₀ := hs₀
        rw [hs₀] at hu
        rw [hrest.trans hnext]
        exact ended_command hpre hu hid hd₀ hstatus₀ hreason hpost
      · exact .internal (hrest.trans hnext) (.command hfailed)

/-- The endpoint in any interleaving. A call is refused as not found, or as in conflict with a
status that its own look at the dispatch found, or because the database failed it or could not
read or store what it sent: what the controller checked still holds when its command runs. Once
a call has been answered the dispatch is, and stays, on its way to CANCELLED, by exactly one of
the calls made for it. -/
theorem cancel_of_run (hrun : (dispatchPool uuidInput).Run ts S) {rest : DispatchProc}
    {seen : Option DispatchDb} (hi : S.threads i = some ⟨.cancel r, rest, seen⟩) :
    (∀ e, rest = .throw e →
      ∃ t ∈ ts, t.label = .advance i ∧ CancelRefused uuidInput r t.pre.shared e) ∧
    ∀ answer, rest = .done answer → answer = some r.response ∧
      ∃ id d, uuidInput r.dispatchId = some id ∧ S.shared.row id = some d ∧
        d.status.ending = true ∧ CancelledOnce uuidInput id d ts := by
  refine ⟨fun e he => ?_, fun answer hanswer => ?_⟩
  · obtain ⟨t, ht, hlabel, hend⟩ := ended_of_run hrun hi (by rw [he]; rfl)
    rcases hend with ⟨e', he', hrefused⟩ | ⟨hdone, -⟩
    · obtain rfl := Proc.throw.inj (he.symm.trans he')
      exact ⟨t, ht, hlabel, hrefused⟩
    · cases he.symm.trans hdone
  · obtain ⟨t, ht, hlabel, hend⟩ := ended_of_run hrun hi (by rw [hanswer]; rfl)
    rcases hend with ⟨e', he', -⟩ | ⟨hdone, id, d, hid, hd, hending⟩
    · cases hanswer.symm.trans he'
    · refine ⟨Proc.done.inj (hanswer.symm.trans hdone), ?_⟩
      obtain ⟨l, rs, hts⟩ := List.append_of_mem ht
      obtain ⟨d', hd', honward⟩ := onward_after hrun hts id d hd
      have hending' := (honward.ending hending).1
      exact ⟨id, d', hid, hd', hending', (accounted_of_run hrun id).once d' hd' hending'⟩

def sampleId : Uuid := "3f1c6f6e-0d4b-4a54-9a57-2f9b6c1d7e10"

/-- Postgres reads an id in either case, and nothing that is no id. -/
def sampleUuidInput (text : String) : Option Uuid :=
  if text = sampleId ∨ text = "3F1C6F6E-0D4B-4A54-9A57-2F9B6C1D7E10" then some sampleId else none

def sampleCancel (dispatchId : String) (body : CancelBody) (header : Option String)
    (eventId : Uuid) : CancelRequest :=
  ⟨dispatchId, body, header, "corr-2", eventId, 3, .answered, .answered⟩

/-- Of four calls two are refused: one names no uuid, and the correlation id of another is longer
than its column. The other two find the dispatch assigned before either runs its command. -/
def cancelRace : List (PoolLabel DispatchActivity) :=
  [.spawn 0 (.start sampleId "order-1" "corr-1" none "id-1" "id-2" "id-3" 1 .answered), .advance 0,
    .spawn 1 (.completeReservation ⟨sampleId, "order-1", some "driver-1", none, "corr-1"⟩ "id-4" 2
      .answered), .advance 1,
    .spawn 2 (.cancel (sampleCancel "dispatch-1" .noReason none "id-5")), .advance 2,
    .spawn 3 (.cancel (sampleCancel sampleId .noReason
      (some (String.ofList (List.replicate 121 'c'))) "id-6")), .advance 3, .advance 3,
    .spawn 4 (.cancel (sampleCancel sampleId .noReason none "id-7")),
    .spawn 5 (.cancel (sampleCancel "3F1C6F6E-0D4B-4A54-9A57-2F9B6C1D7E10" (.reason " late ") none
      "id-8")), .advance 4, .advance 5, .advance 5, .advance 4]

set_option maxRecDepth 4000 in
theorem cancel_race : ∃ S d ts, (dispatchPool sampleUuidInput).replay
      ⟨⟨[], [], []⟩, fun _ => none⟩ cancelRace = some S ∧
    (dispatchPool sampleUuidInput).moves ⟨⟨[], [], []⟩, fun _ => none⟩ cancelRace = ts ∧
    (∃ r, ∃ t ∈ ts, t.label = .advance 2 ∧
      CancelRefused sampleUuidInput r t.pre.shared .internal) ∧
    (∃ r, ∃ t ∈ ts, t.label = .advance 3 ∧
      CancelRefused sampleUuidInput r t.pre.shared .internal) ∧
    S.shared.row sampleId = some d ∧ d.status.ending = true ∧
    CancelledOnce sampleUuidInput sampleId d ts := by
  obtain ⟨S, hS, ⟨r₂, seen₂, h₂⟩, ⟨r₃, seen₃, h₃⟩, r₄, answer, seen₄, h₄, hr₄⟩ :
      ∃ S, (dispatchPool sampleUuidInput).replay ⟨⟨[], [], []⟩, fun _ => none⟩ cancelRace =
        some S ∧ (∃ r seen, S.threads 2 = some ⟨.cancel r, .throw .internal, seen⟩) ∧
      (∃ r seen, S.threads 3 = some ⟨.cancel r, .throw .internal, seen⟩) ∧
      ∃ r answer seen, S.threads 4 = some ⟨.cancel r, .done answer, seen⟩ ∧
        sampleUuidInput r.dispatchId = some sampleId :=
    ⟨_, rfl, ⟨_, _, rfl⟩, ⟨_, _, rfl⟩, _, _, _, rfl, by decide⟩
  have hrun := System.Run.of_replay (M := dispatchPool sampleUuidInput) ⟨rfl, fun _ => rfl⟩ hS
  obtain ⟨-, id, d, hid, hd, hs, honce⟩ := (cancel_of_run hrun h₄).2 answer rfl
  obtain rfl := Option.some.inj (hr₄.symm.trans hid)
  exact ⟨S, d, _, hS, rfl, ⟨r₂, (cancel_of_run hrun h₂).1 _ rfl⟩,
    ⟨r₃, (cancel_of_run hrun h₃).1 _ rfl⟩, hd, hs, honce⟩

end Runs

end RouteFast
