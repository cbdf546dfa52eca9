import RouteFast.Dispatch.Outcome

/-! The dispatch state machine and its outbox over whole runs: any sequence of workflow
transactions on one dispatch, the counts of the events it enqueued, and the statuses it
went through. -/

namespace RouteFast

open Transition ReadCommitted DispatchEvent

/-- The transactions of a run, each with whatever arguments it is given. -/
inductive WorkflowCall where
  | start (correlationId : String) (plan : Option DispatchStartPlan)
      (decisionId startedId requestedId : Uuid) (now : Date)
  | op (op : DispatchOp)

def WorkflowCall.isStart : WorkflowCall → Bool
  | .start .. => true
  | .op _ => false

namespace DispatchDb

/-- The tables after a transaction, committed or rolled back. -/
def exec (db : DispatchDb) (tx : DispatchTx) : DispatchDb :=
  match tx.run (fun _ _ => false) db with
  | .ok (_, db') => db'
  | .error _ => db

def status (db : DispatchDb) (dispatchId : Uuid) : Option DispatchStatus :=
  (db.row dispatchId).map Dispatch.status

/-- The rows of the outbox about a dispatch, oldest first. -/
def events (db : DispatchDb) (dispatchId : Uuid) : List OutboxRow :=
  db.outbox.filter fun r => r.dispatch = some dispatchId

/-- How many events of the type were ever enqueued for the dispatch. -/
def enqueued (db : DispatchDb) (dispatchId : Uuid) (ty : EventType) : ℕ :=
  ((db.events dispatchId).map OutboxRow.eventType).count ty

/-- The drivers whose release was ever requested for the dispatch. -/
def released (db : DispatchDb) (dispatchId : Uuid) : List Uuid :=
  (db.events dispatchId).filterMap OutboxRow.release

theorem row_after_ne {db : DispatchDb} {o : DispatchOutcome} {d : Dispatch} {id : Uuid}
    (hd : db.row id = some d) (hid : ∀ d', o.saved = some d' → d'.id = id) :
    (db.after o).row id = some (o.saved.getD d) := by
  cases hs : o.saved with
  | none => simpa [after, row, hs] using hd
  | some d' =>
    have h := hid d' hs
    subst h
    simp [after, row, hs]

theorem exec_op_of_row {db : DispatchDb} {op : DispatchOp} {d : Dispatch}
    (hd : db.row op.dispatchId = some d) :
    db.exec op.body = match op.outcome d with
      | .ok o => db.after o
      | .error _ => db := by
  rw [exec, op.run_body, hd]
  cases h : op.outcome d <;> simp [h, Except.map]

theorem exec_op_of_none {db : DispatchDb} {op : DispatchOp} (hd : db.row op.dispatchId = none) :
    db.exec op.body = db := by
  rw [exec, op.run_body, hd]
  cases op.missing <;> simp [Except.map]

end DispatchDb

/-- The workflow of one dispatch of one order, over a database that knows neither. -/
def workflow (id orderId : Uuid) : System DispatchDb WorkflowCall where
  init db := db.row id = none ∧ db.findByOrderId orderId = none ∧ db.events id = []
  step db
    | .start correlationId plan decisionId startedId requestedId now =>
      some (db.exec (DispatchWorkflow.start (.start id orderId correlationId now) plan decisionId
        startedId requestedId now))
    | .op op => if op.dispatchId = id then some (db.exec op.body) else none

/-- The statuses in which a driver is set. -/
def DispatchStatus.hasDriver : DispatchStatus → Bool
  | .assigned | .compensating | .cancelled => true
  | .searchingDriver | .failed => false

/-- What the row says, the events of the dispatch say too. -/
structure Booked (d : Dispatch) (events : List EventType) : Prop where
  driver : d.driverId ≠ none ↔ d.status.hasDriver
  nonempty : d.driverId ≠ some ""
  started : events.count .dispatchStarted = 1
  requested : events.count .driverReservationRequested = 1
  assigned : events.count .dispatchAssigned = if d.status.hasDriver then 1 else 0
  failed : events.count .dispatchFailed = if d.status = .failed then 1 else 0
  cancelled : events.count .dispatchCancelled = if d.status = .cancelled then 1 else 0

/-- A transaction throws only where it owes no release. -/
theorem DispatchOp.releases_of_error (op : DispatchOp) {d : Dispatch} {events : List EventType}
    {e : ServiceError} (h : Booked d events) (he : op.outcome d = .error e) :
    op.releases d = [] := by
  cases op with
  | startCompensation dispatchId reason c eventId now =>
    cases hs : d.status <;> simp only [releases, hs]
    · simp
    · have hd : d.driverId ≠ none := h.driver.2 (by rw [hs]; rfl)
      simp [outcome, hs, Dispatch.startCompensation, hd, h.nonempty, Except.map] at he
    all_goals simp
  | completeReservation =>
    simp only [outcome] at he
    split at he <;> cases he
  | completeCompensation | timeout => rfl

theorem Booked.step {d : Dispatch} {events : List EventType} {o : DispatchOutcome}
    (h : Booked d events) (hs : DispatchStep d o) :
    Booked (o.saved.getD d) (events ++ o.event.toList.map OutboxRow.eventType) := by
  obtain ⟨hdriver, hnonempty, hstarted, hrequested, hassigned, hfailed, hcancelled⟩ := h
  cases hs with
  | idle => exact ⟨hdriver, hnonempty, by simpa, by simpa, by simpa, by simpa, by simpa⟩
  | late driverId c eventId now hlate =>
    constructor <;> simp_all [DispatchEvent.releaseRequested]
  | move hm =>
    cases hm with
    | assign driverId c eventId now hsearching hne =>
      constructor <;> simp_all [DispatchEvent.assigned, DispatchStatus.hasDriver]
    | fail reason c eventId now hsearching =>
      constructor <;> simp_all [DispatchEvent.failed,
        DispatchStatus.hasDriver]
    | compensate driverId reason c eventId now hassigned hd hne =>
      constructor <;> simp_all [DispatchEvent.releaseRequested,
        DispatchStatus.hasDriver]
    | cancel c eventId now hcompensating =>
      constructor <;> simp_all [DispatchEvent.cancelled,
        DispatchStatus.hasDriver]

namespace DispatchDb

variable {id orderId : Uuid} {db db' : DispatchDb}

/-- The first start of a dispatch inserts its row and two events. -/
theorem exec_start (d : Dispatch) (plan : Option DispatchStartPlan)
    (decisionId startedId requestedId : Uuid) (now : Date) (hid : db.row d.id = none)
    (horder : db.findByOrderId d.orderId = none) :
    db.exec (DispatchWorkflow.start d plan decisionId startedId requestedId now) =
      ⟨db.dispatches ++ [d], db.decisions ++ (plan.map (dispatchDecision decisionId d)).toList,
        db.outbox ++ [DispatchEvent.started d startedId now,
          DispatchEvent.reservationRequested d plan requestedId now]⟩ := by
  have hrej : db.rejects d = none := by simp [rejects, hid, horder]
  have hsave : Table.save Dispatch.id d db.dispatches = db.dispatches ++ [d] :=
    Table.save_eq_append hid
  simp [exec, DispatchWorkflow.start, Tx.run, horder, hrej, DispatchWorkflow.enqueue, save,
    insertOutbox, hsave]

theorem exec_start_again (d : Dispatch) (plan : Option DispatchStartPlan)
    (decisionId startedId requestedId : Uuid) (now : Date)
    (horder : db.findByOrderId d.orderId ≠ none) :
    db.exec (DispatchWorkflow.start d plan decisionId startedId requestedId now) = db := by
  obtain ⟨d', hd'⟩ := Option.ne_none_iff_exists'.1 horder
  simp [exec, DispatchWorkflow.start, Tx.run, hd']

/-- A start whose id is taken leaves nothing. -/
theorem exec_start_rejected (d : Dispatch) (plan : Option DispatchStartPlan)
    (decisionId startedId requestedId : Uuid) (now : Date) (horder : db.findByOrderId d.orderId = none)
    (hid : db.row d.id ≠ none) :
    db.exec (DispatchWorkflow.start d plan decisionId startedId requestedId now) = db := by
  obtain ⟨d', hd'⟩ := Option.ne_none_iff_exists'.1 hid
  simp [exec, DispatchWorkflow.start, Tx.run, horder, rejects, hd']

/-- A start inserts all that belongs to it, or nothing. -/
theorem exec_start_cases (db : DispatchDb) (d : Dispatch) (plan : Option DispatchStartPlan)
    (decisionId startedId requestedId : Uuid) (now : Date) :
    db.exec (DispatchWorkflow.start d plan decisionId startedId requestedId now) = db ∨
    (db.row d.id = none ∧ db.findByOrderId d.orderId = none ∧
      db.exec (DispatchWorkflow.start d plan decisionId startedId requestedId now) =
        ⟨db.dispatches ++ [d], db.decisions ++ (plan.map (dispatchDecision decisionId d)).toList,
          db.outbox ++ [DispatchEvent.started d startedId now,
            DispatchEvent.reservationRequested d plan requestedId now]⟩) := by
  cases horder : db.findByOrderId d.orderId with
  | some existing => exact Or.inl (exec_start_again d plan _ _ _ _ (by simp [horder]))
  | none =>
    cases hrow : db.row d.id with
    | some other => exact Or.inl (exec_start_rejected d plan _ _ _ _ horder (by simp [hrow]))
    | none => exact Or.inr ⟨rfl, rfl, exec_start d plan _ _ _ _ hrow horder⟩

/-- Before its start, nothing is known of the dispatch; afterwards it is `Booked`. -/
structure Kept (id orderId : Uuid) (db : DispatchDb) : Prop where
  before : db.row id = none → db.findByOrderId orderId = none ∧ db.events id = []
  after : ∀ d, db.row id = some d → d.orderId = orderId ∧ db.findByOrderId orderId ≠ none ∧
    Booked d ((db.events id).map OutboxRow.eventType)

theorem saved_id {d : Dispatch} {o : DispatchOutcome} (h : DispatchStep d o) :
    ∀ d', o.saved = some d' → d'.id = d.id ∧ d'.orderId = d.orderId := by
  intro d' hd'
  cases h with
  | move hm => obtain rfl := Option.some.inj hd'; cases hm <;> exact ⟨rfl, rfl⟩
  | late => cases hd'
  | idle => cases hd'

theorem event_dispatch {d : Dispatch} {o : DispatchOutcome} (h : DispatchStep d o) :
    ∀ r, o.event = some r → r.dispatch = some d.id := by
  intro r hr
  cases h with
  | move hm => obtain rfl := Option.some.inj hr; cases hm <;> simp
  | late => obtain rfl := Option.some.inj hr; simp
  | idle => cases hr

theorem events_after {d : Dispatch} {o : DispatchOutcome} (h : DispatchStep d o) :
    (db.after o).events d.id = db.events d.id ++ o.event.toList := by
  have hall : o.event.toList.filter (fun r => r.dispatch = some d.id) = o.event.toList := by
    rw [List.filter_eq_self]
    intro r hr
    simpa using event_dispatch h r (by simpa using hr)
  simp [events, DispatchDb.after, hall]

/-- A transaction on a started dispatch: it is `Booked` again, with what it enqueued. -/
theorem Kept.op {op : DispatchOp} (h : db.Kept id orderId) (hid : op.dispatchId = id) :
    (db.exec op.body).Kept id orderId := by
  subst hid
  cases hrow : db.row op.dispatchId with
  | none => rwa [exec_op_of_none hrow]
  | some d =>
    rw [exec_op_of_row hrow]
    cases ho : op.outcome d with
    | error e => exact h
    | ok o =>
      have hstep := DispatchOp.step_of_outcome ho
      have hdid : d.id = op.dispatchId := Table.key_of_find hrow
      obtain ⟨horder, hfind, hbooked⟩ := h.after d hrow
      have hrow' : (db.after o).row op.dispatchId = some (o.saved.getD d) :=
        row_after_ne hrow fun d' hd' => (saved_id hstep d' hd').1.trans hdid
      refine ⟨fun hnone => by simp [hrow'] at hnone, fun d' hd' => ?_⟩
      obtain rfl : o.saved.getD d = d' := by simpa [hrow'] using hd'
      refine ⟨?_, ?_, ?_⟩
      · cases hs : o.saved with
        | none => exact horder
        | some d' => exact (saved_id hstep d' hs).2.trans horder
      · cases hs : o.saved with
        | none => simpa [findByOrderId, DispatchDb.after, hs] using hfind
        | some d' =>
          intro hnone
          rw [findByOrderId, Table.find_eq_none_iff] at hnone
          refine hnone d' ?_ ((saved_id hstep d' hs).2.trans horder)
          simpa [DispatchDb.after, hs] using Table.mem_save_self (c := Dispatch.id) (r := d')
      · rw [← hdid, events_after hstep, List.map_append]
        exact (hdid.symm ▸ hbooked).step hstep

/-- A start enqueues the first two events of the dispatch. -/
theorem events_start {d : Dispatch} {plan : Option DispatchStartPlan} {startedId requestedId : Uuid}
    {now : Date} {dispatches : List Dispatch} {decisions : List DispatchDecision} (hd : d.id = id)
    (hold : db.events id = []) :
    events ⟨dispatches, decisions, db.outbox ++ [DispatchEvent.started d startedId now,
      DispatchEvent.reservationRequested d plan requestedId now]⟩ id =
      [DispatchEvent.started d startedId now,
        DispatchEvent.reservationRequested d plan requestedId now] := by
  subst hd
  have hold : db.outbox.filter (fun r => r.dispatch = some d.id) = [] := hold
  simp only [events, List.filter_append, hold, List.nil_append]
  simp only [dispatch_started, dispatch_reservationRequested, List.filter_cons, List.filter_nil,
    decide_true, if_true]

theorem Kept.start (h : db.Kept id orderId) (c : String) (plan : Option DispatchStartPlan)
    (decisionId startedId requestedId : Uuid) (now : Date) :
    (db.exec (DispatchWorkflow.start (.start id orderId c now) plan decisionId startedId
      requestedId now)).Kept id orderId := by
  cases hrow : db.row id with
  | some d => rwa [exec_start_again _ _ _ _ _ _ (h.after d hrow).2.1]
  | none =>
    obtain ⟨horder, hevents⟩ := h.before hrow
    rw [exec_start _ _ _ _ _ _ hrow horder]
    refine ⟨fun hnone => ?_, fun d hd => ?_⟩
    · simp [row, Table.find_append_singleton, Dispatch.start] at hnone
    · have hd' : Dispatch.start id orderId c now = d := by
        simpa [row, Table.find_append_singleton, Dispatch.start, show Table.find Dispatch.id id
          db.dispatches = none from hrow] using hd
      subst hd'
      refine ⟨rfl, by simp [findByOrderId, Table.find_append_singleton, Dispatch.start], ?_⟩
      refine (congrArg (fun rows => Booked _ (rows.map OutboxRow.eventType))
        (events_start (d := Dispatch.start id orderId c now) rfl hevents)).mpr ?_
      constructor <;>
        simp [Dispatch.start, DispatchStatus.hasDriver, DispatchEvent.started,
          DispatchEvent.reservationRequested]

theorem kept_step {a : WorkflowCall} (h : db.Kept id orderId)
    (hs : (workflow id orderId).step db a = some db') : db'.Kept id orderId := by
  cases a with
  | start c plan decisionId startedId requestedId now =>
    obtain rfl := Option.some.inj hs
    exact h.start c plan decisionId startedId requestedId now
  | op op =>
    simp only [workflow] at hs
    split at hs
    · next hid =>
      obtain rfl := Option.some.inj hs
      exact h.op hid
    · cases hs

theorem kept_of_run {ts : List (Move DispatchDb WorkflowCall)}
    (hrun : (workflow id orderId).Run ts db) : db.Kept id orderId := by
  refine hrun.invariant ?_ fun _ _ _ => kept_step
  rintro db ⟨hrow, horder, hevents⟩
  exact ⟨fun _ => ⟨horder, hevents⟩, fun d hd => by simp [hrow] at hd⟩

end DispatchDb

/-- The edges of the state machine; a dispatch that has not been started has no status. -/
def dispatchEdges : List (Option DispatchStatus × Option DispatchStatus) :=
  [(none, some .searchingDriver), (some .searchingDriver, some .assigned),
    (some .searchingDriver, some .failed), (some .assigned, some .compensating),
    (some .compensating, some .cancelled)]

/-- The releases a transaction of the run has to request. -/
def WorkflowCall.releases (db : DispatchDb) (id : Uuid) : WorkflowCall → List Uuid
  | .start .. => []
  | .op x => (db.row id).elim [] fun d => x.releases d

/-- The status `ASSIGNED` was reached in the run. -/
def ReachedAssigned (id : Uuid) (ts : List (Move DispatchDb WorkflowCall)) : Prop :=
  ∃ t ∈ ts, t.post.status id = some .assigned

/-- The state machine and its outbox in step, over a whole run that ends in `db`. -/
structure InStep (id : Uuid) (ts : List (Move DispatchDb WorkflowCall)) (db : DispatchDb) :
    Prop where
  edges : ∀ t ∈ ts, t.post.status id = t.pre.status id ∨
    (t.pre.status id, t.post.status id) ∈ dispatchEdges
  driver_set : ∀ d, db.row id = some d → (d.driverId ≠ none ↔ d.status.hasDriver)
  driver_kept : ∀ t ∈ ts, ∀ d driverId, t.pre.row id = some d → d.driverId = some driverId →
    ∃ d', t.post.row id = some d' ∧ d'.driverId = some driverId
  started : (∃ t ∈ ts, t.label.isStart = true) →
    db.enqueued id .dispatchStarted = 1 ∧ db.enqueued id .driverReservationRequested = 1
  assigned : (ReachedAssigned id ts → db.enqueued id .dispatchAssigned = 1) ∧
    (¬ ReachedAssigned id ts → db.enqueued id .dispatchAssigned = 0)
  failed : db.enqueued id .dispatchFailed = if db.status id = some .failed then 1 else 0
  cancelled : db.enqueued id .dispatchCancelled = if db.status id = some .cancelled then 1 else 0
  released : ∀ t ∈ ts,
    t.post.released id = t.pre.released id ++ t.label.releases t.pre id

section Runs

variable {id orderId : Uuid} {db db' : DispatchDb} {ts : List (Move DispatchDb WorkflowCall)}

namespace DispatchDb

/-- What one transaction does to the row and its events, case by case. -/
inductive Change (id orderId : Uuid) (db : DispatchDb) : WorkflowCall → DispatchDb → Prop
  | start {c : String} {plan : Option DispatchStartPlan} {decisionId startedId requestedId : Uuid}
      {now : Date} {db' : DispatchDb} : db.row id = none →
      db'.row id = some (.start id orderId c now) →
      db'.events id = [DispatchEvent.started (.start id orderId c now) startedId now,
        DispatchEvent.reservationRequested (.start id orderId c now) plan requestedId now] →
      Change id orderId db (.start c plan decisionId startedId requestedId now) db'
  | again {c : String} {plan : Option DispatchStartPlan} {decisionId startedId requestedId : Uuid}
      {now : Date} : db.row id ≠ none →
      Change id orderId db (.start c plan decisionId startedId requestedId now) db
  | unknown {op : DispatchOp} : db.row id = none → Change id orderId db (.op op) db
  | step {op : DispatchOp} {d : Dispatch} {o : DispatchOutcome} {db' : DispatchDb} :
      db.row id = some d → DispatchStep d o → db'.row id = some (o.saved.getD d) →
      db'.events id = db.events id ++ o.event.toList →
      o.event.toList.filterMap OutboxRow.release = op.releases d →
      Change id orderId db (.op op) db'

theorem change_of_step {a : WorkflowCall} (h : db.Kept id orderId)
    (hs : (workflow id orderId).step db a = some db') : Change id orderId db a db' := by
  cases a with
  | start c plan decisionId startedId requestedId now =>
    obtain rfl := Option.some.inj hs
    cases hrow : db.row id with
    | some d =>
      rw [exec_start_again _ _ _ _ _ _ (h.after d hrow).2.1]
      exact .again (by simp [hrow])
    | none =>
      rw [exec_start _ _ _ _ _ _ hrow (h.before hrow).1]
      refine .start hrow ?_ ?_
      · have hnone : Table.find Dispatch.id id db.dispatches = none := hrow
        simp [row, Table.find_append_singleton, hnone, Dispatch.start]
      · exact events_start rfl (h.before hrow).2
  | op x =>
    simp only [workflow] at hs
    split at hs
    · next hid =>
      obtain rfl := Option.some.inj hs
      cases hrow : db.row id with
      | none =>
        rw [exec_op_of_none (hid ▸ hrow)]
        exact .unknown hrow
      | some d =>
        have hdid : d.id = id := Table.key_of_find hrow
        obtain ⟨-, -, hbooked⟩ := h.after d hrow
        rw [exec_op_of_row (hid ▸ hrow)]
        cases ho : x.outcome d with
        | error e =>
          exact .step hrow .idle hrow (List.append_nil _).symm (x.releases_of_error hbooked ho).symm
        | ok o =>
          have hstep := DispatchOp.step_of_outcome ho
          exact .step hrow hstep (row_after_ne hrow fun d' hd' =>
            (saved_id hstep d' hd').1.trans hdid) (hdid ▸ events_after hstep)
            (DispatchOp.release_of_outcome ho)
    · cases hs

/-- The row of a dispatch after a change. -/
theorem Change.row_eq {a : WorkflowCall} (h : Change id orderId db a db') :
    (db.row id = none ∧ ∃ c now, a.isStart = true ∧ db'.row id = some (.start id orderId c now)) ∨
    (a.isStart = false ∨ db.row id ≠ none) ∧ db'.row id = db.row id ∨
    ∃ d d' r, db.row id = some d ∧ DispatchMove d d' r ∧ db'.row id = some d' := by
  cases h with
  | start hnone hrow => exact Or.inl ⟨hnone, _, _, rfl, hrow⟩
  | again hsome => exact Or.inr (Or.inl ⟨Or.inr hsome, rfl⟩)
  | unknown _ => exact Or.inr (Or.inl ⟨Or.inl rfl, rfl⟩)
  | step hrow hstep hrow' =>
    cases hstep with
    | move hm => exact Or.inr (Or.inr ⟨_, _, _, hrow, hm, hrow'⟩)
    | late => exact Or.inr (Or.inl ⟨Or.inl rfl, hrow'.trans hrow.symm⟩)
    | idle => exact Or.inr (Or.inl ⟨Or.inl rfl, hrow'.trans hrow.symm⟩)

end DispatchDb

theorem change_of_mem (hrun : (workflow id orderId).Run ts db) {t : Move DispatchDb WorkflowCall}
    (ht : t ∈ ts) : t.pre.Change id orderId t.label t.post := by
  obtain ⟨l, -, hpre, hs⟩ := hrun.of_mem ht
  exact DispatchDb.change_of_step (DispatchDb.kept_of_run hpre) hs

theorem row_ne_none_iff (hrun : (workflow id orderId).Run ts db) :
    db.row id ≠ none ↔ ∃ t ∈ ts, t.label.isStart = true := by
  induction hrun with
  | nil h => simp [h.1]
  | @snoc ts db db' a hrun hs ih =>
    have hsplit : (∃ t ∈ ts ++ [⟨db, a, db'⟩], t.label.isStart = true) ↔
        db.row id ≠ none ∨ a.isStart = true := by simp [ih, or_and_right, exists_or]
    rw [hsplit]
    rcases (DispatchDb.change_of_step (DispatchDb.kept_of_run hrun) hs).row_eq with
      ⟨-, c, now, ha, hrow⟩ | ⟨ha, hrow⟩ | ⟨d, d', r, hd, -, hrow⟩
    · simp [hrow, ha]
    · rcases ha with ha | ha
      · simp [hrow, ha]
      · simp [hrow, ha]
    · simp [hrow, hd]

/-- A dispatch has a driver from the time it is assigned on. -/
theorem reachedAssigned_iff (hrun : (workflow id orderId).Run ts db) :
    ReachedAssigned id ts ↔ ∃ d, db.row id = some d ∧ d.status.hasDriver = true := by
  induction hrun with
  | nil h => simp [ReachedAssigned, h.1]
  | @snoc ts db db' a hrun hs ih =>
    have hsplit : ReachedAssigned id (ts ++ [⟨db, a, db'⟩]) ↔
        ReachedAssigned id ts ∨ db'.status id = some .assigned := by
      simp [ReachedAssigned, or_and_right, exists_or]
    rw [hsplit, ih]
    rcases (DispatchDb.change_of_step (DispatchDb.kept_of_run hrun) hs).row_eq with
      ⟨hnone, c, now, ha, hrow⟩ | ⟨ha, hrow⟩ | ⟨d, d', r, hd, hm, hrow⟩
    · simp [hrow, hnone, DispatchDb.status, Dispatch.start, DispatchStatus.hasDriver]
    · rw [hrow, DispatchDb.status, hrow]
      refine or_iff_left_of_imp fun h => ?_
      obtain ⟨d, hd, hstatus⟩ := Option.map_eq_some_iff.1 h
      exact ⟨d, hd, by rw [hstatus]; rfl⟩
    · cases hm <;> simp_all [DispatchDb.status, DispatchStatus.hasDriver]

/-- Every run keeps the state machine and its outbox in step. -/
theorem inStep_of_run (hrun : (workflow id orderId).Run ts db) : InStep id ts db := by
  have hkept := DispatchDb.kept_of_run hrun
  refine ⟨fun t ht => ?_, fun d hd => (hkept.after d hd).2.2.driver, fun t ht d driverId hd hdr => ?_,
    fun hstart => ?_, ⟨fun hreach => ?_, fun hreach => ?_⟩, ?_, ?_, fun t ht => ?_⟩
  · rcases (change_of_mem hrun ht).row_eq with ⟨hnone, c, now, -, hrow⟩ | ⟨-, hrow⟩ |
      ⟨d, d', r, hd, hm, hrow⟩
    · right
      simp [DispatchDb.status, hnone, hrow, Dispatch.start, dispatchEdges]
    · left
      rw [DispatchDb.status, hrow, DispatchDb.status]
    · right
      cases hm <;> simp_all [DispatchDb.status, dispatchEdges]
  · rcases (change_of_mem hrun ht).row_eq with ⟨hnone, -⟩ | ⟨-, hrow⟩ |
      ⟨d₁, d', r, hd₁, hm, hrow⟩
    · simp [hnone] at hd
    · exact ⟨d, hrow.trans hd, hdr⟩
    · obtain rfl : d₁ = d := by simpa [hd₁] using hd
      refine ⟨d', hrow, ?_⟩
      cases hm with
      | assign x c e now hs hne =>
        obtain ⟨l, -, hpre, -⟩ := hrun.of_mem ht
        have := ((DispatchDb.kept_of_run hpre).after _ hd).2.2.driver
        simp [hdr, hs, DispatchStatus.hasDriver] at this
      | fail | compensate | cancel => exact hdr
  · obtain ⟨d, hd⟩ := Option.ne_none_iff_exists'.1 ((row_ne_none_iff hrun).2 hstart)
    obtain ⟨-, -, hbooked⟩ := hkept.after d hd
    exact ⟨hbooked.started, hbooked.requested⟩
  · obtain ⟨d, hd, hs⟩ := (reachedAssigned_iff hrun).1 hreach
    exact (hkept.after d hd).2.2.assigned.trans (if_pos hs)
  · cases hrow : db.row id with
    | none => simp [DispatchDb.enqueued, (hkept.before hrow).2]
    | some d =>
      have hs : ¬ d.status.hasDriver = true := fun hs =>
        hreach ((reachedAssigned_iff hrun).2 ⟨d, hrow, hs⟩)
      exact (hkept.after d hrow).2.2.assigned.trans (if_neg hs)
  · cases hrow : db.row id with
    | none => simp [DispatchDb.enqueued, DispatchDb.status, hrow, (hkept.before hrow).2]
    | some d =>
      simpa [DispatchDb.enqueued, DispatchDb.status, hrow] using (hkept.after d hrow).2.2.failed
  · cases hrow : db.row id with
    | none => simp [DispatchDb.enqueued, DispatchDb.status, hrow, (hkept.before hrow).2]
    | some d =>
      simpa [DispatchDb.enqueued, DispatchDb.status, hrow] using (hkept.after d hrow).2.2.cancelled
  · obtain ⟨pre, label, post⟩ := t
    cases (change_of_mem hrun ht : DispatchDb.Change id orderId pre label post) with
    | start hnone _ hev =>
      obtain ⟨l, -, hpre, -⟩ := hrun.of_mem ht
      have hold : pre.events id = [] := ((DispatchDb.kept_of_run hpre).before hnone).2
      simp [WorkflowCall.releases, DispatchDb.released, hev, hold, OutboxRow.release, started,
        reservationRequested]
    | again => simp [WorkflowCall.releases]
    | unknown hnone => simp [WorkflowCall.releases, hnone]
    | step hd _ _ hev hrel =>
      simp only [WorkflowCall.releases, hd, Option.elim_some, DispatchDb.released, hev,
        List.filterMap_append, hrel]

def newDispatch : Uuid := "4a6f1b2c-9d3e-4f70-8a15-b2c3d4e5f601"

/-- A dispatch that is assigned, told of a second reservation, and then compensated. -/
def compensatedRun : List WorkflowCall :=
  [.start "corr-1" none "id-1" "id-2" "id-3" 1,
    .op (.completeReservation ⟨newDispatch, "order-1", some "driver-1", none, "corr-1"⟩ "id-4" 2),
    .op (.completeReservation ⟨newDispatch, "order-1", some "driver-1", none, "corr-1"⟩ "id-5" 3),
    .op (.startCompensation newDispatch "OPERATOR_CANCELLED" "corr-2" "id-6" 4),
    .op (.completeCompensation newDispatch "corr-2" "id-7" 5)]

theorem inStep_compensatedRun : ∃ db,
    InStep newDispatch ((workflow newDispatch "order-1").moves ⟨[], [], []⟩ compensatedRun) db :=
  ⟨_, inStep_of_run (System.Run.of_replay ⟨rfl, rfl, rfl⟩ rfl)⟩

end Runs

end RouteFast
