import RouteFast.Dispatch.Start
import RouteFast.Reliability.InboxRuns

/-! The timeout of a dispatch. `StartDispatchHandler` commits the dispatch in one store and
schedules its timeout in another; the next delivery finds the dispatch and does neither. -/

namespace RouteFast

open Transition ReadCommitted

structure DispatchTimeoutJob where
  dispatchId : Uuid
  correlationId : String
  deriving DecidableEq

/-- The dispatch database, and the jobs ever added to `routefast-dispatch-timeouts`. -/
structure TimeoutDb where
  db : DispatchDb
  jobs : List DispatchTimeoutJob

namespace TimeoutDb

/-- `queue.add` with the job id `dispatch-timeout-${dispatchId}`: there is one job an id. -/
def schedule (job : DispatchTimeoutJob) (s : TimeoutDb) : TimeoutDb :=
  match Table.find DispatchTimeoutJob.dispatchId job.dispatchId s.jobs with
  | some _ => s
  | none => { s with jobs := s.jobs ++ [job] }

/-- A timeout for the dispatch has been scheduled. -/
def Scheduled (s : TimeoutDb) (dispatchId : Uuid) : Prop :=
  Table.find DispatchTimeoutJob.dispatchId dispatchId s.jobs ≠ none

instance (s : TimeoutDb) (dispatchId : Uuid) : Decidable (s.Scheduled dispatchId) :=
  inferInstanceAs (Decidable (_ ≠ _))

/-- The order has its dispatch, and the dispatch its timeout. -/
def TimeoutSet (s : TimeoutDb) (orderId : Uuid) : Prop :=
  ∃ d, s.db.findByOrderId orderId = some d ∧ s.Scheduled d.id

end TimeoutDb

/-- How `timeoutScheduler.schedule` ends; the job may be there although the call threw. -/
inductive ScheduleOutcome where
  | added
  | failed (e : ServiceError)
  | addedThenFailed (e : ServiceError)

/-- One execution of the handler, and how its awaits end. A search or a transaction that fails
is a `call.plan` that does; `lostReply` is what `workflow.start` throws after its commit. -/
structure StartAttempt where
  call : StartCall
  lookup : Option ServiceError
  lostReply : Option ServiceError
  scheduled : ScheduleOutcome

namespace StartAttempt

variable (a : StartAttempt)

/-- `await this.timeoutScheduler.schedule(dispatch.id, dispatch.correlationId)` -/
def schedule : Proc TimeoutDb ServiceError Unit :=
  let job := ⟨a.call.dispatchId, a.call.correlationId⟩
  match a.scheduled with
  | .added => .write (TimeoutDb.schedule job) (.done ())
  | .failed e => .read fun _ => .throw e
  | .addedThenFailed e => .write (TimeoutDb.schedule job) (.throw e)

/-- The transaction of `workflow.start`. -/
def transaction (plan : Option DispatchStartPlan) : DispatchTx :=
  DispatchWorkflow.start a.call.dispatch plan a.call.decisionId a.call.startedId a.call.requestedId
    a.call.now

/-- `await this.workflow.start(..)`, and what follows. -/
def start (plan : Option DispatchStartPlan) : Proc TimeoutDb ServiceError Unit :=
  .step (fun s => { s with db := s.db.exec (a.transaction plan) }) fun s =>
    match (a.transaction plan).run (fun _ _ => false) s.db with
    | .error e => .throw e
    | .ok _ =>
      match a.lostReply with
      | some e => .throw e
      | none => a.schedule

/-- What follows the candidate and nearby queries, which change nothing here. -/
def searched : Proc TimeoutDb ServiceError Unit :=
  match a.call.plan with
  | .error e => .throw e
  | .ok plan => a.start plan

/-- `const existing = await this.repository.findByOrderId(..)`, and what follows. -/
def find : Proc TimeoutDb ServiceError Unit :=
  .read fun s =>
    match s.db.findByOrderId a.call.orderId with
    | some _ => .done ()
    | none => .read fun _ => a.searched

/-- `StartDispatchHandler.execute` -/
def execute : Proc TimeoutDb ServiceError Unit :=
  match a.lookup with
  | some e => .read fun _ => .throw e
  | none => a.find

end StartAttempt

inductive ReadyLabel where
  | receive (i : ℕ) (event : ReliableIntegrationEvent) (attempt : StartAttempt)
  | step (i : ℕ) (now : Date)

abbrev ReadyPool := InboxPool TimeoutDb ServiceError

/-- Deliveries of `order.ready_for_dispatch` events, each event about one order, in any
number and any interleaving. A call that takes no further step has crashed. -/
def readySystem (orderOf : Uuid → Uuid) : System ReadyPool ReadyLabel where
  init P := InboxPool.system.init P ∧ P.service.db = ⟨⟨[], [], []⟩, []⟩
  step P
    | .receive i event attempt =>
      if attempt.call.orderId = orderOf event.eventId then
        InboxPool.system.step P (.process i .orderReadyForDispatch event attempt.execute)
      else none
    | .step i now => InboxPool.system.step P (.step i now)

abbrev ReadyMove := Move ReadyPool ReadyLabel

/-- The operation is about to look whether the order has a dispatch. -/
def Looks (rest : Proc TimeoutDb ServiceError Unit) : Prop :=
  ∃ a : StartAttempt, rest = a.find ∨ ∃ plan, rest = a.start plan

/-- If the step looks for the order's dispatch and finds one, its timeout is already
scheduled. -/
def FindsScheduled (orderOf : Uuid → Uuid) (t : ReadyMove) : Prop :=
  ∀ i now c rest d, t.label = .step i now → t.pre.calls i = some c → c.pc = .operation rest →
    Looks rest → t.pre.service.db.db.findByOrderId (orderOf c.event.eventId) = some d →
    t.pre.service.db.Scheduled d.id

/-- Every event marked PROCESSED has left its order with a dispatch that will time out. -/
def TimeoutsSet (orderOf : Uuid → Uuid) (P : ReadyPool) : Prop :=
  ∀ eventId, P.service.inbox.Processed eventId → P.service.db.TimeoutSet (orderOf eventId)

namespace TimeoutDb

variable {s s' s'' : TimeoutDb} {orderId dispatchId : Uuid} {job : DispatchTimeoutJob}

/-- Dispatches and jobs stay. -/
structure Grows (s s' : TimeoutDb) : Prop where
  dispatch : ∀ orderId d, s.db.findByOrderId orderId = some d → s'.db.findByOrderId orderId = some d
  jobs : ∀ dispatchId, s.Scheduled dispatchId → s'.Scheduled dispatchId

theorem Grows.refl (s : TimeoutDb) : s.Grows s := ⟨fun _ _ h => h, fun _ h => h⟩

theorem Grows.timeoutSet (h : s.Grows s') (hset : s.TimeoutSet orderId) :
    s'.TimeoutSet orderId := by
  obtain ⟨d, hd, hjob⟩ := hset
  exact ⟨d, h.dispatch orderId d hd, h.jobs d.id hjob⟩

theorem scheduled_schedule : (s.schedule job).Scheduled dispatchId ↔
    dispatchId = job.dispatchId ∨ s.Scheduled dispatchId := by
  unfold schedule Scheduled
  cases hfind : Table.find DispatchTimeoutJob.dispatchId job.dispatchId s.jobs with
  | some found =>
    refine ⟨Or.inr, fun h => ?_⟩
    rcases h with rfl | h
    · simp [hfind]
    · exact h
  | none =>
    by_cases hid : job.dispatchId = dispatchId
    · simp [Table.find_append_singleton, hid]
    · simp [Table.find_append_singleton, hid, Ne.symm hid]

theorem grows_schedule (job : DispatchTimeoutJob) (s : TimeoutDb) : s.Grows (s.schedule job) := by
  refine ⟨fun orderId d hd => ?_, fun id h => scheduled_schedule.2 (Or.inr h)⟩
  unfold schedule
  split <;> exact hd

end TimeoutDb

namespace StartAttempt

variable {a : StartAttempt} {s : TimeoutDb} {plan : Option DispatchStartPlan}

theorem grows_start : s.Grows { s with db := s.db.exec (a.transaction plan) } := by
  refine ⟨fun orderId d hd => ?_, fun _ h => h⟩
  show (s.db.exec (a.transaction plan)).findByOrderId orderId = some d
  unfold transaction
  rcases s.db.exec_start_cases a.call.dispatch plan a.call.decisionId a.call.startedId
    a.call.requestedId a.call.now with hsame | ⟨-, -, hstart⟩
  · rw [hsame]
    exact hd
  · rw [hstart]
    have hfind : Table.find Dispatch.orderId orderId s.db.dispatches = some d := hd
    simp [DispatchDb.findByOrderId, Table.find_append_singleton, hfind]

theorem execute_ne_done (a : StartAttempt) (u : Unit) : a.execute ≠ .done u := by
  unfold execute
  split <;> simp [find, Proc.read]

theorem schedule_ne_done (a : StartAttempt) (u : Unit) : a.schedule ≠ .done u := by
  unfold schedule
  dsimp only
  split <;> simp [Proc.read, Proc.write]

/-- After a transaction that did not throw, the order has a dispatch: the execution's own, or
one that was there before. -/
theorem dispatch_of_started {r : Unit × DispatchDb}
    (hrun : (a.transaction plan).run (fun _ _ => false) s.db = .ok r) :
    ∃ d, (s.db.exec (a.transaction plan)).findByOrderId a.call.orderId = some d ∧
      (d.id = a.call.dispatchId ∨ s.db.findByOrderId a.call.orderId = some d) := by
  cases horder : s.db.findByOrderId a.call.orderId with
  | some d => exact ⟨d, grows_start.dispatch _ _ horder, Or.inr rfl⟩
  | none =>
    cases hrow : s.db.row a.call.dispatchId with
    | some d =>
      have herror : (a.transaction plan).run (fun _ _ => false) s.db ≠ .ok r := by
        simp [transaction, DispatchWorkflow.start, Tx.run, StartCall.dispatch, Dispatch.start,
          horder, DispatchDb.rejects, hrow]
      exact absurd hrun herror
    | none =>
      rw [transaction, DispatchDb.exec_start _ _ _ _ _ _ hrow horder]
      have hfind : Table.find Dispatch.orderId a.call.orderId s.db.dispatches = none := horder
      refine ⟨a.call.dispatch, ?_, Or.inl rfl⟩
      simp [DispatchDb.findByOrderId, Table.find_append_singleton, hfind, StartCall.dispatch,
        Dispatch.start]

end StartAttempt

/-- What may be left of an execution for the order, and what it has achieved by then. -/
inductive Progress (orderId : Uuid) (s : TimeoutDb) : Proc TimeoutDb ServiceError Unit → Prop
  | begun (a : StartAttempt) : a.call.orderId = orderId → Progress orderId s a.execute
  | searching (a : StartAttempt) : a.call.orderId = orderId →
      Progress orderId s (.read fun _ => a.searched)
  | starting (a : StartAttempt) (plan : Option DispatchStartPlan) : a.call.orderId = orderId →
      Progress orderId s (a.start plan)
  | scheduling (a : StartAttempt) (d : Dispatch) : s.db.findByOrderId orderId = some d →
      d.id = a.call.dispatchId ∨ s.Scheduled d.id → Progress orderId s a.schedule
  | finished : s.TimeoutSet orderId → Progress orderId s (.done ())
  | failed (e : ServiceError) : Progress orderId s (.throw e)

namespace Progress

variable {orderId : Uuid} {s s' : TimeoutDb} {rest : Proc TimeoutDb ServiceError Unit}

theorem grows (h : Progress orderId s rest) (hs : s.Grows s') : Progress orderId s' rest := by
  cases h with
  | begun a ha => exact .begun a ha
  | searching a ha => exact .searching a ha
  | starting a plan ha => exact .starting a plan ha
  | scheduling a d hd hid => exact .scheduling a d (hs.dispatch _ _ hd) (hid.imp_right (hs.jobs _))
  | finished hset => exact .finished (hs.timeoutSet hset)
  | failed e => exact .failed e

/-- An execution that returns leaves the timeout of the dispatch set. -/
theorem timeoutSet {u : Unit} (h : Progress orderId s (.done u)) : s.TimeoutSet orderId := by
  generalize hrest : Proc.done u = rest at h
  cases h with
  | begun a ha => exact absurd hrest.symm (a.execute_ne_done u)
  | scheduling a => exact absurd hrest.symm (a.schedule_ne_done u)
  | finished hset => exact hset
  | searching | starting | failed => cases hrest

theorem execute_step {a : StartAttempt} {effect : TimeoutDb → TimeoutDb}
    {next : TimeoutDb → Proc TimeoutDb ServiceError Unit} (hrest : .step effect next = a.execute)
    (ha : a.call.orderId = orderId)
    (hfinds : Looks (.step effect next) → ∀ d, s.db.findByOrderId orderId = some d →
      s.Scheduled d.id) :
    s.Grows (effect s) ∧ Progress orderId (effect s) (next s) := by
  unfold StartAttempt.execute at hrest
  cases hlookup : a.lookup with
  | some e =>
    obtain ⟨rfl, rfl⟩ := Proc.step.inj (hrest.trans (by rw [hlookup]; rfl))
    exact ⟨.refl s, .failed e⟩
  | none =>
    rw [hlookup] at hrest
    have hlooks : Looks (.step effect next) := ⟨a, Or.inl hrest⟩
    obtain ⟨rfl, rfl⟩ := Proc.step.inj hrest
    refine ⟨.refl s, ?_⟩
    cases hfind : s.db.findByOrderId orderId with
    | some d =>
      simp only [ha, hfind]
      exact .finished ⟨d, hfind, hfinds hlooks d hfind⟩
    | none =>
      simp only [ha, hfind]
      exact .searching a ha

theorem start_step {a : StartAttempt} {plan : Option DispatchStartPlan}
    {effect : TimeoutDb → TimeoutDb} {next : TimeoutDb → Proc TimeoutDb ServiceError Unit}
    (hrest : .step effect next = a.start plan) (ha : a.call.orderId = orderId)
    (hfinds : Looks (.step effect next) → ∀ d, s.db.findByOrderId orderId = some d →
      s.Scheduled d.id) :
    s.Grows (effect s) ∧ Progress orderId (effect s) (next s) := by
  have hlooks : Looks (.step effect next) := ⟨a, Or.inr ⟨plan, hrest⟩⟩
  obtain ⟨rfl, rfl⟩ := Proc.step.inj hrest
  refine ⟨StartAttempt.grows_start, ?_⟩
  cases hrun : (a.transaction plan).run (fun _ _ => false) s.db with
  | error e =>
    simp only [hrun]
    exact .failed e
  | ok r =>
    simp only [hrun]
    cases hlost : a.lostReply with
    | some e => exact .failed e
    | none =>
      obtain ⟨d, hd, hid⟩ := StartAttempt.dispatch_of_started hrun
      subst ha
      exact .scheduling a d hd (hid.imp_right fun hold => hfinds hlooks d hold)

theorem schedule_step {a : StartAttempt} {d : Dispatch} {effect : TimeoutDb → TimeoutDb}
    {next : TimeoutDb → Proc TimeoutDb ServiceError Unit} (hrest : .step effect next = a.schedule)
    (hd : s.db.findByOrderId orderId = some d) (hid : d.id = a.call.dispatchId ∨ s.Scheduled d.id) :
    s.Grows (effect s) ∧ Progress orderId (effect s) (next s) := by
  have hgrows := TimeoutDb.grows_schedule ⟨a.call.dispatchId, a.call.correlationId⟩ s
  unfold StartAttempt.schedule at hrest
  cases hscheduled : a.scheduled with
  | added =>
    rw [hscheduled] at hrest
    obtain ⟨rfl, rfl⟩ := Proc.step.inj hrest
    exact ⟨hgrows, .finished ⟨d, hgrows.dispatch _ _ hd, TimeoutDb.scheduled_schedule.2 hid⟩⟩
  | failed e =>
    rw [hscheduled] at hrest
    obtain ⟨rfl, rfl⟩ := Proc.step.inj hrest
    exact ⟨.refl s, .failed e⟩
  | addedThenFailed e =>
    rw [hscheduled] at hrest
    obtain ⟨rfl, rfl⟩ := Proc.step.inj hrest
    exact ⟨hgrows, .failed e⟩

/-- A step leaves dispatches and jobs where they are, if what it finds is scheduled. -/
theorem step {effect : TimeoutDb → TimeoutDb}
    {next : TimeoutDb → Proc TimeoutDb ServiceError Unit}
    (h : Progress orderId s (.step effect next))
    (hfinds : Looks (.step effect next) → ∀ d, s.db.findByOrderId orderId = some d →
      s.Scheduled d.id) :
    s.Grows (effect s) ∧ Progress orderId (effect s) (next s) := by
  generalize hrest : Proc.step effect next = rest at h
  cases h with
  | begun a ha => exact execute_step hrest ha hfinds
  | searching a ha =>
    obtain ⟨rfl, rfl⟩ := Proc.step.inj hrest
    refine ⟨.refl s, ?_⟩
    unfold StartAttempt.searched
    cases a.call.plan with
    | error e => exact .failed e
    | ok plan => exact .starting a plan ha
  | starting a plan ha => exact start_step hrest ha hfinds
  | scheduling a d hd hid => exact schedule_step hrest hd hid
  | finished | failed => cases hrest

end Progress

/-- What holds of the pool while every look finds nothing or a scheduled dispatch. -/
structure OnCourse (orderOf : Uuid → Uuid) (P : ReadyPool) : Prop where
  set : TimeoutsSet orderOf P
  called : ∀ i c, P.calls i = some c →
    ∃ a : StartAttempt, c.operation = a.execute ∧ a.call.orderId = orderOf c.event.eventId
  operating : ∀ i c rest, P.calls i = some c → c.pc = .operation rest →
    Progress (orderOf c.event.eventId) P.service.db rest

namespace OnCourse

variable {orderOf : Uuid → Uuid} {P P' : ReadyPool}

theorem receive {i : ℕ} {event : ReliableIntegrationEvent} {attempt : StartAttempt}
    (h : OnCourse orderOf P)
    (hs : (readySystem orderOf).step P (.receive i event attempt) = some P') :
    OnCourse orderOf P' := by
  simp only [readySystem] at hs
  split at hs
  · next horder =>
    obtain ⟨hnone, rfl⟩ := InboxPool.step_process hs
    refine ⟨h.set, fun j c hj => ?_, fun j c rest hj hpc => ?_⟩
    · by_cases hji : j = i
      · subst hji
        obtain rfl : _ = c := by simpa [InboxPool.set] using hj
        exact ⟨attempt, rfl, horder⟩
      · exact h.called j c (by simpa [InboxPool.set, hji] using hj)
    · by_cases hji : j = i
      · subst hji
        obtain rfl : _ = c := by simpa [InboxPool.set] using hj
        cases hpc
      · exact h.operating j c rest (by simpa [InboxPool.set, hji] using hj) hpc
  · cases hs

/-- A statement of a call: what becomes of the tables, and of the call itself. -/
theorem of_effect {i : ℕ} {now : Date} {c c' : Call TimeoutDb ServiceError}
    {service : Service TimeoutDb} (h : OnCourse orderOf P) (hc : P.calls i = some c)
    (heff : Call.Effect now c P.service service c')
    (hgrows : P.service.db.Grows service.db)
    (hstep : ∀ rest, c'.pc = .operation rest →
      Progress (orderOf c.event.eventId) service.db rest)
    (hsame : c'.operation = c.operation) :
    OnCourse orderOf (({ P with service } : ReadyPool).set i c') := by
  refine ⟨fun eventId hp => ?_, fun j d hj => ?_, fun j d rest hj hpc => ?_⟩
  · rcases (heff.processed_iff eventId).1 hp with ⟨hold, -⟩ | ⟨-, rfl, u, hdone⟩
    · exact hgrows.timeoutSet (h.set eventId hold)
    · exact hgrows.timeoutSet (h.operating i c _ hc hdone).timeoutSet
  · by_cases hji : j = i
    · subst hji
      obtain rfl : c' = d := by simpa [InboxPool.set] using hj
      rw [hsame, heff.event_eq]
      exact h.called j c hc
    · exact h.called j d (by simpa [InboxPool.set, hji] using hj)
  · by_cases hji : j = i
    · subst hji
      obtain rfl : c' = d := by simpa [InboxPool.set] using hj
      rw [heff.event_eq]
      exact hstep rest hpc
    · exact (h.operating j d rest (by simpa [InboxPool.set, hji] using hj) hpc).grows hgrows

theorem step {i : ℕ} {now : Date} (h : OnCourse orderOf P)
    (hs : (readySystem orderOf).step P (.step i now) = some P')
    (hfinds : FindsScheduled orderOf ⟨P, .step i now, P'⟩) : OnCourse orderOf P' := by
  obtain ⟨c, service, c', hc, heff, rfl⟩ := InboxPool.step_step hs
  obtain ⟨a, hexecute, horder⟩ := h.called i c hc
  have hbegun (s : TimeoutDb) {rest : Proc TimeoutDb ServiceError Unit}
      (hpc : Pc.operation c.operation = .operation rest) :
      Progress (orderOf c.event.eventId) s rest := by
    obtain rfl := Pc.operation.inj hpc
    exact hexecute ▸ .begun a horder
  refine h.of_effect hc heff ?_ ?_ ?_
  · cases heff with
    | operated effect next hpc =>
      exact ((h.operating i c _ hc hpc).step fun hlooks d hd =>
        hfinds i now c _ d rfl hc hpc hlooks hd).1
    | duplicate | absent | raced | started | inserted | succeeded | failed => exact .refl _
  · cases heff with
    | started | inserted => exact fun rest hpc => hbegun _ hpc
    | operated effect next hpc =>
      intro rest hrest
      obtain rfl := Pc.operation.inj hrest
      exact ((h.operating i c _ hc hpc).step fun hlooks d hd =>
        hfinds i now c _ d rfl hc hpc hlooks hd).2
    | duplicate | absent | raced | succeeded | failed => exact fun rest hpc => by cases hpc
  · cases heff <;> rfl

end OnCourse

section Runs

def ready : ReliableIntegrationEvent := ⟨"order-1-ready", "corr-1"⟩

end Runs

end RouteFast
