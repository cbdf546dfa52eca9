import RouteFast.System.Steps

/-! What the Order service makes of the history of one dispatch, delivered in any order and
more than once. All handlers but `dispatch.failed` either take the order further or throw
until it is there; that one says nothing when it comes before `dispatch.started`. -/

namespace RouteFast

open Transition

/-- What the events of the dispatch ask of the Order service. -/
def Dispatch.Reports (d : Dispatch) : OrderCommand → Prop
  | .cancelOrder => False
  | .markOrderDispatching => True
  | .assignOrderDriver driverId => d.driverId = some driverId
  | .markDispatchFailed reason => d.status = .failed ∧ d.failureReason = some reason
  | .completeDispatchCancellation => d.status = .cancelled

/-- The row asks for this command on the order of the dispatch. -/
def OutboxRow.AsksFor (r : OutboxRow) (orderId : Uuid) (cmd : OrderCommand) : Prop :=
  r.targetQueue = .orderEvents ∧ ∀ now, r.message.Asks ⟨orderId, cmd, now⟩

/-- The events of a dispatch ask for what its row says, no less and no more. -/
structure Told (d : Dispatch) (rows : List OutboxRow) : Prop where
  sound : ∀ r ∈ rows, r.targetQueue = .orderEvents →
    ∃ cmd, d.Reports cmd ∧ r.AsksFor d.orderId cmd
  complete : ∀ cmd, d.Reports cmd → ∃ r ∈ rows, r.AsksFor d.orderId cmd

section History

variable {id orderId : Uuid} {d d' : Dispatch} {rows : List OutboxRow} {e : OutboxRow}

theorem asksFor_started (d : Dispatch) (eventId : Uuid) (now : Date) :
    (DispatchEvent.started d eventId now).AsksFor d.orderId .markOrderDispatching :=
  ⟨rfl, fun _ => ⟨OutboxRow.string_message (string_dispatchEvent _ _ _ _ _ _ rfl), rfl⟩⟩

theorem asksFor_assigned (d : Dispatch) (driverId c eventId : String) (now : Date) :
    (DispatchEvent.assigned d driverId c eventId now).AsksFor d.orderId
      (.assignOrderDriver driverId) :=
  ⟨rfl, fun _ => ⟨OutboxRow.string_message (string_dispatchEvent _ _ _ _ _ _ rfl), driverId,
    OutboxRow.string_message (string_dispatchEvent _ _ _ _ _ _ rfl), rfl⟩⟩

theorem asksFor_failed (d : Dispatch) (reason c eventId : String) (now : Date) :
    (DispatchEvent.failed d reason c eventId now).AsksFor d.orderId (.markDispatchFailed reason) :=
  ⟨rfl, fun _ => ⟨OutboxRow.string_message (string_dispatchEvent _ _ _ _ _ _ rfl), reason,
    OutboxRow.string_message (string_dispatchEvent _ _ _ _ _ _ rfl), rfl⟩⟩

theorem asksFor_cancelled (d : Dispatch) (c eventId : String) (now : Date) :
    (DispatchEvent.cancelled d c eventId now).AsksFor d.orderId .completeDispatchCancellation :=
  ⟨rfl, fun _ => ⟨OutboxRow.string_message (string_dispatchEvent _ _ _ _ _ _ rfl), rfl⟩⟩

/-- What was asked for still is, and what is new is asked for by the new event. -/
theorem Told.append (h : Told d rows) (horder : d'.orderId = d.orderId)
    (hold : ∀ cmd, d.Reports cmd → d'.Reports cmd)
    (hnew : ∀ cmd, d'.Reports cmd → d.Reports cmd ∨ e.AsksFor d.orderId cmd)
    (he : e.targetQueue = .orderEvents → ∃ cmd, d'.Reports cmd ∧ e.AsksFor d.orderId cmd) :
    Told d' (rows ++ [e]) := by
  refine ⟨fun r hr hq => ?_, fun cmd hcmd => ?_⟩
  · rw [horder]
    rcases List.mem_append.1 hr with hr | hr
    · obtain ⟨cmd, hcmd, hasks⟩ := h.sound r hr hq
      exact ⟨cmd, hold cmd hcmd, hasks⟩
    · obtain rfl := List.mem_singleton.1 hr
      exact he hq
  · rw [horder]
    rcases hnew cmd hcmd with hcmd | hasks
    · obtain ⟨r, hr, hasks⟩ := h.complete cmd hcmd
      exact ⟨r, List.mem_append_left _ hr, hasks⟩
    · exact ⟨e, List.mem_append_right _ (List.mem_singleton.2 rfl), hasks⟩

/-- A move is announced by the event that asks for what is new. -/
theorem Told.move (h : Told d rows) (hhas : d.driverId ≠ none ↔ d.status.hasDriver)
    (hm : DispatchMove d d' e) : Told d' (rows ++ [e]) := by
  cases hm with
  | assign driverId c eventId now hs =>
    have hnone : d.driverId = none := by simpa [hs, DispatchStatus.hasDriver] using hhas
    refine h.append rfl (fun cmd hcmd => ?_) (fun cmd hcmd => ?_)
      fun _ => ⟨.assignOrderDriver driverId, rfl, asksFor_assigned d driverId c eventId now⟩
    · cases cmd <;> simp_all [Dispatch.Reports]
    · cases cmd with
      | assignOrderDriver driver =>
        obtain rfl : driverId = driver := Option.some.inj hcmd
        exact Or.inr (asksFor_assigned d _ c eventId now)
      | cancelOrder | markOrderDispatching | markDispatchFailed | completeDispatchCancellation =>
        simp_all [Dispatch.Reports]
  | fail reason c eventId now hs =>
    refine h.append rfl (fun cmd hcmd => ?_) (fun cmd hcmd => ?_)
      fun _ => ⟨.markDispatchFailed reason, ⟨rfl, rfl⟩, asksFor_failed d reason c eventId now⟩
    · cases cmd <;> simp_all [Dispatch.Reports]
    · cases cmd with
      | markDispatchFailed reason' =>
        obtain rfl : reason = reason' := Option.some.inj hcmd.2
        exact Or.inr (asksFor_failed d _ c eventId now)
      | cancelOrder | markOrderDispatching | assignOrderDriver | completeDispatchCancellation =>
        simp_all [Dispatch.Reports]
  | compensate driverId reason c eventId now hs =>
    refine h.append rfl (fun cmd hcmd => ?_) (fun cmd hcmd => Or.inl ?_) fun hq => ?_
    · cases cmd <;> simp_all [Dispatch.Reports]
    · cases cmd <;> simp_all [Dispatch.Reports]
    · cases hq
  | cancel c eventId now hs =>
    refine h.append rfl (fun cmd hcmd => ?_) (fun cmd hcmd => ?_)
      fun _ => ⟨.completeDispatchCancellation, rfl, asksFor_cancelled d c eventId now⟩
    · cases cmd <;> simp_all [Dispatch.Reports]
    · cases cmd with
      | completeDispatchCancellation => exact Or.inr (asksFor_cancelled d c eventId now)
      | cancelOrder | markOrderDispatching | assignOrderDriver | markDispatchFailed =>
        simp_all [Dispatch.Reports]

/-- The history of a dispatch, over every run of its workflow. -/
theorem told_of_run {db : DispatchDb} {ts : List (Move DispatchDb WorkflowCall)}
    (hrun : (workflow id orderId).Run ts db) (hd : db.row id = some d) :
    d.orderId = orderId ∧ Told d (db.events id) := by
  induction hrun generalizing d with
  | nil h => simp [h.1] at hd
  | @snoc ts db db' a hrun hs ih =>
    have hkept := DispatchDb.kept_of_run hrun
    cases DispatchDb.change_of_step hkept hs with
    | again | unknown => exact ih hd
    | @start c plan decisionId startedId requestedId now _ hnone hrow hev =>
      obtain rfl := Option.some.inj (hrow.symm.trans hd)
      refine ⟨rfl, fun r hr hq => ?_, fun cmd hcmd => ?_⟩
      · rw [hev] at hr
        rcases List.mem_pair.1 hr with rfl | rfl
        · exact ⟨.markOrderDispatching, trivial, asksFor_started _ _ _⟩
        · cases hq
      · cases cmd with
        | markOrderDispatching =>
          exact ⟨_, hev ▸ List.mem_cons_self, asksFor_started _ _ _⟩
        | cancelOrder | assignOrderDriver | markDispatchFailed | completeDispatchCancellation =>
          simp [Dispatch.Reports, Dispatch.start] at hcmd
    | @step op d₀ o _ hrow hstep hrow' hev =>
      obtain ⟨horder, htold⟩ := ih hrow
      obtain rfl := Option.some.inj (hrow'.symm.trans hd)
      rw [hev]
      cases hstep with
      | move hm =>
        have hsame := (DispatchDb.saved_id (.move hm) _ rfl).2
        exact ⟨hsame.trans horder, htold.move (hkept.after _ hrow).2.2.driver hm⟩
      | late =>
        refine ⟨horder, htold.append rfl (fun cmd h => h) (fun cmd h => Or.inl h) fun hq => ?_⟩
        cases hq
      | idle => simpa using ⟨horder, htold⟩

end History

/-- A delivered message, with what its handler draws. -/
abbrev Execution := Message × Draw

/-- The handler of the message, run with nothing in between. -/
def handleOrder (w : Databases) (x : Execution) : Except ServiceError Unit × Databases :=
  match handleOrderEvent x.1 x.2 with
  | some operation => operation.run w
  | none => (.ok (), w)

/-- One execution after another. -/
def executed (w : Databases) (xs : List Execution) : Databases :=
  xs.foldl (fun w x => (handleOrder w x).2) w

/-- Some execution of the message has not thrown. -/
def Accepted (w : Databases) (xs : List Execution) (m : Message) : Prop :=
  ∃ l x r, xs = l ++ x :: r ∧ x.1 = m ∧ (handleOrder (executed w l) x).1 = .ok ()

/-- Executed once more, the message would be refused again. -/
def Refused (w : Databases) (m : Message) : Prop := ∀ draw, (handleOrder w (m, draw)).1 ≠ .ok ()

/-- Executions of the events among the rows after which none remains to be delivered: each
has been accepted, or is refused for good. -/
structure Drained (rows : List OutboxRow) (w : Databases) (xs : List Execution) : Prop where
  known : ∀ x ∈ xs, ∃ r ∈ rows, r.targetQueue = .orderEvents ∧ r.message = x.1
  done : ∀ r ∈ rows, r.targetQueue = .orderEvents →
    Accepted w xs r.message ∨ Refused (executed w xs) r.message

/-- The order has come to what its dispatch says. -/
structure Converged (d : Dispatch) (w : Databases) : Prop where
  assigned : d.status = .assigned → ∃ r, w.order.row d.orderId = some r ∧ r.status = .assigned ∧
    r.assignedDriverId = d.driverId
  failed : d.status = .failed → ∃ r, w.order.row d.orderId = some r ∧
    r.status = .pendingDispatch ∧ r.lastDispatchFailureReason = d.failureReason
  cancelled : d.status = .cancelled → ∃ r, w.order.row d.orderId = some r ∧ r.status = .cancelled

section Executions

variable {w : Databases} {orderId : Uuid} {r : OrderRow} {cmd : OrderCommand} {x : Execution}
  {xs : List Execution} {m : Message}

theorem handle_of_asks {draw : Draw} (h : m.Asks ⟨orderId, cmd, draw.now⟩) :
    handleOrderEvent m draw = some (onOrder (OrderRequest.execute ⟨orderId, cmd, draw.now⟩)) := by
  obtain ⟨horder, hcmd⟩ := h
  cases hty : m.eventType <;> simp only [hty] at hcmd <;>
    simp_all [handleOrderEvent]
  all_goals
    obtain ⟨s, hs, rfl⟩ := hcmd
    simp [hs]

theorem Message.Asks.command_eq {p p' : OrderRequest} (h : m.Asks p) (h' : m.Asks p') :
    p.command = p'.command := by
  obtain ⟨-, h⟩ := h
  obtain ⟨-, h'⟩ := h'
  cases hty : m.eventType <;> simp_all only
  all_goals
    obtain ⟨s, hs, h⟩ := h
    obtain ⟨s', hs', h'⟩ := h'
    obtain rfl := Option.some.inj (hs.symm.trans hs')
    rw [h, h']

theorem run_onOrder {α : Type} (p : Proc OrderDb ServiceError α) (w : Databases) :
    (onOrder p).run w =
      ((p.run w.order).1.map fun _ => (), { w with order := (p.run w.order).2 }) :=
  Proc.run_within Databases.order (fun db w => { w with order := db }) (fun _ _ => rfl)
    (fun _ _ _ => rfl) (fun _ => rfl) p w

/-- What one execution does to the order it is about. -/
theorem handleOrder_eq (hrow : w.order.row orderId = some r)
    (hasks : x.1.Asks ⟨orderId, cmd, x.2.now⟩) : handleOrder w x =
      match cmd.apply x.2.now (OrderMapper.toDomain r) with
      | .error e => (.error e, w)
      | .ok order => (.ok (), { w with order := w.order.save order }) := by
  simp only [handleOrder, handle_of_asks hasks, run_onOrder]
  rw [OrderRequest.run_execute (p := ⟨orderId, cmd, x.2.now⟩) hrow]
  cases cmd.apply x.2.now (OrderMapper.toDomain r) <;> rfl

/-- The execution throws and changes nothing, or saves what the command makes of the order. -/
theorem handleOrder_cases (hrow : w.order.row orderId = some r)
    (hasks : x.1.Asks ⟨orderId, cmd, x.2.now⟩) :
    (∃ e, cmd.apply x.2.now (OrderMapper.toDomain r) = .error e ∧
      handleOrder w x = (.error e, w)) ∨
    ∃ order, cmd.apply x.2.now (OrderMapper.toDomain r) = .ok order ∧
      (handleOrder w x).1 = .ok () ∧ (handleOrder w x).2.order.row orderId =
        some ((OrderMapper.toPersistence order).over (some r)) := by
  have heq := handleOrder_eq hrow hasks
  cases happly : cmd.apply x.2.now (OrderMapper.toDomain r) with
  | error e => exact Or.inl ⟨e, rfl, by rw [heq, happly]⟩
  | ok order =>
    rw [happly] at heq
    have hid : (OrderMapper.toPersistence order).id = orderId :=
      (OrderCommand.id_of_apply happly).trans (OrderDb.id_of_row hrow)
    have hsave := OrderDb.row_saveEntity w.order (OrderMapper.toPersistence order) orderId
    rw [if_pos hid, hid, hrow] at hsave
    exact Or.inr ⟨order, rfl, by rw [heq], by rw [heq]; exact hsave⟩

theorem executed_snoc (w : Databases) (xs : List Execution) (x : Execution) :
    executed w (xs ++ [x]) = (handleOrder (executed w xs) x).2 := by
  simp [executed]

theorem accepted_snoc (h : Accepted w (xs ++ [x]) m) :
    Accepted w xs m ∨ (x.1 = m ∧ (handleOrder (executed w xs) x).1 = .ok ()) := by
  obtain ⟨l, y, r, heq, hm, hok⟩ := h
  rcases System.mem_snoc_split heq with ⟨rfl, rfl, -⟩ | ⟨r', heq'⟩
  · exact Or.inr ⟨hm, hok⟩
  · exact Or.inl ⟨l, y, r', heq', hm, hok⟩

theorem Accepted.mem (h : Accepted w xs m) : ∃ x ∈ xs, x.1 = m := by
  obtain ⟨l, x, r, rfl, hm, -⟩ := h
  exact ⟨x, by simp, hm⟩

end Executions

section Assigned

/-- How far an order has come. -/
def OrderStatus.stage : OrderStatus → ℕ
  | .pendingDispatch => 0
  | .dispatching => 1
  | .assigned => 2
  | .inTransit | .delivered | .cancelled => 3

/-- How far an order is once the command has been accepted. -/
def OrderCommand.stage : OrderCommand → ℕ
  | .markOrderDispatching => 1
  | .assignOrderDriver _ => 2
  | .completeDispatchCancellation => 3
  | .cancelOrder | .markDispatchFailed _ => 0

/-- The order has come no further than its dispatch, and has the same driver. -/
def Along (d : Dispatch) (r : OrderRow) : Prop :=
  match r.status with
  | .pendingDispatch | .dispatching => True
  | .assigned => r.assignedDriverId = d.driverId
  | .cancelled => d.status = .cancelled
  | .inTransit | .delivered => False

variable {d : Dispatch} {w : Databases} {r : OrderRow} {cmd : OrderCommand} {now : Date}
  {order : Order} {xs : List Execution} {rows : List OutboxRow}

/-- Unless the dispatch failed, an accepted command takes the order further. -/
theorem along_of_apply (hfailed : d.status ≠ .failed) (hcmd : d.Reports cmd) (h : Along d r)
    (happly : cmd.apply now (OrderMapper.toDomain r) = .ok order) :
    Along d ((OrderMapper.toPersistence order).over (some r)) ∧
      r.status.stage ≤ order.status.stage ∧ cmd.stage ≤ order.status.stage := by
  cases cmd with
  | cancelOrder => exact absurd hcmd id
  | markDispatchFailed => exact absurd hcmd.1 hfailed
  | markOrderDispatching =>
    simp only [OrderCommand.apply, Order.beginDispatch, Except.ok.injEq] at happly
    subst happly
    cases hs : r.status <;>
      simp_all [Along, OrderMapper.toDomain, OrderMapper.toPersistence, OrderOrmEntity.over,
        OrderStatus.stage, OrderCommand.stage]
  | assignOrderDriver driverId =>
    simp only [OrderCommand.apply, Order.assignDriver] at happly
    split at happly
    · next hsame =>
      obtain rfl := Except.ok.inj happly
      obtain ⟨hs, -⟩ : r.status = .assigned ∧ _ := hsame
      exact ⟨h, le_rfl, by simp [OrderMapper.toDomain, hs, OrderStatus.stage, OrderCommand.stage]⟩
    · split at happly
      · cases happly
      · next hs =>
        obtain rfl := Except.ok.inj happly
        have hs : r.status = .dispatching := not_not.1 hs
        exact ⟨hcmd.symm, by simp [hs, OrderStatus.stage], le_rfl⟩
  | completeDispatchCancellation =>
    simp only [OrderCommand.apply, Order.cancelAfterDispatch] at happly
    split at happly
    · next hs =>
      obtain rfl := Except.ok.inj happly
      have hs : r.status = .cancelled := hs
      exact ⟨h, le_rfl, by simp [OrderMapper.toDomain, hs, OrderStatus.stage, OrderCommand.stage]⟩
    · split at happly
      · cases happly
      · obtain rfl := Except.ok.inj happly
        refine ⟨hcmd, ?_, le_rfl⟩
        show r.status.stage ≤ 3
        cases r.status <;> decide

/-- The execution is of an event of the dispatch. -/
def Dispatch.Sends (d : Dispatch) (x : Execution) : Prop :=
  ∃ cmd, d.Reports cmd ∧ ∀ now, x.1.Asks ⟨d.orderId, cmd, now⟩

theorem Drained.sends (h : Drained rows w xs) (htold : Told d rows) : ∀ x ∈ xs, d.Sends x := by
  intro x hx
  obtain ⟨r, hr, hq, hm⟩ := h.known x hx
  obtain ⟨cmd, hcmd, -, hasks⟩ := htold.sound r hr hq
  exact ⟨cmd, hcmd, hm ▸ hasks⟩

/-- The order comes at least as far as each command accepted. -/
theorem along_of_executed (hfailed : d.status ≠ .failed) (hrow : w.order.row d.orderId = some r)
    (hpending : r.status = .pendingDispatch) (hxs : ∀ x ∈ xs, d.Sends x) :
    ∃ r', (executed w xs).order.row d.orderId = some r' ∧ Along d r' ∧
      ∀ m cmd, (∀ now, m.Asks ⟨d.orderId, cmd, now⟩) → Accepted w xs m →
        cmd.stage ≤ r'.status.stage := by
  induction xs using List.reverseRecOn with
  | nil =>
    refine ⟨r, hrow, by simp [Along, hpending], fun m cmd _ hacc => ?_⟩
    obtain ⟨x, hx, -⟩ := hacc.mem
    cases hx
  | append_singleton xs x ih =>
    obtain ⟨r', hrow', halong, hstage⟩ := ih fun y hy => hxs y (List.mem_append_left _ hy)
    obtain ⟨cmd₀, hcmd₀, hasks₀⟩ := hxs x (by simp)
    rw [executed_snoc]
    rcases handleOrder_cases hrow' (hasks₀ x.2.now) with ⟨e, -, heq⟩ | ⟨order, happly, -, hrow''⟩
    · refine ⟨r', by rw [heq]; exact hrow', halong, fun m cmd hasks hacc => ?_⟩
      rcases accepted_snoc hacc with hacc | ⟨-, hok⟩
      · exact hstage m cmd hasks hacc
      · rw [heq] at hok
        cases hok
    · obtain ⟨halong', hmono, hcmd⟩ := along_of_apply hfailed hcmd₀ halong happly
      refine ⟨_, hrow'', halong', fun m cmd hasks hacc => ?_⟩
      rcases accepted_snoc hacc with hacc | ⟨rfl, -⟩
      · exact (hstage m cmd hasks hacc).trans hmono
      · obtain rfl := (hasks₀ x.2.now).command_eq (hasks x.2.now)
        exact hcmd

theorem target_of_refused {m : Message} (hrow : w.order.row d.orderId = some r)
    (hasks : ∀ now, m.Asks ⟨d.orderId, cmd, now⟩) (h : Refused w m) :
    cmd.target r.status r.assignedDriverId = none := by
  rcases handleOrder_cases (x := (m, sampleDraw [])) hrow (hasks _) with
    ⟨e, happly, -⟩ | ⟨order, -, hok, -⟩
  · have hstatus := OrderCommand.apply_status (sampleDraw []).now (OrderMapper.toDomain r) cmd
    rw [happly] at hstatus
    exact hstatus.symm
  · exact absurd hok (h _)

/-- At the end, each command was accepted or cannot be. -/
theorem Drained.settled (h : Drained rows w xs) (htold : Told d rows) {r' : OrderRow}
    (hrow : (executed w xs).order.row d.orderId = some r') (hcmd : d.Reports cmd) :
    ∃ m, (∀ now, m.Asks ⟨d.orderId, cmd, now⟩) ∧
      (Accepted w xs m ∨ cmd.target r'.status r'.assignedDriverId = none) := by
  obtain ⟨e, he, hq, hasks⟩ := htold.complete cmd hcmd
  exact ⟨e.message, hasks, (h.done e he hq).imp_right (target_of_refused hrow hasks)⟩

theorem converged_of_ne_failed (hfailed : d.status ≠ .failed)
    (hdriver : d.driverId ≠ none ↔ d.status.hasDriver)
    (hrow : w.order.row d.orderId = some r) (hpending : r.status = .pendingDispatch)
    (htold : Told d rows) (hxs : Drained rows w xs) : Converged d (executed w xs) := by
  obtain ⟨r', hrow', halong, hstage⟩ :=
    along_of_executed hfailed hrow hpending (hxs.sends htold)
  have hreached : ∀ cmd, d.Reports cmd → cmd.target r'.status r'.assignedDriverId ≠ none →
      cmd.stage ≤ r'.status.stage := by
    intro cmd hcmd htarget
    obtain ⟨m, hasks, hacc | hnone⟩ := hxs.settled htold hrow' hcmd
    · exact hstage m cmd hasks hacc
    · exact absurd hnone htarget
  have hstarted : r'.status ≠ .pendingDispatch := by
    intro hs
    have hle := hreached .markOrderDispatching trivial (by simp [OrderCommand.target])
    simp [hs, OrderStatus.stage, OrderCommand.stage] at hle
  refine ⟨fun hs => ?_, fun hs => absurd hs hfailed, fun hs => ?_⟩
  · obtain ⟨driverId, hd⟩ := Option.ne_none_iff_exists'.1 (hdriver.2 (by rw [hs]; rfl))
    have hassigned := hreached (.assignOrderDriver driverId) hd
    refine ⟨r', hrow', ?_⟩
    cases hs' : r'.status with
    | pendingDispatch => exact absurd hs' hstarted
    | dispatching =>
      simp [hs', OrderCommand.target, OrderStatus.stage, OrderCommand.stage] at hassigned
    | assigned => exact ⟨rfl, by simpa [Along, hs'] using halong⟩
    | cancelled => simp [Along, hs', hs] at halong
    | inTransit | delivered => simp [Along, hs'] at halong
  · have hcancelled := hreached .completeDispatchCancellation hs
    refine ⟨r', hrow', ?_⟩
    cases hs' : r'.status with
    | pendingDispatch => exact absurd hs' hstarted
    | dispatching | assigned =>
      simp [hs', OrderCommand.target, OrderStatus.stage, OrderCommand.stage] at hcancelled
    | cancelled => rfl
    | inTransit | delivered => simp [Along, hs'] at halong

end Assigned

section Failed

variable {d : Dispatch} {w : Databases} {r : OrderRow} {cmd : OrderCommand} {now : Date}
  {order : Order} {xs : List Execution} {x : Execution} {rows : List OutboxRow}

/-- The order follows the last event it was told of; a failure it was told of first is lost. -/
structure Trails (d : Dispatch) (xs : List Execution) (r : OrderRow) : Prop where
  first : xs = [] → r.status = .pendingDispatch
  started : ∀ x, xs.getLast? = some x → x.1.eventType ≠ .dispatchFailed → r.status = .dispatching
  failed : ∀ x, xs.getLast? = some x → x.1.eventType = .dispatchFailed →
    r.status = .pendingDispatch
  reason : ∀ x, xs.getLast? = some x → x.1.eventType = .dispatchFailed →
    (∃ y ∈ xs, y.1.eventType = .dispatchStarted) → r.lastDispatchFailureReason = d.failureReason

/-- A failed dispatch reports its start and its failure. -/
theorem Dispatch.Sends.cases (h : d.Sends x) (hs : d.status = .failed)
    (hdriver : d.driverId = none) :
    (x.1.eventType = .dispatchStarted ∧ ∀ now, x.1.Asks ⟨d.orderId, .markOrderDispatching, now⟩) ∨
    ∃ reason, d.failureReason = some reason ∧ x.1.eventType = .dispatchFailed ∧
      ∀ now, x.1.Asks ⟨d.orderId, .markDispatchFailed reason, now⟩ := by
  obtain ⟨cmd, hcmd, hasks⟩ := h
  obtain ⟨-, hty⟩ := hasks 0
  cases cmd with
  | cancelOrder => exact hcmd.elim
  | assignOrderDriver => simp [Dispatch.Reports, hdriver] at hcmd
  | completeDispatchCancellation => simp [Dispatch.Reports, hs] at hcmd
  | markOrderDispatching =>
    refine Or.inl ⟨?_, hasks⟩
    cases h : x.1.eventType <;> simp_all
  | markDispatchFailed reason =>
    refine Or.inr ⟨reason, hcmd.2, ?_, hasks⟩
    cases h : x.1.eventType <;> simp_all

theorem trails_of_executed (hs : d.status = .failed) (hdriver : d.driverId = none)
    (hrow : w.order.row d.orderId = some r) (hpending : r.status = .pendingDispatch)
    (hxs : ∀ x ∈ xs, d.Sends x) :
    ∃ r', (executed w xs).order.row d.orderId = some r' ∧ Trails d xs r' := by
  induction xs using List.reverseRecOn with
  | nil => exact ⟨r, hrow, fun _ => hpending, by simp, by simp, by simp⟩
  | append_singleton xs x ih =>
    obtain ⟨r', hrow', htrails⟩ := ih fun y hy => hxs y (List.mem_append_left _ hy)
    rw [executed_snoc]
    have hstatus : r'.status = .pendingDispatch ∨ r'.status = .dispatching := by
      cases hlast : xs.getLast? with
      | none => exact Or.inl (htrails.first (List.getLast?_eq_none_iff.1 hlast))
      | some y =>
        by_cases hy : y.1.eventType = .dispatchFailed
        · exact Or.inl (htrails.failed y hlast hy)
        · exact Or.inr (htrails.started y hlast hy)
    rcases (hxs x (by simp)).cases hs hdriver with ⟨hty, hasks⟩ | ⟨reason, hreason, hty, hasks⟩
    all_goals
      obtain ⟨e, happly, -⟩ | ⟨order, happly, -, hrow''⟩ := handleOrder_cases hrow' (hasks x.2.now)
    · cases happly
    · obtain rfl := Except.ok.inj happly
      refine ⟨_, hrow'', by simp, fun y hy _ => ?_, fun y hy hfailed => ?_, fun y hy hfailed => ?_⟩
      · rcases hstatus with h | h <;>
          simp [Order.beginDispatch, OrderMapper.toDomain, OrderMapper.toPersistence,
            OrderOrmEntity.over, h]
      all_goals
        obtain rfl : x = y := by simpa using hy
        rw [hty] at hfailed
        cases hfailed
    · cases happly
    · obtain rfl := Except.ok.inj happly
      refine ⟨_, hrow'', by simp, fun y hy hne => ?_, fun y hy _ => ?_, fun y hy _ hstarted => ?_⟩
      · obtain rfl : x = y := by simpa using hy
        exact absurd hty hne
      · rcases hstatus with h | h <;>
          simp [Order.dispatchFailed, OrderMapper.toDomain, OrderMapper.toPersistence,
            OrderOrmEntity.over, h]
      · obtain ⟨y', hy', hty'⟩ := hstarted
        have hin : y' ∈ xs := by
          rcases List.mem_append.1 hy' with h | h
          · exact h
          · obtain rfl := List.mem_singleton.1 h
            rw [hty] at hty'
            cases hty'
        obtain ⟨z, hz⟩ : ∃ z, xs.getLast? = some z :=
          Option.ne_none_iff_exists'.1 fun h => by simp_all
        by_cases hfailed : z.1.eventType = .dispatchFailed
        · have hkept := htrails.reason z hz hfailed ⟨y', hin, hty'⟩
          simpa [Order.dispatchFailed, OrderMapper.toDomain, OrderMapper.toPersistence,
            OrderOrmEntity.over, htrails.failed z hz hfailed] using hkept
        · simp [Order.dispatchFailed, OrderMapper.toDomain, OrderMapper.toPersistence,
            OrderOrmEntity.over, htrails.started z hz hfailed, hreason]

theorem converged_iff_of_failed (hs : d.status = .failed) (hdriver : d.driverId = none)
    (hrow : w.order.row d.orderId = some r) (hpending : r.status = .pendingDispatch)
    (htold : Told d rows) (hxs : Drained rows w xs) :
    Converged d (executed w xs) ↔
      ∃ x, xs.getLast? = some x ∧ x.1.eventType = .dispatchFailed := by
  obtain ⟨r', hrow', htrails⟩ := trails_of_executed hs hdriver hrow hpending (hxs.sends htold)
  have hreports : d.Reports .markOrderDispatching := trivial
  obtain ⟨m, hasks, hacc | hnone⟩ := hxs.settled htold hrow' hreports
  swap
  · simp [OrderCommand.target] at hnone
  obtain ⟨y, hy, rfl⟩ := hacc.mem
  have hty : y.1.eventType = .dispatchStarted := by
    obtain ⟨-, hty⟩ := hasks 0
    cases h : y.1.eventType <;> simp_all
  obtain ⟨x, hx⟩ : ∃ x, xs.getLast? = some x :=
    Option.ne_none_iff_exists'.1 fun h => by simp_all
  constructor
  · intro h
    obtain ⟨r'', hrow'', hstatus, -⟩ := h.failed hs
    obtain rfl := Option.some.inj (hrow'.symm.trans hrow'')
    refine ⟨x, hx, by_contra fun hne => ?_⟩
    rw [htrails.started x hx hne] at hstatus
    cases hstatus
  · rintro ⟨x', hx', hfailed⟩
    refine ⟨fun h => ?_, fun _ => ?_, fun h => ?_⟩
    · rw [hs] at h; cases h
    · exact ⟨r', hrow', htrails.failed x' hx' hfailed,
        htrails.reason x' hx' hfailed ⟨y, hy, hty⟩⟩
    · rw [hs] at h; cases h

end Failed

section Law

variable {id orderId : Uuid} {d : Dispatch} {db : DispatchDb} {row : OrderRow} {w : Databases}
  {ts : List (Move DispatchDb WorkflowCall)} {xs : List Execution}

theorem converged_iff (hrun : (workflow id orderId).Run ts db) (hd : db.row id = some d)
    (hrow : w.order.row orderId = some row) (hpending : row.status = .pendingDispatch)
    (hxs : Drained (db.events id) w xs) :
    Converged d (executed w xs) ↔
      (d.status = .failed → ∃ x, xs.getLast? = some x ∧ x.1.eventType = .dispatchFailed) := by
  obtain ⟨rfl, htold⟩ := told_of_run hrun hd
  have hdriver := ((DispatchDb.kept_of_run hrun).after d hd).2.2.driver
  by_cases hs : d.status = .failed
  · have hnone : d.driverId = none := by simpa [hs, DispatchStatus.hasDriver] using hdriver
    rw [converged_iff_of_failed hs hnone hrow hpending htold hxs]
    exact ⟨fun h _ => h, fun h => h hs⟩
  · exact ⟨fun _ h => absurd h hs,
      fun _ => converged_of_ne_failed hs hdriver hrow hpending htold hxs⟩

end Law

section Samples

theorem drained_of_computed {rows : List OutboxRow} {w : Databases} {xs : List Execution}
    (hknown : ∀ x ∈ xs, ∃ r ∈ rows, r.targetQueue = .orderEvents ∧ r.message = x.1)
    (hdone : ∀ r ∈ rows, r.targetQueue = .orderEvents → ∃ i : Fin xs.length,
      xs[i].1 = r.message ∧ (handleOrder (executed w (xs.take i)) xs[i]).1.isOk) :
    Drained rows w xs := by
  refine ⟨hknown, fun r hr hq => Or.inl ?_⟩
  obtain ⟨i, hm, hok⟩ := hdone r hr hq
  refine ⟨xs.take i, xs[i], xs.drop (i + 1), by simp, hm, ?_⟩
  cases h : (handleOrder (executed w (xs.take i)) xs[i]).1 with
  | ok => rfl
  | error e =>
    rw [h] at hok
    cases hok

/-- A dispatch that finds no driver in time. -/
def failedRun : List WorkflowCall :=
  [.start "corr-1" none "id-1" "id-2" "id-3" 1, .op (.timeout newDispatch "corr-1" "id-4" 2)]

def failedDispatchDb : DispatchDb :=
  ((workflow newDispatch "order-1").replay ⟨[], [], []⟩ failedRun).getD ⟨[], [], []⟩

theorem run_failedRun : (workflow newDispatch "order-1").Run
    ((workflow newDispatch "order-1").moves ⟨[], [], []⟩ failedRun) failedDispatchDb :=
  System.Run.of_replay ⟨rfl, rfl, rfl⟩ rfl

/-- The events of that dispatch with these ids, executed in this order. -/
def executionsOf (ids : List Uuid) : List Execution :=
  ids.filterMap fun id =>
    (failedDispatchDb.outbox.find? fun r => r.id = id).map fun r => (r.message, sampleDraw [])

def placedOrder : Databases :=
  ⟨⟨[(OrderMapper.toPersistence (Order.sample "order-1")).over none], []⟩, ⟨[], [], []⟩,
    ⟨[], [], []⟩⟩

/-- The failure is executed again after `dispatch.started`. -/
theorem converged_failedAgain : ∃ d, failedDispatchDb.row newDispatch = some d ∧
    d.status = .failed ∧
    Converged d (executed placedOrder (executionsOf ["id-4", "id-2", "id-4"])) := by
  obtain ⟨d, hd, hs⟩ : ∃ d, failedDispatchDb.row newDispatch = some d ∧ d.status = .failed :=
    ⟨_, rfl, rfl⟩
  obtain ⟨row, hrow, hpending⟩ : ∃ row, placedOrder.order.row "order-1" = some row ∧
      row.status = .pendingDispatch := ⟨_, rfl, rfl⟩
  have hdrained : Drained (failedDispatchDb.events newDispatch) placedOrder
      (executionsOf ["id-4", "id-2", "id-4"]) := drained_of_computed (by decide) (by decide)
  exact ⟨d, hd, hs, (converged_iff run_failedRun hd hrow hpending hdrained).2
    fun _ => ⟨_, rfl, rfl⟩⟩

/-- The failure comes first and says nothing; `dispatch.started` comes last. -/
theorem not_converged : ¬ ∀ id orderId ts db d row w xs,
    (workflow id orderId).Run ts db → db.row id = some d → w.order.row orderId = some row →
    row.status = .pendingDispatch → Drained (db.events id) w xs → Converged d (executed w xs) := by
  intro hlaw
  obtain ⟨d, hd, hs, horder⟩ : ∃ d, failedDispatchDb.row newDispatch = some d ∧
      d.status = .failed ∧ d.orderId = "order-1" := ⟨_, rfl, rfl, rfl⟩
  obtain ⟨row, hrow, hpending⟩ : ∃ row, placedOrder.order.row "order-1" = some row ∧
      row.status = .pendingDispatch := ⟨_, rfl, rfl⟩
  obtain ⟨r, hr, hstuck⟩ : ∃ r,
      (executed placedOrder (executionsOf ["id-4", "id-2"])).order.row "order-1" = some r ∧
      r.status = .dispatching := ⟨_, rfl, rfl⟩
  have hdrained : Drained (failedDispatchDb.events newDispatch) placedOrder
      (executionsOf ["id-4", "id-2"]) := drained_of_computed (by decide) (by decide)
  obtain ⟨r', hr', hstatus, -⟩ :=
    (hlaw _ _ _ _ d row _ _ run_failedRun hd hrow hpending hdrained).failed hs
  rw [horder, hr] at hr'
  obtain rfl := Option.some.inj hr'
  rw [hstuck] at hstatus
  cases hstatus

end Samples

end RouteFast
