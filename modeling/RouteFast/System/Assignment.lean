import RouteFast.System.Convergence
import RouteFast.System.Messages
import RouteFast.System.Snapshots

/-! What an order's row says of its dispatch, although Order learns of it late, out of order
and on rows read earlier, and the one driver that an order can have anywhere. -/

namespace RouteFast

open Transition Pool ReadCommitted

namespace Databases

/-- The order's dispatch has come to what the command says. -/
def Reported (w : Databases) (orderId : Uuid) (cmd : OrderCommand) : Prop :=
  ∃ d, w.dispatch.row d.id = some d ∧ d.orderId = orderId ∧ d.Reports cmd

end Databases

/-- What an order's row says of its dispatch is so in the Dispatch service, and where it is
cancelled without a dispatch, `A` allows that. -/
structure OrderRow.Backed (A : Uuid → Prop) (w : Databases) (row : OrderRow) : Prop where
  /-- A row has a driver from its assignment on, also when it is cancelled later. -/
  status : (row.status = .assigned → row.assignedDriverId ≠ none) ∧
    (row.status = .pendingDispatch ∨ row.status = .dispatching → row.assignedDriverId = none)
  dispatching : row.status = .dispatching ∨ row.status = .assigned →
    w.Reported row.id .markOrderDispatching
  driver : ∀ driverId, row.assignedDriverId = some driverId →
    w.Reported row.id (.assignOrderDriver driverId)
  reason : ∀ reason, row.lastDispatchFailureReason = some reason →
    w.Reported row.id (.markDispatchFailed reason)
  cancelled : row.status = .cancelled → w.Reported row.id .completeDispatchCancellation ∨
    (row.assignedDriverId = none ∧ A row.id)

section Rows

variable {A : Uuid → Prop} {w w' : Databases} {row read : OrderRow} {order : Order}
  {cmd : OrderCommand} {now : Date}

theorem OrderRow.Backed.mono (h : row.Backed A w)
    (hw : ∀ o cmd, w.Reported o cmd → w'.Reported o cmd) : row.Backed A w' :=
  ⟨h.status, fun hs => hw _ _ (h.dispatching hs), fun x hx => hw _ _ (h.driver x hx),
    fun r hr => hw _ _ (h.reason r hr), fun hs => (h.cancelled hs).imp_left (hw _ _)⟩

/-- A new order says nothing of a dispatch. -/
theorem OrderRow.backed_of_pending (hs : row.status = .pendingDispatch)
    (hdriver : row.assignedDriverId = none) (hreason : row.lastDispatchFailureReason = none) :
    row.Backed A w := by
  refine ⟨⟨?_, fun _ => hdriver⟩, ?_, ?_, ?_, ?_⟩ <;> simp [hs, hdriver, hreason]

/-- The method of a command that is true of the order's dispatch, on a row that is backed. -/
theorem OrderRow.Backed.apply (h : read.Backed A w)
    (hcmd : (cmd = .cancelOrder ∧ A read.id) ∨ w.Reported read.id cmd)
    (happly : cmd.apply now (OrderMapper.toDomain read) = .ok order) (old : Option OrderRow) :
    ((OrderMapper.toPersistence order).over old).Backed A w := by
  obtain ⟨⟨hassigned, hnone⟩, hdispatching, hdriver, hreason, hcancelled⟩ := h
  have some_dispatch {cmd : OrderCommand} (h : w.Reported read.id cmd) :
      w.Reported read.id .markOrderDispatching := by
    obtain ⟨d, hd, horder, -⟩ := h
    exact ⟨d, hd, horder, trivial⟩
  cases cmd with
  | cancelOrder =>
    simp only [OrderCommand.apply, Order.cancel] at happly
    split at happly
    · cases happly
    · next hs =>
      obtain rfl := Except.ok.inj happly
      have hpending : read.status = .pendingDispatch := not_not.1 hs
      have hn := hnone (Or.inl hpending)
      have hasked : A read.id := by
        rcases hcmd with ⟨-, ha⟩ | ⟨d, -, -, hrep⟩
        · exact ha
        · exact hrep.elim
      refine ⟨⟨by rintro ⟨⟩, fun _ => hn⟩, ?_, hdriver, hreason, fun _ => Or.inr ⟨hn, hasked⟩⟩
      rintro (h | h) <;> cases h
  | markOrderDispatching =>
    simp only [OrderCommand.apply, Order.beginDispatch,
      Except.ok.injEq] at happly
    split at happly <;> subst happly
    · exact ⟨⟨hassigned, hnone⟩, hdispatching, hdriver, hreason, hcancelled⟩
    · next hs =>
      have hpending : read.status = .pendingDispatch := not_not.1 hs
      refine ⟨⟨by rintro ⟨⟩, fun _ => hnone (Or.inl hpending)⟩, fun _ => ?_, hdriver,
        by rintro r ⟨⟩, by rintro ⟨⟩⟩
      exact hcmd.resolve_left (by rintro ⟨⟨⟩, -⟩)
  | assignOrderDriver driverId =>
    have htrue := hcmd.resolve_left (by rintro ⟨⟨⟩, -⟩)
    simp only [OrderCommand.apply, Order.assignDriver] at happly
    split at happly
    · obtain rfl := Except.ok.inj happly
      exact ⟨⟨hassigned, hnone⟩, hdispatching, hdriver, hreason, hcancelled⟩
    · split at happly
      · cases happly
      · obtain rfl := Except.ok.inj happly
        refine ⟨⟨fun _ => by rintro ⟨⟩, by rintro (h | h) <;> cases h⟩,
          fun _ => some_dispatch htrue, fun x hx => ?_, hreason, by rintro ⟨⟩⟩
        obtain rfl : driverId = x := Option.some.inj hx
        exact htrue
  | markDispatchFailed reason =>
    simp only [OrderCommand.apply, Order.dispatchFailed,
      Except.ok.injEq] at happly
    split at happly <;> subst happly
    · exact ⟨⟨hassigned, hnone⟩, hdispatching, hdriver, hreason, hcancelled⟩
    · next hs =>
      have hd : read.status = .dispatching := not_not.1 hs
      refine ⟨⟨by rintro ⟨⟩, fun _ => hnone (Or.inr hd)⟩, ?_, hdriver, fun r hr => ?_,
        by rintro ⟨⟩⟩
      · rintro (h | h) <;> cases h
      · obtain rfl : reason = r := Option.some.inj hr
        exact hcmd.resolve_left (by rintro ⟨⟨⟩, -⟩)
  | completeDispatchCancellation =>
    simp only [OrderCommand.apply, Order.cancelAfterDispatch] at happly
    split at happly
    · obtain rfl := Except.ok.inj happly
      exact ⟨⟨hassigned, hnone⟩, hdispatching, hdriver, hreason, hcancelled⟩
    · split at happly
      · cases happly
      · obtain rfl := Except.ok.inj happly
        refine ⟨⟨by rintro ⟨⟩, ?_⟩, ?_, hdriver, hreason, fun _ => Or.inl ?_⟩
        · rintro (h | h) <;> cases h
        · rintro (h | h) <;> cases h
        · exact hcmd.resolve_left (by rintro ⟨⟨⟩, -⟩)

end Rows

section Reports

variable {settings : Settings} {R : Request → Prop} {P : Queue → Message → Prop}
  {w w' : Databases} {d d' : Dispatch} {e : OutboxRow} {cmd : OrderCommand}

/-- What a dispatch has come to it stays at: its driver, its failure, its cancellation. -/
theorem Dispatch.Reports.move (h : d.Reports cmd) (hm : DispatchMove d d' e)
    (hhas : d.status.hasDriver ↔ d.driverId ≠ none) : d'.Reports cmd := by
  cases cmd with
  | cancelOrder => exact h
  | markOrderDispatching => trivial
  | assignOrderDriver driverId =>
    have hd : d.driverId = some driverId := h
    cases hm with
    | assign driver c eventId now hs => simp [hs, hd, DispatchStatus.hasDriver] at hhas
    | fail | compensate | cancel => exact hd
  | markDispatchFailed reason =>
    obtain ⟨hs, -⟩ := h
    cases hm <;> simp_all
  | completeDispatchCancellation =>
    have hs : d.status = .cancelled := h
    cases hm <;> simp_all

theorem Databases.Reported.markPublished {o : Uuid} (h : w.Reported o cmd) (id : Uuid)
    (now : Date) : (w.markPublished id now).Reported o cmd := h

theorem Advance.reported (hadv : Advance settings R P w w') (hc : Coherent w) {o : Uuid}
    (h : w.Reported o cmd) : w'.Reported o cmd := by
  obtain ⟨d, hd, horder, hrep⟩ := h
  cases hadv with
  | idle | saved | created | createdDriver | reserved | released => exact ⟨d, hd, horder, hrep⟩
  | started m e plan decisionId startedId requestedId now =>
    refine ⟨d, ?_, horder, hrep⟩
    refine (Table.find_append_singleton (c := Dispatch.id)).trans ?_
    rw [← DispatchDb.row, hd, Option.some_or]
  | operated op e o _ he ho =>
    have hid : e.id = op.dispatchId := Table.key_of_find he
    cases DispatchOp.step_of_outcome ho with
    | late | idle => exact ⟨d, hd, horder, hrep⟩
    | move hm =>
      by_cases hde : d.id = e.id
      · obtain rfl : d = e := Option.some.inj (hd.symm.trans (hde ▸ hid ▸ he))
        refine ⟨_, Table.find_save_self (c := Dispatch.id), ?_, hrep.move hm (hc.driver _ d hd)⟩
        cases hm <;> exact horder
      · refine ⟨d, (Table.find_save_ne (c := Dispatch.id) ?_).trans hd, horder, hrep⟩
        cases hm <;> exact fun h => hde h.symm

/-- A message to the Order service asks for what its dispatch has come to. -/
def Databases.Truthful (w : Databases) : Prop :=
  ∀ m p, (Queue.orderEvents, m) ∈ w.posts → m.Asks p → w.Reported p.orderId p.command

/-- The event that announces a move asks for what the move leads to. -/
theorem DispatchMove.reports (hm : DispatchMove d d' e) (hq : e.targetQueue = .orderEvents) :
    ∃ cmd, d'.Reports cmd ∧ e.AsksFor d.orderId cmd := by
  cases hm with
  | assign driverId c eventId now =>
    exact ⟨.assignOrderDriver driverId, rfl, asksFor_assigned d driverId c eventId now⟩
  | fail reason c eventId now =>
    exact ⟨.markDispatchFailed reason, ⟨rfl, rfl⟩, asksFor_failed d reason c eventId now⟩
  | compensate => cases hq
  | cancel c eventId now =>
    exact ⟨.completeDispatchCancellation, rfl, asksFor_cancelled d c eventId now⟩

theorem Databases.reported_of_asksFor {p : OrderRequest} (hd : w.dispatch.row d.id = some d)
    (hrep : d.Reports cmd) (he : e.AsksFor d.orderId cmd) (hp : e.message.Asks p) :
    w.Reported p.orderId p.command := by
  have hasks := he.2 p.now
  obtain rfl : cmd = p.command := hasks.command_eq hp
  exact ⟨d, hd, Option.some.inj (hasks.1.symm.trans hp.1), hrep⟩

theorem Advance.truthful (hadv : Advance settings R P w w') (hc : Coherent w)
    (h : w.Truthful) : w'.Truthful := by
  suffices hnew : ∀ q m, (q, m) ∈ w'.posts → (q, m) ∈ w.posts ∨ (q = .orderEvents →
      ∀ p, m.Asks p → w'.Reported p.orderId p.command) by
    intro m p hm hp
    rcases hnew _ m hm with hm | hm
    · exact hadv.reported hc (h m p hm hp)
    · exact hm rfl p hp
  cases hadv with
  | idle | saved => exact fun q m hm => Or.inl hm
  | created order c key eventId now result db hs hrun =>
    refine Databases.posts_of_rows (fun r hr => ?_) (fun r hr => Or.inl hr) fun r hr => Or.inl hr
    refine (posted_of_created hrun r hr).imp_right fun hnew hq => ?_
    rw [hnew.1] at hq
    cases hq
  | started m d plan decisionId startedId requestedId now _ _ _ _ _ hrow =>
    refine Databases.posts_of_rows (fun r hr => Or.inl hr) (fun r hr => ?_) fun r hr => Or.inl hr
    rcases List.mem_append.1 hr with hr | hr
    · exact Or.inl hr
    · rcases List.mem_pair.1 hr with rfl | rfl
      · have hasks := asksFor_started d startedId now
        refine Or.inr fun _ p hp => Databases.reported_of_asksFor ?_ (d := d) ?_ hasks hp
        swap
        · trivial
        refine (Table.find_append_singleton (c := Dispatch.id)).trans ?_
        rw [← DispatchDb.row, hrow, Option.none_or, if_pos rfl]
      · exact Or.inr (by rintro ⟨⟩)
  | operated op d o _ hd ho =>
    refine Databases.posts_of_rows (fun r hr => Or.inl hr) (fun r hr => ?_) fun r hr => Or.inl hr
    refine (List.mem_append.1 hr).imp_right fun hr hq p hp => ?_
    cases DispatchOp.step_of_outcome ho with
    | idle => cases hr
    | late =>
      obtain rfl := List.mem_singleton.1 hr
      cases hq
    | @move d' _ hm =>
      obtain rfl := List.mem_singleton.1 hr
      obtain ⟨cmd, hrep, hasks⟩ := hm.reports hq
      have horder : d'.orderId = d.orderId := by cases hm <;> rfl
      exact Databases.reported_of_asksFor (d := d') (Table.find_save_self (c := Dispatch.id)) hrep
        (horder ▸ hasks) hp
  | createdDriver id displayName capacity now db hrun =>
    obtain ⟨d, -, -, rfl⟩ := created_of_run hrun
    exact fun q m hm => Or.inl hm
  | reserved m input reservationId eventId now locked db _ _ _ hrun =>
    refine Databases.posts_of_rows (fun r hr => Or.inl hr) (fun r hr => Or.inl hr) fun r hr => ?_
    refine ((reserved_of_run hc.linked hrun).queue r hr).imp_right fun hnew hq => ?_
    rw [hnew] at hq
    cases hq
  | released m input eventId now locked db _ _ _ hrun =>
    refine Databases.posts_of_rows (fun r hr => Or.inl hr) (fun r hr => Or.inl hr) fun r hr => ?_
    refine ((released_of_commit hc.linked hrun).queue r hr).imp_right fun hnew hq => ?_
    rw [hnew] at hq
    cases hq

end Reports

section Orders

variable {settings : Settings} {w : Databases} {seen : Option Databases}
  {effect : Databases → Databases} {next : Databases → Proc Databases ServiceError Unit}

/-- What a step does to the orders: rows of new orders, or the save of a use case that `A`
allows on a row it has seen. -/
inductive OrderSave (A : OrderRequest → Prop) (seen : Option Databases) (db : OrderDb) :
    OrderDb → Prop
  | created {db' : OrderDb} : (∀ o row, db'.row o = some row → db.row o = some row ∨
      (row.status = .pendingDispatch ∧ row.assignedDriverId = none ∧
        row.lastDispatchFailureReason = none)) → OrderSave A seen db db'
  | saved (v : Databases) (p : OrderRequest) (read : OrderRow) (order : Order) :
      seen = some v → A p → v.order.row p.orderId = some read →
      p.command.apply p.now (OrderMapper.toDomain read) = .ok order →
      OrderSave A seen db (db.save order)

theorem OrderSave.same {A : OrderRequest → Prop} {db db' : OrderDb} (h : db'.orders = db.orders) :
    OrderSave A seen db db' :=
  .created fun o row hrow => Or.inl (by rw [OrderDb.row, ← h]; exact hrow)

theorem orderSave_order {A : OrderRequest → Prop} {p : OrderRequest} (hp : A p)
    (h : Rest (onOrder p.execute) seen (.step effect next)) :
    OrderSave A seen w.order (effect w).order := by
  obtain ⟨effect₀, next₀, hrest, rfl, rfl⟩ := rest_on h
  rcases OrderPool.residual_step (.of_rest hrest) with ⟨-, rfl⟩ |
    ⟨db, read, order, hseen, hrow, happly, rfl⟩
  · exact .same rfl
  · obtain ⟨v, rfl, rfl⟩ := Option.map_eq_some_iff.1 hseen
    exact .saved v p read order rfl hp hrow happly

/-- A creation inserts a pending order. -/
theorem orderSave_create {A : OrderRequest → Prop} {id : Uuid} {customerId : String}
    {priority : OrderPriority} {pickup dropoff : Location} {c key : Option String} {eventId : Uuid}
    {now : Date} (h : Rest ((Request.createOrder id customerId priority pickup dropoff c key eventId
      now).execute settings) seen (.step effect next)) :
    OrderSave A seen w.order (effect w).order := by
  obtain ⟨effect₀, next₀, hrest, rfl, rfl⟩ := rest_on h
  simp only [createOrder] at hrest
  cases horder : Order.create id customerId priority pickup dropoff now with
  | error e =>
    rw [horder] at hrest
    cases rest_finished rfl hrest
  | ok order =>
    rw [horder] at hrest
    obtain ⟨hs, hdriver, hreason⟩ : order.status = .pendingDispatch ∧
        order.assignedDriverId = none ∧ order.lastDispatchFailureReason = none := by
      simp only [Order.create] at horder
      split at horder
      · cases horder
      · obtain rfl := Except.ok.inj horder
        exact ⟨rfl, rfl, rfl⟩
    rcases rest_atomically hrest w.order with ⟨hsame, -⟩ | ⟨result, hcommit, -⟩
    · exact .same (congrArg OrderDb.orders hsame)
    · refine .created ((writes_persistReadyForDispatch (fun db o row hrow => ?_)
        fun db o row hrow => Or.inl hrow).run (R := fun db db' : OrderDb => ∀ o row,
          db'.row o = some row → db.row o = some row ∨ (row.status = .pendingDispatch ∧
            row.assignedDriverId = none ∧ row.lastDispatchFailureReason = none))
        (fun _ o row hrow => Or.inl hrow)
        (fun _ _ _ h h' o row hrow => (h' o row hrow).elim (h o row) Or.inr) hcommit)
      rw [OrderDb.row_saveEntity] at hrow
      split at hrow
      · obtain rfl := Option.some.inj hrow
        exact Or.inr ⟨hs, hdriver, hreason⟩
      · exact Or.inl hrow

theorem orderSave_request {A : OrderRequest → Prop} {p : Request}
    (hA : ∀ orderId now, p = .cancelOrder orderId now → A ⟨orderId, .cancelOrder, now⟩)
    (h : Rest (p.execute settings) seen (.step effect next)) :
    OrderSave A seen w.order (effect w).order := by
  cases p with
  | createOrder => exact orderSave_create h
  | cancelOrder orderId now => exact orderSave_order (hA orderId now rfl) h
  | cancelDispatch | timeoutDispatch | createDriver =>
    unfold Request.execute at h
    obtain ⟨effect₀, next₀, -, rfl, -⟩ := rest_on h
    exact .same rfl

theorem onDispatch_of_handle {m : Message} {draw : Draw} {op : Proc Databases ServiceError Unit}
    (hop : handleDispatchEvent settings m draw = some op) :
    ∃ p : Proc DispatchDb ServiceError Unit, op = onDispatch p := by
  simp only [handleDispatchEvent] at hop
  split at hop
  · obtain ⟨orderId, -, hop⟩ := Option.bind_eq_some_iff.1 hop
    obtain ⟨c, -, hop⟩ := Option.bind_eq_some_iff.1 hop
    exact ⟨_, (Option.some.inj hop).symm⟩
  · obtain ⟨input, -, hop⟩ := Option.bind_eq_some_iff.1 hop
    exact ⟨_, (Option.some.inj hop).symm⟩
  · obtain ⟨input, -, hop⟩ := Option.bind_eq_some_iff.1 hop
    exact ⟨_, (Option.some.inj hop).symm⟩
  · obtain ⟨dispatchId, -, hop⟩ := Option.bind_eq_some_iff.1 hop
    obtain ⟨c, -, hop⟩ := Option.bind_eq_some_iff.1 hop
    exact ⟨_, (Option.some.inj hop).symm⟩
  · cases hop

theorem onDriver_of_handle {m : Message} {draw : Draw} {op : Proc Databases ServiceError Unit}
    (hop : handleDriverEvent settings m draw = some op) :
    ∃ p : Proc DriverDb ServiceError Unit, op = onDriver p := by
  simp only [handleDriverEvent] at hop
  split at hop
  · obtain ⟨input, -, hop⟩ := Option.bind_eq_some_iff.1 hop
    exact ⟨_, (Option.some.inj hop).symm⟩
  · obtain ⟨input, -, hop⟩ := Option.bind_eq_some_iff.1 hop
    exact ⟨_, (Option.some.inj hop).symm⟩
  · cases hop

theorem orderSave_delivery {A : OrderRequest → Prop} {q : Queue} {m : Message} {draw : Draw}
    {op : Proc Databases ServiceError Unit} (hA : ∀ p, q = .orderEvents → m.Asks p → A p)
    (hop : handle settings q m draw = some op) (h : Rest op seen (.step effect next)) :
    OrderSave A seen w.order (effect w).order := by
  cases q with
  | orderEvents =>
    simp only [handle, handleOrderEvent, Option.bind_eq_bind, Option.bind_eq_some_iff] at hop
    obtain ⟨orderId, horder, hop⟩ := hop
    split at hop
    · next hm =>
      obtain rfl := Option.some.inj hop
      exact orderSave_order (hA _ rfl ⟨horder, by rw [hm]⟩) h
    · next hm =>
      obtain ⟨driverId, hdriver, hop⟩ := Option.bind_eq_some_iff.1 hop
      obtain rfl := Option.some.inj hop
      exact orderSave_order (hA _ rfl ⟨horder, by rw [hm]; exact ⟨_, hdriver, rfl⟩⟩) h
    · next hm =>
      obtain ⟨reason, hreason, hop⟩ := Option.bind_eq_some_iff.1 hop
      obtain rfl := Option.some.inj hop
      exact orderSave_order (hA _ rfl ⟨horder, by rw [hm]; exact ⟨_, hreason, rfl⟩⟩) h
    · next hm =>
      obtain rfl := Option.some.inj hop
      exact orderSave_order (hA _ rfl ⟨horder, by rw [hm]⟩) h
    · cases hop
  | dispatchEvents =>
    obtain ⟨p, rfl⟩ := onDispatch_of_handle hop
    obtain ⟨effect₀, next₀, -, rfl, -⟩ := rest_on h
    exact .same rfl
  | driverEvents =>
    obtain ⟨p, rfl⟩ := onDriver_of_handle hop
    obtain ⟨effect₀, next₀, -, rfl, -⟩ := rest_on h
    exact .same rfl

end Orders

section Runs

variable {settings : Settings} {S S' : Fleet} {a : FleetLabel} {ts : List FleetMove}

theorem reported_of_happens (ho : S.Orderly (wiring settings)) (hc : Coherent S.world)
    (hs : (wiring settings).Happens S a S') {o : Uuid} {cmd : OrderCommand}
    (h : S.world.Reported o cmd) : S'.world.Reported o cmd := by
  rcases advance_of_happens ho hs with ⟨id, now, hw⟩ | hadv
  · rw [hw]
    exact h.markPublished id now
  · exact hadv.reported hc h

theorem truthful_of_run (hrun : (fleet settings).Run ts S) : S.world.Truthful := by
  induction hrun with
  | @nil S hinit =>
    have hout : S.world.outbox = [] := hinit.1.2.1
    intro m p hm
    simp [Databases.posts, hout] at hm
  | @snoc ts S S' a hrun hs ih =>
    have hc := coherent_of_run hrun
    rcases advance_of_happens (Bus.orderly_of_run (sound_wiring settings) hrun)
      (Wiring.happens_of_step hs) with ⟨id, now, hw⟩ | hadv
    · have hsame : (S.world.markPublished id now).posts = S.world.posts :=
        posts_markPublished settings id now S.world
      intro m p hm hp
      rw [hw, hsame] at hm
      rw [hw]
      exact (ih m p hm hp).markPublished id now
    · exact hadv.truthful hc ih

/-- The orders of a snapshot are backed by the dispatches there are now. -/
def AllBacked (A : Uuid → Prop) (v w : Databases) : Prop :=
  ∀ o row, v.order.row o = some row → row.Backed A w

/-- A save takes over what the row it read says, and the command it runs. -/
theorem OrderSave.backed {w w' : Databases} {A : Uuid → Prop} {B : OrderRequest → Prop}
    {seen : Option Databases} {db : OrderDb} (h : OrderSave B seen w.order db)
    (hnow : AllBacked A w w')
    (hB : ∀ p, B p → (p.command = .cancelOrder ∧ A p.orderId) ∨ w'.Reported p.orderId p.command)
    (hseen : ∀ v, seen = some v → AllBacked A v w') :
    ∀ o row, db.row o = some row → row.Backed A w' := by
  cases h with
  | created hrows =>
    intro o row hrow
    rcases hrows o row hrow with hrow | ⟨hs, hdriver, hreason⟩
    · exact hnow o row hrow
    · exact OrderRow.backed_of_pending hs hdriver hreason
  | saved v p read order hv hp hread happly =>
    intro o row hrow
    rw [OrderDb.save, OrderDb.row_saveEntity] at hrow
    split at hrow
    · obtain rfl := Option.some.inj hrow
      refine (hseen v hv _ read hread).apply ?_ happly _
      rw [OrderDb.id_of_row hread]
      exact hB p hp
    · exact hnow o row hrow

/-- A request to cancel an order is one that `A` allows. -/
def CancelsOnly (A : Uuid → Prop) (p : Request) : Prop :=
  ∀ orderId now, p = .cancelOrder orderId now → A orderId

theorem keeps_backed {A : Uuid → Prop} (ho : S.Orderly (wiring settings))
    (hc : Coherent S.world) (ht : S.world.Truthful) (hs : (wiring settings).Happens S a S')
    (hnow : AllBacked A S.world S.world) :
    Bus.Keeps (wiring settings) (CancelsOnly A) (AllBacked A) S.world S'.world := by
  have hrep {o : Uuid} {cmd : OrderCommand} : S.world.Reported o cmd → S'.world.Reported o cmd :=
    reported_of_happens ho hc hs
  have hmono (v : Databases) (hv : AllBacked A v S.world) : AllBacked A v S'.world :=
    fun o row hrow => (hv o row hrow).mono fun _ _ => hrep
  refine ⟨hmono, fun p seen effect next hp hrest hseen heff => ?_,
    fun q m draw op seen effect next hm hop hrest hseen heff => ?_, fun id now hw => ?_⟩
  · have hsave : OrderSave (fun p => p.command = .cancelOrder ∧ A p.orderId) seen S.world.order
        (effect S.world).order := orderSave_request (fun o now h => ⟨rfl, hp o now h⟩) hrest
    rw [← heff] at hsave
    exact hsave.backed (hmono _ hnow) (fun p hp => Or.inl hp) fun v hv => hmono v (hseen v hv)
  · have hsave : OrderSave (fun p => q = .orderEvents ∧ m.Asks p) seen S.world.order
        (effect S.world).order := orderSave_delivery (fun p hq hp => ⟨hq, hp⟩) hop hrest
    rw [← heff] at hsave
    refine hsave.backed (hmono _ hnow) (fun p hp => Or.inr ?_) fun v hv => hmono v (hseen v hv)
    obtain ⟨rfl, hasks⟩ := hp
    exact hrep (ht m p hm hasks)
  · intro o row hrow
    rw [hw] at hrow
    exact hmono _ hnow o row hrow

/-- Somebody asked over HTTP for the order to be cancelled. -/
def CancelRequested (ts : List FleetMove) (orderId : Uuid) : Prop :=
  ∃ t ∈ ts, ∃ i now, t.label = .request i (.cancelOrder orderId now)

/-- An order's row says nothing of its dispatch that the Dispatch service has not come to:
whom it assigned, why it failed, that it is cancelled. An order that is cancelled without its
dispatch is without a driver, and was cancelled by a request. -/
theorem backed_of_run (hrun : (fleet settings).Run ts S) {o : Uuid} {row : OrderRow}
    (hrow : S.world.order.row o = some row) : row.Backed (CancelRequested ts) S.world := by
  refine (Bus.witnessed_of_run (Q := CancelsOnly (CancelRequested ts))
    (J := AllBacked (CancelRequested ts)) (sound_wiring settings) (fun w hinit _ => ?_) hrun
    (fun u hu i p hlabel => ?_) fun t ht hnow => ?_).now o row hrow
  · intro o row hrow
    simp [OrderDb.row, hinit.1] at hrow
  · rintro orderId now rfl
    exact ⟨u, hu, i, now, hlabel⟩
  · obtain ⟨l, -, hpre, hs⟩ := hrun.of_mem ht
    exact keeps_backed (Bus.orderly_of_run (sound_wiring settings) hpre) (coherent_of_run hpre)
      (truthful_of_run hpre) (Wiring.happens_of_step hs) hnow

end Runs

/-- The order has a reservation row, and it is the driver's. -/
def Databases.Reserves (w : Databases) (orderId driverId : Uuid) : Prop :=
  ∃ r, w.driver.reservation orderId = some r ∧ r.driverId = driverId

/-- A message that names a driver names the one its order has a reservation of. -/
def Databases.Named (w : Databases) : Prop :=
  ∀ q m o driverId, (q, m) ∈ w.posts → m.string .orderId = some o →
    m.string .driverId = some driverId → w.Reserves o driverId

section Drivers

variable {settings : Settings} {R : Request → Prop} {P : Queue → Message → Prop}
  {w w' : Databases} {o driverId : Uuid}

/-- Whose reservation it is never changes. -/
theorem Advance.reserves (hadv : Advance settings R P w w') (hlinked : w.driver.Linked)
    (h : w.Reserves o driverId) : w'.Reserves o driverId := by
  obtain ⟨r, hr, hd⟩ := h
  cases hadv with
  | idle | saved | created | started | operated => exact ⟨r, hr, hd⟩
  | createdDriver id displayName capacity now db hrun =>
    obtain ⟨d, -, -, rfl⟩ := created_of_run hrun
    exact ⟨r, hr, hd⟩
  | reserved m input reservationId eventId now locked db _ _ _ hrun =>
    exact ⟨r, (reserved_of_run hlinked hrun).reservation_eq hlinked hr, hd⟩
  | released m input eventId now locked db _ _ _ hrun =>
    obtain ⟨r', hr', hsame, -⟩ := (released_of_commit hlinked hrun).reservation_eq hlinked hr
    exact ⟨r', hr', hsame.trans hd⟩

/-- A release is requested of the driver that the order's reservation names. -/
theorem Coherent.reserves_of_release (hc : Coherent w) {op : DispatchOp} {d : Dispatch}
    {o : DispatchOutcome} {r : OutboxRow} (hop : Issued (fun q m => (q, m) ∈ w.posts) op)
    (hd : w.dispatch.row op.dispatchId = some d) (ho : op.outcome d = .ok o)
    (hr : o.event = some r) (hrel : r.release = some driverId) :
    w.Reserves d.orderId driverId := by
  have hmem : driverId ∈ op.releases d := by
    rw [← DispatchOp.release_of_outcome ho, hr]
    simp [hrel]
  cases op with
  | completeReservation input eventId now =>
    simp only [DispatchOp.releases] at hmem
    split at hmem
    · obtain ⟨m, r', -, -, -, hres, hdriver⟩ := hc.named (fun _ _ hm => hm) hop hd
        (Option.mem_toList.1 hmem)
      exact ⟨r', hres, hdriver⟩
    · cases hmem
  | startCompensation dispatchId reason c eventId now =>
    simp only [DispatchOp.releases] at hmem
    split at hmem
    · exact hc.held _ d driverId hd (Option.mem_toList.1 hmem)
    · cases hmem
  | completeCompensation | timeout => cases hmem

/-- A field the payload has not is not in the message. -/
theorem string_dispatchEvent_none {eventId : Uuid} {q : Queue} {ty : EventType} {payload : Payload}
    {c : String} {now : Date} {f : Field} (hf : f ≠ .eventId) (h : payload.get f = none) :
    (dispatchEvent eventId q ty payload c now).message.string f = none := by
  have hget : (Js.Obj.spread [(.eventId, .string eventId)] payload : Payload).get f = none := by
    rw [Js.Obj.get_spread, h, Option.none_or, Js.Obj.get_cons_ne hf.symm, Js.Obj.get_nil]
  simp [Message.string, OutboxRow.message, dispatchEvent, OutboxRow.pending, Payload.string,
    Payload.get_json, hget]

/-- A reply says of the other fields what the request's payload says. -/
theorem string_reply {eventId : Uuid} {ty : EventType} {event : Payload} {k f : Field}
    {v c : String} {now : Date} (hk : k ≠ f) (hf : f ≠ .eventId) :
    (driverEvent eventId ty (Js.Obj.spread event [(k, .string v)]) c now).message.string f =
      event.string f := by
  have hget : (Js.Obj.spread [(.eventId, .string eventId)]
      (Js.Obj.spread event [(k, .string v)]) : Payload).get f = event.get f := by
    rw [Js.Obj.get_spread, Js.Obj.get_spread, Js.Obj.get_cons_ne hk, Js.Obj.get_cons_ne hf.symm,
      Js.Obj.get_nil, Option.none_or, Option.or_none]
  simp only [Message.string, OutboxRow.message, driverEvent, OutboxRow.pending, Payload.string,
    Payload.get_json, hget]
  split_ifs with hundef
  · simp [hundef]
  · rfl

/-- `order.ready_for_dispatch` names no driver. -/
theorem driver_of_created {order : Order} {c : String} {key : Option String} {eventId : Uuid}
    {now : Date} {db db' : OrderDb} {result : Option Order}
    (hrun : (persistReadyForDispatch settings.hashtext order c key eventId now).run
      (fun _ _ => false) db = .ok (result, db')) :
    ∀ r ∈ db'.outbox, r ∈ db.outbox ∨ r.message.string .driverId = none := by
  refine (writes_persistReadyForDispatch (fun _ r hr => Or.inl hr) fun db r hr => ?_).run
    (R := fun db db' : OrderDb => ∀ r ∈ db'.outbox, r ∈ db.outbox ∨
      r.message.string .driverId = none)
    (fun _ r hr => Or.inl hr) (fun _ _ _ h h' r hr => (h' r hr).elim (h r) Or.inr) hrun
  rcases List.mem_append.1 hr with hr | hr
  · exact Or.inl hr
  · obtain rfl := List.mem_singleton.1 hr
    exact Or.inr rfl

theorem Advance.named (hadv : Advance settings R (fun q m => (q, m) ∈ w.posts) w w')
    (hc : Coherent w) (hc' : Coherent w') (h : w.Named) : w'.Named := by
  have hkeep {o driverId : Uuid} : w.Reserves o driverId → w'.Reserves o driverId :=
    hadv.reserves hc.linked
  suffices hnew : ∀ q m, (q, m) ∈ w'.posts → (q, m) ∈ w.posts ∨ ∀ o driverId,
      m.string .orderId = some o → m.string .driverId = some driverId → w'.Reserves o driverId by
    intro q m o driverId hm ho hd
    rcases hnew q m hm with hm | hm
    · exact hkeep (h q m o driverId hm ho hd)
    · exact hm o driverId ho hd
  have silent {r : OutboxRow} (hr : r.message.string .driverId = none) : ∀ o driverId,
      r.message.string .orderId = some o → r.message.string .driverId = some driverId →
      w'.Reserves o driverId := fun o driverId _ hd => by simp [hr] at hd
  cases hadv with
  | idle | saved => exact fun q m hm => Or.inl hm
  | created order c key eventId now result db hs hrun =>
    exact Databases.posts_of_rows (fun r hr => (driver_of_created hrun r hr).imp_right silent)
      (fun r hr => Or.inl hr) fun r hr => Or.inl hr
  | started m d plan decisionId startedId requestedId now =>
    refine Databases.posts_of_rows (fun r hr => Or.inl hr) (fun r hr => ?_) fun r hr => Or.inl hr
    rcases List.mem_append.1 hr with hr | hr
    · exact Or.inl hr
    · rcases List.mem_pair.1 hr with rfl | rfl
      · exact Or.inr (silent (string_dispatchEvent_none (by rintro ⟨⟩) rfl))
      · exact Or.inr (silent (string_dispatchEvent_none (by rintro ⟨⟩) rfl))
  | operated op d o hop hd ho =>
    refine Databases.posts_of_rows (fun r hr => Or.inl hr) (fun r hr => ?_) fun r hr => Or.inl hr
    refine (List.mem_append.1 hr).imp_right fun hr => ?_
    have hr : o.event = some r := Option.mem_toList.1 hr
    obtain ⟨-, -, hmd⟩ := conforms_of_outcome ho hr
    have releases {driver : Uuid} (hrel : r.release = some driver)
        (hdriver : r.message.string .driverId = some driver) : ∀ o driverId,
        r.message.string .orderId = some o → r.message.string .driverId = some driverId →
        w.Reserves o driverId := by
      intro o driverId horder hd'
      obtain rfl : d.orderId = o := Option.some.inj (hmd.2.symm.trans horder)
      obtain rfl : driver = driverId := Option.some.inj (hdriver.symm.trans hd')
      exact hc.reserves_of_release hop hd ho hr hrel
    cases DispatchOp.step_of_outcome ho with
    | idle => cases hr
    | late driver c eventId now =>
      obtain rfl := Option.some.inj hr
      exact releases (DispatchEvent.release_releaseRequested ..)
        (OutboxRow.string_message (DispatchEvent.driver_releaseRequested ..))
    | @move d' _ hm =>
      obtain rfl := Option.some.inj hr
      have hheld := hc'.held d'.id d'
      have hheld (driver : Uuid) := hheld driver (Table.find_save_self (c := Dispatch.id))
      cases hm with
      | assign driver c eventId now hs =>
        intro o driverId horder hd'
        obtain rfl : d.orderId = o := Option.some.inj (hmd.2.symm.trans horder)
        have hdriver : (DispatchEvent.assigned d driver c eventId now).message.string .driverId =
            some driver := OutboxRow.string_message (string_dispatchEvent _ _ _ _ _ _ rfl)
        obtain rfl : driver = driverId := Option.some.inj (hdriver.symm.trans hd')
        exact hheld driver rfl
      | fail => exact silent (string_dispatchEvent_none (by rintro ⟨⟩) rfl)
      | cancel => exact silent (string_dispatchEvent_none (by rintro ⟨⟩) rfl)
      | compensate driver reason c eventId now =>
        exact releases (DispatchEvent.release_releaseRequested ..)
          (OutboxRow.string_message (DispatchEvent.driver_releaseRequested ..))
  | createdDriver id displayName capacity now db hrun =>
    obtain ⟨d, -, -, rfl⟩ := created_of_run hrun
    exact fun q m hm => Or.inl hm
  | reserved m input reservationId eventId now locked db hm hty hinput hrun =>
    -- a report names the driver of the row there is afterwards
    have reports {r : OutboxRow} (hr : r ∈ db.outbox) (hrq : r.targetQueue = .dispatchEvents)
        (hrt : r.eventType = .driverReserved) : ∀ o driverId,
        r.message.string .orderId = some o → r.message.string .driverId = some driverId →
        Databases.Reserves { w with driver := db } o driverId := by
      intro o driverId horder hd
      obtain ⟨d, x, -, hmd, hres, hx⟩ := hc'.reserved _ r.message
        (List.mem_map.2 ⟨r, List.mem_append_right _ hr, rfl⟩) hrt
      obtain rfl : d.orderId = o := Option.some.inj (hmd.2.symm.trans horder)
      exact ⟨x, hres, Option.some.inj (hx.symm.trans hd)⟩
    refine Databases.posts_of_rows (fun r hr => Or.inl hr) (fun r hr => Or.inl hr) fun r hr => ?_
    have hr' := hr
    cases reserved_of_run hc.linked hrun with
    | again | granted =>
      rcases List.mem_append.1 hr with hr | hr
      · exact Or.inl hr
      · obtain rfl := List.mem_singleton.1 hr
        exact Or.inr (reports hr' rfl rfl)
    | failed reason =>
      rcases List.mem_append.1 hr with hr | hr
      · exact Or.inl hr
      · obtain rfl := List.mem_singleton.1 hr
        refine Or.inr fun o driverId horder hd => ?_
        have hevent := event_of_reserveDriverInput hinput
        have horder' := (string_reply (by decide) (by decide)).symm.trans horder
        have hd' := (string_reply (by decide) (by decide)).symm.trans hd
        rw [hevent] at horder' hd'
        exact h _ m o driverId hm horder' hd'
  | released m input eventId now locked db hm hty hinput hrun =>
    have answers {driver : Uuid} (hres : w.Reserves input.orderId driver) : ∀ o driverId,
        (DriverEvent.released input driver eventId now).message.string .orderId = some o →
        (DriverEvent.released input driver eventId now).message.string .driverId = some driverId →
        w.Reserves o driverId := by
      intro o driverId horder hd
      have horder' := (string_reply (by decide) (by decide)).symm.trans horder
      rw [event_of_releaseDriverInput hinput] at horder'
      obtain rfl : input.orderId = o :=
        Option.some.inj ((Message.of_releaseDriverInput hinput).symm.trans horder')
      have hdriver : (DriverEvent.released input driver eventId now).message.string .driverId =
          some driver := OutboxRow.string_message (string_driverEvent _ _ _ _ _
            (Payload.string_spread_self _ _ _))
      obtain rfl : driver = driverId := Option.some.inj (hdriver.symm.trans hd)
      exact hres
    refine Databases.posts_of_rows (fun r hr => Or.inl hr) (fun r hr => Or.inl hr) fun r hr => ?_
    cases released_of_commit hc.linked hrun with
    | unknown hnone =>
      -- a release is asked only of an order that has a reservation
      obtain ⟨d, x, -, hmd, -, hx⟩ := hc.release _ m hm hty
      have horder : d.orderId = input.orderId :=
        Option.some.inj (hmd.2.symm.trans (Message.of_releaseDriverInput hinput))
      rw [horder, hnone] at hx
      cases hx
    | again hx | freed hx =>
      rcases List.mem_append.1 hr with hr | hr
      · exact Or.inl hr
      · obtain rfl := List.mem_singleton.1 hr
        refine Or.inr fun o driverId horder hd => hkeep ?_
        exact answers ⟨_, hx, rfl⟩ o driverId horder hd

end Drivers

/-- Whoever names a driver for the order names this one. -/
structure OneDriver (w : Databases) (orderId driverId : Uuid) : Prop where
  reservation : ∀ r, w.driver.reservation orderId = some r → r.driverId = driverId
  lists : ∀ id d, w.driver.driver id = some d → orderId ∈ d.reservedOrderIds → id = driverId
  dispatch : ∀ d x, w.dispatch.findByOrderId orderId = some d → d.driverId = some x → x = driverId
  order : ∀ row x, w.order.row orderId = some row → row.assignedDriverId = some x → x = driverId
  messages : ∀ q m x, (q, m) ∈ w.posts → m.string .orderId = some orderId →
    m.string .driverId = some x → x = driverId

section Throughout

variable {settings : Settings} {S S' : Fleet} {a : FleetLabel} {ts : List FleetMove}
  {w : Databases} {orderId driverId : Uuid}

theorem named_of_run (hrun : (fleet settings).Run ts S) : S.world.Named := by
  induction hrun with
  | @nil S hinit =>
    have hout : S.world.outbox = [] := hinit.1.2.1
    intro q m o driverId hm
    simp [Databases.posts, hout] at hm
  | @snoc ts S S' a hrun hs ih =>
    rcases advance_of_happens (Bus.orderly_of_run (sound_wiring settings) hrun)
      (Wiring.happens_of_step hs) with ⟨id, now, hw⟩ | hadv
    · have hsame : (S.world.markPublished id now).posts = S.world.posts :=
        posts_markPublished settings id now S.world
      rw [hw]
      exact fun q m o driverId hm => ih q m o driverId (hsame ▸ hm)
    · exact (hadv.mono fun _ _ h => h.1).named (coherent_of_run hrun)
        (coherent_of_run (hrun.snoc hs)) ih

theorem reserves_of_happens (ho : S.Orderly (wiring settings)) (hlinked : S.world.driver.Linked)
    (hs : (wiring settings).Happens S a S') (h : S.world.Reserves orderId driverId) :
    S'.world.Reserves orderId driverId := by
  rcases advance_of_happens ho hs with ⟨id, now, hw⟩ | hadv
  · rw [hw]
    exact h
  · exact hadv.reserves hlinked h

/-- A reservation seen on the way is still there at the end, and still of the same driver. -/
theorem reserves_of_mem (hrun : (fleet settings).Run ts S) {t : FleetMove} (ht : t ∈ ts)
    (h : t.post.world.Reserves orderId driverId) : S.world.Reserves orderId driverId := by
  obtain ⟨l, r, hts⟩ := List.append_of_mem ht
  refine hrun.across (C := fun u => u.pre.Orderly (wiring settings) ∧ u.pre.world.driver.Linked)
    (R := fun S S' => S.world.Reserves orderId driverId → S'.world.Reserves orderId driverId)
    (fun _ h => h) (fun _ _ _ h h' h₀ => h' (h h₀)) ?_ ?_ hts h
  · intro S a S' hs ⟨ho, hlinked⟩ h
    exact reserves_of_happens ho hlinked (Wiring.happens_of_step hs) h
  · intro u hu
    obtain ⟨l', -, hpre, -⟩ := hrun.of_mem hu
    exact ⟨Bus.orderly_of_run (sound_wiring settings) hpre, linked_of_run hpre⟩

/-- One who names a driver for the order names the driver of its reservation. -/
theorem oneDriver_of_reserves {A : Uuid → Prop} (hc : Coherent w) (hnamed : w.Named)
    (hbacked : AllBacked A w w) (h : ∀ x, w.Reserves orderId x → x = driverId) :
    OneDriver w orderId driverId where
  reservation r hr := h _ ⟨r, hr, rfl⟩
  lists id d hd hmem := by
    obtain ⟨r, hr, -, hid⟩ := hc.linked.held id d orderId hd hmem
    exact h id ⟨r, hr, hid⟩
  dispatch d x hd hx := by
    obtain rfl : d.orderId = orderId := Table.key_of_find hd
    exact h x (hc.held d.id d x (Table.find_of_mem hc.ids (Table.mem_of_find hd)) hx)
  order row x hrow hx := by
    obtain ⟨d, hd, horder, hrep⟩ := (hbacked orderId row hrow).driver x hx
    have hheld := hc.held d.id d x hd hrep
    rw [horder, OrderDb.id_of_row hrow] at hheld
    exact h x hheld
  messages q m x hm horder hx := h x (hnamed q m orderId x hm horder hx)

/-- An order has one driver: the three services and every message that is ever sent agree
on it throughout a run, whatever is delivered twice, late or out of order. -/
theorem oneDriver_of_run (hrun : (fleet settings).Run ts S) (orderId : Uuid) :
    ∃ driverId, ∀ t ∈ ts, OneDriver t.post.world orderId driverId := by
  obtain ⟨driverId, hdriver⟩ : ∃ driverId, ∀ x, S.world.Reserves orderId x → x = driverId := by
    by_cases h : ∃ x, S.world.Reserves orderId x
    · obtain ⟨x, r, hr, rfl⟩ := h
      refine ⟨r.driverId, ?_⟩
      rintro y ⟨r', hr', rfl⟩
      rw [hr] at hr'
      rw [Option.some.inj hr']
    · exact ⟨"", fun x hx => absurd ⟨x, hx⟩ h⟩
  refine ⟨driverId, fun t ht => ?_⟩
  obtain ⟨l, -, hpre, hs⟩ := hrun.of_mem ht
  have hpost := hpre.snoc hs
  exact oneDriver_of_reserves (coherent_of_run hpost) (named_of_run hpost)
    (fun o row hrow => backed_of_run hpost hrow)
    fun x hx => hdriver x (reserves_of_mem hrun ht hx)

end Throughout

section Samples

/-- The order's driver is reserved, and each service learns of it. -/
def assignedLabels : List FleetLabel :=
  startedLabels ++ deliver "started-1" (sampleDraw []) 5 ++
    deliver "requested-1" (sampleDraw ["reservation-1", "reserved-1"]) 4 ++
    deliver "reserved-1" (sampleDraw ["assigned-1"]) 4 ++
    deliver "assigned-1" (sampleDraw []) 5

theorem backed_assigned : ∃ S row, (fleet sampleSettings).replay emptyFleet assignedLabels =
    some S ∧ S.world.order.row "order-1" = some row ∧ row.status = .assigned ∧
    row.Backed (CancelRequested ((fleet sampleSettings).moves emptyFleet assignedLabels))
      S.world := by
  obtain ⟨S, hS, row, hrow, hs⟩ : ∃ S, (fleet sampleSettings).replay emptyFleet assignedLabels =
    some S ∧ ∃ row, S.world.order.row "order-1" = some row ∧ row.status = .assigned :=
    ⟨_, rfl, _, rfl, rfl⟩
  exact ⟨S, row, hS, hrow, hs, backed_of_run (.of_replay init_emptyFleet hS) hrow⟩

theorem oneDriver_assigned : ∃ S, (fleet sampleSettings).replay emptyFleet assignedLabels =
    some S ∧ (S.world.driver.reservation "order-1").map DriverReservation.driverId =
      some "driver-1" ∧ ∃ driverId, ∀ t ∈ (fleet sampleSettings).moves emptyFleet assignedLabels,
        OneDriver t.post.world "order-1" driverId := by
  obtain ⟨S, hS, hres⟩ : ∃ S, (fleet sampleSettings).replay emptyFleet assignedLabels = some S ∧
    (S.world.driver.reservation "order-1").map DriverReservation.driverId = some "driver-1" :=
    ⟨_, rfl, rfl⟩
  exact ⟨S, hS, hres, oneDriver_of_run (.of_replay init_emptyFleet hS) "order-1"⟩

end Samples

end RouteFast
