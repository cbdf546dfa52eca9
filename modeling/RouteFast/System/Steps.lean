import RouteFast.Dispatch.Ledger
import RouteFast.Order.Lifecycle
import RouteFast.System.Services

/-! What one step of a handler or a request does to the databases: each is a lookup, a
whole transaction, or the save of an Order use case. -/

namespace RouteFast

open Transition Pool ReadCommitted

/-- The message of a handler's transaction, out of those that `P` allows. -/
def Issued (P : Queue → Message → Prop) : DispatchOp → Prop
  | .completeReservation input _ _ => ∃ m, P .dispatchEvents m ∧
      (m.eventType = .driverReserved ∨ m.eventType = .driverReservationFailed) ∧
      m.reservationResultInput = some input
  | .completeCompensation dispatchId _ _ _ => ∃ m, P .dispatchEvents m ∧
      m.eventType = .driverReleased ∧ m.string .dispatchId = some dispatchId
  | .startCompensation .. | .timeout .. => True

/-- Only `driver.reserved` names a driver. -/
theorem Message.of_reservationResultInput {m : Message} {input : ReservationResultInput}
    (h : m.reservationResultInput = some input) : m.string .dispatchId = some input.dispatchId ∧
      ((m.eventType = .driverReserved ∧ m.string .driverId = input.driverId) ∨
        (m.eventType ≠ .driverReserved ∧ input.driverId = none)) := by
  obtain ⟨dispatchId, hid, h⟩ := Option.bind_eq_some_iff.1 h
  obtain ⟨orderId, -, h⟩ := Option.bind_eq_some_iff.1 h
  obtain ⟨correlationId, -, h⟩ := Option.bind_eq_some_iff.1 h
  split at h
  · next hty =>
    obtain ⟨driver, hdriver, h⟩ := Option.bind_eq_some_iff.1 h
    obtain rfl := Option.some.inj h
    exact ⟨hid, Or.inl ⟨hty, hdriver⟩⟩
  · next hty =>
    obtain ⟨reason, -, h⟩ := Option.bind_eq_some_iff.1 h
    obtain rfl := Option.some.inj h
    exact ⟨hid, Or.inr ⟨hty, rfl⟩⟩

/-- The use case that a message to the Order service asks for. -/
def Message.Asks (m : Message) (p : OrderRequest) : Prop :=
  m.string .orderId = some p.orderId ∧
    match m.eventType with
    | .dispatchStarted => p.command = .markOrderDispatching
    | .dispatchAssigned =>
      ∃ driverId, m.string .driverId = some driverId ∧ p.command = .assignOrderDriver driverId
    | .dispatchFailed =>
      ∃ reason, m.string .reason = some reason ∧ p.command = .markDispatchFailed reason
    | .dispatchCancelled => p.command = .completeDispatchCancellation
    | _ => False

/-- The cancel endpoint runs the use case, or a message asks for it, out of those that `R`
and `P` allow. -/
def Asked (R : Request → Prop) (P : Queue → Message → Prop) (p : OrderRequest) : Prop :=
  (p.command = .cancelOrder ∧ R (.cancelOrder p.orderId p.now)) ∨ ∃ m, P .orderEvents m ∧ m.Asks p

/-- Everything a step can do to the databases. -/
inductive Advance (settings : Settings) (R : Request → Prop) (P : Queue → Message → Prop)
    (w : Databases) : Databases → Prop
  | idle : Advance settings R P w w
  | saved (p : OrderRequest) (read : OrderRow) (order : Order) : Asked R P p →
      read.id = p.orderId →
      p.command.apply p.now (OrderMapper.toDomain read) = .ok order →
      Advance settings R P w { w with order := w.order.save order }
  | created (order : Order) (correlationId : String) (key : Option String) (eventId : Uuid)
      (now : Date) (result : Option Order) (db : OrderDb) : order.status = .pendingDispatch →
      (persistReadyForDispatch settings.hashtext order correlationId key eventId now).run
        (fun _ _ => false) w.order = .ok (result, db) →
      Advance settings R P w { w with order := db }
  | started (m : Message) (d : Dispatch) (plan : Option DispatchStartPlan)
      (decisionId startedId requestedId : Uuid) (now : Date) : P .dispatchEvents m →
      m.eventType = .orderReadyForDispatch → m.string .orderId = some d.orderId →
      d.status = .searchingDriver → d.driverId = none →
      w.dispatch.row d.id = none → w.dispatch.findByOrderId d.orderId = none →
      Advance settings R P w { w with dispatch :=
        ⟨w.dispatch.dispatches ++ [d],
          w.dispatch.decisions ++ (plan.map (dispatchDecision decisionId d)).toList,
          w.dispatch.outbox ++ [DispatchEvent.started d startedId now,
            DispatchEvent.reservationRequested d plan requestedId now]⟩ }
  | operated (op : DispatchOp) (d : Dispatch) (o : DispatchOutcome) : Issued P op →
      w.dispatch.row op.dispatchId = some d → op.outcome d = .ok o →
      Advance settings R P w { w with dispatch := w.dispatch.after o }
  | createdDriver (id : Uuid) (displayName : String) (capacity : ℚ) (now : Date) (db : DriverDb) :
      (DriverReservations.createDriver id displayName capacity now).run (fun _ _ => false)
        w.driver = .ok ((), db) →
      Advance settings R P w { w with driver := db }
  | reserved (m : Message) (input : ReserveDriverInput) (reservationId eventId : Uuid) (now : Date)
      (locked : ℕ → DriverLock → Bool) (db : DriverDb) : P .driverEvents m →
      m.eventType = .driverReservationRequested → m.reserveDriverInput = some input →
      (DriverReservations.reserve settings.hashtext input reservationId eventId now).run locked
        w.driver = .ok ((), db) →
      Advance settings R P w { w with driver := db }
  | released (m : Message) (input : ReleaseDriverInput) (eventId : Uuid) (now : Date)
      (locked : ℕ → DriverLock → Bool) (db : DriverDb) : P .driverEvents m →
      m.eventType = .driverReleaseRequested → m.releaseDriverInput = some input →
      (DriverReservations.release settings.hashtext input eventId now).run locked w.driver =
        .ok ((), db) →
      Advance settings R P w { w with driver := db }

section Steps

variable {settings : Settings} {R : Request → Prop} {P : Queue → Message → Prop} {w : Databases}
  {seen : Option Databases} {effect : Databases → Databases}
  {next : Databases → Proc Databases ServiceError Unit}

/-- A step on one database leaves the others alone. -/
theorem rest_on {δ α : Type} {get : Databases → δ} {put : δ → Databases → Databases}
    {p : Proc δ ServiceError α} (h : Rest (p.within get put) seen (.step effect next)) :
    ∃ effect₀ next₀, Rest p (seen.map get) (.step effect₀ next₀) ∧
      effect = (fun w => put (effect₀ (get w)) w) ∧
      next = fun w => (next₀ (get w)).within get put := by
  obtain ⟨rest₀, hrest₀, heq⟩ := rest_within h
  cases rest₀ with
  | done | throw => cases heq
  | step effect₀ next₀ => exact ⟨effect₀, next₀, hrest₀, Proc.step.inj heq⟩

/-- A transaction on one database fails and leaves it as it is, or commits. -/
theorem rest_transaction {δ α : Type} {get : Databases → δ} {put : δ → Databases → Databases}
    {f : δ → Except ServiceError (α × δ)}
    (h : Rest ((Proc.atomically f).within get put) seen (.step effect next)) (w : Databases)
    (hself : put (get w) w = w) :
    (effect w = w ∧ ∃ e, next w = .throw e) ∨
      ∃ a db, f (get w) = .ok (a, db) ∧ effect w = put db w ∧ next w = .done () := by
  obtain ⟨effect₀, next₀, hrest, rfl, rfl⟩ := rest_on h
  rcases rest_atomically hrest (get w) with ⟨hsame, e, hthrow⟩ | ⟨a, hcommit, hdone⟩
  · exact Or.inl ⟨by simp only [hsame, hself], e, by simp only [hthrow]; rfl⟩
  · exact Or.inr ⟨a, effect₀ (get w), hcommit, rfl, by simp only [hdone]; rfl⟩

/-- The read of a use case, or its save. -/
theorem advance_order {p : OrderRequest} (hby : seen ≠ none → Asked R P p)
    (h : Rest (onOrder p.execute) seen (.step effect next)) :
    Advance settings R P w (effect w) := by
  obtain ⟨effect₀, next₀, hrest, rfl, rfl⟩ := rest_on h
  rcases OrderPool.residual_step (.of_rest hrest) with ⟨-, rfl⟩ |
    ⟨db, read, order, hseen, hrow, happly, rfl⟩
  · exact .idle
  · exact .saved p read order (hby fun h => by simp [h] at hseen) (OrderDb.id_of_row hrow) happly

theorem advance_operation (op : DispatchOp) (hop : Issued P op)
    (h : Rest (onDispatch (dispatchTransaction op.body)) seen (.step effect next)) :
    Advance settings R P w (effect w) := by
  rcases rest_transaction h w rfl with ⟨hsame, -⟩ | ⟨u, db, hcommit, heffect, -⟩
  · rw [hsame]
    exact .idle
  · rw [heffect]
    rw [op.run_body] at hcommit
    cases hrow : w.dispatch.row op.dispatchId with
    | none =>
      rw [hrow] at hcommit
      obtain ⟨-, -, rfl⟩ : ∃ x, op.missing = .ok x ∧ w.dispatch = db := by
        cases hm : op.missing <;> simp [hm, Except.map] at hcommit ⊢
        exact hcommit
      exact .idle
    | some d =>
      rw [hrow] at hcommit
      cases ho : op.outcome d with
      | error e => simp [ho, Except.map] at hcommit
      | ok o =>
        obtain rfl : w.dispatch.after o = db := by simpa [ho, Except.map] using hcommit
        exact .operated op d o hop hrow ho

/-- The one step of `startAndSchedule` that changes anything is its transaction. -/
theorem effect_startAndSchedule {d : Dispatch} {plan : Option DispatchStartPlan} {draw : Draw}
    {seen : Option DispatchDb} {effect : DispatchDb → DispatchDb}
    {next : DispatchDb → Proc DispatchDb ServiceError Unit}
    (h : Rest (startAndSchedule d plan draw) seen (.step effect next)) (db : DispatchDb) :
    effect db = db.exec (DispatchWorkflow.start d plan (draw.uuid 1) (draw.uuid 2) (draw.uuid 3)
      draw.now) := by
  rcases rest_step h with heq | ⟨db', seen', h⟩
  · obtain ⟨rfl, -⟩ := Proc.step.inj heq
    rw [DispatchDb.exec]
    split <;> simp_all only
  · -- the timeout job is scheduled, or that throws
    cases hrun : (DispatchWorkflow.start d plan (draw.uuid 1) (draw.uuid 2) (draw.uuid 3)
        draw.now).run (fun _ _ => false) db' <;>
      cases hs : draw.scheduled <;> simp only [hrun, hs, Proc.andThen] at h <;>
      cases rest_finished rfl h

/-- The plan `StartDispatchHandler` hands to `workflow.start`: none without a pickup, and one
with the whole ranking otherwise. -/
def Plans (pickup : Option (ℚ × ℚ)) (draw : Draw) : Option DispatchStartPlan → Prop
  | none => pickup = none
  | some plan => pickup ≠ none ∧ draw.ranked = .ok plan.rankedCandidates

/-- A step of `StartDispatchHandler` changes nothing, or it is `workflow.start`. -/
theorem effect_startDispatch {orderId correlationId priority : String}
    {pickup : Option (ℚ × ℚ)} {draw : Draw} {seen : Option DispatchDb}
    {effect : DispatchDb → DispatchDb} {next : DispatchDb → Proc DispatchDb ServiceError Unit}
    (h : Rest (startDispatch settings orderId correlationId priority pickup draw) seen
      (.step effect next)) (db : DispatchDb) :
    effect db = db ∨ ∃ plan, Plans pickup draw plan ∧ effect db = db.exec (DispatchWorkflow.start
      (.start (draw.uuid 0) orderId correlationId draw.now) plan (draw.uuid 1) (draw.uuid 2)
      (draw.uuid 3) draw.now) := by
  rcases rest_step h with heq | ⟨db', seen', h⟩
  · -- the lookup
    obtain ⟨rfl, -⟩ := Proc.step.inj heq
    exact Or.inl rfl
  · split at h
    · cases rest_finished rfl h
    · cases pickup with
      | none => exact Or.inr ⟨none, rfl, effect_startAndSchedule h db⟩
      | some p =>
        cases hr : draw.ranked with
        | error e =>
          simp only [hr] at h
          cases rest_finished rfl h
        | ok ranked =>
          simp only [hr] at h
          exact Or.inr ⟨some _, ⟨Option.some_ne_none p, hr⟩, effect_startAndSchedule h db⟩

theorem advance_start {m : Message} {orderId correlationId priority : String}
    {pickup : Option (ℚ × ℚ)} {draw : Draw} (hP : P .dispatchEvents m)
    (hm : m.eventType = .orderReadyForDispatch) (horder : m.string .orderId = some orderId)
    (h : Rest (onDispatch (startDispatch settings orderId correlationId priority pickup draw)) seen
      (.step effect next)) :
    Advance settings R P w (effect w) := by
  obtain ⟨effect₀, next₀, hrest, rfl, rfl⟩ := rest_on h
  set d := Dispatch.start (draw.uuid 0) orderId correlationId draw.now with hd
  rcases effect_startDispatch hrest w.dispatch with hsame | ⟨plan, -, heffect⟩
  · simp only [hsame]
    exact .idle
  · simp only [heffect]
    rcases w.dispatch.exec_start_cases d plan (draw.uuid 1) (draw.uuid 2) (draw.uuid 3) draw.now
      with hsame | ⟨hrow, hfind, hstart⟩
    · rw [hsame]
      exact .idle
    · rw [hstart]
      exact .started m d plan _ _ _ _ hP hm horder rfl rfl hrow hfind

theorem advance_request {p : Request} (hR : seen ≠ none → R p)
    (h : Rest (p.execute settings) seen (.step effect next)) :
    Advance settings R P w (effect w) := by
  cases p with
  | createOrder id customerId priority pickup dropoff correlationId key eventId now =>
    obtain ⟨effect₀, next₀, hrest, rfl, rfl⟩ := rest_on h
    simp only [createOrder] at hrest
    cases horder : Order.create id customerId priority pickup dropoff now with
    | error e =>
      rw [horder] at hrest
      cases rest_finished rfl hrest
    | ok order =>
      rw [horder] at hrest
      rcases rest_atomically hrest w.order with ⟨hsame, -⟩ | ⟨result, hcommit, -⟩
      · simp only [hsame]
        exact .idle
      · have hpending : order.status = .pendingDispatch := Order.status_create horder
        exact .created { order with domainEvents := [] } _ key eventId now result _ hpending hcommit
  | cancelOrder orderId now => exact advance_order (fun hseen => Or.inl ⟨rfl, hR hseen⟩) h
  | cancelDispatch dispatchId reason correlationId eventId now =>
    exact advance_operation (.startCompensation dispatchId reason correlationId eventId now)
      trivial h
  | timeoutDispatch dispatchId correlationId eventId now =>
    exact advance_operation (.timeout dispatchId correlationId eventId now) trivial h
  | createDriver id displayName capacity now =>
    unfold Request.execute at h
    rcases rest_transaction h w rfl with ⟨hsame, -⟩ | ⟨u, db, hcommit, heffect, -⟩
    · rw [hsame]
      exact .idle
    · rw [heffect]
      exact .createdDriver id displayName capacity now db hcommit

theorem advance_delivery {q : Queue} {m : Message} {draw : Draw}
    {op : Proc Databases ServiceError Unit} (hP : P q m) (hop : handle settings q m draw = some op)
    (h : Rest op seen (.step effect next)) : Advance settings R P w (effect w) := by
  cases q with
  | orderEvents =>
    simp only [handle, handleOrderEvent, Option.bind_eq_bind, Option.bind_eq_some_iff] at hop
    obtain ⟨orderId, horder, hop⟩ := hop
    split at hop
    · next hm =>
      obtain rfl := Option.some.inj hop
      exact advance_order (fun _ => Or.inr ⟨m, hP, horder, by rw [hm]⟩) h
    · next hm =>
      obtain ⟨driverId, hdriver, hop⟩ := Option.bind_eq_some_iff.1 hop
      obtain rfl := Option.some.inj hop
      exact advance_order (fun _ => Or.inr ⟨m, hP, horder, by rw [hm]; exact ⟨_, hdriver, rfl⟩⟩) h
    · next hm =>
      obtain ⟨reason, hreason, hop⟩ := Option.bind_eq_some_iff.1 hop
      obtain rfl := Option.some.inj hop
      exact advance_order (fun _ => Or.inr ⟨m, hP, horder, by rw [hm]; exact ⟨_, hreason, rfl⟩⟩) h
    · next hm =>
      obtain rfl := Option.some.inj hop
      exact advance_order (fun _ => Or.inr ⟨m, hP, horder, by rw [hm]⟩) h
    · cases hop
  | dispatchEvents =>
    simp only [handle, handleDispatchEvent] at hop
    split at hop
    · next hm =>
      obtain ⟨orderId, horder, hop⟩ := Option.bind_eq_some_iff.1 hop
      obtain ⟨correlationId, -, hop⟩ := Option.bind_eq_some_iff.1 hop
      obtain rfl := Option.some.inj hop
      exact advance_start hP hm horder h
    · next hm =>
      obtain ⟨input, hinput, hop⟩ := Option.bind_eq_some_iff.1 hop
      obtain rfl := Option.some.inj hop
      exact advance_operation (.completeReservation input _ _)
        ⟨m, hP, Or.inl hm, hinput⟩ h
    · next hm =>
      obtain ⟨input, hinput, hop⟩ := Option.bind_eq_some_iff.1 hop
      obtain rfl := Option.some.inj hop
      exact advance_operation (.completeReservation input _ _)
        ⟨m, hP, Or.inr hm, hinput⟩ h
    · next hm =>
      obtain ⟨dispatchId, hdispatch, hop⟩ := Option.bind_eq_some_iff.1 hop
      obtain ⟨correlationId, -, hop⟩ := Option.bind_eq_some_iff.1 hop
      obtain rfl := Option.some.inj hop
      exact advance_operation (.completeCompensation dispatchId _ _ _)
        ⟨m, hP, hm, hdispatch⟩ h
    · cases hop
  | driverEvents =>
    simp only [handle, handleDriverEvent] at hop
    split at hop
    · next hm =>
      obtain ⟨input, hinput, hop⟩ := Option.bind_eq_some_iff.1 hop
      obtain rfl := Option.some.inj hop
      rcases rest_transaction h w rfl with ⟨hsame, -⟩ | ⟨u, db, hcommit, heffect, -⟩
      · rw [hsame]
        exact .idle
      · rw [heffect]
        exact .reserved m input _ _ _ _ _ hP hm hinput hcommit
    · next hm =>
      obtain ⟨input, hinput, hop⟩ := Option.bind_eq_some_iff.1 hop
      obtain rfl := Option.some.inj hop
      rcases rest_transaction h w rfl with ⟨hsame, -⟩ | ⟨u, db, hcommit, heffect, -⟩
      · rw [hsame]
        exact .idle
      · rw [heffect]
        exact .released m input _ _ _ _ hP hm hinput hcommit
    · cases hop

end Steps

section Appends

variable {settings : Settings} {R : Request → Prop} {P : Queue → Message → Prop}
  {w w' : Databases}

theorem Appended.one {a : List OutboxRow} {r : OutboxRow} (hr : r.status = .pending) :
    Appended a (a ++ [r]) :=
  .enqueue fun x hx => by rwa [List.mem_singleton.1 hx]

/-- A transaction of the driver database that only appends to the outbox. -/
abbrev DriverAppends (tx : DriverTx) : Prop :=
  tx.Writes fun db db' => Appended db.outbox db'.outbox

theorem appends_enqueue {r : OutboxRow} (hr : r.status = .pending) :
    DriverAppends (DriverReservations.enqueue r) :=
  ⟨fun _ => .one hr, trivial⟩

theorem appends_grant (input : ReserveDriverInput) (reservationId eventId : Uuid) (now : Date)
    (found : Option Driver) :
    DriverAppends (DriverReservations.grant input reservationId eventId now found) := by
  cases found with
  | none => exact appends_enqueue rfl
  | some d =>
    simp only [DriverReservations.grant]
    split
    · exact trivial
    · exact ⟨fun _ => .refl _, fun _ => .refl _, appends_enqueue rfl⟩

theorem appends_selectCandidate {next : Option Driver → DriverTx}
    (h : ∀ found, DriverAppends (next found)) (candidates : List Uuid) :
    DriverAppends (DriverReservations.selectCandidate next candidates) := by
  induction candidates with
  | nil => exact h none
  | cons candidate rest ih =>
    intro db got
    simp only
    split
    · exact h _
    · exact ih

theorem appends_reserve (input : ReserveDriverInput) (reservationId eventId : Uuid) (now : Date) :
    DriverAppends
      (DriverReservations.reserve settings.hashtext input reservationId eventId now) := by
  intro db
  simp only
  split
  · exact appends_enqueue rfl
  · split
    · exact appends_enqueue rfl
    · exact appends_selectCandidate (appends_grant input reservationId eventId now) _
    · exact fun db got => appends_grant input reservationId eventId now _

theorem appends_release (input : ReleaseDriverInput) (eventId : Uuid) (now : Date) :
    DriverAppends (DriverReservations.release settings.hashtext input eventId now) := by
  intro db
  simp only
  split
  · exact appends_enqueue rfl
  · split
    · exact appends_enqueue rfl
    · intro db'
      simp only
      split
      · exact ⟨fun _ => .refl _, fun _ => .refl _, appends_enqueue rfl⟩
      · exact ⟨fun _ => .refl _, appends_enqueue rfl⟩

theorem DriverAppends.run {tx : DriverTx} (h : DriverAppends tx) {locked : ℕ → DriverLock → Bool}
    {db db' : DriverDb} {u : Unit} (hrun : tx.run locked db = .ok (u, db')) :
    Appended db.outbox db'.outbox :=
  Tx.Writes.run (R := fun db db' : DriverDb => Appended db.outbox db'.outbox)
    (fun _ => .refl _) (fun _ _ _ h h' => h.trans h') h hrun

/-- A transaction's event is enqueued as pending. -/
theorem pending_of_outcome {op : DispatchOp} {d : Dispatch} {o : DispatchOutcome}
    (h : op.outcome d = .ok o) : ∀ r ∈ o.event.toList, r.status = .pending := by
  intro r hr
  cases DispatchOp.step_of_outcome h with
  | move hm =>
    obtain rfl := List.mem_singleton.1 hr
    cases hm <;> rfl
  | late =>
    obtain rfl := List.mem_singleton.1 hr
    rfl
  | idle => cases hr

theorem Advance.appended (h : Advance settings R P w w') : Appended w.outbox w'.outbox := by
  have on {a a' b b' c c' : List OutboxRow} (ha : Appended a a') (hb : Appended b b')
      (hc : Appended c c') : Appended (a ++ b ++ c) (a' ++ b' ++ c') := (ha.append hb).append hc
  cases h with
  | idle => exact .refl _
  | saved => exact .refl _
  | created order correlationId key eventId now result db _ hrun =>
    refine on ?_ (.refl _) (.refl _)
    exact (writes_persistReadyForDispatch (fun _ => .refl _) fun _ => .one rfl).run
      (R := fun db db' : OrderDb => Appended db.outbox db'.outbox) (fun _ => .refl _)
      (fun _ _ _ h h' => h.trans h') hrun
  | started m d plan decisionId startedId requestedId now =>
    refine on (.refl _) (.enqueue fun r hr => ?_) (.refl _)
    rcases List.mem_pair.1 hr with rfl | rfl <;> rfl
  | operated op d o _ _ hout =>
    exact on (.refl _) (.enqueue (pending_of_outcome hout)) (.refl _)
  | createdDriver id displayName capacity now db hrun =>
    refine on (.refl _) (.refl _) (DriverAppends.run ?_ hrun)
    simp only [DriverReservations.createDriver]
    split
    · exact trivial
    · exact ⟨fun _ => .refl _, trivial⟩
  | reserved m input reservationId eventId now locked db _ _ _ hrun =>
    exact on (.refl _) (.refl _) ((appends_reserve input reservationId eventId now).run hrun)
  | released m input eventId now locked db _ _ _ hrun =>
    exact on (.refl _) (.refl _) ((appends_release input eventId now).run hrun)

/-- The relay's mark changes no message. -/
theorem update_publish (id : Uuid) (now : Date) (rows : List OutboxRow) :
    (Table.update OutboxRow.id id (.publish now) rows).map
      (fun r => (r.targetQueue, r.message)) = rows.map fun r => (r.targetQueue, r.message) := by
  simp only [Table.update, List.map_map]
  refine List.map_congr_left fun r _ => ?_
  simp only [Function.comp]
  split <;> rfl

theorem posts_markPublished (settings : Settings) (id : Uuid) (now : Date) (w : Databases) :
    (wiring settings).posts (w.markPublished id now) = (wiring settings).posts w := by
  simp only [Wiring.posts, wiring, Databases.outbox, Databases.markPublished, List.map_append,
    update_publish]

theorem sound_wiring (settings : Settings) : (wiring settings).Sound where
  request p seen effect next w h :=
    (advance_request (R := fun _ => True) (P := fun _ _ => True) (fun _ => trivial) h).appended
  delivery q m draw op seen effect next w hop h :=
    (advance_delivery (R := fun _ => True) (P := fun _ _ => True) trivial hop h).appended
  ids w := List.sublist_append_left _ _
  issued_mark id now w := by
    have h := congrArg (List.map fun p : Queue × Message => p.2.id)
      (posts_markPublished settings id now w)
    rw [← Wiring.ids_eq, ← Wiring.ids_eq] at h
    exact congrArg (· ++ w.driver.drivers.map Driver.id) h
  posts_mark := posts_markPublished settings
  published_mark id now w r hr hpub := by
    have hmem (rows : List OutboxRow) (hr : r ∈ Table.update OutboxRow.id id (.publish now) rows) :
        r.id = id ∨ r ∈ rows := by
      obtain ⟨r₀, hr₀, heq⟩ := List.mem_map.1 hr
      split at heq
      · next hid => exact Or.inl (by rw [← heq]; exact hid)
      · exact Or.inr (heq ▸ hr₀)
    have hout : r.id = id ∨ r ∈ w.outbox := by
      rcases List.mem_append.1 hr with hr | hr
      · rcases List.mem_append.1 hr with hr | hr
        · exact (hmem _ hr).imp_right fun h => List.mem_append_left _ (List.mem_append_left _ h)
        · exact (hmem _ hr).imp_right fun h => List.mem_append_left _ (List.mem_append_right _ h)
      · exact (hmem _ hr).imp_right fun h => List.mem_append_right _ h
    exact hout.imp_right fun h => ⟨r, h, rfl, hpub⟩

end Appends

section Moves

variable {settings : Settings} {R : Request → Prop} {P : Queue → Message → Prop}
  {S S' : Fleet} {a : FleetLabel} {t : FleetMove} {w w' : Databases}

/-- A reservation or a release is about to commit in the Driver service. -/
def DriverCommits (t : FleetMove) : Prop :=
  ∃ i now x c effect next, t.label = .advance i now ∧ t.pre.parcels i = some x ∧
    x.queue = .driverEvents ∧ x.call = some c ∧ c.pc = .operation (.step effect next) ∧
    next t.pre.world = .done ()

/-- A Driver handler that does not commit leaves the databases as they are. -/
theorem effect_of_driverEvent {m : Message} {draw : Draw} {op : Proc Databases ServiceError Unit}
    {seen : Option Databases} {effect : Databases → Databases}
    {next : Databases → Proc Databases ServiceError Unit}
    (hop : handleDriverEvent settings m draw = some op) (h : Rest op seen (.step effect next))
    (w : Databases) : effect w = w ∨ next w = .done () := by
  have on {locked : ℕ → DriverLock → Bool} {tx : DriverTx}
      (h : Rest (onDriver (driverTransaction locked tx)) seen (.step effect next)) :
      effect w = w ∨ next w = .done () := by
    rcases rest_transaction h w rfl with ⟨hsame, -⟩ | ⟨u, db, -, -, hdone⟩
    · exact Or.inl hsame
    · exact Or.inr hdone
  simp only [handleDriverEvent] at hop
  split at hop
  · obtain ⟨input, -, hop⟩ := Option.bind_eq_some_iff.1 hop
    obtain rfl := Option.some.inj hop
    exact on h
  · obtain ⟨input, -, hop⟩ := Option.bind_eq_some_iff.1 hop
    obtain rfl := Option.some.inj hop
    exact on h
  · cases hop

/-- The request takes a step that is not its first. -/
def Works (t : FleetMove) (p : Request) : Prop :=
  ∃ i rest seen, t.label = .work i ∧ t.pre.tasks i = some ⟨p, rest, seen⟩ ∧ seen ≠ none

/-- The message's handler takes a step, which commits if it is one of Driver's. -/
def Handles (t : FleetMove) (q : Queue) (m : Message) : Prop :=
  ∃ i now x c effect next, t.label = .advance i now ∧ t.pre.parcels i = some x ∧ x.queue = q ∧
    x.message = m ∧ x.call = some c ∧ c.pc = .operation (.step effect next) ∧
    (q = .driverEvents → next t.pre.world = .done ())

theorem Handles.driverCommits {m : Message} (h : Handles t .driverEvents m) :
    DriverCommits t := by
  obtain ⟨i, now, x, c, effect, next, hl, hi, hq, -, hc, hpc, hdone⟩ := h
  exact ⟨i, now, x, c, effect, next, hl, hi, hq, hc, hpc, hdone rfl⟩

/-- What a step of the fleet does to the databases. -/
theorem advance_of_happens (ho : S.Orderly (wiring settings))
    (hs : (wiring settings).Happens S a S') :
    (∃ id now, S'.world = S.world.markPublished id now) ∨
      Advance settings (Works ⟨S, a, S'⟩)
        (fun q m => (q, m) ∈ (wiring settings).posts S.world ∧ Handles ⟨S, a, S'⟩ q m)
        S.world S'.world := by
  cases hs with
  | request | publish | redeliver | receive | acked | retried | deadLettered | crash =>
    exact Or.inr .idle
  | confirm => exact Or.inl ⟨_, _, rfl⟩
  | work ht =>
    exact Or.inr (advance_request (fun hseen => ⟨_, _, _, rfl, ht, hseen⟩) (ho.tasks _ _ ht))
  | @advance i now x c c' s hi hc heff =>
    cases heff with
    | duplicate | absent | raced | started | inserted | succeeded | failed =>
      exact Or.inr .idle
    | operated effect next hpc =>
      obtain ⟨-, ⟨draw, hop⟩, hrest⟩ := ho.calls i x c hi hc
      obtain ⟨seen, hseen⟩ := hrest _ hpc
      by_cases hq : x.queue = .driverEvents ∧ next S.world ≠ .done ()
      · have hop' : handle settings x.queue x.message draw = some c.operation := hop
        rw [hq.1] at hop'
        have hsame := (effect_of_driverEvent hop' hseen S.world).resolve_right hq.2
        simp only [Bus.setParcel, hsame]
        exact Or.inr .idle
      · refine Or.inr (advance_delivery ⟨ho.posted i x hi, ?_⟩ hop hseen)
        refine ⟨i, now, x, c, effect, next, rfl, hi, rfl, rfl, hc, hpc, fun hd => ?_⟩
        by_contra hne
        exact hq ⟨hd, hne⟩

theorem Issued.mono {P' : Queue → Message → Prop} (hP : ∀ q m, P q m → P' q m) {op : DispatchOp}
    (h : Issued P op) : Issued P' op := by
  cases op with
  | completeReservation | completeCompensation =>
    obtain ⟨m, hm, hrest⟩ := h
    exact ⟨m, hP _ m hm, hrest⟩
  | startCompensation | timeout => trivial

theorem Advance.mono {P' : Queue → Message → Prop} (hP : ∀ q m, P q m → P' q m)
    (h : Advance settings R P w w') : Advance settings R P' w w' := by
  cases h with
  | idle => exact .idle
  | saved p read order hby hid happly =>
    refine .saved p read order (hby.imp_right ?_) hid happly
    rintro ⟨m, hm, hasks⟩
    exact ⟨m, hP _ m hm, hasks⟩
  | created order c key eventId now result db hs hrun =>
    exact .created order c key eventId now result db hs hrun
  | started m d plan decisionId startedId requestedId now hm hty ho hs hn hrow hfind =>
    exact .started m d plan decisionId startedId requestedId now (hP _ m hm) hty ho hs hn hrow hfind
  | operated op d o hop hrow ho => exact .operated op d o (hop.mono hP) hrow ho
  | createdDriver id displayName capacity now db hrun =>
    exact .createdDriver id displayName capacity now db hrun
  | reserved m input reservationId eventId now locked db hm hty hi hrun =>
    exact .reserved m input reservationId eventId now locked db (hP _ m hm) hty hi hrun
  | released m input eventId now locked db hm hty hi hrun =>
    exact .released m input eventId now locked db (hP _ m hm) hty hi hrun

theorem linked_markPublished (id : Uuid) (now : Date) (h : w.driver.Linked) :
    (w.markPublished id now).driver.Linked :=
  ⟨h.driverIds, h.ids, h.orders, h.nodup, h.held, h.active⟩

theorem Advance.linked (hadv : Advance settings R P w w') (h : w.driver.Linked) :
    w'.driver.Linked := by
  cases hadv with
  | idle | saved | created | started | operated => exact h
  | createdDriver id displayName capacity now db hrun =>
    obtain ⟨d, hd, hnew, rfl⟩ := created_of_run hrun
    exact h.saveEmpty (by simp [hnew]) (Driver.reservedOrderIds_create hd)
  | reserved m input reservationId eventId now locked db _ _ _ hrun =>
    exact (reserved_of_run h hrun).linked h
  | released m input eventId now locked db _ _ _ hrun =>
    exact (released_of_commit h hrun).linked h

theorem linked_of_run {ts : List FleetMove} (hrun : (fleet settings).Run ts S) :
    S.world.driver.Linked := by
  refine (hrun.invariant
    (I := fun S => S.Orderly (wiring settings) ∧ S.world.driver.Linked) ?_ ?_).2
  · intro S hinit
    obtain ⟨-, -, hdrivers, hres⟩ := hinit.1.1
    refine ⟨Bus.orderly_of_init hinit, ?_⟩
    constructor <;> simp [DriverDb.driver, DriverDb.reservation, hdrivers, hres]
  · rintro S a S' ⟨ho, h⟩ hs
    have hhap := Wiring.happens_of_step hs
    refine ⟨ho.step (sound_wiring settings) hhap, ?_⟩
    rcases advance_of_happens ho hhap with
      ⟨id, now, hw⟩ | hadv
    · rw [hw]
      exact linked_markPublished id now h
    · exact hadv.linked h

end Moves

end RouteFast
