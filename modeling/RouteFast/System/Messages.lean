import RouteFast.System.Agreement
import RouteFast.System.Snapshots

/-! Where a message comes from and what it carries: every row of an outbox was enqueued by
one of a few statements, so it has the fields its consumer declares, and a correlation id
that a request gave for its order or its dispatch. -/

namespace RouteFast

open Transition Pool ReadCommitted

/-- The queue of the service that handles the event type. -/
def EventType.consumer : EventType → Queue
  | .dispatchStarted | .dispatchAssigned | .dispatchFailed | .dispatchCancelled => .orderEvents
  | .orderReadyForDispatch | .driverReserved | .driverReservationFailed | .driverReleased =>
    .dispatchEvents
  | .driverReservationRequested | .driverReleaseRequested => .driverEvents

/-- The string fields that the interface of the event declares at its consumer; `priority?` is
always sent. -/
def EventType.fields : EventType → List Field
  | .orderReadyForDispatch => [.eventId, .orderId, .correlationId, .priority]
  | .dispatchStarted | .dispatchCancelled | .driverReservationRequested =>
    [.eventId, .orderId, .dispatchId, .correlationId]
  | .dispatchFailed | .driverReservationFailed =>
    [.eventId, .orderId, .dispatchId, .correlationId, .reason]
  | .dispatchAssigned | .driverReleaseRequested | .driverReserved | .driverReleased =>
    [.eventId, .orderId, .dispatchId, .correlationId, .driverId]

/-- The message is in its consumer's queue with all that the interface declares. -/
structure Message.Conforms (q : Queue) (m : Message) : Prop where
  queue : q = m.eventType.consumer
  fields : ∀ f ∈ m.eventType.fields, ∃ s, m.string f = some s
  correlation : m.string .correlationId = some m.correlationId
  pickup : m.eventType = .orderReadyForDispatch → ∃ point, m.pickup = some point
  /-- `candidateDriverIds?: string[]` -/
  candidates : q = .driverEvents →
    m.payload.get .candidateDriverIds = none ∨ ∃ ids, m.candidateDriverIds = some ids

/-- What a transaction of the workflow was called with: by a message out of those `P`
allows, or by a request out of those `R` allows. -/
def Called (R : Request → Prop) (P : Queue → Message → Prop) : DispatchOp → Prop
  | .completeReservation input _ _ => ∃ m, P .dispatchEvents m ∧
      (m.eventType = .driverReserved ∨ m.eventType = .driverReservationFailed) ∧
      m.reservationResultInput = some input
  | .completeCompensation dispatchId correlationId _ _ => ∃ m, P .dispatchEvents m ∧
      m.eventType = .driverReleased ∧ m.string .dispatchId = some dispatchId ∧
      m.string .correlationId = some correlationId
  | .startCompensation dispatchId reason correlationId eventId now =>
    R (.cancelDispatch dispatchId reason correlationId eventId now)
  | .timeout dispatchId correlationId eventId now =>
    R (.timeoutDispatch dispatchId correlationId eventId now)

/-- Everything that enqueues a row, in a step from `w` to `w'`. -/
inductive Enqueues (R : Request → Prop) (P : Queue → Message → Prop) (w w' : Databases) :
    OutboxRow → Prop
  | ready (id : Uuid) (customerId : String) (priority : OrderPriority) (pickup dropoff : Location)
      (correlationId key : Option String) (eventId : Uuid) (now : Date) (order : Order) :
      R (.createOrder id customerId priority pickup dropoff correlationId key eventId now) →
      order.id = id →
      Enqueues R P w w' (.pending eventId .orderReadyForDispatch .dispatchEvents
        (readyForDispatchPayload eventId order (correlationId.getD id)) (correlationId.getD id) now)
  | started (m : Message) (d : Dispatch) (eventId : Uuid) (now : Date) : P .dispatchEvents m →
      m.string .orderId = some d.orderId → m.string .correlationId = some d.correlationId →
      w'.dispatch.row d.id = some d → m.eventType = .orderReadyForDispatch →
      Enqueues R P w w' (DispatchEvent.started d eventId now)
  | requested (m : Message) (d : Dispatch) (plan : Option DispatchStartPlan) (eventId : Uuid)
      (now : Date) : P .dispatchEvents m →
      m.string .orderId = some d.orderId → m.string .correlationId = some d.correlationId →
      w'.dispatch.row d.id = some d → m.eventType = .orderReadyForDispatch →
      Enqueues R P w w' (DispatchEvent.reservationRequested d plan eventId now)
  | operated (op : DispatchOp) (d : Dispatch) (o : DispatchOutcome) (r : OutboxRow) :
      Called R P op → w.dispatch.row op.dispatchId = some d → op.outcome d = .ok o →
      o.event = some r → Enqueues R P w w' r
  | reserved (m : Message) (input : ReserveDriverInput) (driverId eventId : Uuid) (now : Date) :
      P .driverEvents m → m.eventType = .driverReservationRequested →
      m.reserveDriverInput = some input →
      Enqueues R P w w' (DriverEvent.reserved input driverId eventId now)
  | reservationFailed (m : Message) (input : ReserveDriverInput) (reason : String) (eventId : Uuid)
      (now : Date) : P .driverEvents m → m.eventType = .driverReservationRequested →
      m.reserveDriverInput = some input →
      Enqueues R P w w' (DriverEvent.reservationFailed input reason eventId now)
  | released (m : Message) (input : ReleaseDriverInput) (driverId eventId : Uuid) (now : Date) :
      P .driverEvents m → m.eventType = .driverReleaseRequested →
      m.releaseDriverInput = some input →
      Enqueues R P w w' (DriverEvent.released input driverId eventId now)

section Steps

variable {settings : Settings} {R : Request → Prop} {P : Queue → Message → Prop} {w : Databases}
  {seen : Option Databases} {effect : Databases → Databases}
  {next : Databases → Proc Databases ServiceError Unit}

/-- All that is new among the messages was enqueued. -/
def Grows (R : Request → Prop) (P : Queue → Message → Prop) (w w' : Databases) : Prop :=
  ∀ q m, (q, m) ∈ w'.posts → (q, m) ∈ w.posts ∨
    ∃ r, Enqueues R P w w' r ∧ q = r.targetQueue ∧ m = r.message

theorem Grows.refl (w : Databases) : Grows R P w w := fun _ _ hm => Or.inl hm

theorem Grows.of_rows {w' : Databases}
    (horder : ∀ r ∈ w'.order.outbox, r ∈ w.order.outbox ∨ Enqueues R P w w' r)
    (hdispatch : ∀ r ∈ w'.dispatch.outbox, r ∈ w.dispatch.outbox ∨ Enqueues R P w w' r)
    (hdriver : ∀ r ∈ w'.driver.outbox, r ∈ w.driver.outbox ∨ Enqueues R P w w' r) :
    Grows R P w w' := by
  have row (r : OutboxRow) (h : Enqueues R P w w' r) :
      ∃ r', Enqueues R P w w' r' ∧ r.targetQueue = r'.targetQueue ∧ r.message = r'.message :=
    ⟨r, h, rfl, rfl⟩
  exact Databases.posts_of_rows (fun r hr => (horder r hr).imp_right (row r))
    (fun r hr => (hdispatch r hr).imp_right (row r))
    fun r hr => (hdriver r hr).imp_right (row r)

/-- The last row of an outbox is the one just enqueued. -/
theorem Enqueues.last {w' : Databases} {rows : List OutboxRow} {e r : OutboxRow}
    (h : Enqueues R P w w' e) (hr : r ∈ rows ++ [e]) : r ∈ rows ∨ Enqueues R P w w' r := by
  rcases List.mem_append.1 hr with hr | hr
  · exact Or.inl hr
  · rw [List.mem_singleton.1 hr]
    exact Or.inr h

/-- A lifecycle use case enqueues nothing. -/
theorem posts_order {p : OrderRequest} (h : Rest (onOrder p.execute) seen (.step effect next)) :
    (effect w).posts = w.posts := by
  obtain ⟨effect₀, next₀, hrest, rfl, rfl⟩ := rest_on h
  rcases OrderPool.residual_step (.of_rest hrest) with ⟨-, rfl⟩ | ⟨db, read, order, -, -, -, rfl⟩
  · rfl
  · rfl

theorem grows_operation (op : DispatchOp) (hop : Called R P op)
    (h : Rest (onDispatch (dispatchTransaction op.body)) seen (.step effect next)) :
    Grows R P w (effect w) := by
  rcases rest_transaction h w rfl with ⟨hsame, -⟩ | ⟨u, db, hcommit, heffect, -⟩
  · rw [hsame]
    exact .refl w
  rw [heffect]
  rw [op.run_body] at hcommit
  refine .of_rows (fun r hr => Or.inl hr) (fun r hr => ?_) fun r hr => Or.inl hr
  cases hrow : w.dispatch.row op.dispatchId with
  | none =>
    rw [hrow] at hcommit
    cases hm : op.missing with
    | error e => simp [hm, Except.map] at hcommit
    | ok x =>
      obtain rfl : w.dispatch = db := by simpa [hm, Except.map] using hcommit
      exact Or.inl hr
  | some d =>
    rw [hrow] at hcommit
    cases ho : op.outcome d with
    | error e => simp [ho, Except.map] at hcommit
    | ok o =>
      obtain rfl : w.dispatch.after o = db := by simpa [ho, Except.map] using hcommit
      rcases List.mem_append.1 hr with hr | hr
      · exact Or.inl hr
      · exact Or.inr (.operated op d o r hop hrow ho (by simpa [eq_comm] using hr))

theorem grows_start {m : Message} {orderId correlationId priority : String}
    {pickup : Option (ℚ × ℚ)} {draw : Draw} (hP : P .dispatchEvents m)
    (hm : m.eventType = .orderReadyForDispatch) (horder : m.string .orderId = some orderId)
    (hcorr : m.string .correlationId = some correlationId)
    (h : Rest (onDispatch (startDispatch settings orderId correlationId priority pickup draw)) seen
      (.step effect next)) : Grows R P w (effect w) := by
  obtain ⟨effect₀, next₀, hrest, rfl, rfl⟩ := rest_on h
  set d := Dispatch.start (draw.uuid 0) orderId correlationId draw.now with hd
  rcases effect_startDispatch hrest w.dispatch with hsame | ⟨plan, -, heffect⟩
  · simp only [hsame]
    exact .refl w
  · simp only [heffect]
    rcases w.dispatch.exec_start_cases d plan (draw.uuid 1) (draw.uuid 2) (draw.uuid 3) draw.now
      with hsame | ⟨hrow, -, hstart⟩
    · rw [hsame]
      exact .refl w
    · rw [hstart]
      have hself : Table.find Dispatch.id d.id (w.dispatch.dispatches ++ [d]) = some d := by
        rw [Table.find_append_singleton, ← DispatchDb.row, hrow, Option.none_or, if_pos rfl]
      refine .of_rows (fun r hr => Or.inl hr) (fun r hr => ?_) fun r hr => Or.inl hr
      rcases List.mem_append.1 hr with hr | hr
      · exact Or.inl hr
      · rcases List.mem_pair.1 hr with rfl | rfl
        · exact Or.inr (.started m d _ _ hP horder hcorr hself hm)
        · exact Or.inr (.requested m d plan _ _ hP horder hcorr hself hm)

theorem grows_request {p : Request} (hp : R p)
    (h : Rest (p.execute settings) seen (.step effect next)) : Grows R P w (effect w) := by
  cases p with
  | createOrder id customerId priority pickup dropoff correlationId key eventId now =>
    obtain ⟨effect₀, next₀, hrest, rfl, rfl⟩ := rest_on h
    simp only [createOrder] at hrest
    cases horder : Order.create id customerId priority pickup dropoff now with
    | error e =>
      rw [horder] at hrest
      cases rest_finished rfl hrest
    | ok order =>
      rw [horder] at hrest
      have hid : order.id = id := by
        simp only [Order.create] at horder
        split at horder
        · cases horder
        · rw [← Except.ok.inj horder]
      rcases rest_atomically hrest w.order with ⟨hsame, -⟩ | ⟨result, hcommit, -⟩
      · simp only [hsame]
        exact .refl w
      · refine .of_rows (fun r hr => ?_) (fun r hr => Or.inl hr) fun r hr => Or.inl hr
        revert r
        refine (writes_persistReadyForDispatch (fun _ r hr => Or.inl hr) fun db r hr => ?_).run
          (R := fun db db' : OrderDb => ∀ r ∈ db'.outbox, r ∈ db.outbox ∨
            Enqueues R P w { w with order := effect₀ w.order } r)
          (fun _ r hr => Or.inl hr) (fun _ _ _ h h' r hr => (h' r hr).elim (h r) Or.inr) hcommit
        refine Enqueues.last ?_ hr
        have hready : Enqueues R P w { w with order := effect₀ w.order } _ :=
          .ready id customerId priority pickup dropoff correlationId key eventId now
            { order with domainEvents := [] } hp hid
        rwa [← hid] at hready
  | cancelOrder orderId now =>
    intro q m hm
    exact Or.inl (by rwa [posts_order h] at hm)
  | cancelDispatch dispatchId reason correlationId eventId now =>
    exact grows_operation (.startCompensation dispatchId reason correlationId eventId now)
      hp h
  | timeoutDispatch dispatchId correlationId eventId now =>
    exact grows_operation (.timeout dispatchId correlationId eventId now) hp h
  | createDriver id displayName capacity now =>
    unfold Request.execute at h
    rcases rest_transaction h w rfl with ⟨hsame, -⟩ | ⟨u, db, hcommit, heffect, -⟩
    · rw [hsame]
      exact .refl w
    · rw [heffect]
      obtain ⟨d, -, -, rfl⟩ := created_of_run hcommit
      exact fun q m hm => Or.inl hm

theorem grows_delivery {q : Queue} {m : Message} {draw : Draw}
    {op : Proc Databases ServiceError Unit} (hlinked : w.driver.Linked) (hP : P q m)
    (hop : handle settings q m draw = some op) (h : Rest op seen (.step effect next)) :
    Grows R P w (effect w) := by
  cases q with
  | orderEvents =>
    simp only [handle, handleOrderEvent, Option.bind_eq_bind, Option.bind_eq_some_iff] at hop
    obtain ⟨orderId, -, hop⟩ := hop
    have hsame : (effect w).posts = w.posts := by
      split at hop
      · obtain rfl := Option.some.inj hop
        exact posts_order h
      · obtain ⟨driverId, -, hop⟩ := Option.bind_eq_some_iff.1 hop
        obtain rfl := Option.some.inj hop
        exact posts_order h
      · obtain ⟨reason, -, hop⟩ := Option.bind_eq_some_iff.1 hop
        obtain rfl := Option.some.inj hop
        exact posts_order h
      · obtain rfl := Option.some.inj hop
        exact posts_order h
      · cases hop
    exact fun q m hm => Or.inl (hsame ▸ hm)
  | dispatchEvents =>
    simp only [handle, handleDispatchEvent] at hop
    split at hop
    · next hm =>
      obtain ⟨orderId, horder, hop⟩ := Option.bind_eq_some_iff.1 hop
      obtain ⟨correlationId, hcorr, hop⟩ := Option.bind_eq_some_iff.1 hop
      obtain rfl := Option.some.inj hop
      exact grows_start hP hm horder hcorr h
    · next hm =>
      obtain ⟨input, hinput, hop⟩ := Option.bind_eq_some_iff.1 hop
      obtain rfl := Option.some.inj hop
      exact grows_operation (.completeReservation input _ _) ⟨m, hP, Or.inl hm, hinput⟩ h
    · next hm =>
      obtain ⟨input, hinput, hop⟩ := Option.bind_eq_some_iff.1 hop
      obtain rfl := Option.some.inj hop
      exact grows_operation (.completeReservation input _ _) ⟨m, hP, Or.inr hm, hinput⟩ h
    · next hm =>
      obtain ⟨dispatchId, hdispatch, hop⟩ := Option.bind_eq_some_iff.1 hop
      obtain ⟨correlationId, hcorr, hop⟩ := Option.bind_eq_some_iff.1 hop
      obtain rfl := Option.some.inj hop
      exact grows_operation (.completeCompensation dispatchId correlationId _ _)
        ⟨m, hP, hm, hdispatch, hcorr⟩ h
    · cases hop
  | driverEvents =>
    simp only [handle, handleDriverEvent] at hop
    split at hop
    · next hty =>
      obtain ⟨input, hinput, hop⟩ := Option.bind_eq_some_iff.1 hop
      obtain rfl := Option.some.inj hop
      rcases rest_transaction h w rfl with ⟨hsame, -⟩ | ⟨u, db, hcommit, heffect, -⟩
      · rw [hsame]
        exact .refl w
      rw [heffect]
      refine .of_rows (fun r hr => Or.inl hr) (fun r hr => Or.inl hr) fun r hr => ?_
      cases reserved_of_run hlinked hcommit with
      | again | granted => exact Enqueues.last (.reserved m input _ _ _ hP hty hinput) hr
      | failed reason =>
        exact Enqueues.last (.reservationFailed m input reason _ _ hP hty hinput) hr
    · next hty =>
      obtain ⟨input, hinput, hop⟩ := Option.bind_eq_some_iff.1 hop
      obtain rfl := Option.some.inj hop
      rcases rest_transaction h w rfl with ⟨hsame, -⟩ | ⟨u, db, hcommit, heffect, -⟩
      · rw [hsame]
        exact .refl w
      rw [heffect]
      refine .of_rows (fun r hr => Or.inl hr) (fun r hr => Or.inl hr) fun r hr => ?_
      cases released_of_commit hlinked hcommit with
      | unknown | again | freed => exact Enqueues.last (.released m input _ _ _ hP hty hinput) hr
    · cases hop

end Steps

section Contents

variable {d d' : Dispatch} {m : Message} {q : Queue} {eventId : Uuid} {now : Date} {c : String}

/-- Where the request gave the message's correlation id for its order or its dispatch. -/
def Request.Introduces (m : Message) : Request → Prop
  | .createOrder id _ _ _ _ correlationId _ _ _ =>
    m.string .orderId = some id ∧ m.correlationId = correlationId.getD id
  | .cancelDispatch dispatchId _ correlationId _ _
  | .timeoutDispatch dispatchId correlationId _ _ =>
    m.string .dispatchId = some dispatchId ∧ m.correlationId = correlationId
  | .cancelOrder .. | .createDriver .. => False

/-- A message about the same order and dispatch takes the correlation id over. -/
theorem Request.Introduces.hand_down {m' : Message} {p : Request} (h : p.Introduces m)
    (horder : m'.string .orderId = m.string .orderId)
    (hdispatch : ∀ id, m.string .dispatchId = some id → m'.string .dispatchId = some id)
    (hcorr : m'.correlationId = m.correlationId) : p.Introduces m' := by
  cases p with
  | createOrder => exact ⟨horder.trans h.1, hcorr.trans h.2⟩
  | cancelDispatch | timeoutDispatch => exact ⟨hdispatch _ h.1, hcorr.trans h.2⟩
  | cancelOrder | createDriver => exact h

theorem conforms_dispatchEvent (ty : EventType) {payload : Payload}
    (hid : payload.get .eventId = none)
    (hfields : ∀ f ∈ ty.fields, f = .eventId ∨ ∃ s, payload.get f = some (.string s))
    (hcorr : payload.get .correlationId = some (.string c)) (hready : ty ≠ .orderReadyForDispatch)
    (hids : ty.consumer = .driverEvents → payload.get .candidateDriverIds = none ∨
      payload.get .candidateDriverIds = some .undefined ∨
      ∃ ids, payload.get .candidateDriverIds = some (.strings ids)) :
    (dispatchEvent eventId ty.consumer ty payload c now).message.Conforms ty.consumer where
  queue := rfl
  fields f hf := by
    rcases hfields f hf with rfl | ⟨s, hs⟩
    · exact ⟨eventId, OutboxRow.string_message (eventId_dispatchEvent _ _ _ _ _ hid)⟩
    · exact ⟨s, OutboxRow.string_message (string_dispatchEvent _ _ _ _ _ _ hs)⟩
  correlation := OutboxRow.string_message (string_dispatchEvent _ _ _ _ _ _ hcorr)
  pickup hty := absurd hty hready
  candidates hq := by
    have hget : (dispatchEvent eventId ty.consumer ty payload c now).message.payload.get
        .candidateDriverIds = if payload.get .candidateDriverIds = some .undefined then none else
          payload.get .candidateDriverIds := by
      have hspread : (Js.Obj.spread [(.eventId, .string eventId)] payload : Payload).get
          .candidateDriverIds = payload.get .candidateDriverIds := by
        rw [Js.Obj.get_spread, Js.Obj.get_cons_ne (by decide), Js.Obj.get_nil, Option.or_none]
      simp only [OutboxRow.message, dispatchEvent, OutboxRow.pending, Payload.get_json, hspread]
    rcases hids hq with hids | hids | ⟨ids, hids⟩
    · exact Or.inl (by simp [hget, hids])
    · exact Or.inl (by simp [hget, hids])
    · exact Or.inr ⟨ids, by simp [Message.candidateDriverIds, hget, hids]⟩

theorem conforms_ready {order : Order} : (OutboxRow.pending eventId .orderReadyForDispatch
    .dispatchEvents (readyForDispatchPayload eventId order c) c now).message.Conforms
      .dispatchEvents where
  queue := rfl
  fields f hf := by
    have hf' : f = .eventId ∨ f = .orderId ∨ f = .correlationId ∨ f = .priority := by
      simpa [OutboxRow.message, OutboxRow.pending, EventType.fields] using hf
    rcases hf' with rfl | rfl | rfl | rfl
    · exact ⟨eventId, rfl⟩
    · exact ⟨order.id, rfl⟩
    · exact ⟨c, rfl⟩
    · exact ⟨order.priority.text, rfl⟩
  correlation := rfl
  pickup _ := ⟨_, rfl⟩
  candidates hq := by cases hq

theorem conforms_started : (DispatchEvent.started d eventId now).message.Conforms .orderEvents :=
  conforms_dispatchEvent .dispatchStarted rfl (by simp [EventType.fields, Js.Obj.get]) rfl
    (by rintro ⟨⟩) (by rintro ⟨⟩)

theorem conforms_reservationRequested {plan : Option DispatchStartPlan} :
    (DispatchEvent.reservationRequested d plan eventId now).message.Conforms .driverEvents := by
  refine conforms_dispatchEvent .driverReservationRequested rfl
    (by simp [EventType.fields, Js.Obj.get]) rfl (by rintro ⟨⟩) fun _ => Or.inr ?_
  cases plan with
  | none => exact Or.inl rfl
  | some plan => exact Or.inr ⟨_, rfl⟩

/-- What a transaction of the workflow enqueues is complete, and about its dispatch. -/
theorem conforms_of_outcome {op : DispatchOp} {o : DispatchOutcome} {r : OutboxRow}
    (ho : op.outcome d = .ok o) (hr : o.event = some r) :
    r.message.Conforms r.targetQueue ∧ r.message.eventType ≠ .orderReadyForDispatch ∧
      r.message.About d := by
  have about {q : Queue} {ty : EventType} {payload : Payload} {eventId : Uuid} {c : String}
      {now : Date} (hd : payload.get .dispatchId = some (.string d.id))
      (horder : payload.get .orderId = some (.string d.orderId)) :
      (dispatchEvent eventId q ty payload c now).message.About d :=
    ⟨OutboxRow.string_message (string_dispatchEvent _ _ _ _ _ _ hd),
      OutboxRow.string_message (string_dispatchEvent _ _ _ _ _ _ horder)⟩
  cases DispatchOp.step_of_outcome ho with
  | move hm =>
    obtain rfl := Option.some.inj hr
    cases hm with
    | assign => exact ⟨conforms_dispatchEvent .dispatchAssigned rfl
        (by simp [EventType.fields, Js.Obj.get]) rfl (by rintro ⟨⟩) (by rintro ⟨⟩),
        by rintro ⟨⟩, about rfl rfl⟩
    | fail => exact ⟨conforms_dispatchEvent .dispatchFailed rfl
        (by simp [EventType.fields, Js.Obj.get]) rfl (by rintro ⟨⟩) (by rintro ⟨⟩),
        by rintro ⟨⟩, about rfl rfl⟩
    | compensate => exact ⟨conforms_dispatchEvent .driverReleaseRequested rfl
        (by simp [EventType.fields, Js.Obj.get]) rfl (by rintro ⟨⟩) (fun _ => Or.inl rfl),
        by rintro ⟨⟩, about rfl rfl⟩
    | cancel => exact ⟨conforms_dispatchEvent .dispatchCancelled rfl
        (by simp [EventType.fields, Js.Obj.get]) rfl (by rintro ⟨⟩) (by rintro ⟨⟩),
        by rintro ⟨⟩, about rfl rfl⟩
  | late =>
    obtain rfl := Option.some.inj hr
    exact ⟨conforms_dispatchEvent .driverReleaseRequested rfl
      (by simp [EventType.fields, Js.Obj.get]) rfl (by rintro ⟨⟩) (fun _ => Or.inl rfl),
      by rintro ⟨⟩, about rfl rfl⟩
  | idle => cases hr

def DispatchOp.correlationId : DispatchOp → String
  | .completeReservation input _ _ => input.correlationId
  | .startCompensation _ _ correlationId _ _ => correlationId
  | .completeCompensation _ correlationId _ _ => correlationId
  | .timeout _ correlationId _ _ => correlationId

/-- The row carries the correlation id the transaction was called with. -/
theorem DispatchOp.correlation_of_outcome {op : DispatchOp} {o : DispatchOutcome} {r : OutboxRow}
    (ho : op.outcome d = .ok o) (hr : o.event = some r) : r.correlationId = op.correlationId := by
  cases op with
  | completeReservation input eventId now =>
    simp only [outcome] at ho
    split at ho <;> obtain rfl := Except.ok.inj ho
    · obtain rfl := Option.some.inj hr
      rfl
    · obtain rfl := Option.some.inj hr
      rfl
    · obtain rfl := Option.some.inj hr
      rfl
    · obtain rfl := Option.some.inj hr
      rfl
    · cases hr
  | startCompensation dispatchId reason c eventId now =>
    simp only [outcome] at ho
    split at ho
    · obtain rfl := Except.ok.inj ho
      cases hr
    · obtain rfl := Except.ok.inj ho
      cases hr
    · cases hc : d.startCompensation reason now with
      | error e => simp [hc, Except.map] at ho
      | ok d' =>
        rw [hc] at ho
        obtain rfl := Except.ok.inj ho
        obtain rfl := Option.some.inj hr
        rfl
  | completeCompensation dispatchId c eventId now | timeout dispatchId c eventId now =>
    simp only [outcome] at ho
    split at ho <;> obtain rfl := Except.ok.inj ho
    · obtain rfl := Option.some.inj hr
      rfl
    · cases hr

theorem Message.correlation_of_reserveDriverInput {input : ReserveDriverInput}
    (h : m.reserveDriverInput = some input) :
    m.string .correlationId = some input.correlationId := by
  obtain ⟨orderId, -, h⟩ := Option.bind_eq_some_iff.1 h
  obtain ⟨dispatchId, -, h⟩ := Option.bind_eq_some_iff.1 h
  obtain ⟨correlationId, hcorr, h⟩ := Option.bind_eq_some_iff.1 h
  rw [hcorr, ← Option.some.inj h]

theorem Message.reserveInput_of_release {input : ReleaseDriverInput}
    (h : m.releaseDriverInput = some input) :
    m.reserveDriverInput = some input.toReserveDriverInput := by
  obtain ⟨reserve, hreserve, h⟩ := Option.bind_eq_some_iff.1 h
  obtain ⟨driverId, -, h⟩ := Option.bind_eq_some_iff.1 h
  rw [hreserve, ← Option.some.inj h]

theorem Message.correlation_of_reservationResultInput {input : ReservationResultInput}
    (h : m.reservationResultInput = some input) :
    m.string .correlationId = some input.correlationId := by
  obtain ⟨dispatchId, -, h⟩ := Option.bind_eq_some_iff.1 h
  obtain ⟨orderId, -, h⟩ := Option.bind_eq_some_iff.1 h
  obtain ⟨correlationId, hcorr, h⟩ := Option.bind_eq_some_iff.1 h
  split at h
  · obtain ⟨driver, -, h⟩ := Option.bind_eq_some_iff.1 h
    rw [hcorr, ← Option.some.inj h]
  · obtain ⟨reason, -, h⟩ := Option.bind_eq_some_iff.1 h
    rw [hcorr, ← Option.some.inj h]

/-- The requests to the Driver service have these fields in common. -/
theorem EventType.fields_of_request {ty : EventType} (h : ty.consumer = .driverEvents) :
    ∀ f ∈ EventType.driverReservationRequested.fields, f ∈ ty.fields := by
  cases ty <;> revert h <;> decide

/-- A reply of the Driver service: the request's payload with one more field, `k`. -/
def Replied (m : Message) (k : Field) (ty : EventType) (r : OutboxRow) : Prop :=
  ∃ input s eventId now, m.reserveDriverInput = some input ∧
    r = driverEvent eventId ty (Js.Obj.spread input.event [(k, .string s)]) input.correlationId now

/-- It is complete if the request was, and about the same order and dispatch. -/
theorem Message.Conforms.reply {k : Field} {ty : EventType} {r : OutboxRow}
    (h : m.Conforms .driverEvents) (hr : Replied m k ty r) (hk : k = .driverId ∨ k = .reason)
    (hty : ty.consumer = .dispatchEvents) (hready : ty ≠ .orderReadyForDispatch)
    (hfields : ∀ f ∈ ty.fields, f = k ∨ f ∈ EventType.driverReservationRequested.fields) :
    r.message.Conforms r.targetQueue ∧ r.message.correlationId = m.correlationId ∧
      ∀ f, f ≠ k → ∀ s, m.string f = some s → r.message.string f = some s := by
  obtain ⟨input, s, eventId, now, hinput, rfl⟩ := hr
  have hevent := event_of_reserveDriverInput hinput
  have hcorr := Message.correlation_of_reserveDriverInput hinput
  have hown : ∀ f ∈ EventType.driverReservationRequested.fields, ∃ s, m.string f = some s := by
    intro f hf
    exact h.fields f (EventType.fields_of_request h.queue.symm f hf)
  have hkeep (f : Field) (hf : f ≠ k) (s' : String) (hs : m.string f = some s') :
      (driverEvent eventId ty (Js.Obj.spread input.event [(k, .string s)]) input.correlationId
        now).message.string f = some s' := by
    refine OutboxRow.string_message (string_driverEvent _ _ _ _ _ ?_)
    rw [Payload.string_spread_ne _ _ hf.symm, hevent]
    exact hs
  refine ⟨⟨hty.symm, fun f hf => ?_, ?_, fun h => absurd h hready, by rintro ⟨⟩⟩, ?_, hkeep⟩
  · by_cases hfk : f = k
    · subst hfk
      exact ⟨s, OutboxRow.string_message (string_driverEvent _ _ _ _ _
        (Payload.string_spread_self _ _ _))⟩
    · obtain ⟨s', hs'⟩ := hown f ((hfields f hf).resolve_left hfk)
      exact ⟨s', hkeep f hfk s' hs'⟩
  · exact hkeep .correlationId (by rcases hk with rfl | rfl <;> decide) _ hcorr
  · exact Option.some.inj (hcorr.symm.trans h.correlation)

end Contents

/-- The request has been made. -/
def Bus.Requested {W π : Type} (S : Bus W π) (p : π) : Prop :=
  ∃ i t, S.tasks i = some t ∧ t.request = p

/-- What every message in an outbox is known to be. -/
structure Traced (S : Fleet) : Prop where
  conforms : ∀ q m, (q, m) ∈ S.world.posts → m.Conforms q
  undispatched : ∀ q m, (q, m) ∈ S.world.posts → m.eventType = .orderReadyForDispatch →
    m.string .dispatchId = none
  about : ∀ q m, (q, m) ∈ S.world.posts → m.eventType ≠ .orderReadyForDispatch →
    ∃ d, S.world.dispatch.row d.id = some d ∧ m.About d
  introduced : ∀ q m, (q, m) ∈ S.world.posts → ∃ p, S.Requested p ∧ p.Introduces m

section Runs

variable {settings : Settings} {S S' : Fleet} {a : FleetLabel} {ts : List FleetMove}

/-- A request stays known. -/
theorem Wiring.Happens.requested {W π η : Type} {N : Wiring W π η} {S S' : Bus W π}
    {a : BusLabel π η} (hs : N.Happens S a S') {p : π} (h : S.Requested p) : S'.Requested p := by
  obtain ⟨j, t, hj, rfl⟩ := h
  cases hs with
  | publish | confirm | redeliver | receive | advance | acked | retried | deadLettered | crash =>
    exact ⟨j, t, hj, rfl⟩
  | @request i p hi =>
    have hne : j ≠ i := by
      rintro rfl
      simp [hi] at hj
    exact ⟨j, t, by simpa [Bus.setTask, hne] using hj, rfl⟩
  | @work i p effect next seen hi =>
    by_cases hji : j = i
    · subst hji
      obtain rfl := Option.some.inj (hi.symm.trans hj)
      exact ⟨j, _, Function.update_self .., rfl⟩
    · exact ⟨j, t, by simpa [Bus.setTask, hji] using hj, rfl⟩

/-- All that a step of the fleet adds to the messages was enqueued in it. -/
theorem grows_of_happens (ho : S.Orderly (wiring settings)) (hlinked : S.world.driver.Linked)
    (hs : (wiring settings).Happens S a S') :
    Grows S.Requested (fun q m => (q, m) ∈ S.world.posts) S.world S'.world := by
  cases hs with
  | request | publish | redeliver | receive | acked | retried | deadLettered | crash =>
    exact .refl _
  | @confirm id now =>
    have hsame : (S.world.markPublished id now).posts = S.world.posts :=
      posts_markPublished settings id now S.world
    exact fun q m hm => Or.inl (hsame ▸ hm)
  | @work i p effect next seen ht =>
    exact grows_request ⟨i, _, ht, rfl⟩ (ho.tasks i _ ht)
  | @advance i now x c c' s hi hc heff =>
    cases heff with
    | duplicate | absent | raced | started | inserted | succeeded | failed => exact .refl _
    | operated effect next hpc =>
      obtain ⟨-, ⟨draw, hop⟩, hrest⟩ := ho.calls i x c hi hc
      obtain ⟨seen, hseen⟩ := hrest _ hpc
      exact grows_delivery hlinked (ho.posted i x hi) hop hseen

/-- A dispatch keeps its id and its order. -/
theorem row_of_happens (ho : S.Orderly (wiring settings)) (hs : (wiring settings).Happens S a S')
    {d : Dispatch} (hd : S.world.dispatch.row d.id = some d) :
    ∃ d', S'.world.dispatch.row d'.id = some d' ∧ d'.id = d.id ∧ d'.orderId = d.orderId := by
  rcases advance_of_happens ho hs with ⟨id, now, hw⟩ | hadv
  · rw [hw]
    exact ⟨d, hd, rfl, rfl⟩
  · obtain ⟨d', hd', hid, horder, -⟩ := hadv.row hd
    exact ⟨d', hd', hid, horder⟩

/-- A message to the Driver service is about a dispatch. -/
theorem Traced.about_request (h : Traced S) {m : Message}
    (hm : (Queue.driverEvents, m) ∈ S.world.posts) :
    ∃ d, S.world.dispatch.row d.id = some d ∧ m.About d := by
  refine h.about _ m hm fun hready => ?_
  have hq := (h.conforms _ m hm).queue
  rw [hready] at hq
  cases hq

/-- The dispatch a transaction locks is that of the message it was called with, and the
correlation id one that was introduced for it. -/
theorem Traced.called (h : Traced S) {op : DispatchOp} {d : Dispatch} {m : Message}
    (hop : Called S.Requested (fun q m => (q, m) ∈ S.world.posts) op)
    (hd : S.world.dispatch.row op.dispatchId = some d) (hm : m.About d)
    (hcorr : m.correlationId = op.correlationId) : ∃ p, S.Requested p ∧ p.Introduces m := by
  have hid : d.id = op.dispatchId := Table.key_of_find hd
  have handed {m' : Message} (hm' : (Queue.dispatchEvents, m') ∈ S.world.posts)
      (hty : m'.eventType ≠ .orderReadyForDispatch)
      (hdispatch : m'.string .dispatchId = some op.dispatchId)
      (hcorr' : m'.string .correlationId = some op.correlationId) :
      ∃ p, S.Requested p ∧ p.Introduces m := by
    obtain ⟨e, he, hme⟩ := h.about _ m' hm' hty
    have hsame : e.id = op.dispatchId := Option.some.inj (hme.1.symm.trans hdispatch)
    obtain rfl : e = d := Option.some.inj (he.symm.trans (hsame ▸ hd))
    obtain ⟨p, hp, hintro⟩ := h.introduced _ m' hm'
    have heq := (h.conforms _ m' hm').correlation
    refine ⟨p, hp, hintro.hand_down (hm.2.trans hme.2.symm) (fun id hid' => ?_) ?_⟩
    · rw [hm.1, ← hme.1, hid']
    · rw [hcorr]
      exact Option.some.inj (hcorr'.symm.trans heq)
  cases op with
  | completeReservation input eventId now =>
    obtain ⟨m', hm', hty, hinput⟩ := hop
    exact handed hm' (by rcases hty with hty | hty <;> simp [hty])
      (Message.of_reservationResultInput hinput).1
      (Message.correlation_of_reservationResultInput hinput)
  | completeCompensation dispatchId c eventId now =>
    obtain ⟨m', hm', hty, hdispatch, hcorr'⟩ := hop
    exact handed hm' (by simp [hty]) hdispatch hcorr'
  | startCompensation dispatchId reason c eventId now =>
    exact ⟨_, hop, hm.1.trans (congrArg some hid), hcorr⟩
  | timeout dispatchId c eventId now =>
    exact ⟨_, hop, hm.1.trans (congrArg some hid), hcorr⟩

/-- What is known of a message just enqueued. -/
structure Sourced (S : Fleet) (w' : Databases) (q : Queue) (m : Message) : Prop where
  conforms : m.Conforms q
  introduced : ∃ p, S.Requested p ∧ p.Introduces m
  about : (m.eventType = .orderReadyForDispatch ∧ m.string .dispatchId = none) ∨
    (m.eventType ≠ .orderReadyForDispatch ∧ ∃ d, (w'.dispatch.row d.id = some d ∨
      S.world.dispatch.row d.id = some d) ∧ m.About d)

theorem Traced.enqueued (h : Traced S) {w' : Databases} {r : OutboxRow}
    (hr : Enqueues S.Requested (fun q m => (q, m) ∈ S.world.posts) S.world w' r) :
    Sourced S w' r.targetQueue r.message := by
  have replied {m : Message} {k : Field} {ty : EventType} {r : OutboxRow}
      (hm : (Queue.driverEvents, m) ∈ S.world.posts) (hr : Replied m k ty r)
      (hk : k = .driverId ∨ k = .reason) (hty : ty.consumer = .dispatchEvents)
      (hne : ty ≠ .orderReadyForDispatch)
      (hfields : ∀ f ∈ ty.fields, f = k ∨ f ∈ EventType.driverReservationRequested.fields) :
      Sourced S w' r.targetQueue r.message := by
    obtain ⟨hconf, hcorr, hkeep⟩ := (h.conforms _ m hm).reply hr hk hty hne hfields
    obtain ⟨d, hd, hmd⟩ := h.about_request hm
    obtain ⟨p, hp, hintro⟩ := h.introduced _ m hm
    have hdispatch := hkeep .dispatchId (by rcases hk with rfl | rfl <;> decide) _ hmd.1
    have horder := hkeep .orderId (by rcases hk with rfl | rfl <;> decide) _ hmd.2
    refine ⟨hconf, ⟨p, hp, hintro.hand_down (horder.trans hmd.2.symm) (fun id hid => ?_) hcorr⟩,
      Or.inr ⟨?_, d, Or.inr hd, hdispatch, horder⟩⟩
    · rw [hdispatch, ← hmd.1, hid]
    · obtain ⟨input, s, eventId, now, -, rfl⟩ := hr
      exact hne
  have first {m m' : Message} {d : Dispatch} (hm : (Queue.dispatchEvents, m) ∈ S.world.posts)
      (horder : m.string .orderId = some d.orderId)
      (hcorr : m.string .correlationId = some d.correlationId)
      (hty : m.eventType = .orderReadyForDispatch) (hmd : m'.About d)
      (hcorr' : m'.correlationId = d.correlationId) : ∃ p, S.Requested p ∧ p.Introduces m' := by
    obtain ⟨p, hp, hintro⟩ := h.introduced _ m hm
    have heq := (h.conforms _ m hm).correlation
    refine ⟨p, hp, hintro.hand_down (hmd.2.trans horder.symm) (fun id hid => ?_)
      (hcorr'.trans (Option.some.inj (hcorr.symm.trans heq)))⟩
    rw [h.undispatched _ m hm hty] at hid
    cases hid
  cases hr with
  | ready id customerId priority pickup dropoff correlationId key eventId now order hp hid =>
    exact ⟨conforms_ready, ⟨_, hp, congrArg some hid, rfl⟩, Or.inl ⟨rfl, rfl⟩⟩
  | started m d eventId now hm horder hcorr hd hty =>
    have hmd : (DispatchEvent.started d eventId now).message.About d :=
      ⟨OutboxRow.string_message (string_dispatchEvent _ _ _ _ _ _ rfl),
        OutboxRow.string_message (string_dispatchEvent _ _ _ _ _ _ rfl)⟩
    exact ⟨conforms_started, first hm horder hcorr hty hmd rfl,
      Or.inr ⟨by rintro ⟨⟩, d, Or.inl hd, hmd⟩⟩
  | requested m d plan eventId now hm horder hcorr hd hty =>
    have hmd := (requests_reservationRequested d plan eventId now).about
    exact ⟨conforms_reservationRequested, first hm horder hcorr hty hmd rfl,
      Or.inr ⟨by rintro ⟨⟩, d, Or.inl hd, hmd⟩⟩
  | operated op d o r hop hd ho hr =>
    obtain ⟨hconf, hne, hmd⟩ := conforms_of_outcome ho hr
    exact ⟨hconf, h.called hop hd hmd (DispatchOp.correlation_of_outcome ho hr),
      Or.inr ⟨hne, d, Or.inr (Table.key_of_find hd ▸ hd), hmd⟩⟩
  | reserved m input driverId eventId now hm _ hinput =>
    exact replied hm ⟨input, driverId, eventId, now, hinput, rfl⟩ (Or.inl rfl) rfl
      (by rintro ⟨⟩) (by decide)
  | reservationFailed m input reason eventId now hm _ hinput =>
    exact replied hm ⟨input, reason, eventId, now, hinput, rfl⟩ (Or.inr rfl) rfl
      (by rintro ⟨⟩) (by decide)
  | released m input driverId eventId now hm _ hinput =>
    exact replied hm ⟨_, driverId, eventId, now, Message.reserveInput_of_release hinput, rfl⟩
      (Or.inl rfl) rfl (by rintro ⟨⟩) (by decide)

theorem Traced.step (h : Traced S) (ho : S.Orderly (wiring settings))
    (hlinked : S.world.driver.Linked) (hs : (wiring settings).Happens S a S') : Traced S' := by
  have hsource (q : Queue) (m : Message) (hm : (q, m) ∈ S'.world.posts) :
      (q, m) ∈ S.world.posts ∨ Sourced S S'.world q m := by
    refine (grows_of_happens ho hlinked hs q m hm).imp_right ?_
    rintro ⟨r, hr, rfl, rfl⟩
    exact h.enqueued hr
  have habout {m : Message} {d : Dispatch} (hd : S.world.dispatch.row d.id = some d)
      (hmd : m.About d) : ∃ d, S'.world.dispatch.row d.id = some d ∧ m.About d := by
    obtain ⟨d', hd', hid, horder⟩ := row_of_happens ho hs hd
    exact ⟨d', hd', hid ▸ hmd.1, horder ▸ hmd.2⟩
  refine ⟨fun q m hm => ?_, fun q m hm hty => ?_, fun q m hm hne => ?_, fun q m hm => ?_⟩
  · rcases hsource q m hm with hm | hm
    · exact h.conforms q m hm
    · exact hm.conforms
  · rcases hsource q m hm with hm | hm
    · exact h.undispatched q m hm hty
    · rcases hm.about with hready | ⟨hne, -⟩
      · exact hready.2
      · exact absurd hty hne
  · rcases hsource q m hm with hm | hm
    · obtain ⟨d, hd, hmd⟩ := h.about q m hm hne
      exact habout hd hmd
    · rcases hm.about with hready | ⟨-, d, hd | hd, hmd⟩
      · exact absurd hready.1 hne
      · exact ⟨d, hd, hmd⟩
      · exact habout hd hmd
  · obtain ⟨p, hp, hintro⟩ : ∃ p, S.Requested p ∧ p.Introduces m := by
      rcases hsource q m hm with hm | hm
      · exact h.introduced q m hm
      · exact hm.introduced
    exact ⟨p, hs.requested hp, hintro⟩

theorem traced_of_run (hrun : (fleet settings).Run ts S) : Traced S := by
  induction hrun with
  | @nil S hinit =>
    have hout : (wiring settings).outbox S.world = [] := hinit.1.2.1
    have hposts : ∀ p, p ∉ (wiring settings).posts S.world := by simp [Wiring.posts, hout]
    exact ⟨fun q m hm => absurd hm (hposts _), fun q m hm => absurd hm (hposts _),
      fun q m hm => absurd hm (hposts _), fun q m hm => absurd hm (hposts _)⟩
  | snoc hrun hs ih =>
    exact ih.step (Bus.orderly_of_run (sound_wiring settings) hrun) (linked_of_run hrun)
      (Wiring.happens_of_step hs)

/-- The received object is an event, and its consumer's controller has a handler for it. -/
theorem Message.Conforms.handled {q : Queue} {m : Message} (h : m.Conforms q)
    (settings : Settings) (draw : Draw) :
    ∃ event op, m.event = some event ∧ handle settings q m draw = some op := by
  obtain ⟨hq, hfields, -⟩ := h
  have hevent : ∃ event, m.event = some event := by
    obtain ⟨eventId, hid⟩ := hfields .eventId (by cases m.eventType <;> decide)
    obtain ⟨correlationId, hcorr⟩ := hfields .correlationId (by cases m.eventType <;> decide)
    exact ⟨⟨eventId, correlationId⟩, by rw [Message.string] at hid hcorr; simp [event, hid, hcorr]⟩
  obtain ⟨event, hevent⟩ := hevent
  refine ⟨event, ?_⟩
  simp only [hevent, true_and]
  obtain ⟨orderId, horder⟩ := hfields .orderId (by cases m.eventType <;> decide)
  obtain ⟨c, hcorr⟩ := hfields .correlationId (by cases m.eventType <;> decide)
  subst hq
  cases hty : m.eventType with
  | orderReadyForDispatch =>
    simp [EventType.consumer, handle, handleDispatchEvent, hty, horder, hcorr]
  | dispatchStarted | dispatchCancelled =>
    simp [EventType.consumer, handle, handleOrderEvent, hty, horder]
  | dispatchAssigned =>
    obtain ⟨driverId, hdriver⟩ := hfields .driverId (by rw [hty]; decide)
    simp [EventType.consumer, handle, handleOrderEvent, hty, horder, hdriver]
  | dispatchFailed =>
    obtain ⟨reason, hreason⟩ := hfields .reason (by rw [hty]; decide)
    simp [EventType.consumer, handle, handleOrderEvent, hty, horder, hreason]
  | driverReservationRequested =>
    obtain ⟨dispatchId, hdispatch⟩ := hfields .dispatchId (by rw [hty]; decide)
    simp [EventType.consumer, handle, handleDriverEvent, reserveDriverInput, hty, horder, hcorr,
      hdispatch]
  | driverReleaseRequested =>
    obtain ⟨dispatchId, hdispatch⟩ := hfields .dispatchId (by rw [hty]; decide)
    obtain ⟨driverId, hdriver⟩ := hfields .driverId (by rw [hty]; decide)
    simp [EventType.consumer, handle, handleDriverEvent, reserveDriverInput, releaseDriverInput,
      hty, horder, hcorr, hdispatch, hdriver]
  | driverReserved | driverReleased =>
    obtain ⟨dispatchId, hdispatch⟩ := hfields .dispatchId (by rw [hty]; decide)
    obtain ⟨driverId, hdriver⟩ := hfields .driverId (by rw [hty]; decide)
    simp [EventType.consumer, handle, handleDispatchEvent, reservationResultInput, hty, horder,
      hcorr, hdispatch, hdriver]
  | driverReservationFailed =>
    obtain ⟨dispatchId, hdispatch⟩ := hfields .dispatchId (by rw [hty]; decide)
    obtain ⟨reason, hreason⟩ := hfields .reason (by rw [hty]; decide)
    simp [EventType.consumer, handle, handleDispatchEvent, reservationResultInput, hty, horder,
      hcorr, hdispatch, hreason]

/-- Every message in an outbox is in its consumer's queue with all that the consumer reads,
so that a delivery is never refused. -/
theorem conforms_of_run (hrun : (fleet settings).Run ts S) :
    (∀ q m, (q, m) ∈ S.world.posts → m.Conforms q) ∧
      ∀ i x, S.parcels i = some x → x.call = none → ∀ draw,
        ∃ S', (fleet settings).step S (.receive i draw) = some S' := by
  have h := (traced_of_run hrun).conforms
  refine ⟨h, fun i x hi hcall draw => ?_⟩
  have hpost := (Bus.orderly_of_run (sound_wiring settings) hrun).posted i x hi
  obtain ⟨event, op, hevent, hop⟩ := (h _ _ hpost).handled settings draw
  refine ⟨S.setParcel i (some
    { x with call := some (.process x.message.eventType event op) }), ?_⟩
  obtain ⟨q, m, n, call⟩ := x
  obtain rfl : call = none := hcall
  have hop' : (wiring settings).handle q m draw = some op := hop
  have hevent' : m.event = some event := hevent
  simp only [fleet, Wiring.system, Wiring.step, hi, hevent', hop']

/-- A task runs a request that was made in the run. -/
theorem requested_of_run (hrun : (fleet settings).Run ts S) {p : Request} (h : S.Requested p) :
    ∃ t ∈ ts, ∃ i, t.label = .request i p := by
  obtain ⟨i, t, hi, rfl⟩ := h
  obtain ⟨u, hu, hlabel⟩ := Bus.requested_of_run hrun hi
  exact ⟨u, hu, i, hlabel⟩

/-- A correlation id is made up nowhere: a message has the one that was given at the
creation of its order, or at a cancellation or the timeout of its dispatch. -/
theorem introduced_of_run (hrun : (fleet settings).Run ts S) {q : Queue} {m : Message}
    (hm : (q, m) ∈ S.world.posts) :
    m.string .correlationId = some m.correlationId ∧
      ∃ t ∈ ts, ∃ i p, t.label = .request i p ∧ p.Introduces m := by
  have h := traced_of_run hrun
  obtain ⟨p, hp, hintro⟩ := h.introduced q m hm
  obtain ⟨t, ht, i, hl⟩ := requested_of_run hrun hp
  exact ⟨(h.conforms q m hm).correlation, t, ht, i, p, hl, hintro⟩

end Runs

section Samples

/-- The dispatch is started, and its reservation request is on its way. -/
def requestedLabels : List FleetLabel := startedLabels ++ [.publish "requested-1" 1]

theorem conforms_requested : ∃ S S', (fleet sampleSettings).replay emptyFleet requestedLabels =
    some S ∧ (fleet sampleSettings).step S (.receive 1 (sampleDraw [])) = some S' := by
  obtain ⟨S, hS, x, hi, hcall⟩ : ∃ S, (fleet sampleSettings).replay emptyFleet requestedLabels =
    some S ∧ ∃ x, S.parcels 1 = some x ∧ x.call = none := ⟨_, rfl, _, rfl, rfl⟩
  have hrun := System.Run.of_replay init_emptyFleet hS
  obtain ⟨S', hS'⟩ := (conforms_of_run hrun).2 1 x hi hcall (sampleDraw [])
  exact ⟨S, S', hS, hS'⟩

/-- The order was created without a correlation id, and its own id stands in. -/
theorem introduced_requested : ∃ m : Message, m.id = "requested-1" ∧
    m.string .correlationId = some "order-1" ∧
    ∃ t ∈ (fleet sampleSettings).moves emptyFleet requestedLabels, ∃ i p,
      t.label = .request i p ∧ p.Introduces m := by
  obtain ⟨S, hS, hany⟩ : ∃ S, (fleet sampleSettings).replay emptyFleet requestedLabels = some S ∧
    (S.world.posts.any fun p => p.2.id = "requested-1" ∧ p.2.correlationId = "order-1") = true :=
    ⟨_, rfl, rfl⟩
  obtain ⟨⟨q, m⟩, hm, hid⟩ := List.any_eq_true.1 hany
  obtain ⟨hid, hcorr⟩ : m.id = "requested-1" ∧ m.correlationId = "order-1" := by simpa using hid
  obtain ⟨hstring, hintro⟩ := introduced_of_run (.of_replay init_emptyFleet hS) hm
  exact ⟨m, hid, hcorr ▸ hstring, hintro⟩

end Samples

end RouteFast
