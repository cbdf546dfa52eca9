import RouteFast.Order.Events

/-! What a malformed event can do. A delivery is contained when it changes no order but the
payload's and is acknowledged only after its operation, as a duplicate, or with a copy left
behind. Rows that a lookup without a criterion returns decide it. -/

namespace RouteFast

open Transition

variable {κ : Type*}

namespace Postgres

variable (pg : Postgres)

/-- The inbox holds the payload's own event, marked. -/
def Duplicate (payload : Option Payload) (inbox : Inbox) : Prop :=
  ∃ event eventId, payload = some event ∧
    pg.criterion (event.value .eventId) = .ok (some eventId) ∧ inbox.Processed eventId

/-- The payload's `orderId` is this one. -/
def Names (payload : Option Payload) (orderId : Uuid) : Prop :=
  ∃ event, payload = some event ∧ pg.criterion (event.value .orderId) = .ok (some orderId)

/-- No lookup without a criterion returns a row that the delivery must not meet. -/
def Spares (rows : AnyRows) (k : OrderHandler) (event : Payload) (s : Service OrderDb) : Prop :=
  (pg.criterion (event.value .eventId) = .ok none →
    ∀ row, rows.inbox.pick s.inbox = some row → row.status ≠ .processed) ∧
  (pg.criterion (event.value .orderId) = .ok none → pg.Reaches rows event s.inbox →
    ∀ row, rows.orders.pick s.db.orders = some row → ¬ k.Moves pg event row)

/-- The payload has an `eventId` unless no event is marked, and an `orderId` unless the operation
is not run or would move no order. -/
def Addressed (k : OrderHandler) (event : Payload) (s : Service OrderDb) : Prop :=
  (pg.criterion (event.value .eventId) = .ok none → ∀ eventId, ¬ s.inbox.Processed eventId) ∧
  (pg.criterion (event.value .orderId) = .ok none →
    (∃ criterion, pg.criterion (event.value .eventId) = .ok criterion ∧
      ∀ eventId, criterion = some eventId → ¬ s.inbox.Processed eventId) →
    ∀ orderId row, s.db.row orderId = some row → ¬ k.Moves pg event row)

end Postgres

/-- A delivery touches its own order only, and is acknowledged without having run its operation
only as a duplicate, or with a copy left behind. Without a copy it is the `try` that acknowledges,
with one the `catch`. -/
structure Handled.Contained (R : RmqReliability κ) (pg : Postgres) (message : RmqMessage κ)
    (payload : Option Payload) (s : Service OrderDb) (h : Handled κ) : Prop where
  run : h.operation = none → h.copy = none → pg.Duplicate payload s.inbox
  own : ∀ orderId, ¬ pg.Names payload orderId → h.service.db.row orderId = s.db.row orderId
  kept : h.operation ≠ some (.ok ()) → ¬ pg.Duplicate payload s.inbox →
    ∃ c, h.copy = some c ∧ c.message = R.copy message ∧ (c.place = .retry ∨ c.place = .dlq)

section Contained

variable {R : RmqReliability κ} {pg : Postgres} {rows : AnyRows} {now : Date} {k : OrderHandler}
  {message : RmqMessage κ} {payload : Option Payload} {event : Payload} {s : Service OrderDb}

/-- A copy goes to one of the two queues. -/
theorem RmqReliability.copy_left (R : RmqReliability κ) (message : RmqMessage κ) :
    ∃ c : Instance κ OrderDb ServiceError,
      (some ⟨R.copy message, R.copyPlace message⟩ : Option (Instance κ OrderDb ServiceError)) =
        some c ∧ c.message = R.copy message ∧ (c.place = .retry ∨ c.place = .dlq) := by
  refine ⟨_, rfl, rfl, ?_⟩
  simp only [RmqReliability.copyPlace]
  split
  · exact Or.inl rfl
  · exact Or.inr rfl

theorem RmqReliability.handle_error {s' : Service OrderDb} {ran : Option (Except ServiceError Unit)}
    {e : ServiceError} (hp : pg.process rows now k.eventType event
      (k.operation pg rows now event) s = ⟨s', ran, .error e⟩) :
    R.handle pg rows now k message (some event) s =
      ⟨s', ran, some ⟨R.copy message, R.copyPlace message⟩⟩ := by
  simp only [RmqReliability.handle, hp]

theorem RmqReliability.handle_ok {s' : Service OrderDb} {ran : Option (Except ServiceError Unit)}
    {r : ProcessResult} (hp : pg.process rows now k.eventType event
      (k.operation pg rows now event) s = ⟨s', ran, .ok r⟩) :
    R.handle pg rows now k message (some event) s = ⟨s', ran, none⟩ := by
  simp only [RmqReliability.handle, hp]

/-- Where the lookup of the event does not reach the operation, no order changes. -/
theorem contained_of_stopped (hstop : ¬ pg.Reaches rows event s.inbox) :
    (R.handle pg rows now k message (some event) s).Contained R pg message (some event) s ↔
      (pg.criterion (event.value .eventId) = .ok none →
        ∀ row, rows.inbox.pick s.inbox = some row → row.status ≠ .processed) := by
  rcases pg.process_cases rows now k.eventType event (k.operation pg rows now event) s with
    ⟨e, hcrit, hp⟩ | ⟨eventId, row, hcrit, hfind, hrow, hp⟩ | ⟨hreaches, -⟩
  · rw [RmqReliability.handle_error hp]
    refine ⟨fun _ hnone => ?_, fun _ => ⟨fun _ h => (by cases h), fun _ _ => rfl,
      fun _ _ => R.copy_left message⟩⟩
    rw [hcrit] at hnone
    cases hnone
  · rw [RmqReliability.handle_ok hp]
    constructor
    · intro h hnone
      obtain ⟨event', eventId', hevent, hsome, -⟩ := h.run rfl rfl
      obtain rfl := Option.some_inj.1 hevent
      rw [hnone] at hsome
      cases hsome
    · intro h
      have hdup : pg.Duplicate (some event) s.inbox := by
        cases eventId with
        | none => exact absurd hrow (h hcrit row hfind)
        | some eventId =>
          have hfind : s.inbox.findOne eventId = some row := hfind
          exact ⟨event, eventId, rfl, hcrit, by simp [Inbox.Processed, hfind, hrow]⟩
      exact ⟨fun _ _ => hdup, fun _ _ => rfl, fun _ h => absurd hdup h⟩
  · exact absurd hreaches hstop

/-- Where it does, the copy is never missing and only the operation's order is at stake. -/
theorem contained_of_reaches (hreaches : pg.Reaches rows event s.inbox) :
    (R.handle pg rows now k message (some event) s).Contained R pg message (some event) s ↔
      ∀ orderId, ¬ pg.Names (some event) orderId →
        ((k.operation pg rows now event).run s.db).2.row orderId = s.db.row orderId := by
  rcases pg.process_cases rows now k.eventType event (k.operation pg rows now event) s with
    ⟨e, hcrit, -⟩ | ⟨eventId, row, hcrit, hfind, hrow, -⟩ | ⟨-, inbox, eventId, hp⟩
  · obtain ⟨eventId, hcrit', -⟩ := hreaches
    rw [hcrit] at hcrit'
    cases hcrit'
  · obtain ⟨eventId', hcrit', hne⟩ := hreaches
    obtain rfl : eventId = eventId' := by simpa [hcrit] using hcrit'
    exact absurd hrow (hne row hfind)
  · obtain ⟨left, result, hattempt, hreturned⟩ := pg.attempt_eq now { s with inbox } eventId
      (k.operation pg rows now event)
    rw [hattempt] at hp
    cases result with
    | error e =>
      rw [RmqReliability.handle_error hp]
      refine ⟨fun h => h.own, fun h => ⟨fun hnone => ?_, h, fun _ _ => R.copy_left message⟩⟩
      cases hnone
    | ok r =>
      rw [RmqReliability.handle_ok hp]
      refine ⟨fun h => h.own, fun h => ⟨fun hnone => ?_, h, fun hfailed _ => ?_⟩⟩
      · cases hnone
      · exact absurd (congrArg some (hreturned r rfl)) hfailed

/-- The operation keeps to the payload's order exactly when that is named, or the lookup
without one finds none that moves. -/
theorem run_operation_own : (∀ orderId, ¬ pg.Names (some event) orderId →
      ((k.operation pg rows now event).run s.db).2.row orderId = s.db.row orderId) ↔
    (pg.criterion (event.value .orderId) = .ok none →
      ∀ row, rows.orders.pick s.db.orders = some row → ¬ k.Moves pg event row) := by
  constructor
  · intro h hnone row hpick
    have hnames : ¬ pg.Names (some event) row.id := by
      rintro ⟨event', hevent, hsome⟩
      obtain rfl := Option.some_inj.1 hevent
      rw [hnone] at hsome
      cases hsome
    exact ((OrderHandler.run_operation_row k now hnone hpick).2).1 (h row.id hnames)
  · intro h orderId hnames
    cases hcrit : pg.criterion (event.value .orderId) with
    | error e =>
      rw [OrderHandler.run_operation_none]
      intro order hfind
      simp [OrderHandler.findById, hcrit, Except.map] at hfind
    | ok criterion =>
      cases hfind : rows.orders.findOne s.db.orders criterion with
      | none =>
        rw [OrderHandler.run_operation_none]
        intro order horder
        simp [OrderHandler.findById, hcrit, hfind, Except.map] at horder
      | some row =>
        obtain ⟨hothers, hself⟩ :=
          OrderHandler.run_operation_row k now hcrit hfind
        by_cases hid : orderId = row.id
        · subst hid
          refine hself.2 ?_
          cases criterion with
          | none => exact h hcrit row hfind
          | some id =>
            obtain rfl : row.id = id := Table.key_of_find hfind
            exact absurd ⟨event, rfl, hcrit⟩ hnames
        · exact hothers orderId hid

/-- For the rows that the lookups return, a delivery is contained exactly when these spare it. -/
theorem contained_iff_spares :
    (R.handle pg rows now k message (some event) s).Contained R pg message (some event) s ↔
      pg.Spares rows k event s := by
  by_cases hreaches : pg.Reaches rows event s.inbox
  · rw [contained_of_reaches hreaches, run_operation_own]
    refine ⟨fun h => ⟨fun hnone row hpick => ?_, fun hnone _ => h hnone⟩,
      fun h hnone => h.2 hnone hreaches⟩
    obtain ⟨eventId, hcrit, hne⟩ := hreaches
    obtain rfl : none = eventId := by simpa [hnone] using hcrit
    exact hne row hpick
  · rw [contained_of_stopped hreaches]
    exact ⟨fun h => ⟨h, fun _ hr => absurd hr hreaches⟩, fun h => h.1⟩

/-- What is acknowledged without a run is a duplicate, or was rejected before and left a copy. -/
theorem Handled.Contained.duplicate_or_rejected
    (h : (R.handle pg rows now k message (some event) s).Contained R pg message (some event) s)
    (hnone : (R.handle pg rows now k message (some event) s).operation = none) :
    pg.Duplicate (some event) s.inbox ∨ ∃ e, pg.criterion (event.value .eventId) = .error e := by
  rcases pg.process_cases rows now k.eventType event (k.operation pg rows now event) s with
    ⟨e, hcrit, -⟩ | ⟨eventId, row, -, -, -, hp⟩ | ⟨-, inbox, eventId, hp⟩
  · exact Or.inr ⟨e, hcrit⟩
  · exact Or.inl (h.run hnone (by rw [RmqReliability.handle_ok hp]))
  · obtain ⟨left, result, hattempt, -⟩ := pg.attempt_eq now { s with inbox } eventId
      (k.operation pg rows now event)
    rw [hattempt] at hp
    cases result with
    | error e =>
      rw [RmqReliability.handle_error hp] at hnone
      cases hnone
    | ok r =>
      rw [RmqReliability.handle_ok hp] at hnone
      cases hnone

/-- Whatever row the lookups return, they spare the tables exactly when the payload is addressed. -/
theorem forall_spares_iff : (∀ rows, pg.Spares rows k event s) ↔ pg.Addressed k event s := by
  constructor
  · intro h
    have hunmarked : pg.criterion (event.value .eventId) = .ok none →
        ∀ eventId, ¬ s.inbox.Processed eventId := by
      intro hnone eventId hmarked
      obtain ⟨row, hfind, hrow⟩ := Option.map_eq_some_iff.1 hmarked
      obtain rfl : row.eventId = eventId := Table.key_of_find hfind
      exact (h ⟨.prefer s.inbox row hfind, .first _⟩).1 hnone row
        (Table.AnyRow.pick_prefer _ _ hfind) hrow
    refine ⟨hunmarked, fun hnone hruns orderId row hstored => ?_⟩
    obtain ⟨criterion, hcrit, hne⟩ := hruns
    obtain rfl : row.id = orderId := Table.key_of_find hstored
    refine (h ⟨.first _, .prefer s.db.orders row hstored⟩).2 hnone ?_ row
      (Table.AnyRow.pick_prefer _ _ hstored)
    refine ⟨criterion, hcrit, fun marked hfind hmarked => ?_⟩
    have hfound : s.inbox.findOne marked.eventId = some marked :=
      Table.AnyRow.found_of_findOne hfind
    have hprocessed : s.inbox.Processed marked.eventId := by
      simp [Inbox.Processed, hfound, hmarked]
    cases criterion with
    | none => exact hunmarked hcrit _ hprocessed
    | some eventId =>
      obtain rfl : marked.eventId = eventId := Table.key_of_find hfind
      exact hne _ rfl hprocessed
  · rintro ⟨hunmarked, hstays⟩ rows
    refine ⟨fun hnone row hpick hrow => ?_, fun hnone hreaches row hpick => ?_⟩
    · have hfound : s.inbox.findOne row.eventId = some row := rows.inbox.found hpick
      exact hunmarked hnone row.eventId (by simp [Inbox.Processed, hfound, hrow])
    · obtain ⟨criterion, hcrit, hne⟩ := hreaches
      refine hstays hnone ⟨criterion, hcrit, fun eventId heq hmarked => ?_⟩ row.id row
        (rows.orders.found hpick)
      obtain ⟨marked, hfind, hrow⟩ := Option.map_eq_some_iff.1 hmarked
      subst heq
      exact hne marked hfind hrow

/-- Whatever row a lookup without a criterion returns, a delivery is contained: exactly when the
payload is null, or addressed. -/
theorem handle_contained_iff (R : RmqReliability κ) (pg : Postgres) (now : Date)
    (k : OrderHandler) (message : RmqMessage κ) (payload : Option Payload)
    (s : Service OrderDb) :
    (∀ rows, (R.handle pg rows now k message payload s).Contained R pg message payload s) ↔
      ∀ event, payload = some event → pg.Addressed k event s := by
  cases payload with
  | none =>
    constructor
    · intro _ event hevent
      cases hevent
    · intro _ rows
      refine ⟨fun _ hnone => ?_, fun _ _ => rfl, fun _ _ => R.copy_left message⟩
      cases hnone
  | some event =>
    simp only [contained_iff_spares, forall_spares_iff]
    constructor
    · rintro h event' hevent
      obtain rfl := Option.some_inj.1 hevent
      exact h
    · intro h
      exact h event rfl

end Contained

namespace Postgres

/-- Every text is a `uuid` and short enough; a missing id matches no row. -/
def sample : Postgres where
  uuid := some
  varchar _ v := match v with
    | .string s => some s
    | _ => none
  updateMissing := .ok
  deleteMissing := .ok

end Postgres

namespace Handled

/-- A dispatch.started event for order-1 without one of its fields. -/
def started (missing : Field) : Payload :=
  List.filter (fun p => p.1 ≠ missing)
    [(.eventId, .string "event-1"), (.orderId, .string "order-1"),
      (.dispatchId, .string "dispatch-1"), (.correlationId, .string "correlation-1")]

/-- Another event is marked, and order-2 is the first order of the table. -/
def tables : Service OrderDb where
  inbox := [⟨"event-0", .dispatchStarted, "correlation-0", .processed, some 1⟩]
  db := ⟨["order-2", "order-1"].map fun id =>
    (OrderMapper.toPersistence (Order.sample id)).over none, []⟩

/-- The first is acknowledged as a duplicate of event-0, the second dispatches order-2. -/
theorem not_contained :
    let R : RmqReliability Unit := ⟨3, true, fun _ => (.dispatchStarted, ⟨"event-1", ""⟩)⟩
    let message := RmqMessage.fresh () none none []
    let handled (missing : Field) := R.handle Postgres.sample ⟨.first _, .first _⟩ 2 .started
      message (some (started missing)) tables
    ¬ (handled .eventId).Contained R Postgres.sample message (some (started .eventId)) tables ∧
    ¬ (handled .orderId).Contained R Postgres.sample message (some (started .orderId)) tables := by
  refine ⟨fun h => ?_, fun h => ?_⟩
  · obtain ⟨event, eventId, hevent, hcrit, -⟩ := h.run rfl rfl
    obtain rfl := Option.some_inj.1 hevent
    cases hcrit
  · have hown := h.own "order-2" fun ⟨event, hevent, hcrit⟩ => by
      obtain rfl := Option.some_inj.1 hevent
      cases hcrit
    exact absurd (congrArg (Option.map OrderRow.status) hown) (by decide)

end Handled

end RouteFast
