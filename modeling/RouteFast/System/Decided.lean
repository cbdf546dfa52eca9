import RouteFast.System.Assignment
import RouteFast.System.DeadLetters

/-! No order is left hanging in silence. Between the creation of an order and the end of its
search for a driver there is always a message under way; where none is left, the dispatch has
been decided, or one of these messages is dead-lettered. -/

namespace RouteFast

open Transition Pool ReadCommitted

/-- The request that an event of the Driver service answers. -/
def EventType.request : EventType → Option EventType
  | .driverReserved | .driverReservationFailed => some .driverReservationRequested
  | .driverReleased => some .driverReleaseRequested
  | _ => none

namespace Databases

/-- An answer to the request is in an outbox. -/
def Answered (w : Databases) (m : Message) : Prop :=
  ∃ m' d, (Queue.dispatchEvents, m') ∈ w.posts ∧ m'.eventType.request = some m.eventType ∧
    m.About d ∧ m'.About d

/-- What the handling of a message brings about, and what stays so. -/
def Handled (w : Databases) (m : Message) : Prop :=
  match m.eventType with
  | .orderReadyForDispatch =>
    ∃ d, w.dispatch.row d.id = some d ∧ m.string .orderId = some d.orderId
  | .driverReservationRequested | .driverReleaseRequested => w.Answered m
  | .driverReserved | .driverReservationFailed =>
    ∃ d, w.dispatch.row d.id = some d ∧ m.About d ∧ d.status ≠ .searchingDriver
  | .driverReleased =>
    ∃ d, w.dispatch.row d.id = some d ∧ m.About d ∧ (d.status = .failed ∨ d.status = .cancelled)
  | .dispatchStarted | .dispatchAssigned | .dispatchFailed | .dispatchCancelled => True

/-- The order's event for the Dispatch service is in an outbox. -/
def Announced (w : Databases) (orderId : Uuid) : Prop :=
  ∃ m, (Queue.dispatchEvents, m) ∈ w.posts ∧ m.eventType = .orderReadyForDispatch ∧
    m.string .orderId = some orderId

/-- What the events to the Dispatch service are identified by: an order's by its own id, an
answer by that of the request. -/
structure Echoed (w : Databases) : Prop where
  ready : ∀ q m, (q, m) ∈ w.posts → m.eventType = .orderReadyForDispatch →
    m.string .eventId = some m.id
  answer : ∀ q m ty, (q, m) ∈ w.posts → m.eventType.request = some ty →
    ∃ m' d, (Queue.driverEvents, m') ∈ w.posts ∧ m'.eventType = ty ∧ m'.About d ∧ m.About d ∧
      m.string .eventId = m'.string .eventId

/-- Every dispatch has asked for a driver. -/
def Asking (w : Databases) : Prop :=
  ∀ d, w.dispatch.row d.id = some d → ∃ m, (Queue.driverEvents, m) ∈ w.posts ∧
    m.eventType = .driverReservationRequested ∧ m.About d

end Databases

section Steps

variable {settings : Settings} {R : Request → Prop} {P : Queue → Message → Prop}
  {w w' : Databases} {d : Dispatch} {m : Message}

/-- A dispatch stays as it is, or makes one move. -/
theorem Advance.row_moves (hadv : Advance settings R P w w')
    (hd : w.dispatch.row d.id = some d) :
    ∃ d', w'.dispatch.row d'.id = some d' ∧ d'.id = d.id ∧ d'.orderId = d.orderId ∧
      (d' = d ∨ ∃ e, DispatchMove d d' e) := by
  cases hadv with
  | idle | saved | created | createdDriver | reserved | released =>
    exact ⟨d, hd, rfl, rfl, Or.inl rfl⟩
  | started m e plan decisionId startedId requestedId now =>
    refine ⟨d, ?_, rfl, rfl, Or.inl rfl⟩
    refine (Table.find_append_singleton (c := Dispatch.id)).trans ?_
    rw [← DispatchDb.row, hd, Option.some_or]
  | operated op e o _ he ho =>
    have hid : e.id = op.dispatchId := Table.key_of_find he
    cases DispatchOp.step_of_outcome ho with
    | late | idle => exact ⟨d, hd, rfl, rfl, Or.inl rfl⟩
    | @move e' r hm =>
      by_cases hde : d.id = e.id
      · obtain rfl : d = e := Option.some.inj (hd.symm.trans (hde ▸ hid ▸ he))
        refine ⟨e', Table.find_save_self (c := Dispatch.id), ?_, ?_, Or.inr ⟨r, hm⟩⟩
        · cases hm <;> rfl
        · cases hm <;> rfl
      · refine ⟨d, (Table.find_save_ne (c := Dispatch.id) ?_).trans hd, rfl, rfl, Or.inl rfl⟩
        cases hm <;> exact fun h => hde h.symm

/-- A search that is over stays over, and so does a dispatch that has ended. -/
theorem DispatchMove.status {d' : Dispatch} {e : OutboxRow} (hm : DispatchMove d d' e) :
    d'.status ≠ .searchingDriver ∧ d.status ≠ .failed ∧ d.status ≠ .cancelled := by
  cases hm with
  | assign _ _ _ _ hs | fail _ _ _ _ hs | compensate _ _ _ _ _ hs | cancel _ _ _ hs => simp [hs]

theorem Advance.handled (hadv : Advance settings R P w w') (h : w.Handled m) : w'.Handled m := by
  have hposts := Databases.posts_mono hadv.appended
  have habout {d d' : Dispatch} (hid : d'.id = d.id) (horder : d'.orderId = d.orderId)
      (hm : m.About d) : m.About d' := ⟨hid ▸ hm.1, horder ▸ hm.2⟩
  unfold Databases.Handled at h ⊢
  cases hty : m.eventType <;> simp only [hty] at h ⊢
  case orderReadyForDispatch =>
    obtain ⟨d, hd, ho⟩ := h
    obtain ⟨d', hd', -, horder, -⟩ := hadv.row_moves hd
    exact ⟨d', hd', by rw [horder, ho]⟩
  case driverReservationRequested | driverReleaseRequested =>
    obtain ⟨m', d, hm', hrest⟩ := h
    exact ⟨m', d, hposts _ hm', hrest⟩
  case driverReserved | driverReservationFailed =>
    obtain ⟨d, hd, hmd, hs⟩ := h
    obtain ⟨d', hd', hid, horder, hsame | ⟨e, hmove⟩⟩ := hadv.row_moves hd
    · exact ⟨d', hd', habout hid horder hmd, hsame ▸ hs⟩
    · exact ⟨d', hd', habout hid horder hmd, hmove.status.1⟩
  case driverReleased =>
    obtain ⟨d, hd, hmd, hs⟩ := h
    obtain ⟨d', hd', hid, horder, hsame | ⟨e, hmove⟩⟩ := hadv.row_moves hd
    · exact ⟨d', hd', habout hid horder hmd, hsame ▸ hs⟩
    · exact (hs.elim hmove.status.2.1 hmove.status.2.2).elim

/-- The relay's mark changes no message and no dispatch. -/
theorem handled_markPublished (id : Uuid) (now : Date) (h : w.Handled m) :
    (w.markPublished id now).Handled m := by
  have hposts : (w.markPublished id now).posts = w.posts :=
    posts_markPublished sampleSettings id now w
  unfold Databases.Handled Databases.Answered at h ⊢
  rw [hposts]
  exact h

/-- Where a dispatch comes from: it was there, or it has just been started. -/
theorem Advance.asking (hadv : Advance settings R P w w') (h : w.Asking) : w'.Asking := by
  have hposts := Databases.posts_mono hadv.appended
  have hold {d d' : Dispatch} (hd : w.dispatch.row d.id = some d) (hid : d'.id = d.id)
      (horder : d'.orderId = d.orderId) : ∃ m, (Queue.driverEvents, m) ∈ w'.posts ∧
        m.eventType = .driverReservationRequested ∧ m.About d' := by
    obtain ⟨m, hm, hty, hmd⟩ := h d hd
    exact ⟨m, hposts _ hm, hty, hid ▸ hmd.1, horder ▸ hmd.2⟩
  intro d' hd'
  cases hadv with
  | idle | saved | created | createdDriver | reserved | released => exact hold hd' rfl rfl
  | started m e plan decisionId startedId requestedId now =>
    have hfind := (Table.find_append_singleton (c := Dispatch.id)).symm.trans hd'
    cases hd : w.dispatch.row d'.id with
    | some d =>
      rw [← DispatchDb.row, hd, Option.some_or] at hfind
      obtain rfl := Option.some.inj hfind
      exact hold hd rfl rfl
    | none =>
      rw [← DispatchDb.row, hd, Option.none_or] at hfind
      split at hfind
      · obtain rfl := Option.some.inj hfind
        have hreq := requests_reservationRequested e plan requestedId now
        refine ⟨_, ?_, hreq.type, hreq.about⟩
        refine List.mem_map.2 ⟨DispatchEvent.reservationRequested e plan requestedId now, ?_, rfl⟩
        simp [Databases.outbox]
      · cases hfind
  | operated op e o _ he ho =>
    have hid : e.id = op.dispatchId := Table.key_of_find he
    have hrow : w.dispatch.row e.id = some e := hid ▸ he
    cases DispatchOp.step_of_outcome ho with
    | late | idle => exact hold hd' rfl rfl
    | @move e' r hm =>
      by_cases hde : d'.id = e'.id
      · have hself : some e' = some d' :=
          (Table.find_save_self (c := Dispatch.id)).symm.trans (hde ▸ hd')
        obtain rfl := Option.some.inj hself
        exact hold hrow (by cases hm <;> rfl) (by cases hm <;> rfl)
      · refine hold ((Table.find_save_ne (c := Dispatch.id) ?_).symm.trans hd') rfl rfl
        exact fun h => hde h.symm

/-- An answer is about the dispatch of the request, and identified by it. -/
theorem answer_of_request {w : Databases} {m : Message} {d : Dispatch} {event : Payload}
    (hevent : event = m.payload) (hm : (Queue.driverEvents, m) ∈ w.posts) (hmd : m.About d)
    (hown : m.string .eventId = some m.id) {k : Field} (hk : k = .driverId ∨ k = .reason)
    {eventId : Uuid} {answer ty : EventType} {s c : String} {now : Date}
    (hrequest : answer.request = some m.eventType) (hty : answer.request = some ty) :
    let r := driverEvent eventId answer (Js.Obj.spread event [(k, .string s)]) c now
    ∃ m' d, (Queue.driverEvents, m') ∈ w.posts ∧ m'.eventType = ty ∧ m'.About d ∧
      r.message.About d ∧ r.message.string .eventId = m'.string .eventId := by
  have hne : k ≠ .eventId ∧ k ≠ .dispatchId ∧ k ≠ .orderId := by
    rcases hk with rfl | rfl <;> decide
  refine ⟨m, d, hm, Option.some.inj (hrequest.symm.trans hty), hmd,
    about_reply hevent hmd hne.2 answer s c, ?_⟩
  rw [hown]
  refine OutboxRow.string_message (string_driverEvent _ _ _ _ _ ?_)
  rw [Payload.string_spread_ne _ _ hne.1, hevent]
  exact hown

/-- A transaction of the workflow answers no request. -/
theorem request_of_outcome {op : DispatchOp} {o : DispatchOutcome} {r : OutboxRow}
    (ho : op.outcome d = .ok o) (hr : o.event = some r) : r.eventType.request = none := by
  cases DispatchOp.step_of_outcome ho with
  | move hm =>
    obtain rfl := Option.some.inj hr
    cases hm <;> rfl
  | late =>
    obtain rfl := Option.some.inj hr
    rfl
  | idle => cases hr

theorem Databases.Echoed.grow (h : w.Echoed) (hposts : ∀ p ∈ w.posts, p ∈ w'.posts)
    (hown : ∀ m, (Queue.driverEvents, m) ∈ w.posts → m.string .eventId = some m.id)
    (habout : ∀ m, (Queue.driverEvents, m) ∈ w.posts → ∃ d : Dispatch, m.About d)
    (hgrows : Grows R (fun q m => (q, m) ∈ w.posts) w w') : w'.Echoed := by
  refine ⟨fun q m hm hty => ?_, fun q m ty hm hty => ?_⟩
  · rcases hgrows q m hm with hold | ⟨r, hr, rfl, rfl⟩
    · exact h.ready q m hold hty
    · cases hr with
      | ready => rfl
      | operated op d o r hop hd ho hr => exact absurd hty (conforms_of_outcome ho hr).2.1
      | started | requested | reserved | reservationFailed | released => cases hty
  · rcases hgrows q m hm with hold | ⟨r, hr, rfl, rfl⟩
    · obtain ⟨m', d, hm', hrest⟩ := h.answer q m ty hold hty
      exact ⟨m', d, hposts _ hm', hrest⟩
    · have hty' : r.eventType.request = some ty := hty
      cases hr with
      | ready | started | requested => cases hty
      | operated op d o r hop hd ho hr =>
        rw [request_of_outcome ho hr] at hty'
        cases hty'
      | reserved m' input driverId eventId now hm' hreq hinput =>
        obtain ⟨d, hmd⟩ := habout m' hm'
        exact answer_of_request (event_of_reserveDriverInput hinput) (hposts _ hm') hmd
          (hown m' hm') (Or.inl rfl) (by rw [hreq]; rfl) hty'
      | reservationFailed m' input reason eventId now hm' hreq hinput =>
        obtain ⟨d, hmd⟩ := habout m' hm'
        exact answer_of_request (event_of_reserveDriverInput hinput) (hposts _ hm') hmd
          (hown m' hm') (Or.inr rfl) (by rw [hreq]; rfl) hty'
      | released m' input driverId eventId now hm' hreq hinput =>
        obtain ⟨d, hmd⟩ := habout m' hm'
        exact answer_of_request (event_of_releaseDriverInput hinput) (hposts _ hm') hmd
          (hown m' hm') (Or.inl rfl) (by rw [hreq]; rfl) hty'

end Steps

section Handlers

variable {settings : Settings} {w : Databases} {d : Dispatch} {m : Message} {q : Queue}
  {draw : Draw} {op : Proc Databases ServiceError Unit}

/-- What the handlers are run on. -/
structure Databases.Ready (w : Databases) : Prop where
  coherent : Coherent w
  echoed : w.Echoed
  about : ∀ q m, (q, m) ∈ w.posts → m.eventType ≠ .orderReadyForDispatch →
    ∃ d, w.dispatch.row d.id = some d ∧ m.About d

/-- A committed start finds the order's dispatch, or inserts it. -/
theorem row_of_start {plan : Option DispatchStartPlan} {decisionId startedId requestedId : Uuid}
    {now : Date} {locked : ℕ → DispatchLock → Bool} {db db' : DispatchDb} {u : Unit}
    (hrun : (DispatchWorkflow.start d plan decisionId startedId requestedId now).run locked db =
      .ok (u, db')) :
    (db' = db ∧ ∃ e, db.findByOrderId d.orderId = some e) ∨ db'.row d.id = some d := by
  cases horder : db.findByOrderId d.orderId with
  | some e =>
    simp only [DispatchWorkflow.start, Tx.run, horder] at hrun
    exact Or.inl ⟨(Prod.mk.inj (Except.ok.inj hrun)).2.symm, e, rfl⟩
  | none =>
    simp only [DispatchWorkflow.start, DispatchWorkflow.enqueue, Tx.run, horder] at hrun
    split at hrun
    · cases hrun
    · obtain rfl := (Prod.mk.inj (Except.ok.inj hrun)).2
      exact Or.inr (Table.find_save_self (c := Dispatch.id))

theorem owes_startDispatch {orderId c priority : String} {pickup : Option (ℚ × ℚ)}
    (hty : m.eventType = .orderReadyForDispatch) (horder : m.string .orderId = some orderId) :
    Owes (fun w => w.Ready ∧ (q, m) ∈ w.posts) (·.Handled m)
      (onDispatch (startDispatch settings orderId c priority pickup draw)) := by
  have found {w : Databases} (hids : (w.dispatch.dispatches.map Dispatch.id).Nodup) {e : Dispatch}
      (he : w.dispatch.findByOrderId orderId = some e) : w.Handled m := by
    simp only [Databases.Handled, hty]
    refine ⟨e, Table.find_of_mem hids (Table.mem_of_find he), ?_⟩
    rw [horder, Table.key_of_find he]
  have start (plan : Option DispatchStartPlan) :
      Owes (fun w => w.Ready ∧ (q, m) ∈ w.posts) (·.Handled m) (onDispatch
        (startAndSchedule (.start (draw.uuid 0) orderId c draw.now) plan draw)) := by
    refine owes_andThen _ (owes_atomically fun w hw u db hrun => ?_)
    rcases row_of_start hrun with ⟨rfl, e, he⟩ | hrow
    · exact found hw.1.coherent.ids he
    · simp only [Databases.Handled, hty]
      exact ⟨_, hrow, horder⟩
  refine owes_read (fun w => rfl) fun w hw => ?_
  cases he : w.dispatch.findByOrderId orderId with
  | some e => exact Or.inl (found hw.1.coherent.ids he)
  | none =>
    refine Or.inr ?_
    cases pickup with
    | none => exact start none
    | some p =>
      cases hr : draw.ranked with
      | error e => simp only [Proc.within, Owes]
      | ok ranked => exact start _

/-- A transaction of the workflow on the dispatch its message is about. -/
theorem owes_operation (x : DispatchOp) (hne : m.eventType ≠ .orderReadyForDispatch)
    (hid : m.string .dispatchId = some x.dispatchId)
    (h : ∀ (w : Databases) (d : Dispatch) (o : DispatchOutcome), w.Ready → (q, m) ∈ w.posts →
      w.dispatch.row d.id = some d → m.About d → x.outcome d = .ok o →
      Databases.Handled { w with dispatch := w.dispatch.after o } m) :
    Owes (fun w => w.Ready ∧ (q, m) ∈ w.posts) (·.Handled m)
      (onDispatch (dispatchTransaction x.body)) := by
  refine owes_atomically fun w hw u db hrun => ?_
  obtain ⟨d, hd, hmd⟩ := hw.1.about q m hw.2 hne
  obtain hsame : d.id = x.dispatchId := Option.some.inj (hmd.1.symm.trans hid)
  rw [x.run_body, ← hsame, hd] at hrun
  cases ho : x.outcome d with
  | error e => simp [ho, Except.map] at hrun
  | ok o =>
    obtain rfl : w.dispatch.after o = db := by simpa [ho, Except.map] using hrun
    exact h w d o hw.1 hw.2 hd hmd ho

theorem owes_completeReservation {input : ReservationResultInput} {eventId : Uuid} {now : Date}
    (hty : m.eventType = .driverReserved ∨ m.eventType = .driverReservationFailed)
    (hinput : m.reservationResultInput = some input) :
    Owes (fun w => w.Ready ∧ (q, m) ∈ w.posts) (·.Handled m) (onDispatch (dispatchTransaction
      (DispatchWorkflow.completeReservation input eventId now))) := by
  have hne : m.eventType ≠ .orderReadyForDispatch := by rcases hty with hty | hty <;> simp [hty]
  refine owes_operation (.completeReservation input eventId now) hne
    (Message.of_reservationResultInput hinput).1 fun w d o _ _ hd hmd ho => ?_
  have past {d' : Dispatch} (hd' : (w.dispatch.after o).row d'.id = some d') (hmd' : m.About d')
      (hs : d'.status ≠ .searchingDriver) :
      Databases.Handled { w with dispatch := w.dispatch.after o } m := by
    rcases hty with hty | hty <;> simp only [Databases.Handled, hty] <;>
      exact ⟨d', hd', hmd', hs⟩
  have hself {d' : Dispatch} {e : OutboxRow} :
      (w.dispatch.after ⟨some d', some e⟩).row d'.id = some d' :=
    Table.find_save_self (c := Dispatch.id)
  cases hs : d.status with
  | searchingDriver =>
    cases hdriver : input.driver with
    | some driverId =>
      simp only [DispatchOp.outcome, hs, hdriver, Except.ok.injEq] at ho
      subst ho
      rw [Dispatch.assign_eq hs] at past ⊢
      exact past hself hmd (by simp)
    | none =>
      simp only [DispatchOp.outcome, hs, hdriver, Except.ok.injEq] at ho
      subst ho
      rw [Dispatch.fail_eq hs] at past ⊢
      exact past hself hmd (by simp)
  | assigned | failed | compensating | cancelled =>
    have hsame : (w.dispatch.after o).dispatches = w.dispatch.dispatches := by
      cases hdriver : input.driver <;>
        simp only [DispatchOp.outcome, hs, hdriver, Except.ok.injEq] at ho <;> subst ho <;> rfl
    have hrow : (w.dispatch.after o).row d.id = some d := by
      rw [DispatchDb.row, hsame]
      exact hd
    exact past hrow hmd (by simp [hs])

/-- A release is reported of a dispatch that was ended, or is being ended. -/
theorem Databases.Ready.ended (h : w.Ready) (hm : (q, m) ∈ w.posts)
    (hty : m.eventType = .driverReleased) (hd : w.dispatch.row d.id = some d) (hmd : m.About d) :
    d.Ended := by
  obtain ⟨m', e, hm', hty', hme', hme, -⟩ := h.echoed.answer q m .driverReleaseRequested hm
    (by rw [hty]; rfl)
  obtain ⟨d', -, hd', hmd', hend, -⟩ := h.coherent.release _ m' hm' hty'
  have hid : d'.id = d.id := by
    have heq : e.id = d'.id := Option.some.inj (hme'.1.symm.trans hmd'.1)
    exact heq.symm.trans (Option.some.inj (hme.1.symm.trans hmd.1))
  obtain rfl : d' = d := Option.some.inj (hd'.symm.trans (hid ▸ hd))
  exact hend

theorem owes_completeCompensation {dispatchId c : String} {eventId : Uuid} {now : Date}
    (hty : m.eventType = .driverReleased) (hid : m.string .dispatchId = some dispatchId) :
    Owes (fun w => w.Ready ∧ (q, m) ∈ w.posts) (·.Handled m) (onDispatch (dispatchTransaction
      (DispatchWorkflow.completeCompensation dispatchId c eventId now))) := by
  refine owes_operation (.completeCompensation dispatchId c eventId now) (by simp [hty]) hid
    fun w d o hw hm hd hmd ho => ?_
  have hend : d.Ended := hw.ended hm hty hd hmd
  simp only [Databases.Handled, hty]
  cases hs : d.status with
  | compensating =>
    simp only [DispatchOp.outcome, hs, Except.ok.injEq] at ho
    subst ho
    rw [Dispatch.completeCompensation_eq hs]
    exact ⟨_, Table.find_save_self (c := Dispatch.id), hmd, Or.inr rfl⟩
  | failed | cancelled =>
    simp only [DispatchOp.outcome, hs, Except.ok.injEq] at ho
    subst ho
    exact ⟨d, hd, hmd, by simp [hs]⟩
  | searchingDriver | assigned => simp [Dispatch.Ended, hs] at hend

/-- An answer enqueued by a transaction of the Driver service. -/
theorem Databases.Ready.answered (h : w.Ready) (hm : (q, m) ∈ w.posts)
    (hty : m.eventType = .driverReservationRequested ∨ m.eventType = .driverReleaseRequested)
    {event : Payload} (hevent : event = m.payload) {k : Field} (hk : k = .driverId ∨ k = .reason)
    {eventId : Uuid} {answer : EventType} {s c : String} {now : Date} {db : DriverDb}
    (hanswer : answer.request = some m.eventType)
    (hrow : driverEvent eventId answer (Js.Obj.spread event [(k, .string s)]) c now ∈ db.outbox) :
    Databases.Handled { w with driver := db } m := by
  obtain ⟨d, -, hmd⟩ := h.about q m hm (by rcases hty with hty | hty <;> simp [hty])
  have hne : k ≠ .dispatchId ∧ k ≠ .orderId := by rcases hk with rfl | rfl <;> decide
  have hanswered : Databases.Answered { w with driver := db } m :=
    ⟨_, d, List.mem_map.2 ⟨_, List.mem_append_right _ hrow, rfl⟩, hanswer, hmd,
      about_reply hevent hmd hne answer s c⟩
  rcases hty with hty | hty <;> simpa only [Databases.Handled, hty] using hanswered

theorem owes_reserve {input : ReserveDriverInput} {reservationId eventId : Uuid} {now : Date}
    {locked : ℕ → DriverLock → Bool} (hty : m.eventType = .driverReservationRequested)
    (hinput : m.reserveDriverInput = some input) :
    Owes (fun w => w.Ready ∧ (q, m) ∈ w.posts) (·.Handled m) (onDriver (driverTransaction locked
      (DriverReservations.reserve settings.hashtext input reservationId eventId now))) := by
  refine owes_atomically fun w hw u db hrun => ?_
  have hevent := event_of_reserveDriverInput hinput
  have hlast (rows : List OutboxRow) (r : OutboxRow) : r ∈ rows ++ [r] :=
    List.mem_append_right _ (List.mem_singleton.2 rfl)
  cases reserved_of_run hw.1.coherent.linked hrun with
  | again | granted =>
    exact hw.1.answered hw.2 (Or.inl hty) hevent (Or.inl rfl) (by rw [hty]; rfl) (hlast _ _)
  | failed =>
    exact hw.1.answered hw.2 (Or.inl hty) hevent (Or.inr rfl) (by rw [hty]; rfl) (hlast _ _)

theorem owes_release {input : ReleaseDriverInput} {eventId : Uuid} {now : Date}
    {locked : ℕ → DriverLock → Bool} (hty : m.eventType = .driverReleaseRequested)
    (hinput : m.releaseDriverInput = some input) :
    Owes (fun w => w.Ready ∧ (q, m) ∈ w.posts) (·.Handled m) (onDriver (driverTransaction locked
      (DriverReservations.release settings.hashtext input eventId now))) := by
  refine owes_atomically fun w hw u db hrun => ?_
  have hevent := event_of_releaseDriverInput hinput
  have hlast (rows : List OutboxRow) (r : OutboxRow) : r ∈ rows ++ [r] :=
    List.mem_append_right _ (List.mem_singleton.2 rfl)
  cases released_of_commit hw.1.coherent.linked hrun with
  | unknown | again | freed =>
    exact hw.1.answered hw.2 (Or.inr hty) hevent (Or.inl rfl) (by rw [hty]; rfl) (hlast _ _)

/-- A message that is not for the Order service. -/
def Upstream (q : Queue) (_ : Message) : Prop := q ≠ .orderEvents

/-- No handler of these services returns before it has done what it is there for. -/
theorem honest_wiring (settings : Settings) :
    Bus.Honest (wiring settings) Databases.Ready Upstream Databases.Handled := by
  intro q m draw op hq hop
  have hop' : handle settings q m draw = some op := hop
  cases q with
  | orderEvents => exact absurd rfl hq
  | dispatchEvents =>
    simp only [handle, handleDispatchEvent] at hop'
    split at hop'
    · next hty =>
      obtain ⟨orderId, horder, hop'⟩ := Option.bind_eq_some_iff.1 hop'
      obtain ⟨c, -, hop'⟩ := Option.bind_eq_some_iff.1 hop'
      obtain rfl := Option.some.inj hop'
      exact owes_startDispatch hty horder
    · next hty =>
      obtain ⟨input, hinput, hop'⟩ := Option.bind_eq_some_iff.1 hop'
      obtain rfl := Option.some.inj hop'
      exact owes_completeReservation (Or.inl hty) hinput
    · next hty =>
      obtain ⟨input, hinput, hop'⟩ := Option.bind_eq_some_iff.1 hop'
      obtain rfl := Option.some.inj hop'
      exact owes_completeReservation (Or.inr hty) hinput
    · next hty =>
      obtain ⟨dispatchId, hid, hop'⟩ := Option.bind_eq_some_iff.1 hop'
      obtain ⟨c, -, hop'⟩ := Option.bind_eq_some_iff.1 hop'
      obtain rfl := Option.some.inj hop'
      exact owes_completeCompensation hty hid
    · cases hop'
  | driverEvents =>
    simp only [handle, handleDriverEvent] at hop'
    split at hop'
    · next hty =>
      obtain ⟨input, hinput, hop'⟩ := Option.bind_eq_some_iff.1 hop'
      obtain rfl := Option.some.inj hop'
      exact owes_reserve hty hinput
    · next hty =>
      obtain ⟨input, hinput, hop'⟩ := Option.bind_eq_some_iff.1 hop'
      obtain rfl := Option.some.inj hop'
      exact owes_release hty hinput
    · cases hop'

end Handlers

section Orders

variable {settings : Settings} {w : Databases} {seen : Option Databases}
  {effect : Databases → Databases} {next : Databases → Proc Databases ServiceError Unit}

/-- A committed creation inserts the order and its event, or nothing. -/
theorem persisted_of_run {hashtext : String → ℤ} {order : Order} {c : String}
    {key : Option String} {eventId : Uuid} {now : Date} {locked : ℕ → OrderLock → Bool}
    {db db' : OrderDb} {result : Option Order}
    (hrun : (persistReadyForDispatch hashtext order c key eventId now).run locked db =
      .ok (result, db')) :
    db' = db ∨ ∃ entity : OrderOrmEntity, entity.id = order.id ∧ db' = { db.saveEntity entity with
      outbox := db.outbox ++ [.pending eventId .orderReadyForDispatch .dispatchEvents
        (readyForDispatchPayload eventId order c) c now] } := by
  have insert {locked : ℕ → OrderLock → Bool}
      (hrun : (insertReadyForDispatch order c key eventId now).run locked db =
        .ok (result, db')) : ∃ entity : OrderOrmEntity, entity.id = order.id ∧
      db' = { db.saveEntity entity with outbox := db.outbox ++ [.pending eventId
        .orderReadyForDispatch .dispatchEvents (readyForDispatchPayload eventId order c) c now] } := by
    simp only [insertReadyForDispatch, Tx.run] at hrun
    split at hrun
    · cases hrun
    · obtain rfl := (Prod.mk.inj (Except.ok.inj hrun)).2
      exact ⟨_, rfl, rfl⟩
  unfold persistReadyForDispatch at hrun
  split at hrun
  · simp only [Tx.run] at hrun
    split at hrun
    · exact Or.inl (Prod.mk.inj (Except.ok.inj hrun)).2.symm
    · exact Or.inr (insert hrun)
  · exact Or.inr (insert hrun)

/-- An order is created together with its event. -/
theorem announced_create {id : Uuid} {customerId : String} {priority : OrderPriority}
    {pickup dropoff : Location} {c key : Option String} {eventId : Uuid} {now : Date}
    (h : Rest ((Request.createOrder id customerId priority pickup dropoff c key eventId
      now).execute settings) seen (.step effect next)) {o : Uuid} {row : OrderRow}
    (hrow : (effect w).order.row o = some row) :
    w.order.row o = some row ∨ (effect w).Announced o := by
  obtain ⟨effect₀, next₀, hrest, rfl, rfl⟩ := rest_on h
  simp only [createOrder] at hrest
  cases horder : Order.create id customerId priority pickup dropoff now with
  | error e =>
    rw [horder] at hrest
    cases rest_finished rfl hrest
  | ok order =>
    rw [horder] at hrest
    rcases rest_atomically hrest w.order with ⟨hsame, -⟩ | ⟨result, hcommit, -⟩
    · simp only [hsame] at hrow
      exact Or.inl hrow
    · rcases persisted_of_run hcommit with hsame | ⟨entity, hid, hnew⟩
      · simp only [hsame] at hrow
        exact Or.inl hrow
      · by_cases ho : entity.id = o
        · let event : OutboxRow := .pending eventId .orderReadyForDispatch .dispatchEvents
            (readyForDispatchPayload eventId { order with domainEvents := [] }
              (c.getD order.id)) (c.getD order.id) now
          have hmem : event ∈ (effect₀ w.order).outbox := by
            rw [hnew]
            exact List.mem_append_right _ (List.mem_singleton.2 rfl)
          refine Or.inr ⟨event.message, List.mem_map.2 ⟨event, ?_, rfl⟩, rfl, ?_⟩
          · exact List.mem_append_left _ (List.mem_append_left _ hmem)
          · rw [← ho, hid]
            rfl
        · refine Or.inl ?_
          have hrow' : (w.order.saveEntity entity).row o = some row := by
            simp only [hnew] at hrow
            exact hrow
          rwa [OrderDb.row_saveEntity, if_neg ho] at hrow'

/-- A use case saves the order it has read. -/
theorem row_of_order {p : OrderRequest} (h : Rest (onOrder p.execute) seen (.step effect next))
    {o : Uuid} {row : OrderRow} (hrow : (effect w).order.row o = some row) :
    w.order.row o = some row ∨ ∃ v read, seen = some v ∧ v.order.row o = some read := by
  obtain ⟨effect₀, next₀, hrest, rfl, rfl⟩ := rest_on h
  rcases OrderPool.residual_step (.of_rest hrest) with ⟨-, rfl⟩ |
    ⟨db, read, order, hseen, hread, happly, rfl⟩
  · exact Or.inl hrow
  · obtain ⟨v, rfl, rfl⟩ := Option.map_eq_some_iff.1 hseen
    simp only [OrderDb.save, OrderDb.row_saveEntity] at hrow
    split at hrow
    · next ho =>
      have hid : order.id = p.orderId :=
        (OrderCommand.id_of_apply happly).trans (OrderDb.id_of_row hread)
      obtain rfl : p.orderId = o := hid.symm.trans ho
      exact Or.inr ⟨v, read, rfl, hread⟩
    · exact Or.inl hrow

theorem onOrder_of_handle {m : Message} {draw : Draw} {op : Proc Databases ServiceError Unit}
    (hop : handleOrderEvent m draw = some op) :
    ∃ p : OrderRequest, op = onOrder p.execute := by
  simp only [handleOrderEvent, Option.bind_eq_bind, Option.bind_eq_some_iff] at hop
  obtain ⟨orderId, -, hop⟩ := hop
  split at hop
  · exact ⟨_, (Option.some.inj hop).symm⟩
  · obtain ⟨driverId, -, hop⟩ := Option.bind_eq_some_iff.1 hop
    exact ⟨_, (Option.some.inj hop).symm⟩
  · obtain ⟨reason, -, hop⟩ := Option.bind_eq_some_iff.1 hop
    exact ⟨_, (Option.some.inj hop).symm⟩
  · exact ⟨_, (Option.some.inj hop).symm⟩
  · cases hop

end Orders

section Runs

variable {settings : Settings} {S S' : Fleet} {a : FleetLabel} {ts : List FleetMove}

theorem posts_of_happens (ho : S.Orderly (wiring settings))
    (hs : (wiring settings).Happens S a S') : ∀ p ∈ S.world.posts, p ∈ S'.world.posts :=
  fun _ hp => ho.posts_mono (sound_wiring settings) hs hp

theorem handled_of_happens (ho : S.Orderly (wiring settings))
    (hs : (wiring settings).Happens S a S') {m : Message} (h : S.world.Handled m) :
    S'.world.Handled m := by
  rcases advance_of_happens ho hs with ⟨id, now, hw⟩ | hadv
  · rw [hw]
    exact handled_markPublished id now h
  · exact hadv.handled h

theorem echoed_of_run (hrun : (fleet settings).Run ts S) : S.world.Echoed := by
  induction hrun with
  | @nil S hinit =>
    have hout : S.world.outbox = [] := hinit.1.2.1
    exact ⟨fun q m hm => by simp [Databases.posts, hout] at hm,
      fun q m ty hm => by simp [Databases.posts, hout] at hm⟩
  | @snoc ts S S' a hrun hs ih =>
    have ho := Bus.orderly_of_run (sound_wiring settings) hrun
    have hhap := Wiring.happens_of_step hs
    refine ih.grow (posts_of_happens ho hhap) (coherent_of_run hrun).own (fun m hm => ?_)
      (grows_of_happens ho (linked_of_run hrun) hhap)
    obtain ⟨d, -, hmd⟩ := (traced_of_run hrun).about_request hm
    exact ⟨d, hmd⟩

theorem ready_of_run (hrun : (fleet settings).Run ts S) : S.world.Ready :=
  ⟨coherent_of_run hrun, echoed_of_run hrun, (traced_of_run hrun).about⟩

theorem asking_of_run (hrun : (fleet settings).Run ts S) : S.world.Asking := by
  induction hrun with
  | @nil S hinit =>
    intro d hd
    have hnone : S.world.dispatch.dispatches = [] := hinit.1.1.2.1
    simp [DispatchDb.row, hnone] at hd
  | @snoc ts S S' a hrun hs ih =>
    rcases advance_of_happens (Bus.orderly_of_run (sound_wiring settings) hrun)
      (Wiring.happens_of_step hs) with ⟨id, now, hw⟩ | hadv
    · have hposts : (S.world.markPublished id now).posts = S.world.posts :=
        posts_markPublished settings id now S.world
      intro d hd
      rw [hw, hposts]
      exact ih d (by rw [hw] at hd; exact hd)
    · exact hadv.asking ih

/-- The orders of a snapshot have been announced to the Dispatch service. -/
def AllAnnounced (v w : Databases) : Prop := ∀ o row, v.order.row o = some row → w.Announced o

theorem keeps_announced (hposts : ∀ p ∈ S.world.posts, p ∈ S'.world.posts)
    (hnow : AllAnnounced S.world S.world) :
    Bus.Keeps (wiring settings) (fun _ => True) AllAnnounced S.world S'.world := by
  have hmono {o : Uuid} (h : S.world.Announced o) : S'.world.Announced o := by
    obtain ⟨m, hm, hrest⟩ := h
    exact ⟨m, hposts _ hm, hrest⟩
  -- a row is in the way only if it was in the way before, or has just been announced
  have covered {w' : Databases} {seen : Option Databases} (hw : S'.world = w')
      (hseen : ∀ v, seen = some v → AllAnnounced v S.world)
      (h : ∀ o row, w'.order.row o = some row → S.world.order.row o = some row ∨
        (∃ v read, seen = some v ∧ v.order.row o = some read) ∨ w'.Announced o) :
      AllAnnounced S'.world S'.world := by
    subst hw
    intro o row hrow
    rcases h o row hrow with hold | ⟨v, read, hv, hread⟩ | hann
    · exact hmono (hnow o row hold)
    · exact hmono (hseen v hv o read hread)
    · exact hann
  refine ⟨fun v hv o row hrow => hmono (hv o row hrow),
    fun p seen effect next _ hrest hseen heff => covered heff hseen fun o row hrow => ?_,
    fun q m draw op seen effect next hm hop hrest hseen heff =>
      covered heff hseen fun o row hrow => ?_, fun id now hw o row hrow => ?_⟩
  · cases p with
    | createOrder => exact (announced_create hrest hrow).imp_right Or.inr
    | cancelOrder orderId now => exact (row_of_order hrest hrow).imp_right Or.inl
    | cancelDispatch | timeoutDispatch | createDriver =>
      unfold wiring Request.execute at hrest
      obtain ⟨effect₀, next₀, -, rfl, -⟩ := rest_on hrest
      exact Or.inl hrow
  · have hop' : handle settings q m draw = some op := hop
    cases q with
    | orderEvents =>
      obtain ⟨p, rfl⟩ := onOrder_of_handle hop'
      exact (row_of_order hrest hrow).imp_right Or.inl
    | dispatchEvents =>
      obtain ⟨p, rfl⟩ := onDispatch_of_handle hop'
      obtain ⟨effect₀, next₀, -, rfl, -⟩ := rest_on hrest
      exact Or.inl hrow
    | driverEvents =>
      obtain ⟨p, rfl⟩ := onDriver_of_handle hop'
      obtain ⟨effect₀, next₀, -, rfl, -⟩ := rest_on hrest
      exact Or.inl hrow
  · rw [hw] at hrow
    exact hmono (hnow o row hrow)

theorem announced_of_run (hrun : (fleet settings).Run ts S) {o : Uuid} {row : OrderRow}
    (hrow : S.world.order.row o = some row) : S.world.Announced o := by
  refine (Bus.witnessed_of_run (J := AllAnnounced) (sound_wiring settings) (fun w hinit _ => ?_)
    hrun (fun _ _ _ _ _ => trivial) fun t ht hnow => ?_).now o row hrow
  · intro o row hrow
    simp [OrderDb.row, hinit.1] at hrow
  · obtain ⟨l, -, hpre, hs⟩ := hrun.of_mem ht
    exact keeps_announced (posts_of_happens (Bus.orderly_of_run (sound_wiring settings) hpre)
      (Wiring.happens_of_step hs)) hnow

/-- Two messages with one id are one. -/
theorem post_eq_of_id (ho : S.Orderly (wiring settings)) {q q' : Queue} {m m' : Message}
    (hm : (q, m) ∈ S.world.posts) (hm' : (q', m') ∈ S.world.posts) (hid : m'.id = m.id) :
    q' = q ∧ m' = m := by
  obtain ⟨r, hr, heq⟩ := List.mem_map.1 hm
  obtain ⟨r', hr', heq'⟩ := List.mem_map.1 hm'
  obtain ⟨rfl, rfl⟩ := Prod.mk.inj heq
  obtain ⟨rfl, rfl⟩ := Prod.mk.inj heq'
  obtain rfl : r' = r := ho.eq_of_id (sound_wiring settings) hr' hr hid
  exact ⟨rfl, rfl⟩

/-- Answers to one request, or to two about one dispatch, say the same of it. -/
theorem Databases.Handled.transfer {w : Databases} {m m' : Message} {ty : EventType}
    (h : w.Handled m') (hty : m.eventType.request = some ty) (hty' : m'.eventType.request = some ty)
    (habout : ∀ d, m'.About d → m.About d) : w.Handled m := by
  unfold Databases.Handled at h ⊢
  cases he : m.eventType <;> cases he' : m'.eventType <;>
    simp only [he, he', EventType.request, Option.some.injEq, reduceCtorEq] at hty hty' h ⊢ <;>
    first
      | (obtain ⟨d, hd, hmd, hs⟩ := h
         exact ⟨d, hd, habout d hmd, hs⟩)
      | (subst hty; cases hty')

theorem EventType.request_of_consumer {ty : EventType} (h : ty.consumer = .dispatchEvents) :
    ty = .orderReadyForDispatch ∨ ∃ request, ty.request = some request := by
  cases ty <;> simp [EventType.consumer, EventType.request] at h ⊢

/-- An inbox of these services takes a message only for itself, or for another answer to the
same request. -/
theorem discerns_of_run (hrun : (fleet settings).Run ts S) :
    Bus.Discerns (wiring settings) Upstream Databases.Handled S.world := by
  intro q m m' event event' hq hm hm' hevent hevent' hid
  refine ⟨hq, fun hD => ?_⟩
  have ho := Bus.orderly_of_run (sound_wiring settings) hrun
  have h := ready_of_run hrun
  have hconf := (traced_of_run hrun).conforms
  have hsame : m'.string .eventId = m.string .eventId := by
    rw [show m.string .eventId = _ from Message.eventId_of_event hevent,
      show m'.string .eventId = _ from Message.eventId_of_event hevent', hid]
  -- an order's event has its own id, and no request has that
  have apart {x y : Message} (hx : (q, x) ∈ S.world.posts) (hy : (q, y) ∈ S.world.posts)
      (hqd : q ≠ .driverEvents) (hready : x.eventType = .orderReadyForDispatch) {ty : EventType}
      (hty : y.eventType.request = some ty) (heq : y.string .eventId = x.string .eventId) :
      False := by
    obtain ⟨y', d, hy', -, -, -, hecho⟩ := h.echoed.answer q y ty hy hty
    have hid : y'.id = x.id := by
      have hown := h.coherent.own y' hy'
      rw [← hecho, heq, h.echoed.ready q x hx hready] at hown
      exact (Option.some.inj hown).symm
    exact hqd (post_eq_of_id ho hx hy' hid).1.symm
  cases q with
  | orderEvents => exact absurd rfl hq
  | driverEvents =>
    obtain rfl := unique_of_own ho h.coherent hm hm' hevent hevent' hid
    exact hD
  | dispatchEvents =>
    rcases EventType.request_of_consumer (hconf _ m hm).queue.symm with hready | ⟨ty, hty⟩
    · rcases EventType.request_of_consumer (hconf _ m' hm').queue.symm with hready' | ⟨ty', hty'⟩
      · have hids : m'.id = m.id := by
          have hown := h.echoed.ready _ m hm hready
          rw [← hsame, h.echoed.ready _ m' hm' hready'] at hown
          exact Option.some.inj hown
        obtain ⟨-, rfl⟩ := post_eq_of_id ho hm hm' hids
        exact hD
      · exact (apart hm hm' (by decide) hready hty' hsame).elim
    · rcases EventType.request_of_consumer (hconf _ m' hm').queue.symm with hready' | ⟨ty', hty'⟩
      · exact (apart hm' hm (by decide) hready' hty hsame.symm).elim
      · obtain ⟨x, d, hx, hxty, hxd, hmd, hecho⟩ := h.echoed.answer _ m ty hm hty
        obtain ⟨x', d', hx', hxty', hxd', hmd', hecho'⟩ := h.echoed.answer _ m' ty' hm' hty'
        have hids : x'.id = x.id := by
          have hown := h.coherent.own x hx
          rw [← hecho, ← hsame, hecho', h.coherent.own x' hx'] at hown
          exact Option.some.inj hown
        obtain ⟨-, rfl⟩ := post_eq_of_id ho hx hx' hids
        obtain rfl : ty' = ty := hxty'.symm.trans hxty
        refine hD.transfer hty hty' fun e he => ⟨?_, ?_⟩
        · rw [hmd.1, ← hxd.1, hxd'.1, ← hmd'.1, he.1]
        · rw [hmd.2, ← hxd.2, hxd'.2, ← hmd'.2, he.2]

/-- Once nothing is left to deliver to Dispatch and Driver, the dispatch of every order has been
decided, or a message about the order is dead-lettered. -/
theorem decided_of_run (hrun : (fleet settings).Run ts S)
    (hrest : S.Delivered (wiring settings) Upstream) {o : Uuid} {row : OrderRow}
    (hrow : S.world.order.row o = some row) :
    (∃ d, S.world.dispatch.findByOrderId o = some d ∧
      (d.status = .assigned ∨ d.status = .failed ∨ d.status = .cancelled)) ∨
    ∃ q m, (q, m) ∈ S.dead ∧ Upstream q m ∧ m.string .orderId = some o := by
  have hN := sound_wiring settings
  have hc := coherent_of_run hrun
  have htracked : Bus.Tracked (wiring settings) Databases.Ready Upstream Databases.Handled S := by
    refine Bus.tracked_of_run hN hrun (honest_wiring settings) (fun t ht => ?_)
      (fun t ht m hm => ?_) fun t ht => ?_
    · obtain ⟨l, -, hpre, -⟩ := hrun.of_mem ht
      exact ready_of_run hpre
    · obtain ⟨⟨ho, -⟩, -, hhap⟩ := coherent_of_mem hrun ht
      exact handled_of_happens ho hhap hm
    · obtain ⟨l, -, hpre, hs⟩ := hrun.of_mem ht
      exact discerns_of_run (hpre.snoc hs)
  have settle {q : Queue} {m : Message} (hm : (q, m) ∈ S.world.posts) (hq : q ≠ .orderEvents)
      (horder : m.string .orderId = some o) : S.world.Handled m ∨
        ∃ q m, (q, m) ∈ S.dead ∧ Upstream q m ∧ m.string .orderId = some o := by
    refine (htracked.of_delivered (Bus.orderly_of_run hN hrun) hrest hm hq).imp_right fun hd => ?_
    exact ⟨q, m, hd, hq, horder⟩
  obtain ⟨m, hm, hty, horder⟩ := announced_of_run hrun hrow
  rcases settle hm (by decide) horder with hh | hdead
  swap
  · exact Or.inr hdead
  obtain ⟨d, hd, hod⟩ : ∃ d, S.world.dispatch.row d.id = some d ∧
      m.string .orderId = some d.orderId := by simpa only [Databases.Handled, hty] using hh
  obtain rfl : o = d.orderId := Option.some.inj (horder.symm.trans hod)
  have hfind : S.world.dispatch.findByOrderId d.orderId = some d :=
    Table.find_of_mem hc.orders (Table.mem_of_find hd)
  have about {m : Message} {e : Dispatch} (hme : m.About e) (hmd : m.About d)
      (he : S.world.dispatch.row e.id = some e) : e = d := by
    have hid : e.id = d.id := Option.some.inj (hme.1.symm.trans hmd.1)
    exact Option.some.inj (he.symm.trans (hid ▸ hd))
  -- a request about the dispatch is answered, and the answer handled
  have reply {m : Message} (hm : (Queue.driverEvents, m) ∈ S.world.posts) (hmd : m.About d)
      (hty : m.eventType = .driverReservationRequested ∨ m.eventType = .driverReleaseRequested) :
      (∃ m', m'.eventType.request = some m.eventType ∧ m'.About d ∧ S.world.Handled m') ∨
        ∃ q m, (q, m) ∈ S.dead ∧ Upstream q m ∧ m.string .orderId = some d.orderId := by
    rcases settle hm (by decide) hmd.2 with hh | hdead
    · obtain ⟨m', e, hm', hrequest, hme, hme'⟩ : S.world.Answered m := by
        rcases hty with hty | hty <;> simpa only [Databases.Handled, hty] using hh
      have hmd' : m'.About d := ⟨hme'.1.trans (hme.1.symm.trans hmd.1),
        hme'.2.trans (hme.2.symm.trans hmd.2)⟩
      exact (settle hm' (by decide) hmd'.2).imp_left fun hh => ⟨m', hrequest, hmd', hh⟩
    · exact Or.inr hdead
  cases hs : d.status with
  | assigned => exact Or.inl ⟨d, hfind, Or.inl hs⟩
  | failed => exact Or.inl ⟨d, hfind, Or.inr (Or.inl hs)⟩
  | cancelled => exact Or.inl ⟨d, hfind, Or.inr (Or.inr hs)⟩
  | searchingDriver =>
    obtain ⟨m₁, hm₁, hty₁, hmd₁⟩ := asking_of_run hrun d hd
    refine Or.inr ((reply hm₁ hmd₁ (Or.inl hty₁)).resolve_left ?_)
    rintro ⟨m', hrequest, hmd', hh⟩
    obtain ⟨e, he, hme, hne⟩ : ∃ e, S.world.dispatch.row e.id = some e ∧ m'.About e ∧
        e.status ≠ .searchingDriver := by
      rw [hty₁] at hrequest
      cases hty' : m'.eventType <;> simp only [hty', EventType.request, Option.some.injEq,
        reduceCtorEq] at hrequest
      · simpa only [Databases.Handled, hty'] using hh
      · simpa only [Databases.Handled, hty'] using hh
    exact hne (about hme hmd' he ▸ hs)
  | compensating =>
    obtain ⟨m₁, hm₁, hty₁, ho₁⟩ := hc.compensated _ d hd (Or.inl hs)
    obtain ⟨e, -, he, hme, -⟩ := hc.release _ m₁ hm₁ hty₁
    obtain rfl : e = d := hc.eq_of_order hd he (Option.some.inj (hme.2.symm.trans ho₁))
    refine Or.inr ((reply hm₁ hme (Or.inr hty₁)).resolve_left ?_)
    rintro ⟨m', hrequest, hmd', hh⟩
    obtain ⟨e', he', hme', hend⟩ : ∃ e', S.world.dispatch.row e'.id = some e' ∧ m'.About e' ∧
        (e'.status = .failed ∨ e'.status = .cancelled) := by
      rw [hty₁] at hrequest
      cases hty' : m'.eventType <;> simp only [hty', EventType.request, Option.some.injEq,
        reduceCtorEq] at hrequest
      simpa only [Databases.Handled, hty'] using hh
    rw [about hme' hmd' he', hs] at hend
    rcases hend with hend | hend <;> cases hend

end Runs

instance (q : Queue) (m : Message) : Decidable (Upstream q m) := inferInstanceAs (Decidable (_ ≠ _))

/-- Nothing is dead-lettered, so that the dispatch has been decided. -/
theorem decided_agreed : ∃ S d, (fleet sampleSettings).replay emptyFleet agreedLabels = some S ∧
    S.world.dispatch.findByOrderId "order-1" = some d ∧
    (d.status = .assigned ∨ d.status = .failed ∨ d.status = .cancelled) := by
  obtain ⟨S, hS, hnone, hrows, hdead, row, hrow⟩ : ∃ S,
      (fleet sampleSettings).replay emptyFleet agreedLabels = some S ∧
      (∀ i < 2, (S.parcels i).isNone) ∧
      (∀ r ∈ S.world.outbox, Upstream r.targetQueue r.message → r.status ≠ .pending) ∧
      S.dead = [] ∧ ∃ row, S.world.order.row "order-1" = some row :=
    ⟨_, rfl, by decide, by decide, rfl, _, rfl⟩
  rcases decided_of_run (.of_replay init_emptyFleet hS)
    (delivered_of_replay hS (by decide) hnone hrows) hrow with ⟨d, hd, hs⟩ | ⟨q, m, hm, -⟩
  · exact ⟨S, d, hS, hd, hs⟩
  · rw [hdead] at hm
    cases hm

end RouteFast
