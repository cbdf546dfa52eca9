import RouteFast.Dispatch.Ledger

/-! Any number of `StartDispatchHandler` executions as interleaved transactions: two checks
that hold no lock, and the unique index behind them. -/

namespace RouteFast

open Transition ReadCommitted DispatchEvent

/-- One execution, with the ids and the time it draws and what its candidate search ends in. -/
structure StartCall where
  orderId : Uuid
  correlationId : String
  dispatchId : Uuid
  decisionId : Uuid
  startedId : Uuid
  requestedId : Uuid
  now : Date
  plan : Except ServiceError (Option DispatchStartPlan)

namespace StartCall

def dispatch (p : StartCall) : Dispatch := .start p.dispatchId p.orderId p.correlationId p.now

/-- `StartDispatchHandler.execute` up to its commit. The first read is a statement of its
own; it locks and writes nothing, so it may as well be the session's first. -/
def body (p : StartCall) : DispatchTx :=
  .select fun db =>
    match db.findByOrderId p.orderId with
    | some _ => .commit ()
    | none =>
      match p.plan with
      | .error e => .throw e
      | .ok plan =>
        DispatchWorkflow.start p.dispatch plan p.decisionId p.startedId p.requestedId p.now

/-- The tables after the four inserts. -/
def inserted (p : StartCall) (plan : Option DispatchStartPlan) (db : DispatchDb) : DispatchDb where
  dispatches := db.dispatches ++ [p.dispatch]
  decisions := db.decisions ++ (plan.map (dispatchDecision p.decisionId p.dispatch)).toList
  outbox := db.outbox ++ [started p.dispatch p.startedId p.now,
    reservationRequested p.dispatch plan p.requestedId p.now]

/-- The execution found no dispatch of its order, and inserted one with all that belongs to it. -/
def Starts (p : StartCall) (db db' : DispatchDb) : Prop :=
  db.findByOrderId p.orderId = none ∧ ∃ plan, p.plan = .ok plan ∧ db' = p.inserted plan db

end StartCall

namespace DispatchDb

/-- The decisions for dispatches of the order. -/
def decisionsOf (db : DispatchDb) (orderId : Uuid) : List DispatchDecision :=
  db.decisions.filter fun c => ∃ d ∈ db.dispatches, d.orderId = orderId ∧ c.dispatchId = d.id

/-- One dispatch an order, with at most one decision and one event of each kind, and nothing
that belongs to no dispatch. -/
structure OnePerOrder (db : DispatchDb) : Prop where
  dispatch : ∀ orderId, (db.dispatches.filter fun d => d.orderId = orderId).length ≤ 1
  decision : ∀ orderId, (db.decisionsOf orderId).length ≤ 1
  started : ∀ d ∈ db.dispatches, db.enqueued d.id .dispatchStarted = 1
  requested : ∀ d ∈ db.dispatches, db.enqueued d.id .driverReservationRequested = 1
  decided : ∀ c ∈ db.decisions, ∃ d ∈ db.dispatches, c.dispatchId = d.id
  named : ∀ r ∈ db.outbox, ∃ d ∈ db.dispatches, r.dispatch = some d.id

/-- `OnePerOrder`, with its uniqueness as that of the columns. -/
structure Started (db : DispatchDb) : Prop where
  ids : (db.dispatches.map Dispatch.id).Nodup
  orders : (db.dispatches.map Dispatch.orderId).Nodup
  choices : (db.decisions.map DispatchDecision.dispatchId).Nodup
  started : ∀ d ∈ db.dispatches, db.enqueued d.id .dispatchStarted = 1
  requested : ∀ d ∈ db.dispatches, db.enqueued d.id .driverReservationRequested = 1
  decided : ∀ c ∈ db.decisions, ∃ d ∈ db.dispatches, c.dispatchId = d.id
  named : ∀ r ∈ db.outbox, ∃ d ∈ db.dispatches, r.dispatch = some d.id

variable {db : DispatchDb} {p : StartCall} {plan : Option DispatchStartPlan}

theorem Started.onePerOrder (h : db.Started) : db.OnePerOrder where
  dispatch orderId := Table.length_filter_key_le_one h.orders orderId
  decision orderId := by
    by_cases hrow : ∃ d ∈ db.dispatches, d.orderId = orderId
    · obtain ⟨d, hd, rfl⟩ := hrow
      refine (List.Sublist.length_le ?_).trans (Table.length_filter_key_le_one h.choices d.id)
      refine List.monotone_filter_right _ fun c hc => ?_
      obtain ⟨e, he, horder, hid⟩ := of_decide_eq_true hc
      have hfound := Table.find_of_mem h.orders he
      rw [horder, Table.find_of_mem h.orders hd] at hfound
      obtain rfl := Option.some.inj hfound
      simpa using hid
    · have hnone : db.decisionsOf orderId = [] := by
        rw [decisionsOf, List.filter_eq_nil_iff]
        rintro c - hc
        obtain ⟨e, he, horder, -⟩ := of_decide_eq_true hc
        exact hrow ⟨e, he, horder⟩
      simp [hnone]
  started := h.started
  requested := h.requested
  decided := h.decided
  named := h.named

/-- No event or decision waits for a dispatch that is still to come. -/
theorem Started.enqueued_of_row (h : db.Started) {id : Uuid} (hrow : db.row id = none)
    (ty : EventType) : db.enqueued id ty = 0 := by
  have hnone : db.events id = [] := by
    rw [events, List.filter_eq_nil_iff]
    intro r hr hid
    obtain ⟨d, hd, hname⟩ := h.named r hr
    have hsame : d.id = id := by simpa [hname] using hid
    exact Table.find_eq_none_iff.1 hrow d hd hsame
  simp [enqueued, hnone]

theorem enqueued_inserted (id : Uuid) (ty : EventType) :
    (p.inserted plan db).enqueued id ty = db.enqueued id ty + if p.dispatchId = id ∧
      (ty = .dispatchStarted ∨ ty = .driverReservationRequested) then 1 else 0 := by
  have hid : p.dispatch.id = p.dispatchId := rfl
  have hstarted : (started p.dispatch p.startedId p.now).eventType = .dispatchStarted := rfl
  have hrequested : (reservationRequested p.dispatch plan p.requestedId p.now).eventType =
      .driverReservationRequested := rfl
  simp only [enqueued, events, StartCall.inserted, List.filter_append, List.map_append,
    List.count_append]
  by_cases h : p.dispatchId = id
  · cases ty <;> simp [hid, h, hstarted, hrequested]
  · simp [hid, h]

theorem Started.inserted (h : db.Started) (hid : db.row p.dispatchId = none)
    (horder : db.findByOrderId p.orderId = none) : (p.inserted plan db).Started := by
  have hnew : ∀ d ∈ db.dispatches, d.id ≠ p.dispatchId := Table.find_eq_none_iff.1 hid
  have hgrow : ∀ {Q : Dispatch → Prop}, (∃ d ∈ db.dispatches, Q d) →
      ∃ d ∈ (p.inserted plan db).dispatches, Q d := by
    rintro Q ⟨d, hd, hQ⟩
    exact ⟨d, List.mem_append_left _ hd, hQ⟩
  have hself : p.dispatch ∈ (p.inserted plan db).dispatches := by simp [StartCall.inserted]
  refine ⟨Table.nodup_append_of_find h.ids hid, Table.nodup_append_of_find h.orders horder, ?_, ?_,
    ?_, ?_, ?_⟩
  · cases plan with
    | none => simpa [StartCall.inserted] using h.choices
    | some plan =>
      refine Table.nodup_append_of_find h.choices (Table.find_eq_none_iff.2 fun c hc heq => ?_)
      obtain ⟨d, hd, hcd⟩ := h.decided c hc
      exact hnew d hd (hcd.symm.trans heq)
  · intro d hd
    rw [enqueued_inserted]
    rcases List.mem_append.1 hd with hd | hd
    · simp [h.started d hd, (hnew d hd).symm]
    · rw [List.mem_singleton.1 hd]
      have hzero := h.enqueued_of_row hid .dispatchStarted
      simp [StartCall.dispatch, Dispatch.start, hzero]
  · intro d hd
    rw [enqueued_inserted]
    rcases List.mem_append.1 hd with hd | hd
    · simp [h.requested d hd, (hnew d hd).symm]
    · rw [List.mem_singleton.1 hd]
      have hzero := h.enqueued_of_row hid .driverReservationRequested
      simp [StartCall.dispatch, Dispatch.start, hzero]
  · intro c hc
    rcases List.mem_append.1 hc with hc | hc
    · exact hgrow (h.decided c hc)
    · refine ⟨p.dispatch, hself, ?_⟩
      cases plan with
      | none => cases hc
      | some plan =>
        rw [List.mem_singleton.1 hc]
        rfl
  · intro r hr
    rcases List.mem_append.1 hr with hr | hr
    · exact hgrow (h.named r hr)
    · refine ⟨p.dispatch, hself, ?_⟩
      rcases List.mem_pair.1 hr with rfl | rfl
      · exact dispatch_started _ _ _
      · exact dispatch_reservationRequested _ _ _ _

end DispatchDb

abbrev StartStore := Store DispatchDb DispatchLock ServiceError Unit StartCall

/-- The dispatch database from its first day. -/
def startSystem : System StartStore (Label StartCall) :=
  system (fun db => db.dispatches = [] ∧ db.decisions = [] ∧ db.outbox = []) StartCall.body

/-- A lock of a row or an index entry keeps what is found under it. -/
def startDiscipline : Discipline DispatchDb DispatchLock Unit StartCall where
  Inv _ db := db.Started
  Keeps
    | .dispatch id, db, db' => db'.row id = db.row id
    | .order orderId, db, db' => db'.findByOrderId orderId = db.findByOrderId orderId
  Evolves _ _ := True
  keeps_refl k db := by cases k <;> rfl
  keeps_trans k a b c h h' := by
    cases k with
    | dispatch id => exact Eq.trans h' h
    | order orderId => exact Eq.trans h' h
  evolves_refl _ := trivial
  evolves_trans _ _ _ _ _ := trivial

/-- What an execution owes at its commit: nothing written, or a start. -/
def StartsOrNot (p : StartCall) (_since : List (StartCall × Unit)) (_ : Unit)
    (db db' : DispatchDb) : Prop := db' = db ∨ p.Starts db db'

open Discipline in
theorem ok_start (p : StartCall) (since : List (StartCall × Unit)) (db : DispatchDb) :
    startDiscipline.Ok p (StartsOrNot p since) (fun _ => True) p.body [] (fun _ => False) db := by
  have hcommit (db : DispatchDb) : startDiscipline.Ok p (StartsOrNot p since) (fun _ => True)
      (.commit () : DispatchTx) [] (fun _ => False) db := fun h db' hInv _ =>
    ⟨hInv, trivial, fun k _ => startDiscipline.keeps_refl k _, Or.inl rfl⟩
  intro db₁ hl₁
  simp only [view_nil]
  cases db₁.findByOrderId p.orderId with
  | some d => exact hcommit db₁
  | none =>
  cases hplan : p.plan with
  | error e => trivial
  | ok plan =>
  intro db₂ hl₂
  simp only [view_nil]
  cases db₂.findByOrderId p.dispatch.orderId with
  | some d => exact hcommit db₂
  | none =>
  intro db₃ hl₃
  simp only [view_nil]
  cases hrej : db₃.rejects p.dispatch with
  | some e => trivial
  | none =>
  obtain ⟨hid₃, horder₃⟩ : db₃.row p.dispatch.id = none ∧
      db₃.findByOrderId p.dispatch.orderId = none := by
    simp only [DispatchDb.rejects] at hrej
    split_ifs at hrej with hid horder
    exact ⟨by simpa using hid, by simpa using horder⟩
  refine Ok.insert (Ok.insert (Ok.insert ?_))
  intro h db' hInv hr
  have hid : db'.row p.dispatchId = none :=
    (hr.keeps (.dispatch p.dispatchId) (Or.inl (by simp [StartCall.dispatch, Dispatch.start]))).trans
      hid₃
  have horder : db'.findByOrderId p.orderId = none :=
    (hr.keeps (.order p.orderId) (Or.inl (by simp [StartCall.dispatch, Dispatch.start]))).trans
      horder₃
  have hview : view db' ([] ++ [fun db => db.save p.dispatch] ++ [fun db => { db with
      decisions := db.decisions ++ (plan.map (dispatchDecision p.decisionId p.dispatch)).toList }] ++
      [fun db => db.insertOutbox (started p.dispatch p.startedId p.now)] ++
      [fun db => db.insertOutbox (reservationRequested p.dispatch plan p.requestedId p.now)]) =
      p.inserted plan db' := by
    have hsave : Table.save Dispatch.id p.dispatch db'.dispatches = db'.dispatches ++ [p.dispatch] :=
      Table.save_eq_append hid
    simp [view, DispatchDb.save, DispatchDb.insertOutbox, StartCall.inserted, hsave]
  rw [hview]
  refine ⟨hInv.inserted hid horder, trivial, fun k hk => ?_, Or.inr ⟨horder, plan, hplan, rfl⟩⟩
  -- a row or an entry that is not locked is not the new one
  cases k with
  | dispatch id =>
    have hne : p.dispatchId ≠ id := by
      rintro rfl
      exact hk (Or.inl (by simp [StartCall.dispatch, Dispatch.start]))
    have hnot : ¬ p.dispatch.id = id := hne
    exact (Table.find_append_singleton).trans (by simp [DispatchDb.row, hnot])
  | order orderId =>
    have hne : ¬ p.dispatch.orderId = orderId := by
      rintro rfl
      exact hk (Or.inl (by simp [StartCall.dispatch, Dispatch.start]))
    exact (Table.find_append_singleton).trans (by simp [DispatchDb.findByOrderId, hne])

/-- One order starts one dispatch, however executions interleave, and an execution that
does not start it leaves the tables as they were. -/
theorem one_dispatch {ts : List (Move StartStore (Label StartCall))} {S : StartStore}
    (hrun : startSystem.Run ts S) : S.committed.OnePerOrder ∧
      ∀ t ∈ ts, t.post.committed = t.pre.committed ∨ ∃ i x, t.label = .advance i ∧
        t.pre.sessions i = some x ∧ x.request.Starts t.pre.committed t.post.committed := by
  have hsound {ts : List (Move StartStore (Label StartCall))} {S : StartStore}
      (hrun : startSystem.Run ts S) :
      Discipline.Sound startDiscipline StartsOrNot (fun _ _ _ => True) S := by
    refine Discipline.run_sound ?_ (fun p since db _ => ok_start p since db) hrun
    rintro db ⟨hdispatches, hdecisions, houtbox⟩
    refine ⟨?_, ?_, ?_, ?_, ?_, ?_, ?_⟩ <;> simp [hdispatches, hdecisions, houtbox]
  refine ⟨(hsound hrun).inv.onePerOrder, fun t ht => ?_⟩
  obtain ⟨l, -, hpre, hs⟩ := hrun.of_mem ht
  rcases committed_step hs with hsame | ⟨i, x, r, hlabel, hx, hcode, hview⟩
  · exact Or.inl hsame
  · rw [hview]
    exact ((hsound hpre).result hx hcode).imp_right fun hstarts => ⟨i, x, hlabel, hx, hstarts⟩

section Runs

/-- An execution that draws its ids from `name`, with nobody in the ranking. -/
def startCall (name : String) : StartCall :=
  ⟨"order-1", "corr-1", name, name ++ "-decision", name ++ "-started", name ++ "-requested", 1,
    .ok (some ⟨"geo-score-v1", "STANDARD", 8, 0, 0, []⟩)⟩

/-- Both executions find no dispatch; the second one waits for the index entry of the first,
and finds it taken. -/
def racingStarts : List (Label StartCall) :=
  [.begin 0 (startCall "dispatch-1"), .begin 1 (startCall "dispatch-2"), .advance 0, .advance 1,
    .advance 0, .advance 1, .advance 0, .advance 0, .advance 0, .advance 0, .advance 0, .advance 1,
    .advance 1]

def noDispatches : StartStore := ⟨⟨[], [], []⟩, [], fun _ => none, fun _ => none⟩

theorem one_dispatch_racing : ∃ S, startSystem.replay noDispatches racingStarts = some S ∧
    S.committed.dispatches.map Dispatch.id = ["dispatch-1"] ∧ S.committed.OnePerOrder := by
  have hrun : startSystem.Run (startSystem.moves noDispatches racingStarts) _ :=
    .of_replay ⟨⟨rfl, rfl, rfl⟩, rfl, fun _ => rfl, fun _ => rfl⟩ rfl
  exact ⟨_, rfl, rfl, (one_dispatch hrun).1⟩

end Runs

end RouteFast
