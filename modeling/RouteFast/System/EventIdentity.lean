import RouteFast.System.Steps

/-! The identity of an event, from the outbox row to the consumers' inboxes. Order and
Dispatch publish each row under its own id; Driver spreads the event it received over the
fresh id, so that its events repeat the id of the request they answer. -/

namespace RouteFast

open Transition Pool ReadCommitted

/-- `payload.eventId` of a row. -/
def OutboxRow.eventId (r : OutboxRow) : Option Uuid := r.payload.string .eventId

/-- The rows carry their own ids. -/
def OwnIds (rows : List OutboxRow) : Prop := ∀ r ∈ rows, r.eventId = some r.id

/-- Event identity in a run and the state it ends in. -/
structure EventIdentity (ts : List FleetMove) (S : Fleet) : Prop where
  own : OwnIds S.world.outbox
  distinct : (S.world.outbox.map OutboxRow.eventId).Nodup
  /-- 'duplicate' is answered to a message whose row was processed before. -/
  duplicate : ∀ l t r, ts = l ++ t :: r → ∀ q m, t.pre.Answers t.post q m .duplicate →
    ∃ u ∈ l, ∃ m', u.pre.Answers u.post q m' .processed ∧ m'.id = m.id

section Rows

theorem OwnIds.append {a b : List OutboxRow} (ha : OwnIds a) (hb : OwnIds b) :
    OwnIds (a ++ b) := fun r hr => (List.mem_append.1 hr).elim (ha r) (hb r)

theorem ownIds_append_iff {a b : List OutboxRow} : OwnIds (a ++ b) ↔ OwnIds a ∧ OwnIds b :=
  ⟨fun h => ⟨fun r hr => h r (List.mem_append_left _ hr),
    fun r hr => h r (List.mem_append_right _ hr)⟩, fun h => h.1.append h.2⟩

/-- A payload without an `eventId` leaves the fresh one in place. -/
theorem eventId_dispatchEvent (eventId : Uuid) (q : Queue) (ty : EventType) {payload : Payload}
    (c : String) (now : Date) (h : payload.get .eventId = none) :
    (dispatchEvent eventId q ty payload c now).eventId = some eventId := by
  have hget : (Js.Obj.spread [(.eventId, .string eventId)] payload : Payload).get .eventId =
      some (.string eventId) := by simp [Js.Obj.get_spread, h]
  simp [OutboxRow.eventId, dispatchEvent, OutboxRow.pending, Payload.string, Payload.get_json,
    hget]

theorem ownIds_of_outcome {op : DispatchOp} {d : Dispatch} {o : DispatchOutcome}
    (h : op.outcome d = .ok o) : OwnIds o.event.toList := by
  intro r hr
  cases DispatchOp.step_of_outcome h with
  | move hm =>
    obtain rfl := List.mem_singleton.1 hr
    cases hm <;> exact eventId_dispatchEvent _ _ _ _ _ rfl
  | late =>
    obtain rfl := List.mem_singleton.1 hr
    exact eventId_dispatchEvent _ _ _ _ _ rfl
  | idle => cases hr

theorem ownIds_update {id : Uuid} {now : Date} {rows : List OutboxRow} (h : OwnIds rows) :
    OwnIds (Table.update OutboxRow.id id (.publish now) rows) := by
  intro r hr
  obtain ⟨r₀, hr₀, rfl⟩ := List.mem_map.1 hr
  have h₀ := h r₀ hr₀
  split
  · exact h₀
  · exact h₀

end Rows

section Runs

variable {settings : Settings} {R : Request → Prop} {P : Queue → Message → Prop}
  {w w' : Databases} {S S' : Fleet} {a : FleetLabel} {ts : List FleetMove}

/-- Without a Driver reply, every row enqueued carries its own id. -/
theorem Advance.ownIds (hadv : Advance settings R P w w') (hP : ∀ m, ¬ P .driverEvents m)
    (h : OwnIds w.outbox) : OwnIds w'.outbox := by
  obtain ⟨hod, hdriver⟩ := ownIds_append_iff.1 h
  obtain ⟨horder, hdispatch⟩ := ownIds_append_iff.1 hod
  cases hadv with
  | idle | saved => exact h
  | created order correlationId key eventId now result db _ hrun =>
    refine ((writes_persistReadyForDispatch (fun _ h => h) fun db h => h.append ?_).run
      (R := fun db db' : OrderDb => OwnIds db.outbox → OwnIds db'.outbox) (fun _ h => h)
      (fun _ _ _ h h' h₀ => h' (h h₀)) hrun horder |>.append hdispatch).append hdriver
    intro r hr
    obtain rfl := List.mem_singleton.1 hr
    rfl
  | started =>
    refine (horder.append (hdispatch.append fun r hr => ?_)).append hdriver
    rcases List.mem_pair.1 hr with rfl | rfl <;> exact eventId_dispatchEvent _ _ _ _ _ rfl
  | operated op d o _ _ hout =>
    exact (horder.append (hdispatch.append (ownIds_of_outcome hout))).append hdriver
  | createdDriver id displayName capacity now db hrun =>
    obtain ⟨d, -, -, rfl⟩ := created_of_run hrun
    exact h
  | reserved m _ _ _ _ _ _ hm => exact absurd hm (hP m)
  | released m _ _ _ _ _ hm => exact absurd hm (hP m)

theorem ownIds_markPublished (id : Uuid) (now : Date) (h : OwnIds w.outbox) :
    OwnIds (w.markPublished id now).outbox := by
  obtain ⟨hod, hdriver⟩ := ownIds_append_iff.1 h
  obtain ⟨horder, hdispatch⟩ := ownIds_append_iff.1 hod
  exact ((ownIds_update horder).append (ownIds_update hdispatch)).append (ownIds_update hdriver)

/-- What `randomUUID()` and the rows' own ids give. -/
theorem ownIds_of_run (hrun : (fleet settings).Run ts S) (h : ∀ t ∈ ts, ¬ DriverCommits t) :
    OwnIds S.world.outbox := by
  refine hrun.invariant_of_steps (C := fun t => ¬ DriverCommits t)
    (I := fun S => S.Orderly (wiring settings) ∧ OwnIds S.world.outbox) ?_ ?_ h |>.2
  · rintro S hinit
    have hnil : S.world.outbox = [] := hinit.1.2.1
    exact ⟨Bus.orderly_of_init hinit, by simp [OwnIds, hnil]⟩
  · rintro S a S' ⟨ho, hown⟩ hs hnot
    have hhap := Wiring.happens_of_step hs
    refine ⟨ho.step (sound_wiring settings) hhap, ?_⟩
    rcases advance_of_happens ho hhap with ⟨id, now, hw⟩ | hadv
    · rw [hw]
      exact ownIds_markPublished id now hown
    · exact hadv.ownIds (fun _ h => hnot h.2.driverCommits) hown

/-- A Driver reply is not a request, and repeats the id of the event it was spread from. -/
structure Replies (event : Payload) (r : OutboxRow) : Prop where
  type_ne : r.eventType ≠ .driverReservationRequested ∧ r.eventType ≠ .driverReleaseRequested
  eventId : ∀ id, event.string .eventId = some id → r.eventId = some id

theorem replies_spread {event : Payload} {k : Field} {s : String} (hk : k ≠ .eventId)
    {eventId : Uuid} {ty : EventType} {c : String} {now : Date}
    (hty : ty ≠ .driverReservationRequested ∧ ty ≠ .driverReleaseRequested) :
    Replies event (driverEvent eventId ty (Js.Obj.spread event [(k, .string s)]) c now) :=
  ⟨hty, fun id hid => string_driverEvent _ _ _ _ _ (by rwa [Payload.string_spread_ne _ _ hk])⟩

theorem Reserved.reply {input : ReserveDriverInput} {reservationId eventId : Uuid} {now : Date}
    {db db' : DriverDb} (h : Reserved input reservationId eventId now db db') :
    ∃ r ∈ db'.outbox, Replies input.event r := by
  cases h <;>
    exact ⟨_, List.mem_append_right _ (List.mem_singleton.2 rfl),
      replies_spread (by decide) (by decide)⟩

theorem Released.reply {input : ReleaseDriverInput} {eventId : Uuid} {now : Date}
    {db db' : DriverDb} (h : Released input eventId now db db') :
    ∃ r ∈ db'.outbox, Replies input.event r := by
  cases h <;>
    exact ⟨_, List.mem_append_right _ (List.mem_singleton.2 rfl),
      replies_spread (by decide) (by decide)⟩

theorem event_of_reserveDriverInput {m : Message} {input : ReserveDriverInput}
    (h : m.reserveDriverInput = some input) : input.event = m.payload := by
  obtain ⟨orderId, -, h⟩ := Option.bind_eq_some_iff.1 h
  obtain ⟨dispatchId, -, h⟩ := Option.bind_eq_some_iff.1 h
  obtain ⟨correlationId, -, h⟩ := Option.bind_eq_some_iff.1 h
  rw [← Option.some.inj h]

theorem event_of_releaseDriverInput {m : Message} {input : ReleaseDriverInput}
    (h : m.releaseDriverInput = some input) : input.event = m.payload := by
  obtain ⟨reserve, hreserve, h⟩ := Option.bind_eq_some_iff.1 h
  obtain ⟨driverId, -, h⟩ := Option.bind_eq_some_iff.1 h
  rw [← Option.some.inj h]
  exact event_of_reserveDriverInput hreserve

/-- A Driver transaction about to commit enqueues a reply to the message it handles. -/
theorem reply_of_commit (ho : S.Orderly (wiring settings)) (hlinked : S.world.driver.Linked)
    (hs : (wiring settings).Happens S a S') (hc : DriverCommits ⟨S, a, S'⟩) :
    ∃ m r event, (.driverEvents, m) ∈ (wiring settings).posts S.world ∧ m.event = some event ∧
      r ∈ S'.world.outbox ∧ r.eventType ≠ m.eventType ∧ r.eventId = some event.eventId := by
  obtain ⟨i, now, x, c, effect, next, rfl, hi, hq, hcall, hpc, hdone⟩ := hc
  cases hs with
  | @advance i now y d d' s hi' hcall' heff =>
    obtain rfl : x = y := Option.some.inj (hi.symm.trans hi')
    obtain rfl : c = d := Option.some.inj (hcall.symm.trans hcall')
    obtain ⟨hevent, ⟨draw, hop⟩, hrest⟩ := ho.calls i x c hi hcall
    obtain ⟨seen, hseen⟩ := hrest _ hpc
    have hpost := ho.posted i x hi
    have hid := Message.eventId_of_event hevent
    have hop' : handle settings x.queue x.message draw = some c.operation := hop
    rw [hq] at hop' hpost
    -- the reply is in the driver database that the transaction leaves
    suffices h : ∃ r ∈ (effect S.world).driver.outbox, Replies x.message.payload r ∧
        (x.message.eventType = .driverReservationRequested ∨
          x.message.eventType = .driverReleaseRequested) by
      obtain ⟨r, hr, hrep, hty⟩ := h
      have hne : r.eventType ≠ x.message.eventType := by
        rcases hty with hty | hty
        · rw [hty]; exact hrep.type_ne.1
        · rw [hty]; exact hrep.type_ne.2
      cases heff with
      | operated effect' next' hpc' =>
        obtain ⟨rfl, -⟩ : effect = effect' ∧ next = next' := by simpa [hpc] using hpc'
        exact ⟨x.message, r, c.event, hpost, hevent, List.mem_append_right _ hr, hne,
          hrep.eventId _ hid⟩
      | duplicate hw | started hw => exact absurd hpc (hw.pc_ne _)
      | absent h | raced h | inserted h | succeeded _ h | failed _ h => simp [hpc] at h
    simp only [handle, handleDriverEvent] at hop'
    split at hop'
    · next hty =>
      obtain ⟨input, hinput, hop'⟩ := Option.bind_eq_some_iff.1 hop'
      rw [← Option.some.inj hop'] at hseen
      rcases rest_transaction hseen S.world rfl with ⟨-, e, hthrow⟩ | ⟨u, db, hcommit, heffect, -⟩
      · cases hthrow.symm.trans hdone
      · rw [heffect]
        obtain ⟨r, hr, hrep⟩ := (reserved_of_run hlinked hcommit).reply
        rw [event_of_reserveDriverInput hinput] at hrep
        exact ⟨r, hr, hrep, Or.inl hty⟩
    · next hty =>
      obtain ⟨input, hinput, hop'⟩ := Option.bind_eq_some_iff.1 hop'
      rw [← Option.some.inj hop'] at hseen
      rcases rest_transaction hseen S.world rfl with ⟨-, e, hthrow⟩ | ⟨u, db, hcommit, heffect, -⟩
      · cases hthrow.symm.trans hdone
      · rw [heffect]
        obtain ⟨r, hr, hrep⟩ := (released_of_commit hlinked hcommit).reply
        rw [event_of_releaseDriverInput hinput] at hrep
        exact ⟨r, hr, hrep, Or.inr hty⟩
    · cases hop'

/-- Events carry their own ids, no two of them the same one, and 'duplicate' means a
redelivery, in exactly the runs where no Driver transaction commits. -/
theorem eventIdentity_iff (hrun : (fleet settings).Run ts S) :
    EventIdentity ts S ↔ ∀ t ∈ ts, ¬ DriverCommits t := by
  have hN := sound_wiring settings
  constructor
  · rintro ⟨hown, -, -⟩ t ht hc
    obtain ⟨l, -, hpre, hs⟩ := hrun.of_mem ht
    have hhap := Wiring.happens_of_step hs
    have ho := Bus.orderly_of_run hN hpre
    obtain ⟨m, r, event, hm, hevent, hr, hne, hid⟩ :=
      reply_of_commit ho (linked_of_run hpre) hhap hc
    have hkeep {p : Queue × Message} (hp : p ∈ (wiring settings).posts t.post.world) :
        p ∈ (wiring settings).posts S.world := Bus.posts_of_mem hN hrun ht hp
    obtain ⟨r₁, hr₁, heq₁⟩ := List.mem_map.1 (hkeep (Wiring.mem_posts hr))
    obtain ⟨r₂, hr₂, heq₂⟩ := List.mem_map.1 (hkeep (ho.posts_mono hN hhap hm))
    have hm₁ : r₁.message = r.message := (Prod.mk.inj heq₁).2
    have hm₂ : r₂.message = m := (Prod.mk.inj heq₂).2
    have hid₁ : r₁.eventId = some event.eventId := by
      rw [← hid]
      exact congrArg (fun m : Message => m.payload.string .eventId) hm₁
    have hid₂ : r₂.eventId = some event.eventId := by
      rw [← Message.eventId_of_event hevent]
      exact congrArg (fun m : Message => m.payload.string .eventId) hm₂
    have hsame : r₁.id = r₂.id :=
      Option.some.inj ((hown r₁ hr₁).symm.trans (hid₁.trans (hid₂.symm.trans (hown r₂ hr₂))))
    obtain rfl := (Bus.orderly_of_run hN hrun).eq_of_id hN hr₁ hr₂ hsame
    exact hne (congrArg Message.eventType (hm₁.symm.trans hm₂))
  · intro h
    have hown := ownIds_of_run hrun h
    have ho := Bus.orderly_of_run hN hrun
    refine ⟨hown, ?_, ?_⟩
    · have hmap : S.world.outbox.map OutboxRow.eventId =
          (S.world.outbox.map OutboxRow.id).map some := by
        rw [List.map_map]
        exact List.map_congr_left fun r hr => hown r hr
      rw [hmap]
      exact (ho.fresh.1.sublist (hN.ids S.world)).map (Option.some_injective _)
    · intro l t r hts q m ha
      obtain ⟨hpre, hs⟩ := hrun.split hts
      have ht : t ∈ ts := by simp [hts]
      have hot := Bus.orderly_of_run hN hpre
      have hhap := Wiring.happens_of_step hs
      obtain ⟨event, hm, hevent, hp⟩ := hot.processed_of_duplicate hhap ha
      obtain ⟨u, hu, m', event', ha', hm', hevent', hid⟩ := Bus.answered_of_processed hN hpre hp
      refine ⟨u, hu, m', ha', ?_⟩
      have own {m : Message} {event : ReliableIntegrationEvent}
          (hm : (q, m) ∈ (wiring settings).posts t.pre.world) (hevent : m.event = some event) :
          m.id = event.eventId := by
        obtain ⟨r, hr, heq⟩ := List.mem_map.1
          (Bus.posts_of_mem hN hrun ht (hot.posts_mono hN hhap hm))
        obtain rfl : r.message = m := (Prod.mk.inj heq).2
        exact Option.some.inj ((hown r hr).symm.trans (Message.eventId_of_event hevent))
      rw [own hm' hevent', hid, own hm hevent]

end Runs

section Samples

/-- `DriverCommits`, computed from the call that takes the step. -/
def driverCommits (t : FleetMove) : Bool :=
  match t.label with
  | .advance i _ =>
    match t.pre.parcels i with
    | some ⟨.driverEvents, _, _, some c⟩ =>
      match c.pc with
      | .operation (.step _ next) => (next t.pre.world).isDone
      | _ => false
    | _ => false
  | _ => false

theorem not_driverCommits_of_computed {t : FleetMove} (h : driverCommits t = false) :
    ¬ DriverCommits t := by
  rintro ⟨i, now, ⟨q, m, n, call⟩, c, effect, next, hl, hi, rfl, rfl, hpc, hdone⟩
  simp [driverCommits, hl, hi, hpc, hdone, Proc.isDone] at h

/-- The order's event is published a second time before the relay marks it. -/
def publishedTwice : List FleetLabel :=
  [.request 1 sampleOrder, .work 1, .publish "ready-1" 0, .publish "ready-1" 1,
    .confirm "ready-1" 2,
    .receive 0 (sampleDraw ["dispatch-1", "decision-1", "started-1", "requested-1"]),
    .advance 0 2, .advance 0 2, .advance 0 2, .advance 0 2, .advance 0 2, .settle 0,
    .receive 1 (sampleDraw []), .advance 1 3, .settle 1]

theorem eventIdentity_publishedTwice :
    ∃ S, (fleet sampleSettings).replay emptyFleet publishedTwice = some S ∧
      EventIdentity ((fleet sampleSettings).moves emptyFleet publishedTwice) S := by
  refine ⟨_, rfl, (eventIdentity_iff (System.Run.of_replay init_emptyFleet rfl)).2 fun t ht => ?_⟩
  have hall : ((fleet sampleSettings).moves emptyFleet publishedTwice).all
      (fun t => !driverCommits t) = true := by decide
  exact not_driverCommits_of_computed (by simpa using List.all_eq_true.1 hall t ht)

/-- The dispatch's reservation request is answered with a driver. -/
def reservedLabels : List FleetLabel :=
  startedLabels ++ [.publish "requested-1" 1, .confirm "requested-1" 3,
    .receive 1 (sampleDraw ["reservation-1", "reserved-1"]), .advance 1 3, .advance 1 3,
    .advance 1 3]

/-- The `driver.reserved` row is enqueued under the id of the request. -/
theorem not_eventIdentity :
    ¬ ∀ settings ts S, (fleet settings).Run ts S → EventIdentity ts S := by
  intro hlaw
  obtain ⟨S, hS, hbad⟩ : ∃ S, (fleet sampleSettings).replay emptyFleet reservedLabels = some S ∧
      (S.world.outbox.all fun r => r.eventId = some r.id) = false := ⟨_, rfl, rfl⟩
  have hown := (hlaw _ _ S (System.Run.of_replay init_emptyFleet hS)).own
  have hall : (S.world.outbox.all fun r => r.eventId = some r.id) = true :=
    List.all_eq_true.2 fun r hr => decide_eq_true (hown r hr)
  exact absurd (hbad.symm.trans hall) (by decide)

end Samples

end RouteFast
