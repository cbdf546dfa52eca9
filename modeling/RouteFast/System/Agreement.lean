import RouteFast.System.Coherence

/-! Driver and Dispatch agree on who holds an order's driver once no message between them
is left, if Dispatch drops no report of a reservation before it has acted on one. -/

namespace RouteFast

open Transition Pool ReadCommitted

/-- The messages between Dispatch and Driver. -/
def Between (q : Queue) (m : Message) : Prop :=
  q = .driverEvents ∨ (q = .dispatchEvents ∧ (m.eventType = .driverReserved ∨
    m.eventType = .driverReservationFailed ∨ m.eventType = .driverReleased))

/-- The order's reservation row and its dispatch say the same. -/
structure Agree (w : Databases) (orderId : Uuid) : Prop where
  active_iff : (∃ r, w.driver.reservation orderId = some r ∧ r.status = .active) ↔
    ∃ d, w.dispatch.findByOrderId orderId = some d ∧ d.status = .assigned
  driver : ∀ r d, w.driver.reservation orderId = some r → r.status = .active →
    w.dispatch.findByOrderId orderId = some d → d.driverId = some r.driverId

def AsksRelease (q : Queue) (m : Message) : Prop :=
  q = .driverEvents ∧ m.eventType = .driverReleaseRequested

def ReportsReservation (q : Queue) (m : Message) : Prop :=
  q = .dispatchEvents ∧ m.eventType = .driverReserved

namespace Databases

/-- The reservation of the message's order is released. -/
def Freed (w : Databases) (m : Message) : Prop :=
  ∃ o r, m.string .orderId = some o ∧ w.driver.reservation o = some r ∧ r.status = .released

/-- The message's dispatch has a driver, or has asked for the order's driver to be released. -/
def Acted (w : Databases) (m : Message) : Prop :=
  ∃ d, w.dispatch.row d.id = some d ∧ m.About d ∧
    (d.status.hasDriver ∨ w.ReleaseAsked d.orderId)

end Databases

/-- A report of a reservation is dropped as a duplicate only after Dispatch acted on one. -/
def TimelyDrop (t : FleetMove) : Prop :=
  ∀ m, m.eventType = .driverReserved → t.pre.Answers t.post .dispatchEvents m .duplicate →
    t.pre.world.Acted m

section Steps

variable {settings : Settings} {R : Request → Prop} {P : Queue → Message → Prop}
  {w w' : Databases} {m : Message}

theorem Advance.freed (hadv : Advance settings R P w w') (h : w.driver.Linked) (hm : w.Freed m) :
    w'.Freed m := by
  obtain ⟨o, r, ho, hr, hs⟩ := hm
  cases hadv with
  | idle | saved | created | started | operated => exact ⟨o, r, ho, hr, hs⟩
  | createdDriver id displayName capacity now db hrun =>
    obtain ⟨d, -, -, rfl⟩ := created_of_run hrun
    exact ⟨o, r, ho, hr, hs⟩
  | reserved m input reservationId eventId now locked db _ _ _ hrun =>
    exact ⟨o, r, ho, (reserved_of_run h hrun).reservation_eq h hr, hs⟩
  | released m input eventId now locked db _ _ _ hrun =>
    obtain ⟨r', hr', -, -, hsame⟩ := (released_of_commit h hrun).reservation_eq h hr
    obtain rfl := hsame (Or.inr hs)
    exact ⟨o, r', ho, hr', hs⟩

/-- A dispatch keeps its id and its order, a status that goes with a driver, and its end. -/
theorem Advance.row (hadv : Advance settings R P w w') {d : Dispatch}
    (hd : w.dispatch.row d.id = some d) : ∃ d', w'.dispatch.row d'.id = some d' ∧
      d'.id = d.id ∧ d'.orderId = d.orderId ∧ (d.status.hasDriver → d'.status.hasDriver) ∧
      (d.status = .cancelled → d'.status = .cancelled) := by
  cases hadv with
  | idle | saved | created | createdDriver | reserved | released =>
    exact ⟨d, hd, rfl, rfl, id, id⟩
  | started m e plan decisionId startedId requestedId now =>
    refine ⟨d, ?_, rfl, rfl, id, id⟩
    refine (Table.find_append_singleton (c := Dispatch.id)).trans ?_
    rw [← DispatchDb.row, hd, Option.some_or]
  | operated op e o _ he ho =>
    have hstep := DispatchOp.step_of_outcome ho
    have hid : e.id = op.dispatchId := Table.key_of_find he
    by_cases hde : d.id = e.id
    · obtain rfl : d = e := Option.some.inj (hd.symm.trans (hde ▸ hid ▸ he))
      cases hstep with
      | move hm =>
        refine ⟨_, Table.find_save_self (c := Dispatch.id), ?_⟩
        cases hm with
        | assign _ _ _ _ hs | fail _ _ _ _ hs | compensate _ _ _ _ _ hs | cancel _ _ _ hs =>
          exact ⟨rfl, rfl, by simp [hs, DispatchStatus.hasDriver], by simp [hs]⟩
      | late | idle => exact ⟨d, hd, rfl, rfl, id, id⟩
    · refine ⟨d, ?_, rfl, rfl, id, id⟩
      cases hstep with
      | move hm =>
        refine (Table.find_save_ne (c := Dispatch.id) ?_).trans hd
        cases hm <;> exact fun h => hde h.symm
      | late | idle => exact hd

theorem Advance.acted (hadv : Advance settings R P w w') (hm : w.Acted m) : w'.Acted m := by
  obtain ⟨d, hd, hmd, hact⟩ := hm
  obtain ⟨d', hd', hid, horder, hhas, -⟩ := hadv.row hd
  refine ⟨d', hd', ⟨hid ▸ hmd.1, horder ▸ hmd.2⟩, hact.imp hhas fun hasked => ?_⟩
  exact horder ▸ hasked.mono (Databases.posts_mono hadv.appended)

/-- A request for a release is carried out when it is handled. -/
theorem effective_release (h : Coherent w) :
    Bus.Effective (wiring settings) AsksRelease Databases.Freed w := by
  rintro q m draw op ⟨rfl, hty⟩ hm hop
  have hop' : handleDriverEvent settings m draw = some op := hop
  simp only [handleDriverEvent, hty] at hop'
  obtain ⟨input, hinput, hop'⟩ := Option.bind_eq_some_iff.1 hop'
  obtain rfl := Option.some.inj hop'
  obtain ⟨d, r, -, hmd, -, hr⟩ := h.release _ m hm hty
  obtain ⟨db, hrun, hrel⟩ := released_of_run settings.hashtext draw.locked input (draw.uuid 0) draw.now
    h.linked
  have horder : input.orderId = d.orderId :=
    Option.some.inj ((Message.of_releaseDriverInput hinput).symm.trans hmd.2)
  obtain ⟨effect, next, heq, hfin, hnext, heffect⟩ := atomically_within Databases.driver
    (fun db w => { w with driver := db }) (t := w) hrun
  obtain ⟨r', hr', -, hs, -⟩ := hrel.reservation_eq h.linked hr
  refine ⟨effect, next, heq, hfin, hnext, d.orderId, r', hmd.2, ?_, hs horder⟩
  rw [heffect]
  exact hr'

/-- A named driver is assigned, or its release is requested, unless there is one already. -/
theorem acted_of_outcome {d : Dispatch} {input : ReservationResultInput} {eventId : Uuid}
    {now : Date} {driverId : Uuid} {o : DispatchOutcome} (hd : w.dispatch.row d.id = some d)
    (hm : m.About d) (hdriver : input.driver = some driverId)
    (ho : (DispatchOp.completeReservation input eventId now).outcome d = .ok o) :
    Databases.Acted { w with dispatch := w.dispatch.after o } m := by
  have late (hs : d.status = .failed ∨ d.status = .cancelled) :
      Databases.Acted { w with
        dispatch := w.dispatch.after ⟨none, some (DispatchEvent.releaseRequested d (some driverId)
          "LATE_RESERVATION_COMPENSATION" input.correlationId eventId now)⟩ } m := by
    refine ⟨d, hd, hm, Or.inr ⟨_, List.mem_map.2 ⟨_, List.mem_append_left _
      (List.mem_append_right _ (List.mem_append_right _ (List.mem_singleton.2 rfl))), rfl⟩, rfl, ?_⟩⟩
    exact (requests_releaseRequested _ _ _ _ _ _).about.2
  cases hs : d.status <;> simp only [DispatchOp.outcome, hs, hdriver, Except.ok.injEq] at ho <;>
    subst ho
  case searchingDriver =>
    rw [Dispatch.assign_eq hs]
    exact ⟨_, Table.find_save_self (c := Dispatch.id), hm, Or.inl rfl⟩
  case assigned | compensating => exact ⟨d, hd, hm, Or.inl (by rw [hs]; rfl)⟩
  case failed => exact late (Or.inl hs)
  case cancelled => exact late (Or.inr hs)

theorem effective_report (h : Coherent w) :
    Bus.Effective (wiring settings) ReportsReservation Databases.Acted w := by
  rintro q m draw op ⟨rfl, hty⟩ hm hop
  have hop' : handleDispatchEvent settings m draw = some op := hop
  simp only [handleDispatchEvent, hty] at hop'
  obtain ⟨input, hinput, hop'⟩ := Option.bind_eq_some_iff.1 hop'
  obtain rfl := Option.some.inj hop'
  obtain ⟨d, r, hd, hmd, hr, hmr⟩ := h.reserved _ m hm hty
  obtain ⟨hid, ⟨-, hdriverId⟩ | ⟨hne, -⟩⟩ := Message.of_reservationResultInput hinput
  swap
  · exact absurd hty hne
  have hdriver : input.driver = some r.driverId := by
    rw [ReservationResultInput.driver, ← hdriverId, hmr]
    simpa using h.nonempty _ r hr
  set op : DispatchOp := .completeReservation input (draw.uuid 0) draw.now
  have hrow : w.dispatch.row op.dispatchId = some d := by
    rw [← Option.some.inj (hid.symm.trans hmd.1)] at hd
    exact hd
  obtain ⟨o, ho⟩ : ∃ o, op.outcome d = .ok o := DispatchOp.outcome_completeReservation d input _ _
  have hrun := op.run_body (fun _ _ => false) w.dispatch
  simp only [hrow, ho, Except.map] at hrun
  obtain ⟨effect, next, heq, hfin, hnext, heffect⟩ := atomically_within Databases.dispatch
    (fun db w => { w with dispatch := db }) (t := w) hrun
  exact ⟨effect, next, heq, hfin, hnext, heffect ▸ acted_of_outcome hd hmd hdriver ho⟩

end Steps

section Runs

variable {settings : Settings} {ts : List FleetMove} {S S' : Fleet} {a : FleetLabel}

theorem freed_of_happens (ho : S.Orderly (wiring settings)) (h : S.world.driver.Linked)
    (hs : (wiring settings).Happens S a S') {m : Message} (hm : S.world.Freed m) :
    S'.world.Freed m := by
  rcases advance_of_happens ho hs with ⟨id, now, hw⟩ | hadv
  · exact hw ▸ hm
  · exact hadv.freed h hm

theorem acted_of_happens (ho : S.Orderly (wiring settings))
    (hs : (wiring settings).Happens S a S') {m : Message} (hm : S.world.Acted m) :
    S'.world.Acted m := by
  rcases advance_of_happens ho hs with ⟨id, now, hw⟩ | hadv
  · obtain ⟨d, hd, hmd, hact⟩ := hm
    have hsame : (S.world.markPublished id now).posts = S.world.posts :=
      posts_markPublished settings id now S.world
    rw [hw]
    exact ⟨d, hd, hmd, hact.imp_right fun hasked => hasked.mono fun p hp => hsame ▸ hp⟩
  · exact hadv.acted hm

/-- Requests to the Driver service carry their own ids, so none is taken for another. -/
theorem unique_of_own (ho : S.Orderly (wiring settings)) (h : Coherent S.world)
    {m m' : Message} {event event' : ReliableIntegrationEvent}
    (hm : (Queue.driverEvents, m) ∈ (wiring settings).posts S.world)
    (hm' : (Queue.driverEvents, m') ∈ (wiring settings).posts S.world)
    (hevent : m.event = some event) (hevent' : m'.event = some event')
    (hid : event'.eventId = event.eventId) : m' = m := by
  have hown := (h.own m hm).symm.trans (Message.eventId_of_event hevent)
  have hown' := (h.own m' hm').symm.trans (Message.eventId_of_event hevent')
  obtain ⟨r, hr, heq⟩ := List.mem_map.1 hm
  obtain ⟨r', hr', heq'⟩ := List.mem_map.1 hm'
  obtain ⟨-, rfl⟩ := Prod.mk.inj heq
  obtain ⟨-, rfl⟩ := Prod.mk.inj heq'
  have hsame : r'.id = r.id := Option.some.inj (hown'.trans (hid ▸ hown.symm))
  rw [ho.eq_of_id (sound_wiring settings) hr' hr hsame]

/-- What holds before and after each step of a run. -/
theorem coherent_of_mem (hrun : (fleet settings).Run ts S) {t : FleetMove} (ht : t ∈ ts) :
    (t.pre.Orderly (wiring settings) ∧ Coherent t.pre.world) ∧
    (t.post.Orderly (wiring settings) ∧ Coherent t.post.world) ∧
    (wiring settings).Happens t.pre t.label t.post := by
  obtain ⟨l, -, hpre, hs⟩ := hrun.of_mem ht
  have hN := sound_wiring settings
  have hpost : (fleet settings).Run (l ++ [t]) t.post := hpre.snoc hs
  exact ⟨⟨Bus.orderly_of_run hN hpre, coherent_of_run hpre⟩,
    ⟨Bus.orderly_of_run hN hpost, coherent_of_run hpost⟩, Wiring.happens_of_step hs⟩

/-- Once they are all delivered, every release that was asked for has been carried out. -/
theorem freed_of_run (hrun : (fleet settings).Run ts S)
    (hrest : S.Delivered (wiring settings) AsksRelease) {m : Message}
    (hm : (Queue.driverEvents, m) ∈ S.world.posts) (hty : m.eventType = .driverReleaseRequested) :
    S.world.Freed m := by
  have hN := sound_wiring settings
  have hacc := Bus.accounted_of_run_of_unique (K := AsksRelease) (D := Databases.Freed) hN hrun
    (fun t ht m hm => ?_) (fun t ht => effective_release (coherent_of_mem hrun ht).1.2) ?_
  · exact hacc.of_delivered (Bus.orderly_of_run hN hrun) hrest hm ⟨rfl, hty⟩
  · obtain ⟨⟨ho, h⟩, -, hhap⟩ := coherent_of_mem hrun ht
    exact freed_of_happens ho h.linked hhap hm
  · rintro t ht q m m' event event' ⟨rfl, -⟩ hm hm' hevent hevent' hid
    obtain ⟨-, ⟨ho, h⟩, -⟩ := coherent_of_mem hrun ht
    exact unique_of_own ho h hm hm' hevent hevent' hid

/-- Once they are all delivered, every report of a reservation has been acted on, if none
was dropped too early. -/
theorem acted_of_run (hrun : (fleet settings).Run ts S) (htimely : ∀ t ∈ ts, TimelyDrop t)
    (hrest : S.Delivered (wiring settings) ReportsReservation) {m : Message}
    (hm : (Queue.dispatchEvents, m) ∈ S.world.posts) (hty : m.eventType = .driverReserved) :
    S.world.Acted m := by
  have hN := sound_wiring settings
  have hacc := Bus.accounted_of_run (K := ReportsReservation) (D := Databases.Acted) hN hrun
    (fun t ht m hm => ?_) (fun t ht => effective_report (coherent_of_mem hrun ht).1.2) ?_
  · exact hacc.of_delivered (Bus.orderly_of_run hN hrun) hrest hm ⟨rfl, hty⟩
  · obtain ⟨⟨ho, -⟩, -, hhap⟩ := coherent_of_mem hrun ht
    exact acted_of_happens ho hhap hm
  · rintro t ht q m ⟨rfl, hty⟩ ha
    exact htimely t ht m hty ha

/-- In every run of timely drops, the two services agree wherever nothing between them is
left to deliver. -/
theorem agree_of_run (hrun : (fleet settings).Run ts S) (htimely : ∀ t ∈ ts, TimelyDrop t)
    (hrest : S.Delivered (wiring settings) Between) (orderId : Uuid) :
    Agree S.world orderId := by
  have h := coherent_of_run hrun
  have hfreed {o : Uuid} (hasked : S.world.ReleaseAsked o) {r : DriverReservation}
      (hr : S.world.driver.reservation o = some r) : r.status = .released := by
    obtain ⟨m, hm, hty, ho⟩ := hasked
    obtain ⟨o', r', ho', hr', hs⟩ := freed_of_run hrun
      (hrest.mono fun q m hK => Or.inl hK.1) hm hty
    obtain rfl : o = o' := Option.some.inj (ho.symm.trans ho')
    obtain rfl : r = r' := Option.some.inj (hr.symm.trans hr')
    exact hs
  -- an active row stems from a report that has been acted on, and not by a release
  have hactive {r : DriverReservation} (hr : S.world.driver.reservation orderId = some r)
      (hs : r.status = .active) : ∃ d, S.world.dispatch.findByOrderId orderId = some d ∧
        d.status = .assigned ∧ d.driverId = some r.driverId := by
    obtain ⟨m, hm, hty, ho⟩ := h.reported orderId r hr
    obtain ⟨d, hd, hmd, hact⟩ := acted_of_run hrun htimely
      (hrest.mono fun q m hK => Or.inr ⟨hK.1, Or.inl hK.2⟩) hm hty
    obtain rfl : d.orderId = orderId := Option.some.inj (hmd.2.symm.trans ho)
    have hnot : ¬ S.world.ReleaseAsked d.orderId := fun hasked => by
      rw [hfreed hasked hr] at hs
      cases hs
    have hhas := hact.resolve_right hnot
    have hassigned : d.status = .assigned := by
      cases hst : d.status with
      | searchingDriver | failed =>
        rw [hst] at hhas
        cases hhas
      | assigned => rfl
      | compensating => exact absurd (h.compensated _ d hd (Or.inl hst)) hnot
      | cancelled => exact absurd (h.compensated _ d hd (Or.inr hst)) hnot
    obtain ⟨driverId, hdd⟩ := Option.ne_none_iff_exists'.1 ((h.driver _ d hd).1 hhas)
    obtain ⟨r', hr', hsame⟩ := h.held _ d driverId hd hdd
    obtain rfl : r = r' := Option.some.inj (hr.symm.trans hr')
    exact ⟨d, Table.find_of_mem h.orders (Table.mem_of_find hd), hassigned, hsame ▸ hdd⟩
  refine ⟨⟨fun ⟨r, hr, hs⟩ => ?_, fun ⟨d, hd, hs⟩ => ?_⟩, fun r d hr hs hd => ?_⟩
  · obtain ⟨d, hd, hassigned, -⟩ := hactive hr hs
    exact ⟨d, hd, hassigned⟩
  · obtain rfl : d.orderId = orderId := Table.key_of_find hd
    have hrow : S.world.dispatch.row d.id = some d :=
      Table.find_of_mem h.ids (Table.mem_of_find hd)
    have hhas : d.status.hasDriver := by rw [hs]; rfl
    obtain ⟨driverId, hdd⟩ := Option.ne_none_iff_exists'.1 ((h.driver _ d hrow).1 hhas)
    obtain ⟨r, hr, -⟩ := h.held _ d driverId hrow hdd
    refine ⟨r, hr, ?_⟩
    cases hst : r.status with
    | active => rfl
    | released =>
      -- a release is asked of an ended dispatch only
      obtain ⟨m, hm, hty, ho⟩ := h.released _ r hr hst
      obtain ⟨e, r', he, hme, hend, -⟩ := h.release _ m hm hty
      obtain rfl := h.eq_of_order hrow he (Option.some.inj (hme.2.symm.trans ho))
      simp [Dispatch.Ended, hs] at hend
  · obtain ⟨e, he, -, hdriver⟩ := hactive hr hs
    obtain rfl : d = e := Option.some.inj (hd.symm.trans he)
    exact hdriver

end Runs

section Samples

instance (q : Queue) (m : Message) : Decidable (Between q m) := inferInstanceAs (Decidable (_ ∨ _))

/-- No report of a reservation can be dropped in this state, or its dispatch is assigned. -/
def timely (S : Fleet) : Bool :=
  S.world.posts.all fun p => p.1 ≠ .dispatchEvents || p.2.eventType ≠ .driverReserved ||
    (p.2.event.all fun event => ¬ (S.inbox .dispatchEvents).Processed event.eventId) ||
    S.world.dispatch.dispatches.any fun d => p.2.string .dispatchId = some d.id &&
      p.2.string .orderId = some d.orderId && d.status.hasDriver

theorem timelyDrop_of_computed {settings : Settings} {ts : List FleetMove} {S : Fleet}
    (hrun : (fleet settings).Run ts S) {t : FleetMove} (ht : t ∈ ts) (h : timely t.pre = true) :
    TimelyDrop t := by
  obtain ⟨⟨ho, hc⟩, -, hs⟩ := coherent_of_mem hrun ht
  intro m hty ha
  obtain ⟨event, hm, hevent, hp⟩ := ho.processed_of_duplicate hs ha
  have hall := List.all_eq_true.1 h _ hm
  simp only [hty, hevent, hp, ne_eq, not_true_eq_false, decide_false, Bool.or_false,
    Bool.false_or, Option.all_some, List.any_eq_true, Bool.and_eq_true, decide_eq_true_eq] at hall
  obtain ⟨d, hd, ⟨hid, horder⟩, hhas⟩ := hall
  exact ⟨d, Table.find_of_mem hc.ids hd, ⟨hid, horder⟩, Or.inl hhas⟩

/-- The report of the reservation is published twice; the second copy is dropped. -/
def agreedLabels : List FleetLabel :=
  startedLabels ++ deliver "requested-1" (sampleDraw ["reservation-1", "reserved-1"]) 4 ++
    [.publish "reserved-1" 1] ++ deliver "reserved-1" (sampleDraw ["assigned-1"]) 4 ++
    [.receive 1 (sampleDraw []), .advance 1 2, .settle 1]

theorem agree_agreedLabels :
    ∃ S, (fleet sampleSettings).replay emptyFleet agreedLabels = some S ∧
      Agree S.world "order-1" := by
  obtain ⟨S, hS, hnone, hrows⟩ : ∃ S,
      (fleet sampleSettings).replay emptyFleet agreedLabels = some S ∧
      (∀ i < 2, (S.parcels i).isNone) ∧
      ∀ r ∈ S.world.outbox, Between r.targetQueue r.message → r.status ≠ .pending :=
    ⟨_, rfl, by decide, by decide⟩
  have hrun := System.Run.of_replay init_emptyFleet hS
  refine ⟨S, hS, agree_of_run hrun (fun t ht => timelyDrop_of_computed hrun ht ?_)
    (delivered_of_replay hS (by decide) hnone hrows) "order-1"⟩
  have hall : ((fleet sampleSettings).moves emptyFleet agreedLabels).all
      (fun t => timely t.pre) = true := by decide
  exact List.all_eq_true.1 hall t ht

/-- The driver's row is locked when the reservation is first tried; that delivery dies
before its event is marked, and the next one finds the row free. -/
def disagreedLabels : List FleetLabel :=
  startedLabels ++
    [.publish "requested-1" 0, .confirm "requested-1" 2,
      .receive 0 { sampleDraw ["reservation-1", "failed-1"] with locked := fun _ _ => true },
      .advance 0 2, .advance 0 2, .advance 0 2, .crash 0,
      .receive 0 (sampleDraw ["reservation-2", "reserved-1"]),
      .advance 0 2, .advance 0 2, .advance 0 2, .settle 0] ++
    deliver "failed-1" (sampleDraw ["failed-2"]) 4 ++ deliver "reserved-1" (sampleDraw []) 1

/-- Both results carry the id of the request, so Dispatch drops the second one. -/
theorem not_agree :
    ¬ ∀ settings ts S orderId, (fleet settings).Run ts S →
      S.Delivered (wiring settings) Between → Agree S.world orderId := by
  intro hlaw
  obtain ⟨S, hS, hnone, hrows, hactive, hfailed⟩ : ∃ S,
      (fleet sampleSettings).replay emptyFleet disagreedLabels = some S ∧
      (∀ i < 1, (S.parcels i).isNone) ∧
      (∀ r ∈ S.world.outbox, Between r.targetQueue r.message → r.status ≠ .pending) ∧
      (∃ r ∈ S.world.driver.reservation "order-1", r.status = .active) ∧
      ∀ d ∈ S.world.dispatch.findByOrderId "order-1", d.status = .failed :=
    ⟨_, rfl, by decide, by decide, by decide, by decide⟩
  have hagree := hlaw _ _ S "order-1" (System.Run.of_replay init_emptyFleet hS)
    (delivered_of_replay hS (by decide) hnone hrows)
  obtain ⟨d, hd, hs⟩ := hagree.active_iff.1 hactive
  rw [hfailed d hd] at hs
  cases hs

end Samples

end RouteFast
