import RouteFast.System.Once
import RouteFast.System.Ranking

/-! The decision recorded for a dispatch, against what came of it: the request it was sent with,
the reservation that was made, the driver that was assigned. -/

namespace RouteFast

open Transition ReadCommitted

/-- `DispatchDecisionReader.findByDispatchId` -/
def DispatchDb.findByDispatchId (db : DispatchDb) (dispatchId : Uuid) : Option DispatchDecision :=
  Table.find DispatchDecision.dispatchId dispatchId db.decisions

def DispatchDecision.ranked (c : DispatchDecision) : List Uuid :=
  c.rankedCandidates.map ScoredDriverCandidate.driverId

/-- A reservation request asks for what was decided, or for any driver if nothing was. -/
structure Message.Follows (m : Message) (decision : Option DispatchDecision) : Prop where
  candidates : m.candidateDriverIds = decision.map DispatchDecision.ranked
  strategy : m.string .selectionStrategy =
    some ((decision.map DispatchDecision.strategyVersion).getD "capacity-fallback-v1")

section Drivers

variable {hashtext : String → ℤ} {locked : ℕ → DriverLock → Bool} {db db' : DriverDb}
  {reservationId eventId : Uuid} {now : Date} {u : Unit} {r : DriverReservation}

/-- A row that `reserve` adds is of the order and the dispatch it was called with, and of one of
the candidates if there is a list of them. -/
theorem reservation_of_reserve {input : ReserveDriverInput} (hlinked : db.Linked)
    (hrun : (DriverReservations.reserve hashtext input reservationId eventId now).run locked db =
      .ok (u, db')) (hr : r ∈ db'.reservations) (hnew : r ∉ db.reservations) :
    r.orderId = input.orderId ∧ r.dispatchId = input.dispatchId ∧
      ∀ candidates, input.candidateDriverIds = some candidates → r.driverId ∈ candidates := by
  cases reserved_of_run hlinked hrun with
  | again | failed => exact absurd hr hnew
  | @granted d d' hnot hd helig hres hid hnone =>
    obtain rfl : r = input.row reservationId d'.id now :=
      (Table.mem_of_mem_save hr).resolve_right hnew
    refine ⟨rfl, rfl, fun candidates hcandidates => ?_⟩
    obtain ⟨locked', hamong⟩ := Tx.exists_among
      (DriverReservations.reserve hashtext input reservationId eventId now) locked db []
    rw [view_nil, hrun] at hamong
    have hsplit := @among_reserve (fun _ => db) locked' candidates input reservationId eventId now
      hashtext hcandidates fun _ => hnone
    rcases hsplit with ⟨writes, hwrites, hfollows⟩ | ⟨⟨n, htaken⟩, -⟩
    · rw [hwrites] at hamong
      have hview : view db writes = _ := (Prod.mk.inj (Except.ok.inj hamong)).2
      exact (hfollows.ranked db _ (by rw [hview]; exact hr)).resolve_left hnew
    · exact absurd hid htaken

/-- A release leaves a row what it was for. -/
theorem reservation_of_release {input : ReleaseDriverInput} (hlinked : db.Linked)
    (hrun : (DriverReservations.release hashtext input eventId now).run locked db =
      .ok (u, db')) (hr : r ∈ db'.reservations) :
    ∃ x ∈ db.reservations, r.orderId = x.orderId ∧ r.dispatchId = x.dispatchId ∧
      r.driverId = x.driverId := by
  cases released_of_commit hlinked hrun with
  | unknown | again => exact ⟨r, hr, rfl, rfl, rfl⟩
  | @freed x d hx hact hd =>
    rcases Table.mem_of_mem_save hr with rfl | hr
    · exact ⟨x, Table.mem_of_find hx, rfl, rfl, rfl⟩
    · exact ⟨r, hr, rfl, rfl, rfl⟩

end Drivers

/-- The dispatch and the candidates `reserve` is called with are those of the message. -/
theorem Message.dispatch_of_reserveDriverInput {m : Message} {input : ReserveDriverInput}
    (h : m.reserveDriverInput = some input) : m.string .dispatchId = some input.dispatchId ∧
      m.candidateDriverIds = input.candidateDriverIds := by
  obtain ⟨orderId, -, h⟩ := Option.bind_eq_some_iff.1 h
  obtain ⟨dispatchId, hdispatch, h⟩ := Option.bind_eq_some_iff.1 h
  obtain ⟨correlationId, -, h⟩ := Option.bind_eq_some_iff.1 h
  rw [hdispatch, ← Option.some.inj h]
  exact ⟨rfl, rfl⟩

/-- The decisions are one for each dispatch, and all that is asked and done follows them. -/
structure Audited (w : Databases) : Prop where
  unique : (w.dispatch.decisions.map DispatchDecision.dispatchId).Nodup
  dispatch : ∀ c ∈ w.dispatch.decisions, ∃ d, w.dispatch.row c.dispatchId = some d
  selected : ∀ c ∈ w.dispatch.decisions, c.selectedCandidateId = c.ranked.head?
  requested : ∀ q m dispatchId, (q, m) ∈ w.posts → m.eventType = .driverReservationRequested →
    m.string .dispatchId = some dispatchId → m.Follows (w.dispatch.findByDispatchId dispatchId)
  rooted : ∀ r ∈ w.driver.reservations, ∃ d, w.dispatch.row d.id = some d ∧
    d.id = r.dispatchId ∧ d.orderId = r.orderId
  ranked : ∀ r ∈ w.driver.reservations, ∀ c, w.dispatch.findByDispatchId r.dispatchId = some c →
    r.driverId ∈ c.ranked

section Steps

variable {settings : Settings} {R : Request → Prop} {P : Queue → Message → Prop}
  {w w' : Databases} {d : Dispatch}

theorem follows_requested (d : Dispatch) (plan : Option DispatchStartPlan)
    (decisionId requestedId : Uuid) (now : Date) :
    (DispatchEvent.reservationRequested d plan requestedId now).message.Follows
      (plan.map (dispatchDecision decisionId d)) := by
  cases plan with
  | none => exact ⟨rfl, rfl⟩
  | some plan => exact ⟨rfl, rfl⟩

/-- Of the messages a step sends, only `workflow.start` asks for a reservation. -/
theorem Audited.step (h : Audited w)
    (hdecisions : w'.dispatch.decisions = w.dispatch.decisions)
    (hrow : ∀ d, w.dispatch.row d.id = some d →
      ∃ d', w'.dispatch.row d'.id = some d' ∧ d'.id = d.id ∧ d'.orderId = d.orderId)
    (hposts : ∀ q m, (q, m) ∈ w'.posts → (q, m) ∈ w.posts ∨
      m.eventType ≠ .driverReservationRequested)
    (hreservations : ∀ r ∈ w'.driver.reservations, (∃ x ∈ w.driver.reservations,
        r.orderId = x.orderId ∧ r.dispatchId = x.dispatchId ∧ r.driverId = x.driverId) ∨
      (∃ d, w.dispatch.row d.id = some d ∧ d.id = r.dispatchId ∧ d.orderId = r.orderId) ∧
        ∀ c, w.dispatch.findByDispatchId r.dispatchId = some c → r.driverId ∈ c.ranked) :
    Audited w' := by
  have hfind (id : Uuid) : w'.dispatch.findByDispatchId id = w.dispatch.findByDispatchId id := by
    unfold DispatchDb.findByDispatchId
    rw [hdecisions]
  refine ⟨hdecisions ▸ h.unique, fun c hc => ?_, hdecisions ▸ h.selected,
    fun q m id hm hty hid => ?_, fun r hr => ?_, fun r hr c hc => ?_⟩
  · obtain ⟨d, hd⟩ := h.dispatch c (hdecisions ▸ hc)
    have hid : d.id = c.dispatchId := Table.key_of_find hd
    obtain ⟨d', hd', hsame, -⟩ := hrow d (hid ▸ hd)
    exact ⟨d', by rw [← hid, ← hsame, hd']⟩
  · rw [hfind]
    exact h.requested q m id ((hposts q m hm).resolve_right (not_not.2 hty)) hty hid
  · have hold : ∃ d, w.dispatch.row d.id = some d ∧ d.id = r.dispatchId ∧
        d.orderId = r.orderId := by
      rcases hreservations r hr with ⟨x, hx, horder, hdispatch, -⟩ | ⟨hroot, -⟩
      · rw [horder, hdispatch]
        exact h.rooted x hx
      · exact hroot
    obtain ⟨d, hd, hid, horder⟩ := hold
    obtain ⟨d', hd', hid', horder'⟩ := hrow d hd
    exact ⟨d', hd', hid'.trans hid, horder'.trans horder⟩
  · rw [hfind] at hc
    rcases hreservations r hr with ⟨x, hx, -, hdispatch, hdriver⟩ | ⟨-, hranked⟩
    · rw [hdriver]
      exact h.ranked x hx c (hdispatch ▸ hc)
    · exact hranked c hc

/-- The decision of a new dispatch is found under its id, and the others as before. -/
theorem find_decision {decisions : List DispatchDecision} (d : Dispatch)
    (plan : Option DispatchStartPlan) (decisionId : Uuid)
    (hnone : Table.find DispatchDecision.dispatchId d.id decisions = none) (id : Uuid) :
    Table.find DispatchDecision.dispatchId id
        (decisions ++ (plan.map (dispatchDecision decisionId d)).toList) =
      if d.id = id then plan.map (dispatchDecision decisionId d)
      else Table.find DispatchDecision.dispatchId id decisions := by
  cases plan with
  | none =>
    simp only [Option.map_none, Option.toList_none, List.append_nil]
    split_ifs with hid
    · rw [← hid, hnone]
    · rfl
  | some plan =>
    have hfind := Table.find_append_singleton (c := DispatchDecision.dispatchId)
      (t := decisions) (r := dispatchDecision decisionId d plan) (k := id)
    refine hfind.trans ?_
    have hkey : (dispatchDecision decisionId d plan).dispatchId = d.id := rfl
    by_cases hid : d.id = id
    · subst hid
      rw [hnone, Option.none_or, hkey, if_pos rfl, if_pos rfl, Option.map_some]
    · rw [hkey, if_neg hid, if_neg hid, Option.or_none]

/-- A dispatch starts, with its decision if there was a plan. -/
theorem Audited.started (h : Audited w) (hc : Coherent w) (plan : Option DispatchStartPlan)
    (decisionId : Uuid) (hnone : w.dispatch.row d.id = none)
    (hdispatches : w'.dispatch.dispatches = w.dispatch.dispatches ++ [d])
    (hdecisions : w'.dispatch.decisions =
      w.dispatch.decisions ++ (plan.map (dispatchDecision decisionId d)).toList)
    (hposts : ∀ q m, (q, m) ∈ w'.posts → (q, m) ∈ w.posts ∨
      (m.Follows (plan.map (dispatchDecision decisionId d)) ∧ m.About d) ∨
        m.eventType ≠ .driverReservationRequested)
    (hreservations : w'.driver.reservations = w.driver.reservations) : Audited w' := by
  have hundecided : Table.find DispatchDecision.dispatchId d.id w.dispatch.decisions = none := by
    refine Table.find_eq_none_iff.2 fun c hc heq => ?_
    obtain ⟨e, he⟩ := h.dispatch c hc
    rw [heq, hnone] at he
    cases he
  have hrow (id : Uuid) : w'.dispatch.row id =
      (w.dispatch.row id).or (if d.id = id then some d else none) := by
    unfold DispatchDb.row
    rw [hdispatches]
    exact Table.find_append_singleton
  have hfind (id : Uuid) : w'.dispatch.findByDispatchId id =
      if d.id = id then plan.map (dispatchDecision decisionId d)
      else w.dispatch.findByDispatchId id := by
    unfold DispatchDb.findByDispatchId
    rw [hdecisions]
    exact find_decision d plan decisionId hundecided id
  -- what there was is of other dispatches
  have hother {id : Uuid} {e : Dispatch} (he : w.dispatch.row id = some e) : d.id ≠ id := by
    rintro rfl
    rw [hnone] at he
    cases he
  refine ⟨?_, fun c hc => ?_, fun c hc => ?_, fun q m id hm hty hid => ?_, fun r hr => ?_,
    fun r hr c hc => ?_⟩
  · rw [hdecisions]
    cases plan with
    | none => simpa using h.unique
    | some plan => exact Table.nodup_append_of_find h.unique hundecided
  · rw [hdecisions] at hc
    simp only [hrow]
    rcases List.mem_append.1 hc with hc | hc
    · obtain ⟨e, he⟩ := h.dispatch c hc
      exact ⟨e, by rw [he, Option.some_or]⟩
    · obtain ⟨p, -, rfl⟩ := Option.map_eq_some_iff.1 (Option.mem_toList.1 hc)
      exact ⟨d, by simp [dispatchDecision, hnone]⟩
  · rw [hdecisions] at hc
    rcases List.mem_append.1 hc with hc | hc
    · exact h.selected c hc
    · obtain ⟨p, -, rfl⟩ := Option.map_eq_some_iff.1 (Option.mem_toList.1 hc)
      exact (List.head?_map ..).symm
  · rw [hfind]
    rcases hposts q m hm with hm | ⟨hfollows, hmd⟩ | hne
    · obtain ⟨e, he, hme⟩ := hc.requested q m hm hty
      obtain rfl : e.id = id := Option.some.inj (hme.1.symm.trans hid)
      rw [if_neg (hother he)]
      exact h.requested q m e.id hm hty hid
    · obtain rfl : d.id = id := Option.some.inj (hmd.1.symm.trans hid)
      rwa [if_pos rfl]
    · exact absurd hty hne
  · obtain ⟨e, he, hid, horder⟩ := h.rooted r (hreservations ▸ hr)
    exact ⟨e, by rw [hrow, he, Option.some_or], hid, horder⟩
  · have hr : r ∈ w.driver.reservations := hreservations ▸ hr
    obtain ⟨e, he, hid, -⟩ := h.rooted r hr
    rw [hfind, if_neg (hid ▸ hother he)] at hc
    exact h.ranked r hr c hc

theorem Advance.audited (hadv : Advance settings R (fun q m => (q, m) ∈ w.posts) w w')
    (hc : Coherent w) (h : Audited w) : Audited w' := by
  have hrow (d : Dispatch) (hd : w.dispatch.row d.id = some d) : ∃ d',
      w'.dispatch.row d'.id = some d' ∧ d'.id = d.id ∧ d'.orderId = d.orderId := by
    obtain ⟨d', hd', hid, horder, -⟩ := hadv.row hd
    exact ⟨d', hd', hid, horder⟩
  have kept (r : DriverReservation) (hr : r ∈ w.driver.reservations) :
      ∃ x ∈ w.driver.reservations,
        r.orderId = x.orderId ∧ r.dispatchId = x.dispatchId ∧ r.driverId = x.driverId :=
    ⟨r, hr, rfl, rfl, rfl⟩
  cases hadv with
  | idle => exact h
  | saved p read order =>
    exact h.step rfl hrow (fun q m hm => Or.inl hm) fun r hr => Or.inl (kept r hr)
  | created order c key eventId now result db hs hrun =>
    refine h.step rfl hrow (Databases.posts_of_rows (fun r hr => ?_) (fun r hr => Or.inl hr)
      fun r hr => Or.inl hr) fun r hr => Or.inl (kept r hr)
    refine (posted_of_created hrun r hr).imp_right fun hnew => ?_
    rw [show r.message.eventType = r.eventType from rfl, hnew.2]
    rintro ⟨⟩
  | started m d plan decisionId startedId requestedId now hm hty horder hs hdriver hnone =>
    refine h.started hc plan decisionId hnone rfl rfl (Databases.posts_of_rows
      (fun r hr => Or.inl hr) (fun r hr => ?_) fun r hr => Or.inl hr) rfl
    refine (List.mem_append.1 hr).imp_right fun hr => ?_
    rcases List.mem_pair.1 hr with rfl | rfl
    · exact Or.inr (by rintro ⟨⟩)
    · exact Or.inl ⟨follows_requested d plan decisionId requestedId now,
        (requests_reservationRequested d plan requestedId now).about⟩
  | operated op d o hop hd ho =>
    refine h.step rfl hrow (Databases.posts_of_rows (fun r hr => Or.inl hr) (fun r hr => ?_)
      fun r hr => Or.inl hr) fun r hr => Or.inl (kept r hr)
    refine (List.mem_append.1 hr).imp_right fun hr => ?_
    have hr : o.event = some r := Option.mem_toList.1 hr
    cases DispatchOp.step_of_outcome ho with
    | idle => cases hr
    | late =>
      obtain rfl := Option.some.inj hr
      rintro ⟨⟩
    | move hm =>
      obtain rfl := Option.some.inj hr
      cases hm <;> rintro ⟨⟩
  | createdDriver id displayName capacity now db hrun =>
    obtain ⟨d, -, -, rfl⟩ := created_of_run hrun
    exact h.step rfl hrow (fun q m hm => Or.inl hm) fun r hr => Or.inl (kept r hr)
  | reserved m input reservationId eventId now locked db hm hty hinput hrun =>
    refine h.step rfl hrow (Databases.posts_of_rows (fun r hr => Or.inl hr) (fun r hr => Or.inl hr)
      fun r hr => ?_) fun r hr => ?_
    · cases reserved_of_run hc.linked hrun <;>
      · refine (List.mem_append.1 hr).imp_right fun hr => ?_
        rw [List.mem_singleton.1 hr]
        rintro ⟨⟩
    · by_cases hold : r ∈ w.driver.reservations
      · exact Or.inl (kept r hold)
      · obtain ⟨horder, hdispatch, hranked⟩ := reservation_of_reserve hc.linked hrun hr hold
        obtain ⟨hmd, hmc⟩ := Message.dispatch_of_reserveDriverInput hinput
        obtain ⟨d, hd, hid, hmo⟩ := hc.requested _ m hm hty
        have hdi : d.id = input.dispatchId := Option.some.inj (hid.symm.trans hmd)
        have hdo : d.orderId = input.orderId :=
          Option.some.inj (hmo.symm.trans (Message.of_reserveDriverInput hinput))
        have hfollows := h.requested _ m _ hm hty hmd
        rw [hdispatch, horder]
        refine Or.inr ⟨⟨d, hd, hdi, hdo⟩, fun c hcd => hranked _ ?_⟩
        rw [← hmc, hfollows.candidates, hcd, Option.map_some]
  | released m input eventId now locked db hm hty hinput hrun =>
    refine h.step rfl hrow (Databases.posts_of_rows (fun r hr => Or.inl hr) (fun r hr => Or.inl hr)
      fun r hr => ?_) fun r hr => Or.inl (reservation_of_release hc.linked hrun hr)
    cases released_of_commit hc.linked hrun <;>
    · refine (List.mem_append.1 hr).imp_right fun hr => ?_
      rw [List.mem_singleton.1 hr]
      rintro ⟨⟩

/-- A decision is recorded together with its dispatch or not at all, and does not change. -/
theorem Advance.decision_eq (hadv : Advance settings R P w w') (h : Audited w)
    (hd : w.dispatch.row d.id = some d) :
    w'.dispatch.findByDispatchId d.id = w.dispatch.findByDispatchId d.id := by
  cases hadv with
  | idle | saved | created | operated | createdDriver | reserved | released => rfl
  | started m e plan decisionId startedId requestedId now hm hty horder hs hdriver hnone =>
    refine (find_decision e plan decisionId ?_ d.id).trans (if_neg ?_)
    · refine Table.find_eq_none_iff.2 fun c hc heq => ?_
      obtain ⟨x, hx⟩ := h.dispatch c hc
      rw [heq, hnone] at hx
      cases hx
    · intro hid
      rw [← hid, hnone] at hd
      cases hd

end Steps

/-- The three services from their first day, the recorded decisions included. -/
def undecidedFleet (settings : Settings) : System Fleet FleetLabel :=
  (wiring settings).system fun w => (w.order.orders = [] ∧ w.dispatch.dispatches = [] ∧
    w.driver.drivers = [] ∧ w.driver.reservations = []) ∧ w.dispatch.decisions = []

section Runs

variable {settings : Settings} {S S' : Fleet} {a : FleetLabel} {ts : List FleetMove} {d : Dispatch}

theorem run_of_undecided (hrun : (undecidedFleet settings).Run ts S) :
    (fleet settings).Run ts S := by
  induction hrun with
  | nil hinit => exact .nil ⟨⟨hinit.1.1.1, hinit.1.2⟩, hinit.2⟩
  | snoc hrun hs ih => exact ih.snoc hs

theorem audited_of_run (hrun : (undecidedFleet settings).Run ts S) : Audited S.world := by
  induction hrun with
  | @nil S hinit =>
    have hout : S.world.outbox = [] := hinit.1.2.1
    have hdecisions : S.world.dispatch.decisions = [] := hinit.1.1.2
    have hreservations : S.world.driver.reservations = [] := hinit.1.1.1.2.2.2
    refine ⟨by simp [hdecisions], by simp [hdecisions], by simp [hdecisions], fun q m id hm => ?_,
      by simp [hreservations], by simp [hreservations]⟩
    simp [Databases.posts, hout] at hm
  | @snoc ts S S' a hrun hs ih =>
    have hrun := run_of_undecided hrun
    rcases advance_of_happens (Bus.orderly_of_run (sound_wiring settings) hrun)
      (Wiring.happens_of_step hs) with ⟨id, now, hw⟩ | hadv
    · have hsame : (S.world.markPublished id now).posts = S.world.posts :=
        posts_markPublished settings id now S.world
      rw [hw]
      exact ih.step rfl (fun d hd => ⟨d, hd, rfl, rfl⟩) (fun q m hm => Or.inl (hsame ▸ hm))
        fun r hr => Or.inl ⟨r, hr, rfl, rfl, rfl⟩
    · exact (hadv.mono fun _ _ h => h.1).audited (coherent_of_run hrun) ih

/-- The dispatch stays, with its decision or without one. -/
theorem decided_of_happens (ho : S.Orderly (wiring settings)) (h : Audited S.world)
    (hs : (wiring settings).Happens S a S') {id : Uuid}
    (hd : (S.world.dispatch.row id).isSome) : (S'.world.dispatch.row id).isSome ∧
      S'.world.dispatch.findByDispatchId id = S.world.dispatch.findByDispatchId id := by
  rcases advance_of_happens ho hs with ⟨_, now, hw⟩ | hadv
  · rw [hw]
    exact ⟨hd, rfl⟩
  · obtain ⟨d, hd⟩ := Option.isSome_iff_exists.1 hd
    obtain rfl : d.id = id := Table.key_of_find hd
    obtain ⟨d', hd', hid, -⟩ := hadv.row hd
    exact ⟨by rw [← hid, hd', Option.isSome_some], hadv.decision_eq h hd⟩

/-- The decision that `findByDispatchId` returns for a dispatch is the one it was started with:
its reservation requests carried that ranking, and whoever it is assigned is on it. -/
theorem decision_of_run (hrun : (undecidedFleet settings).Run ts S)
    (hd : S.world.dispatch.row d.id = some d) :
    (∀ t ∈ ts, (t.post.world.dispatch.row d.id).isSome →
      t.post.world.dispatch.findByDispatchId d.id = S.world.dispatch.findByDispatchId d.id) ∧
    (∀ q m, (q, m) ∈ S.world.posts → m.eventType = .driverReservationRequested → m.About d →
      m.Follows (S.world.dispatch.findByDispatchId d.id)) ∧
    ∀ c, S.world.dispatch.findByDispatchId d.id = some c →
      c.selectedCandidateId = c.ranked.head? ∧
      ∀ driverId, d.driverId = some driverId → driverId ∈ c.ranked := by
  have haudit := audited_of_run hrun
  have hc := coherent_of_run (run_of_undecided hrun)
  refine ⟨fun t ht hrow => ?_, fun q m hm hty hmd => haudit.requested q m d.id hm hty hmd.1,
    fun c hcd => ⟨haudit.selected c (Table.mem_of_find hcd), fun driverId hdriver => ?_⟩⟩
  · obtain ⟨l, r, hts⟩ := List.append_of_mem ht
    refine ((hrun.across (C := fun u => u.pre.Orderly (wiring settings) ∧ Audited u.pre.world)
      (R := fun S S' => (S.world.dispatch.row d.id).isSome → (S'.world.dispatch.row d.id).isSome ∧
        S'.world.dispatch.findByDispatchId d.id = S.world.dispatch.findByDispatchId d.id)
      (fun _ h => ⟨h, rfl⟩) (fun _ _ _ h h' h₀ => ?_) ?_ ?_ hts hrow).2).symm
    · exact ⟨(h' (h h₀).1).1, (h' (h h₀).1).2.trans (h h₀).2⟩
    · intro S a S' hs ⟨ho, haudit⟩
      exact decided_of_happens ho haudit (Wiring.happens_of_step hs)
    · intro u hu
      obtain ⟨l', -, hpre, -⟩ := hrun.of_mem hu
      exact ⟨Bus.orderly_of_run (sound_wiring settings) (run_of_undecided hpre),
        audited_of_run hpre⟩
  · obtain ⟨r, hr, rfl⟩ := hc.held d.id d driverId hd hdriver
    have hmem : r ∈ S.world.driver.reservations := Table.mem_of_find hr
    obtain ⟨e, he, hid, horder⟩ := haudit.rooted r hmem
    obtain rfl := hc.eq_of_order hd he (horder.trans (Table.key_of_find hr))
    exact haudit.ranked r hmem c (hid ▸ hcd)

theorem decision_assigned : ∃ S d c,
    (undecidedFleet sampleSettings).replay emptyFleet assignedLabels = some S ∧
      S.world.dispatch.row d.id = some d ∧ d.driverId = some "driver-1" ∧
      S.world.dispatch.findByDispatchId d.id = some c ∧ "driver-1" ∈ c.ranked := by
  obtain ⟨S, hS, d, c, hd, hdriver, hc⟩ : ∃ S,
      (undecidedFleet sampleSettings).replay emptyFleet assignedLabels = some S ∧
      ∃ d c, S.world.dispatch.row "dispatch-1" = some d ∧ d.driverId = some "driver-1" ∧
      S.world.dispatch.findByDispatchId "dispatch-1" = some c :=
    ⟨_, rfl, _, _, rfl, rfl, rfl⟩
  obtain hid : d.id = "dispatch-1" := Table.key_of_find hd
  rw [← hid] at hd hc
  have hinit : (undecidedFleet sampleSettings).init emptyFleet :=
    ⟨⟨⟨init_emptyFleet.1.1, rfl⟩, init_emptyFleet.1.2⟩, init_emptyFleet.2⟩
  exact ⟨S, d, c, hS, hd, hdriver, hc,
    ((decision_of_run (.of_replay hinit hS) hd).2.2 c hc).2 _ hdriver⟩

end Runs

end RouteFast
