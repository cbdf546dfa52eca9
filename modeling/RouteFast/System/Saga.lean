import RouteFast.Base.Refinement
import RouteFast.System.Decided
import RouteFast.System.Once

/-! The saga of an order, as the two services are meant to play it: a driver is promised, then
assigned, and given back where the search or the trip is called off. What the messages, the
retries and the crashes of a run come to is always a play of it. -/

namespace RouteFast

open Transition Pool ReadCommitted

/-- What has become of an order's driver. `δ` are the drivers. -/
inductive Saga (δ : Type) where
  | idle
  | searching
  /-- A driver is reserved, and the dispatch does not know. -/
  | promised (driver : δ)
  | assigned (driver : δ)
  | failed
  /-- The search has failed, and a driver is reserved. -/
  | stranded (driver : δ)
  | returned (driver : δ)
  | compensating (driver : δ)
  /-- The driver is free again, and the dispatch does not know. -/
  | freed (driver : δ)
  | cancelled (driver : δ)

namespace Saga

variable {δ : Type}

inductive Move : Saga δ → Saga δ → Prop
  | start : Move idle searching
  | promise (driver : δ) : Move searching (promised driver)
  | assign (driver : δ) : Move (promised driver) (assigned driver)
  | fail : Move searching failed
  | strand (driver : δ) : Move (promised driver) (stranded driver)
  | promiseLate (driver : δ) : Move failed (stranded driver)
  | giveBack (driver : δ) : Move (stranded driver) (returned driver)
  | compensate (driver : δ) : Move (assigned driver) (compensating driver)
  | free (driver : δ) : Move (compensating driver) (freed driver)
  | cancel (driver : δ) : Move (freed driver) (cancelled driver)

/-- How many moves lead to it at most. -/
def stage : Saga δ → ℕ
  | idle => 0
  | searching => 1
  | promised _ | failed => 2
  | assigned _ | stranded _ => 3
  | compensating _ | returned _ => 4
  | freed _ => 5
  | cancelled _ => 6

theorem Move.stage_lt {s s' : Saga δ} (h : Move s s') : s.stage < s'.stage := by
  cases h <;> simp [stage]

theorem stage_le (s : Saga δ) : s.stage ≤ 6 := by
  cases s <;> simp [stage]

/-- The dispatch's row. -/
def search : Saga δ → Option (DispatchStatus × Option δ)
  | idle => none
  | searching | promised _ => some (.searchingDriver, none)
  | assigned x => some (.assigned, some x)
  | failed | stranded _ | returned _ => some (.failed, none)
  | compensating x | freed x => some (.compensating, some x)
  | cancelled x => some (.cancelled, some x)

/-- The reservation's row. -/
def hold : Saga δ → Option (δ × DriverReservationStatus)
  | idle | searching | failed => none
  | promised x | assigned x | stranded x | compensating x => some (x, .active)
  | returned x | freed x | cancelled x => some (x, .released)

theorem eq_of_rows {s s' : Saga δ} (hsearch : s.search = s'.search) (hhold : s.hold = s'.hold) :
    s = s' := by
  cases s <;> cases s' <;> simp_all [search, hold]

/-- What a move of the dispatch's row amounts to, if the driver it names is reserved and the one
it lets go of is free. -/
theorem of_dispatchMove {s : Saga Uuid} {d d' : Dispatch} {e : OutboxRow}
    (hmove : DispatchMove d d' e) (hs : s.search = some (d.status, d.driverId))
    (hassign : ∀ x, d'.driverId = some x → ∃ status, s.hold = some (x, status))
    (hcancel : d'.status = .cancelled → ∃ x, s.hold = some (x, .released)) :
    ∃ s', Move s s' ∧ s'.search = some (d'.status, d'.driverId) ∧ s'.hold = s.hold := by
  cases hmove with
  | assign x c eventId now hsearching =>
    obtain ⟨status, hhold⟩ := hassign x rfl
    rw [hsearching] at hs
    cases s <;> simp only [search, hold, Option.some.injEq, Prod.mk.injEq, reduceCtorEq, true_and,
      false_and] at hs hhold
    case promised y =>
      obtain ⟨rfl, -⟩ := hhold
      exact ⟨assigned y, .assign y, rfl, rfl⟩
  | fail reason c eventId now hsearching =>
    rw [hsearching] at hs
    cases s <;> simp only [search, Option.some.injEq, Prod.mk.injEq, reduceCtorEq, true_and,
      false_and] at hs
    case searching => exact ⟨failed, .fail, by rw [← hs]; rfl, rfl⟩
    case promised y => exact ⟨stranded y, .strand y, by rw [← hs]; rfl, rfl⟩
  | compensate x reason c eventId now hassigned hdriver =>
    rw [hassigned] at hs
    cases s <;> simp only [search, Option.some.injEq, Prod.mk.injEq, reduceCtorEq, true_and,
      false_and] at hs
    case assigned y => exact ⟨compensating y, .compensate y, by rw [← hs]; rfl, rfl⟩
  | cancel c eventId now hcompensating =>
    obtain ⟨x, hhold⟩ := hcancel rfl
    rw [hcompensating] at hs
    cases s <;> simp only [search, hold, Option.some.injEq, Prod.mk.injEq, reduceCtorEq, true_and,
      false_and, and_false] at hs hhold
    case freed y => exact ⟨cancelled y, .cancel y, by rw [← hs]; rfl, rfl⟩

/-- A reservation where there was none. -/
theorem of_grant {s : Saga δ} (hsearch : s.search ≠ none) (hhold : s.hold = none) (x : δ) :
    ∃ s', Move s s' ∧ s'.search = s.search ∧ s'.hold = some (x, .active) := by
  cases s <;> simp only [search, hold, ne_eq, not_true_eq_false, reduceCtorEq] at hsearch hhold
  case searching => exact ⟨_, .promise x, rfl, rfl⟩
  case failed => exact ⟨_, .promiseLate x, rfl, rfl⟩

/-- A release of the driver of an ended dispatch. -/
theorem of_release {s : Saga δ} {x : δ} {status : DispatchStatus} {driver : Option δ}
    (hsearch : s.search = some (status, driver))
    (hended : status = .failed ∨ status = .compensating ∨ status = .cancelled)
    (hhold : s.hold = some (x, .active)) :
    ∃ s', Move s s' ∧ s'.search = s.search ∧ s'.hold = some (x, .released) := by
  cases s <;> simp only [search, hold, Option.some.injEq, Prod.mk.injEq, reduceCtorEq, and_true,
    and_false] at hsearch hhold
  case promised | assigned =>
    rw [← hsearch.1] at hended
    simp at hended
  case stranded y => exact ⟨returned y, .giveBack y, rfl, by rw [← hhold]; rfl⟩
  case compensating y => exact ⟨freed y, .free y, rfl, by rw [← hhold]; rfl⟩

end Saga

namespace Databases

/-- What the tables of the two services say of the order. -/
structure Shows (orderId : Uuid) (w : Databases) (s : Saga Uuid) : Prop where
  search : (w.dispatch.findByOrderId orderId).map (fun d => (d.status, d.driverId)) = s.search
  hold : (w.driver.reservation orderId).map (fun r => (r.driverId, r.status)) = s.hold

theorem Shows.unique {w : Databases} {orderId : Uuid} {s s' : Saga Uuid} (h : w.Shows orderId s)
    (h' : w.Shows orderId s') : s = s' :=
  Saga.eq_of_rows (h.search.symm.trans h'.search) (h.hold.symm.trans h'.hold)

/-- Every driver that has been reported as released is. -/
def Fulfilled (w : Databases) : Prop :=
  ∀ q m, (q, m) ∈ w.posts → m.eventType = .driverReleased → w.Freed m

theorem Shows.of_idle {w : Databases} {orderId : Uuid} {s : Saga Uuid} (h : w.Shows orderId s)
    (hnone : w.dispatch.findByOrderId orderId = none) : s = .idle := by
  have hsearch := h.search
  rw [hnone] at hsearch
  cases s <;> simp [Saga.search] at hsearch ⊢

end Databases

section Steps

variable {settings : Settings} {R : Request → Prop} {P : Queue → Message → Prop}
  {w w' : Databases} {orderId : Uuid} {s : Saga Uuid}

/-- A release is reported with the row that says so. -/
theorem Advance.fulfilled (hadv : Advance settings R P w w')
    (hP : ∀ q m, P q m → (q, m) ∈ w.posts) (h : Coherent w) (hful : w.Fulfilled) :
    w'.Fulfilled := by
  have hkept {m : Message} : w.Freed m → w'.Freed m := hadv.freed h.linked
  suffices hnew : ∀ q m, (q, m) ∈ w'.posts →
      (q, m) ∈ w.posts ∨ (m.eventType = .driverReleased → w'.Freed m) by
    intro q m hm hty
    rcases hnew q m hm with hold | hm
    · exact hkept (hful q m hold hty)
    · exact hm hty
  cases hadv with
  | idle | saved => exact fun q m hm => Or.inl hm
  | created order c key eventId now result db hs hrun =>
    refine Databases.posts_of_rows (fun r hr => ?_) (fun r hr => Or.inl hr) fun r hr => Or.inl hr
    refine (posted_of_created hrun r hr).imp_right fun hready hty => ?_
    have hty' : r.eventType = .driverReleased := hty
    rw [hready.2] at hty'
    cases hty'
  | started m d plan decisionId startedId requestedId now =>
    refine Databases.posts_of_rows (fun r hr => Or.inl hr) (fun r hr => ?_) fun r hr => Or.inl hr
    refine (List.mem_append.1 hr).imp_right fun hr hty => ?_
    rcases List.mem_pair.1 hr with rfl | rfl <;> cases hty
  | operated op d o _ hd ho =>
    refine Databases.posts_of_rows (fun r hr => Or.inl hr) (fun r hr => ?_) fun r hr => Or.inl hr
    refine (List.mem_append.1 hr).imp_right fun hr hty => ?_
    have hnone := request_of_outcome ho (Option.mem_toList.1 hr)
    have hty' : r.eventType = .driverReleased := hty
    rw [hty'] at hnone
    cases hnone
  | createdDriver id displayName capacity now db hrun =>
    obtain ⟨d, -, -, rfl⟩ := created_of_run hrun
    exact fun q m hm => Or.inl hm
  | reserved m input reservationId eventId now locked db _ _ _ hrun =>
    refine Databases.posts_of_rows (fun r hr => Or.inl hr) (fun r hr => Or.inl hr) fun r hr => ?_
    cases reserved_of_run h.linked hrun <;>
      refine (List.mem_append.1 hr).imp_right fun hr hty => ?_ <;>
      rw [List.mem_singleton.1 hr] at hty <;>
      cases hty
  | released m input eventId now locked db hm hty hinput hrun =>
    have hrel := released_of_commit h.linked hrun
    obtain ⟨d, r, -, hmd, -, hr⟩ := h.release _ m (hP _ m hm) hty
    have horder : input.orderId = d.orderId :=
      Option.some.inj ((Message.of_releaseDriverInput hinput).symm.trans hmd.2)
    obtain ⟨r', hr', -, hs, -⟩ := hrel.reservation_eq h.linked hr
    -- the reply is about the order whose row is now released
    have freed (driverId : Uuid) : Databases.Freed { w with driver := db }
        (DriverEvent.released input driverId eventId now).message :=
      ⟨d.orderId, r', (about_reply (event_of_releaseDriverInput hinput) hmd (by decide) _ _ _).2,
        hr', hs horder⟩
    refine Databases.posts_of_rows (fun r hr => Or.inl hr) (fun r hr => Or.inl hr) fun x hx => ?_
    cases hrel <;>
      refine (List.mem_append.1 hx).imp_right fun hx _ => ?_ <;>
      rw [List.mem_singleton.1 hx] <;>
      exact freed _

/-- A dispatch that is being compensated is only ever cancelled by a report of the release. -/
theorem Issued.of_compensating {op : DispatchOp} {d d' : Dispatch} {e : OutboxRow}
    (hop : Issued P op) (ho : op.outcome d = .ok ⟨some d', some e⟩)
    (hs : d.status = .compensating) : ∃ m, P .dispatchEvents m ∧ m.eventType = .driverReleased ∧
      m.string .dispatchId = some op.dispatchId := by
  cases op with
  | completeCompensation => exact hop
  | completeReservation | startCompensation | timeout => simp [DispatchOp.outcome, hs] at ho

namespace Databases.Shows

/-- The order's dispatch is inserted. -/
theorem started (hs : w.Shows orderId s) {d : Dispatch} (hsearching : d.status = .searchingDriver)
    (hnone : d.driverId = none) (hfind : w.dispatch.findByOrderId d.orderId = none)
    (hdispatch : w'.dispatch.dispatches = w.dispatch.dispatches ++ [d])
    (hdriver : w'.driver = w.driver) :
    ∃ s', w'.Shows orderId s' ∧ (s' = s ∨ Saga.Move s s') := by
  have hnew : w'.dispatch.findByOrderId orderId =
      (w.dispatch.findByOrderId orderId).or (if d.orderId = orderId then some d else none) := by
    unfold DispatchDb.findByOrderId
    rw [hdispatch, Table.find_append_singleton]
  by_cases ho : d.orderId = orderId
  · subst ho
    obtain rfl := hs.of_idle hfind
    refine ⟨.searching, ⟨?_, hdriver ▸ hs.hold⟩, Or.inr .start⟩
    rw [hnew, hfind, if_pos rfl, Option.none_or, Option.map_some, hsearching, hnone]
    rfl
  · refine ⟨s, ⟨?_, hdriver ▸ hs.hold⟩, Or.inl rfl⟩
    rw [hnew, if_neg ho, Option.or_none, hs.search]

/-- A dispatch is saved. -/
theorem moved (hs : w.Shows orderId s) (hc : Coherent w) {d d' : Dispatch} {e : OutboxRow}
    (hd : w.dispatch.row d.id = some d) (hmove : DispatchMove d d' e)
    (hassign : ∀ x, d'.driverId = some x →
      ∃ r, w.driver.reservation d.orderId = some r ∧ r.driverId = x)
    (hcancel : d'.status = .cancelled →
      ∃ r, w.driver.reservation d.orderId = some r ∧ r.status = .released) :
    ∃ s', Databases.Shows orderId { w with dispatch := w.dispatch.after ⟨some d', some e⟩ } s' ∧
      (s' = s ∨ Saga.Move s s') := by
  have hid : d'.id = d.id := by cases hmove <;> rfl
  have horder : d'.orderId = d.orderId := by cases hmove <;> rfl
  have hnew : (w.dispatch.after ⟨some d', some e⟩).findByOrderId orderId =
      if d'.orderId = orderId then some d' else w.dispatch.findByOrderId orderId :=
    Table.find_save_other hc.ids hc.orders (hid ▸ hd) horder.symm
  by_cases ho : d.orderId = orderId
  · subst ho
    have hfind : w.dispatch.findByOrderId d.orderId = some d :=
      Table.find_of_mem hc.orders (Table.mem_of_find hd)
    have hsearch : s.search = some (d.status, d.driverId) := by
      rw [← hs.search, hfind, Option.map_some]
    have hassign' : ∀ x, d'.driverId = some x → ∃ status, s.hold = some (x, status) := by
      intro x hx
      obtain ⟨r, hr, rfl⟩ := hassign x hx
      exact ⟨r.status, by rw [← hs.hold, hr, Option.map_some]⟩
    have hcancel' : d'.status = .cancelled → ∃ x, s.hold = some (x, .released) := by
      intro hcancelled
      obtain ⟨r, hr, hreleased⟩ := hcancel hcancelled
      exact ⟨r.driverId, by rw [← hs.hold, hr, Option.map_some, hreleased]⟩
    obtain ⟨s', hsaga, hsearch', hhold⟩ := Saga.of_dispatchMove hmove hsearch hassign' hcancel'
    refine ⟨s', ⟨?_, hs.hold.trans hhold.symm⟩, Or.inr hsaga⟩
    rw [hnew, if_pos horder, Option.map_some, hsearch']
  · refine ⟨s, ⟨?_, hs.hold⟩, Or.inl rfl⟩
    rw [hnew, if_neg (horder ▸ ho), hs.search]

/-- The Driver service has handled a request for a reservation. -/
theorem reserved (hs : w.Shows orderId s) (hlinked : w.driver.Linked)
    {input : ReserveDriverInput} {reservationId eventId : Uuid} {now : Date} {db : DriverDb}
    (hrow : w.dispatch.findByOrderId input.orderId ≠ none)
    (hr : Reserved input reservationId eventId now w.driver db) :
    ∃ s', Databases.Shows orderId { w with driver := db } s' ∧ (s' = s ∨ Saga.Move s s') := by
  cases hr with
  | again | failed => exact ⟨s, ⟨hs.search, hs.hold⟩, Or.inl rfl⟩
  | @granted d d' hnot hd helig hres hid hnone =>
    have hnew := hlinked.reservation_save (r := input.row reservationId d'.id now)
      (Or.inl ⟨hid, hnone⟩) orderId
    by_cases ho : input.orderId = orderId
    · subst ho
      have hhold : s.hold = none := by rw [← hs.hold, hnone, Option.map_none]
      have hsearch : s.search ≠ none := by
        rw [← hs.search]
        simpa using hrow
      obtain ⟨s', hsaga, hsearch', hhold'⟩ := Saga.of_grant hsearch hhold d'.id
      refine ⟨s', ⟨hs.search.trans hsearch'.symm, ?_⟩, Or.inr hsaga⟩
      rw [hhold']
      exact congrArg (Option.map fun r => (r.driverId, r.status)) (hnew.trans (if_pos rfl))
    · refine ⟨s, ⟨hs.search, ?_⟩, Or.inl rfl⟩
      rw [← hs.hold]
      exact congrArg (Option.map fun r => (r.driverId, r.status)) (hnew.trans (if_neg ho))

/-- The Driver service has handled a request for a release. -/
theorem released (hs : w.Shows orderId s) (hlinked : w.driver.Linked)
    {input : ReleaseDriverInput} {eventId : Uuid} {now : Date} {db : DriverDb} {d : Dispatch}
    (hfind : w.dispatch.findByOrderId input.orderId = some d) (hended : d.Ended)
    (hr : Released input eventId now w.driver db) :
    ∃ s', Databases.Shows orderId { w with driver := db } s' ∧ (s' = s ∨ Saga.Move s s') := by
  cases hr with
  | unknown | again => exact ⟨s, ⟨hs.search, hs.hold⟩, Or.inl rfl⟩
  | @freed r x hrow hact hx =>
    have hnew := hlinked.reservation_save
      (r := { r with status := .released, releasedAt := some now })
      (Or.inr ⟨r, hlinked.reservationById_of hrow, rfl⟩) orderId
    by_cases ho : input.orderId = orderId
    · subst ho
      have hhold : s.hold = some (r.driverId, .active) := by
        rw [← hs.hold, hrow, Option.map_some, hact]
      have hsearch : s.search = some (d.status, d.driverId) := by
        rw [← hs.search, hfind, Option.map_some]
      obtain ⟨s', hsaga, hsearch', hhold'⟩ := Saga.of_release hsearch hended hhold
      refine ⟨s', ⟨hs.search.trans hsearch'.symm, ?_⟩, Or.inr hsaga⟩
      rw [hhold']
      exact congrArg (Option.map fun r => (r.driverId, r.status))
        (hnew.trans (if_pos (DriverDb.order_of_reservation hrow)))
    · refine ⟨s, ⟨hs.search, ?_⟩, Or.inl rfl⟩
      rw [← hs.hold]
      refine congrArg (Option.map fun r => (r.driverId, r.status)) (hnew.trans (if_neg ?_))
      rwa [DriverDb.order_of_reservation hrow]

end Databases.Shows

/-- A step of the services is a move of the order's saga, or none. -/
theorem Advance.shows (hadv : Advance settings R P w w') (hP : ∀ q m, P q m → (q, m) ∈ w.posts)
    (h : w.Ready) (h' : Coherent w') (hful : w.Fulfilled) (hs : w.Shows orderId s) :
    ∃ s', w'.Shows orderId s' ∧ (s' = s ∨ Saga.Move s s') := by
  have hc := h.coherent
  have hfind {d : Dispatch} (hd : w.dispatch.row d.id = some d) :
      w.dispatch.findByOrderId d.orderId = some d :=
    Table.find_of_mem hc.orders (Table.mem_of_find hd)
  cases hadv with
  | idle | saved | created => exact ⟨s, ⟨hs.search, hs.hold⟩, Or.inl rfl⟩
  | createdDriver id displayName capacity now db hrun =>
    obtain ⟨d, -, -, rfl⟩ := created_of_run hrun
    exact ⟨s, ⟨hs.search, hs.hold⟩, Or.inl rfl⟩
  | started m d plan decisionId startedId requestedId now _ _ _ hsearching hnone _ hfree =>
    exact hs.started hsearching hnone hfree rfl rfl
  | operated op d o hop hd ho =>
    have hid : d.id = op.dispatchId := Table.key_of_find hd
    cases DispatchOp.step_of_outcome ho with
    | late | idle => exact ⟨s, ⟨hs.search, hs.hold⟩, Or.inl rfl⟩
    | @move d' e hmove =>
      have horder : d'.orderId = d.orderId := by cases hmove <;> rfl
      refine hs.moved hc (hid ▸ hd) hmove (fun x hx => ?_) fun hcancelled => ?_
      · rw [← horder]
        exact h'.held d'.id d' x (Table.find_save_self (c := Dispatch.id)) hx
      · have hcompensating : d.status = .compensating := by
          cases hmove with
          | cancel _ _ _ hs => exact hs
          | assign | fail | compensate => cases hcancelled
        -- the report of the release names this dispatch, hence its order
        obtain ⟨m, hm, hty, hdispatch⟩ := hop.of_compensating ho hcompensating
        obtain ⟨x, hx, hmx⟩ := h.about _ m (hP _ m hm) (by simp [hty])
        have hxid : x.id = d.id := by
          rw [hid]
          exact Option.some.inj (hmx.1.symm.trans hdispatch)
        obtain rfl : x = d := Option.some.inj (hx.symm.trans (hxid ▸ hid ▸ hd))
        obtain ⟨o, r, horderId, hr, hreleased⟩ := hful _ m (hP _ m hm) hty
        obtain rfl : x.orderId = o := Option.some.inj (hmx.2.symm.trans horderId)
        exact ⟨r, hr, hreleased⟩
  | reserved m input reservationId eventId now locked db hm hty hinput hrun =>
    obtain ⟨d, hd, hmd⟩ := hc.requested _ m (hP _ m hm) hty
    have horder : d.orderId = input.orderId :=
      Option.some.inj (hmd.2.symm.trans (Message.of_reserveDriverInput hinput))
    refine hs.reserved hc.linked ?_ (reserved_of_run hc.linked hrun)
    rw [← horder, hfind hd]
    simp
  | released m input eventId now locked db hm hty hinput hrun =>
    obtain ⟨d, r, hd, hmd, hended, -⟩ := hc.release _ m (hP _ m hm) hty
    have horder : d.orderId = input.orderId :=
      Option.some.inj (hmd.2.symm.trans (Message.of_releaseDriverInput hinput))
    exact hs.released hc.linked (horder ▸ hfind hd) hended (released_of_commit hc.linked hrun)

end Steps

section Runs

variable {settings : Settings} {ts : List FleetMove} {S S' : Fleet} {a : FleetLabel}
  {orderId : Uuid} {s : Saga Uuid}

theorem fulfilled_of_run (hrun : (fleet settings).Run ts S) : S.world.Fulfilled := by
  induction hrun with
  | @nil S hinit =>
    have hout : S.world.outbox = [] := hinit.1.2.1
    intro q m hm
    simp [Databases.posts, hout] at hm
  | @snoc ts S S' a hrun hs ih =>
    rcases advance_of_happens (Bus.orderly_of_run (sound_wiring settings) hrun)
      (Wiring.happens_of_step hs) with ⟨id, now, hw⟩ | hadv
    · have hposts : (S.world.markPublished id now).posts = S.world.posts :=
        posts_markPublished settings id now S.world
      intro q m hm hty
      rw [hw] at hm ⊢
      exact ih q m (hposts ▸ hm) hty
    · exact hadv.fulfilled (fun _ _ h => h.1) (coherent_of_run hrun) ih

/-- The messages of a run are behind its steps; what is left of them is the saga. -/
theorem shows_of_step (hrun : (fleet settings).Run ts S)
    (hs : (fleet settings).step S a = some S') (hshows : S.world.Shows orderId s) :
    ∃ s', S'.world.Shows orderId s' ∧ (s' = s ∨ Saga.Move s s') := by
  rcases advance_of_happens (Bus.orderly_of_run (sound_wiring settings) hrun)
    (Wiring.happens_of_step hs) with ⟨id, now, hw⟩ | hadv
  · refine ⟨s, ?_, Or.inl rfl⟩
    rw [hw]
    exact ⟨hshows.search, hshows.hold⟩
  · exact hadv.shows (fun _ _ h => h.1) (ready_of_run hrun) (coherent_of_run (hrun.snoc hs))
      (fulfilled_of_run hrun) hshows

/-- Each order's rows in the two services play its saga: in every state of a run they show one
that the moves lead to, each step shows a move or none, and at most six steps show one. -/
theorem saga_of_run (hrun : (fleet settings).Run ts S) (orderId : Uuid) :
    (∃ s, S.world.Shows orderId s ∧ Relation.ReflTransGen Saga.Move .idle s) ∧
    (∀ t ∈ ts, Refines (fun S s => S.world.Shows orderId s) Saga.Move t) ∧
    ∀ us : List FleetMove, us.Sublist ts →
      (∀ u ∈ us, Changes (fun S s => S.world.Shows orderId s) u) → us.length ≤ 6 := by
  have hinit : ∀ S, (fleet settings).init S → S.world.Shows orderId .idle := by
    intro S hinit
    obtain ⟨⟨-, hdispatches, -, hreservations⟩, -, -⟩ := hinit.1
    constructor
    · simp [DispatchDb.findByOrderId, hdispatches, Saga.search]
    · simp [DriverDb.reservation, hreservations, Saga.hold]
  have hstep : ∀ S a S' s, S.world.Shows orderId s → (fleet settings).step S a = some S' →
      (∃ l, (fleet settings).Run l S) → ∃ s', S'.world.Shows orderId s' ∧
        (s' = s ∨ Saga.Move s s') := by
    intro S a S' s hs hstep hreached
    obtain ⟨l, hl⟩ := hreached
    exact shows_of_step hl hstep hs
  have hreached : ∀ t ∈ ts, ∃ l, (fleet settings).Run l t.pre := by
    intro t ht
    obtain ⟨l, -, hl, -⟩ := hrun.of_mem ht
    exact ⟨l, hl⟩
  obtain ⟨⟨s, hs, hreach⟩, hall⟩ :=
    hrun.refines (C := fun t => ∃ l, (fleet settings).Run l t.pre) hinit hstep hreached
  refine ⟨⟨s, hs, hreach⟩, hall, fun us hus hchanges => ?_⟩
  have hlen := hrun.changes_le hinit (fun S s s' h h' => h.unique h')
    (fun _ _ h => Saga.Move.stage_lt h) hall hus hchanges hs
  have hstage := s.stage_le
  omega

end Runs

section Samples

/-- The dispatch learns that the driver is free again. -/
def completedLabels : List FleetLabel :=
  givenBackLabels ++ deliver "released-1" (sampleDraw ["cancelled-1"]) 4

/-- The longest play there is. -/
theorem saga_cancelled : ∃ S, (fleet sampleSettings).replay emptyFleet completedLabels = some S ∧
    S.world.Shows "order-1" (.cancelled "driver-1") ∧
    (∃ s, S.world.Shows "order-1" s ∧ Relation.ReflTransGen Saga.Move .idle s) ∧
    (∀ t ∈ (fleet sampleSettings).moves emptyFleet completedLabels,
      Refines (fun S s => S.world.Shows "order-1" s) Saga.Move t) ∧
    ∀ us : List FleetMove, us.Sublist ((fleet sampleSettings).moves emptyFleet completedLabels) →
      (∀ u ∈ us, Changes (fun S s => S.world.Shows "order-1" s) u) → us.length ≤ 6 := by
  obtain ⟨S, hS, hsearch, hhold⟩ : ∃ S,
      (fleet sampleSettings).replay emptyFleet completedLabels = some S ∧
      (S.world.dispatch.findByOrderId "order-1").map (fun d => (d.status, d.driverId)) =
        some (.cancelled, some "driver-1") ∧
      (S.world.driver.reservation "order-1").map (fun r => (r.driverId, r.status)) =
        some ("driver-1", .released) := ⟨_, rfl, rfl, rfl⟩
  exact ⟨S, hS, ⟨hsearch, hhold⟩, saga_of_run (.of_replay init_emptyFleet hS) "order-1"⟩

end Samples

end RouteFast
