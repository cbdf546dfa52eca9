import RouteFast.System.Delivery

/-! Handlers that read in one step and write in a later one: what a snapshot says must have
stayed true. `J seen now` is what a snapshot guarantees of the databases as they are now. -/

namespace RouteFast

open Transition Pool

namespace Bus

variable {W π η : Type} {N : Wiring W π η} {Q : π → Prop} {J : W → W → Prop} {S S' : Bus W π}
  {a : BusLabel π η}

/-- The tasks are the requests made in the run. -/
theorem requested_of_run {init : W → Prop} {ts : List (Move (Bus W π) (BusLabel π η))}
    (hrun : (N.system init).Run ts S) {i : ℕ} {t : Thread W ServiceError Unit π}
    (h : S.tasks i = some t) : ∃ u ∈ ts, u.label = .request i t.request := by
  induction hrun generalizing t with
  | @nil S hinit =>
    rw [hinit.2.2.2.2.2 i] at h
    cases h
  | @snoc ts S S' a hrun hs ih =>
    have old {t : Thread W ServiceError Unit π} (h : S.tasks i = some t) :
        ∃ u ∈ ts ++ [⟨S, a, S'⟩], u.label = .request i t.request := by
      obtain ⟨u, hu, hlabel⟩ := ih h
      exact ⟨u, List.mem_append_left _ hu, hlabel⟩
    cases Wiring.happens_of_step hs with
    | publish | confirm | redeliver | receive | advance | acked | retried | deadLettered | crash =>
      exact old h
    | @request j p hj =>
      by_cases hij : i = j
      · subst hij
        obtain rfl : _ = t := by simpa [setTask] using h
        exact ⟨_, List.mem_append_right _ (List.mem_singleton.2 rfl), rfl⟩
      · exact old (by simpa [setTask, hij] using h)
    | @work j p effect next seen hj =>
      by_cases hij : i = j
      · subst hij
        obtain rfl : _ = t := by simpa [setTask] using h
        exact old (t := ⟨p, .step effect next, seen⟩) hj
      · exact old (by simpa [setTask, hij] using h)

/-- What holds of the databases holds of every snapshot that is still in use. -/
structure Witnessed (J : W → W → Prop) (S : Bus W π) : Prop where
  now : J S.world S.world
  calls : ∀ i x c rest, S.parcels i = some x → x.call = some c → c.pc = .operation rest →
    ∃ seen, Rest c.operation seen rest ∧ ∀ v, seen = some v → J v S.world
  tasks : ∀ i t v, S.tasks i = some t → t.seen = some v → J v S.world

/-- One step keeps what the snapshots guarantee, and its effect is covered by its own. `Q` holds
of the requests that are made. -/
structure Keeps (N : Wiring W π η) (Q : π → Prop) (J : W → W → Prop) (w w' : W) : Prop where
  stable : ∀ v, J v w → J v w'
  request : ∀ p seen effect next, Q p → Rest (N.execute p) seen (.step effect next) →
    (∀ v, seen = some v → J v w) → w' = effect w → J w' w'
  delivery : ∀ q m draw op seen effect next, (q, m) ∈ N.posts w → N.handle q m draw = some op →
    Rest op seen (.step effect next) → (∀ v, seen = some v → J v w) → w' = effect w → J w' w'
  mark : ∀ id now, w' = N.markPublished id now w → J w' w'

theorem Witnessed.step (h : Witnessed J S) (ho : Orderly N S) (hs : N.Happens S a S')
    (hQ : ∀ i t, S.tasks i = some t → Q t.request) (hk : Keeps N Q J S.world S'.world) :
    Witnessed J S' := by
  refine ⟨?_, fun j x' c' rest hx' hc' hpc => ?_, fun j t v hj hv => ?_⟩
  · cases hs with
    | request | publish | redeliver | receive | acked | retried | deadLettered | crash =>
      exact h.now
    | confirm => exact hk.mark _ _ rfl
    | @work i p effect next seen ht =>
      exact hk.request p seen effect next (hQ i _ ht) (ho.tasks i _ ht)
        (fun v hv => h.tasks i _ v ht hv) rfl
    | @advance i now x c c' s hi hc heff =>
      cases heff with
      | duplicate | absent | raced | started | inserted | succeeded | failed => exact h.now
      | operated effect next hpc =>
        obtain ⟨-, ⟨draw, hop⟩, -⟩ := ho.calls i x c hi hc
        obtain ⟨seen, hrest, hseen⟩ := h.calls i x c _ hi hc hpc
        exact hk.delivery _ _ draw _ seen effect next (ho.posted i x hi) hop hrest hseen rfl
  · rcases call_cases hs hx' hc' with hj | ⟨-, event, draw, op, -, -, rfl⟩ |
      ⟨x, c, s, now, hj, hc, rfl, heff, hw, -⟩
    · obtain ⟨seen, hrest, hseen⟩ := h.calls j x' c' rest hj hc' hpc
      exact ⟨seen, hrest, fun v hv => hk.stable v (hseen v hv)⟩
    · cases hpc
    · cases heff with
      | duplicate | absent | raced | succeeded | failed => cases hpc
      | started | inserted =>
        obtain rfl := Pc.operation.inj hpc
        exact ⟨none, .start, fun v hv => by cases hv⟩
      | operated effect next hpc' =>
        obtain rfl := Pc.operation.inj hpc
        obtain ⟨seen, hrest, -⟩ := h.calls j x c _ hj hc hpc'
        refine ⟨some S.world, .next S.world hrest, fun v hv => ?_⟩
        obtain rfl := Option.some.inj hv
        exact hk.stable _ h.now
  · cases hs with
    | publish | confirm | redeliver | receive | advance | acked | retried | deadLettered | crash =>
      exact hk.stable v (h.tasks j t v hj hv)
    | @request i p hi =>
      by_cases hji : j = i
      · obtain rfl : _ = t := by simpa [setTask, hji] using hj
        cases hv
      · exact hk.stable v (h.tasks j t v (by simpa [setTask, hji] using hj) hv)
    | @work i p effect next seen hi =>
      by_cases hji : j = i
      · obtain rfl : _ = t := by simpa [setTask, hji] using hj
        obtain rfl := Option.some.inj hv
        exact hk.stable _ h.now
      · exact hk.stable v (h.tasks j t v (by simpa [setTask, hji] using hj) hv)

/-- The rule: what every step keeps holds of the state reached and of all its snapshots. -/
theorem witnessed_of_run {init : W → Prop} (hN : N.Sound)
    (hinit : ∀ w, init w → N.outbox w = [] → J w w)
    {ts : List (Move (Bus W π) (BusLabel π η))} (hrun : (N.system init).Run ts S)
    (hQ : ∀ u ∈ ts, ∀ i p, u.label = .request i p → Q p)
    (hk : ∀ t ∈ ts, J t.pre.world t.pre.world → Keeps N Q J t.pre.world t.post.world) :
    Witnessed J S := by
  induction hrun with
  | @nil S h =>
    refine ⟨hinit _ h.1.1 h.1.2.1, fun i x c rest hi => ?_, fun i t v hi => ?_⟩
    · rw [h.2.2.1 i] at hi
      cases hi
    · rw [h.2.2.2.2.2 i] at hi
      cases hi
  | snoc hrun hs ih =>
    have hQ' := fun u hu => hQ u (List.mem_append_left _ hu)
    have hw := ih hQ' fun t ht => hk t (List.mem_append_left _ ht)
    refine hw.step (orderly_of_run hN hrun) (Wiring.happens_of_step hs) (fun i t hi => ?_)
      (hk _ (List.mem_append_right _ (List.mem_singleton.2 rfl)) hw.now)
    obtain ⟨u, hu, hlabel⟩ := requested_of_run hrun hi
    exact hQ' u hu i _ hlabel

end Bus

end RouteFast
