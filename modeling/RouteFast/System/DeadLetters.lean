import RouteFast.System.Delivery

/-! The rule for messages whose handling may fail. A message of the kind is pending, on its
way or dead-lettered, or it has had its effect; it is in none of these places only if its
handler returned without the effect, or its inbox took it for another message. -/

namespace RouteFast

open Transition Pool

/-- As long as `I` holds where its steps are taken, the operation does not return without `D`,
whatever others do in between. -/
def Owes {W : Type} (I D : W → Prop) : Proc W ServiceError Unit → Prop
  | .done _ => False
  | .throw _ => True
  | .step effect next => ∀ w, I w → D (effect w) ∨ Owes I D (next w)

section Owes

variable {W σ α : Type} {I D : W → Prop} {get : W → σ} {put : σ → W → W}

theorem owes_read {next : σ → Proc σ ServiceError α} (hself : ∀ w, put (get w) w = w)
    (h : ∀ w, I w → D w ∨ Owes I D ((next (get w)).within get put)) :
    Owes I D ((Proc.read next).within get put) := by
  intro w hw
  simpa only [id, hself] using h w hw

/-- A transaction has its effect where it commits. -/
theorem owes_atomically {f : σ → Except ServiceError (α × σ)}
    (h : ∀ w, I w → ∀ a s, f (get w) = .ok (a, s) → D (put s w)) :
    Owes I D ((Proc.atomically f).within get put) := by
  intro w hw
  cases hf : f (get w) with
  | error e => exact Or.inr (by simp only [hf]; trivial)
  | ok result =>
    obtain ⟨a, s⟩ := result
    simp only [hf]
    exact Or.inl (h w hw a s hf)

theorem owes_andThen {p : Proc σ ServiceError Unit} (q : Proc σ ServiceError α)
    (h : Owes I D (p.within get put)) : Owes I D ((p.andThen q).within get put) := by
  induction p with
  | done u => exact h.elim
  | throw e => trivial
  | step effect next ih =>
    intro w hw
    exact (h w hw).imp_right (ih (get w))

end Owes

namespace Bus

variable {W π η : Type} {N : Wiring W π η} {J : W → Prop} {K : Queue → Message → Prop}
  {D : W → Message → Prop} {S S' : Bus W π} {a : BusLabel π η}

/-- A handler of the kind returns only when its message has had its effect, if it is run where
`J` holds and the message has been posted. -/
def Honest (N : Wiring W π η) (J : W → Prop) (K : Queue → Message → Prop)
    (D : W → Message → Prop) : Prop :=
  ∀ q m draw op, K q m → N.handle q m draw = some op →
    Owes (fun w => J w ∧ (q, m) ∈ N.posts w) (D · m) op

/-- No message of the kind is taken for one that says something else. -/
def Discerns (N : Wiring W π η) (K : Queue → Message → Prop) (D : W → Message → Prop) (w : W) : Prop :=
  ∀ q m m' event event', K q m → (q, m) ∈ N.posts w → (q, m') ∈ N.posts w →
    m.event = some event → m'.event = some event' → event'.eventId = event.eventId →
    K q m' ∧ (D w m' → D w m)

/-- Where the messages of the kind are, if they have not had their effect. -/
structure Tracked (N : Wiring W π η) (J : W → Prop) (K : Queue → Message → Prop)
    (D : W → Message → Prop) (S : Bus W π) : Prop where
  running : ∀ i x c rest, S.parcels i = some x → x.call = some c → K x.queue x.message →
    c.pc = .operation rest → D S.world x.message ∨
      Owes (fun w => J w ∧ (x.queue, x.message) ∈ N.posts w) (D · x.message) rest
  returned : ∀ i x c result, S.parcels i = some x → x.call = some c → K x.queue x.message →
    c.pc = .returned result → D S.world x.message
  marked : ∀ q m event, K q m → (q, m) ∈ N.posts S.world → m.event = some event →
    (S.inbox q).Processed event.eventId → D S.world m
  sent : ∀ r ∈ N.outbox S.world, K r.targetQueue r.message → r.id ∈ S.sent →
    (∃ i x, S.parcels i = some x ∧ x.queue = r.targetQueue ∧ x.message = r.message) ∨
      D S.world r.message ∨ (r.targetQueue, r.message) ∈ S.dead

theorem tracked_of_init {init : W → Prop} (hinit : (N.system init).init S) :
    Tracked N J K D S := by
  obtain ⟨⟨-, hout, -⟩, -, hparcels, -⟩ := hinit
  refine ⟨fun i x c rest hi => ?_, fun i x c result hi => ?_, fun q m event hK hm => ?_,
    fun r hr => ?_⟩
  · simp [hparcels i] at hi
  · simp [hparcels i] at hi
  · simp [Wiring.posts, hout] at hm
  · simp [hout] at hr

/-- Once none of them is left, a message has had its effect or is dead-lettered. -/
theorem Tracked.of_delivered (h : Tracked N J K D S) (ho : Orderly N S)
    (hrest : S.Delivered N K) {q : Queue} {m : Message} (hm : (q, m) ∈ N.posts S.world)
    (hK : K q m) : D S.world m ∨ (q, m) ∈ S.dead := by
  obtain ⟨r, hr, heq⟩ := List.mem_map.1 hm
  obtain ⟨rfl, rfl⟩ := Prod.mk.inj heq
  have hpub : r.status = .published := by
    cases hs : r.status with
    | pending => exact absurd hs (hrest.pending r hr hK)
    | published => rfl
  rcases h.sent r hr hK (ho.published r hr hpub) with ⟨i, x, hi, hxq, hxm⟩ | hD
  · exact absurd (hxq ▸ hxm ▸ hK) (hrest.parcels i x hi)
  · exact hD

/-- A letter is dead for good. -/
theorem dead_mono (hs : N.Happens S a S') {p : Queue × Message} (hp : p ∈ S.dead) :
    p ∈ S'.dead := by
  cases hs with
  | request | work | publish | confirm | redeliver | receive | advance | acked | retried
    | crash => exact hp
  | deadLettered => exact List.mem_append_left _ hp

/-- A parcel stays unless its call has returned, or it is dead-lettered. -/
theorem parcel_stays_or_dies (hs : N.Happens S a S') {i : ℕ} {x : Parcel W}
    (hi : S.parcels i = some x) :
    (∃ x', S'.parcels i = some x' ∧ x'.queue = x.queue ∧ x'.message = x.message) ∨
    (∃ c result, x.call = some c ∧ c.pc = .returned result) ∨
    (x.queue, x.message) ∈ S'.dead := by
  by_cases hmem : i ∈ a.parcels
  · cases hs with
    | request | work | confirm => cases hmem
    | publish _ _ hj =>
      rw [List.mem_singleton.1 hmem, hj] at hi
      cases hi
    | redeliver _ hj =>
      rw [List.mem_singleton.1 hmem, hj] at hi
      cases hi
    | receive hk | advance hk | retried hk | crash hk =>
      obtain rfl := List.mem_singleton.1 hmem
      obtain rfl := Option.some.inj (hi.symm.trans hk)
      exact Or.inl ⟨_, Function.update_self .., rfl, rfl⟩
    | acked hk hc hpc =>
      obtain rfl := List.mem_singleton.1 hmem
      obtain rfl := Option.some.inj (hi.symm.trans hk)
      exact Or.inr (Or.inl ⟨_, _, hc, hpc⟩)
    | deadLettered hk =>
      obtain rfl := List.mem_singleton.1 hmem
      obtain rfl := Option.some.inj (hi.symm.trans hk)
      exact Or.inr (Or.inr (List.mem_append_right _ (List.mem_singleton.2 rfl)))
  · exact Or.inl ⟨x, (hs.parcels_eq hmem).trans hi, rfl, rfl⟩

theorem Tracked.step (hN : N.Sound) (h : Tracked N J K D S) (ho : Orderly N S)
    (hs : N.Happens S a S') (hJ : J S.world) (hhonest : Honest N J K D)
    (hstable : ∀ m, D S.world m → D S'.world m) (hdiscerns : Discerns N K D S'.world) :
    Tracked N J K D S' := by
  have hposts {p : Queue × Message} (hp : p ∈ N.posts S.world) : p ∈ N.posts S'.world :=
    ho.posts_mono hN hs hp
  refine ⟨fun j x' c' rest hx' hc' hK hpc => ?_, fun j x' c' result hx' hc' hK hpc => ?_,
    fun q m event hK hm hevent hp => ?_, fun r' hr' hK hsent => ?_⟩
  · rcases call_cases hs hx' hc' with hj | ⟨-, event, draw, op, -, -, rfl⟩ |
      ⟨x, c, s, now, hj, hc, rfl, he, hw, -⟩
    · exact (h.running j x' c' rest hj hc' hK hpc).imp_left (hstable _)
    · cases hpc
    · obtain ⟨-, ⟨draw, hop⟩, -⟩ := ho.calls j x c hj hc
      cases he with
      | duplicate | absent | raced | succeeded | failed => cases hpc
      | started | inserted =>
        obtain rfl := Pc.operation.inj hpc
        exact Or.inr (hhonest _ _ _ _ hK hop)
      | operated effect next hpc' =>
        obtain rfl := Pc.operation.inj hpc
        rcases h.running j x c _ hj hc hK hpc' with hD | howes
        · exact Or.inl (hstable _ hD)
        · rw [hw]
          exact howes S.world ⟨hJ, ho.posted j x hj⟩
  · rcases call_cases hs hx' hc' with hj | ⟨-, event, draw, op, -, -, rfl⟩ |
      ⟨x, c, s, now, hj, hc, rfl, he, -, -⟩
    · exact hstable _ (h.returned j x' c' result hj hc' hK hpc)
    · cases hpc
    · cases he with
      | duplicate _ hp =>
        exact hstable _ (h.marked _ _ _ hK (ho.posted j x hj) (ho.calls j x c hj hc).1 hp)
      | succeeded u hpc' =>
        rcases h.running j x c _ hj hc hK hpc' with hD | howes
        · exact hstable _ hD
        · exact howes.elim
      | absent | raced | started | inserted | operated | failed => cases hpc
  · have hold (hp : (S.inbox q).Processed event.eventId) : D S'.world m := by
      obtain ⟨row, hrow⟩ := Option.ne_none_iff_exists'.1 hp.findOne_ne_none
      obtain ⟨m', event', hm', hevent', hid⟩ := ho.inboxes q row (Table.mem_of_find hrow)
      have hsame : event'.eventId = event.eventId := hid.trans (Table.key_of_find hrow)
      obtain ⟨hK', hD⟩ := hdiscerns q m m' event event' hK hm (hposts hm') hevent hevent' hsame
      exact hD (hstable _ (h.marked q m' event' hK' hm' hevent' (hsame ▸ hp)))
    cases hs with
    | request | work | publish | confirm | redeliver | receive | acked | retried | deadLettered
      | crash => exact hold hp
    | @advance i now x c c' s hi hc heff =>
      by_cases hq : q = x.queue
      · subst hq
        have hp' : s.inbox.Processed event.eventId := by simpa [setParcel] using hp
        rcases (heff.processed_iff _).1 hp' with ⟨hp', -⟩ | ⟨-, hid, u, hpc⟩
        · exact hold hp'
        · obtain ⟨hK', hD⟩ := hdiscerns x.queue m x.message event c.event hK hm
            (hposts (ho.posted i x hi)) hevent (ho.calls i x c hi hc).1 hid.symm
          rcases h.running i x c _ hi hc hK' hpc with hdone | howes
          · exact hD (hstable _ hdone)
          · exact howes.elim
      · exact hold (by simpa [setParcel, hq] using hp)
  · rcases sent_cases hN ho hs hr' hsent with ⟨r, hr, hq, hm, hsent⟩ | hparcel
    · rw [← hq, ← hm] at hK ⊢
      rcases h.sent r hr hK hsent with ⟨i, x, hi, hxq, hxm⟩ | hD | hdead
      · rw [← hxq, ← hxm] at hK ⊢
        rcases parcel_stays_or_dies hs hi with hstay | ⟨c, result, hc, hpc⟩ | hdead
        · obtain ⟨x', hi', hq', hm'⟩ := hstay
          exact Or.inl ⟨i, x', hi', hq', hm'⟩
        · exact Or.inr (Or.inl (hstable _ (h.returned i x c result hi hc hK hpc)))
        · exact Or.inr (Or.inr hdead)
      · exact Or.inr (Or.inl (hstable _ hD))
      · exact Or.inr (Or.inr (dead_mono hs hdead))
    · exact Or.inl hparcel

/-- The rule for a kind of messages whose handling, where it succeeds, has the effect. -/
theorem tracked_of_run {init : W → Prop} {ts : List (Move (Bus W π) (BusLabel π η))}
    (hN : N.Sound) (hrun : (N.system init).Run ts S) (hhonest : Honest N J K D)
    (hJ : ∀ t ∈ ts, J t.pre.world)
    (hstable : ∀ t ∈ ts, ∀ m, D t.pre.world m → D t.post.world m)
    (hdiscerns : ∀ t ∈ ts, Discerns N K D t.post.world) : Tracked N J K D S := by
  induction hrun with
  | nil hinit => exact tracked_of_init hinit
  | @snoc ts S S' a hrun hs ih =>
    have hold {t : Move (Bus W π) (BusLabel π η)} (ht : t ∈ ts) : t ∈ ts ++ [⟨S, a, S'⟩] :=
      List.mem_append_left _ ht
    have hlast : (⟨S, a, S'⟩ : Move (Bus W π) (BusLabel π η)) ∈ ts ++ [⟨S, a, S'⟩] :=
      List.mem_append_right _ (List.mem_singleton.2 rfl)
    have htracked := ih (fun t ht => hJ t (hold ht)) (fun t ht => hstable t (hold ht))
      fun t ht => hdiscerns t (hold ht)
    exact htracked.step hN (orderly_of_run hN hrun) (Wiring.happens_of_step hs) (hJ _ hlast)
      hhonest (hstable _ hlast) (hdiscerns _ hlast)

end Bus

end RouteFast
