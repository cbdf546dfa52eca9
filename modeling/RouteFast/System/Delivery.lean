import RouteFast.System.Bus

/-! What every run of the bus keeps, and the rule for messages whose handling matters: a
message of that kind is pending, on its way, or has had its effect. -/

namespace RouteFast

open Transition Pool

/-- Rows enqueued on top of those there were. -/
structure Appended (old new : List OutboxRow) : Prop where
  keeps : ∀ r ∈ old, r ∈ new
  pending : ∀ r ∈ new, r ∈ old ∨ r.status = .pending

namespace Appended

variable {a b c a' b' : List OutboxRow}

theorem refl (a : List OutboxRow) : Appended a a := ⟨fun _ h => h, fun _ h => Or.inl h⟩

theorem trans (h : Appended a b) (h' : Appended b c) : Appended a c := by
  refine ⟨fun r hr => h'.keeps r (h.keeps r hr), fun r hr => ?_⟩
  rcases h'.pending r hr with hb | hp
  · exact h.pending r hb
  · exact Or.inr hp

theorem append (h : Appended a b) (h' : Appended a' b') : Appended (a ++ a') (b ++ b') := by
  refine ⟨fun r hr => ?_, fun r hr => ?_⟩
  · rcases List.mem_append.1 hr with hr | hr
    · exact List.mem_append_left _ (h.keeps r hr)
    · exact List.mem_append_right _ (h'.keeps r hr)
  · rcases List.mem_append.1 hr with hr | hr
    · exact (h.pending r hr).imp (List.mem_append_left _) id
    · exact (h'.pending r hr).imp (List.mem_append_right _) id

theorem enqueue (hb : ∀ r ∈ b, r.status = .pending) : Appended a (a ++ b) := by
  refine ⟨fun r hr => List.mem_append_left _ hr, fun r hr => ?_⟩
  exact (List.mem_append.1 hr).imp id (hb r)

end Appended

namespace Wiring

variable {W π η : Type} (N : Wiring W π η)

def Appends (w w' : W) : Prop := Appended (N.outbox w) (N.outbox w')

/-- Handlers and requests only append to the outboxes, and the relay only marks rows. -/
structure Sound : Prop where
  request : ∀ p seen effect next w, Rest (N.execute p) seen (.step effect next) →
    N.Appends w (effect w)
  delivery : ∀ q m draw op seen effect next w, N.handle q m draw = some op →
    Rest op seen (.step effect next) → N.Appends w (effect w)
  ids : ∀ w, ((N.outbox w).map OutboxRow.id).Sublist (N.issued w)
  issued_mark : ∀ id now w, N.issued (N.markPublished id now w) = N.issued w
  posts_mark : ∀ id now w, N.posts (N.markPublished id now w) = N.posts w
  published_mark : ∀ id now w, ∀ r ∈ N.outbox (N.markPublished id now w), r.status = .published →
    r.id = id ∨ ∃ r' ∈ N.outbox w, r'.id = r.id ∧ r'.status = .published

/-- What a step does to the databases, when it does anything. -/
inductive Change (w : W) : W → Prop
  | request {p : π} {seen : Option W} {effect : W → W} {next : W → Proc W ServiceError Unit} :
      Rest (N.execute p) seen (.step effect next) → Change w (effect w)
  | delivery {q : Queue} {m : Message} {draw : η} {op : Proc W ServiceError Unit}
      {seen : Option W} {effect : W → W} {next : W → Proc W ServiceError Unit} :
      (q, m) ∈ N.posts w → N.handle q m draw = some op → Rest op seen (.step effect next) →
      Change w (effect w)
  | mark (id : Uuid) (now : Date) : Change w (N.markPublished id now w)

/-- The call runs what the handlers have for the message. -/
def Carries (q : Queue) (m : Message) (c : Call W ServiceError) : Prop :=
  m.event = some c.event ∧ (∃ draw, N.handle q m draw = some c.operation) ∧
    ∀ rest, c.pc = .operation rest → ∃ seen, Rest c.operation seen rest

variable {N} {w w' : W}

theorem Appends.posts (h : N.Appends w w') {p : Queue × Message} (hp : p ∈ N.posts w) :
    p ∈ N.posts w' := by
  obtain ⟨r, hr, rfl⟩ := List.mem_map.1 hp
  exact List.mem_map.2 ⟨r, h.keeps r hr, rfl⟩

theorem mem_posts {r : OutboxRow} (hr : r ∈ N.outbox w) : (r.targetQueue, r.message) ∈ N.posts w :=
  List.mem_map.2 ⟨r, hr, rfl⟩

theorem ids_eq (w : W) : (N.outbox w).map OutboxRow.id = (N.posts w).map fun p => p.2.id := by
  simp [Wiring.posts, OutboxRow.message]

theorem Change.posts (hN : N.Sound) (h : N.Change w w') {p : Queue × Message}
    (hp : p ∈ N.posts w) : p ∈ N.posts w' := by
  cases h with
  | request hrest => exact (hN.request _ _ _ _ w hrest).posts hp
  | delivery _ hop hrest => exact (hN.delivery _ _ _ _ _ _ _ w hop hrest).posts hp
  | mark id now => rwa [hN.posts_mark]

theorem Carries.process {q : Queue} {m : Message} {draw : η} {event : ReliableIntegrationEvent}
    {op : Proc W ServiceError Unit} (hevent : m.event = some event)
    (hop : N.handle q m draw = some op) : N.Carries q m (.process m.eventType event op) :=
  ⟨hevent, ⟨draw, hop⟩, fun _ hpc => by cases hpc⟩

theorem Carries.effect {q : Queue} {m : Message} {c c' : Call W ServiceError} {now : Date}
    {s s' : Service W} (h : N.Carries q m c) (heff : Call.Effect now c s s' c') :
    N.Carries q m c' := by
  obtain ⟨hevent, hop, hrest⟩ := h
  cases heff with
  | duplicate | absent | raced | succeeded | failed =>
    exact ⟨hevent, hop, fun _ hpc => by cases hpc⟩
  | started | inserted =>
    refine ⟨hevent, hop, fun rest hpc => ?_⟩
    obtain rfl := Pc.operation.inj hpc
    exact ⟨none, .start⟩
  | operated effect next hpc =>
    refine ⟨hevent, hop, fun rest hpc' => ?_⟩
    obtain rfl := Pc.operation.inj hpc'
    obtain ⟨seen, hseen⟩ := hrest _ hpc
    exact ⟨some s.db, .next s.db hseen⟩

end Wiring

namespace Bus

variable {W π η : Type} {N : Wiring W π η} {S S' : Bus W π} {a : BusLabel π η}

/-- What holds of every state reached. -/
structure Orderly (N : Wiring W π η) (S : Bus W π) : Prop where
  posted : ∀ i x, S.parcels i = some x → (x.queue, x.message) ∈ N.posts S.world
  calls : ∀ i x c, S.parcels i = some x → x.call = some c → N.Carries x.queue x.message c
  tasks : ∀ i t, S.tasks i = some t → Rest (N.execute t.request) t.seen t.rest
  sent : ∀ id ∈ S.sent, id ∈ (N.outbox S.world).map OutboxRow.id
  published : ∀ r ∈ N.outbox S.world, r.status = .published → r.id ∈ S.sent
  inboxes : ∀ q row, row ∈ S.inbox q → ∃ m event, (q, m) ∈ N.posts S.world ∧
    m.event = some event ∧ event.eventId = row.eventId
  fresh : N.Fresh S.world

/-- Two rows with one id are the same message. -/
theorem Orderly.eq_of_id (hN : N.Sound) (h : Orderly N S) {r r' : OutboxRow}
    (hr : r ∈ N.outbox S.world) (hr' : r' ∈ N.outbox S.world) (hid : r.id = r'.id) : r = r' :=
  List.inj_on_of_nodup_map (h.fresh.1.sublist (hN.ids S.world)) hr hr' hid

/-- A step leaves the databases as they are or changes them in one of three ways. -/
theorem Orderly.change (h : Orderly N S) (hs : N.Happens S a S') :
    S'.world = S.world ∨ N.Change S.world S'.world := by
  cases hs with
  | request | publish | redeliver | receive | acked | retried | deadLettered | crash =>
    exact Or.inl rfl
  | work ht => exact Or.inr (.request (h.tasks _ _ ht))
  | confirm => exact Or.inr (.mark _ _)
  | @advance i now x c c' s hi hc heff hfresh =>
    cases heff with
    | duplicate | absent | raced | started | inserted | succeeded | failed => exact Or.inl rfl
    | operated effect next hpc =>
      obtain ⟨-, ⟨draw, hop⟩, hrest⟩ := h.calls i x c hi hc
      obtain ⟨seen, hseen⟩ := hrest _ hpc
      exact Or.inr (.delivery (h.posted i x hi) hop hseen)

theorem orderly_of_init {init : W → Prop} (hinit : (N.system init).init S) : Orderly N S := by
  obtain ⟨⟨-, hout, hfresh⟩, hinbox, hparcels, -, hsent, htasks⟩ := hinit
  refine ⟨fun i x hi => ?_, fun i x c hi => ?_, fun i t ht => ?_, ?_, ?_, fun q row hrow => ?_,
    hfresh⟩
  · simp [hparcels i] at hi
  · simp [hparcels i] at hi
  · simp [htasks i] at ht
  · simp [hsent]
  · simp [hout]
  · simp [hinbox q] at hrow

theorem Orderly.posts_mono (hN : N.Sound) (h : Orderly N S) (hs : N.Happens S a S')
    {p : Queue × Message} (hp : p ∈ N.posts S.world) : p ∈ N.posts S'.world := by
  rcases h.change hs with heq | hc
  · rwa [heq]
  · exact hc.posts hN hp

theorem setParcel_cases {i j : ℕ} {o : Option (Parcel W)} {x : Parcel W}
    (h : (S.setParcel i o).parcels j = some x) : (j = i ∧ o = some x) ∨
      (j ≠ i ∧ S.parcels j = some x) := by
  by_cases hji : j = i
  · subst hji
    exact Or.inl ⟨rfl, by simpa [setParcel] using h⟩
  · exact Or.inr ⟨hji, by simpa [setParcel, hji] using h⟩

/-- Where a parcel comes from: it was there, perhaps with another call, or it is a copy of
a row just published. -/
theorem parcel_cases (hs : N.Happens S a S') {j : ℕ} {x' : Parcel W}
    (hx' : S'.parcels j = some x') :
    (∃ i x, S.parcels i = some x ∧ x'.queue = x.queue ∧ x'.message = x.message) ∨
    ∃ r ∈ N.outbox S.world, x'.queue = r.targetQueue ∧ x'.message = r.message := by
  cases hs with
  | request | work | confirm => exact Or.inl ⟨j, x', hx', rfl, rfl⟩
  | publish hr =>
    rcases setParcel_cases hx' with ⟨-, heq⟩ | ⟨-, hj⟩
    · obtain rfl := Option.some.inj heq
      exact Or.inr ⟨_, hr, rfl, rfl⟩
    · exact Or.inl ⟨j, x', hj, rfl, rfl⟩
  | redeliver hi | receive hi | advance hi | retried hi | crash hi =>
    rcases setParcel_cases hx' with ⟨-, heq⟩ | ⟨-, hj⟩
    · obtain rfl := Option.some.inj heq
      exact Or.inl ⟨_, _, hi, rfl, rfl⟩
    · exact Or.inl ⟨j, x', hj, rfl, rfl⟩
  | acked | deadLettered =>
    rcases setParcel_cases hx' with ⟨-, heq⟩ | ⟨-, hj⟩
    · cases heq
    · exact Or.inl ⟨j, x', hj, rfl, rfl⟩

/-- Where a call comes from: it was there, it has just begun, or it took a step. -/
theorem call_cases (hs : N.Happens S a S') {j : ℕ} {x' : Parcel W} {c' : Call W ServiceError}
    (hx' : S'.parcels j = some x') (hc' : x'.call = some c') :
    (S.parcels j = some x') ∨
    (S'.world = S.world ∧ ∃ event draw op, x'.message.event = some event ∧
      N.handle x'.queue x'.message draw = some op ∧
      c' = .process x'.message.eventType event op) ∨
    ∃ x c s now, S.parcels j = some x ∧ x.call = some c ∧ x' = { x with call := some c' } ∧
      Call.Effect now c ⟨S.inbox x.queue, S.world⟩ s c' ∧ S'.world = s.db ∧
      S'.inbox x.queue = s.inbox := by
  cases hs with
  | request | work | confirm => exact Or.inl hx'
  | publish | redeliver | retried | crash =>
    rcases setParcel_cases hx' with ⟨-, heq⟩ | ⟨-, hj⟩
    · obtain rfl := Option.some.inj heq
      cases hc'
    · exact Or.inl hj
  | @receive i draw x event op hi hnone hevent hop =>
    rcases setParcel_cases hx' with ⟨-, heq⟩ | ⟨-, hj⟩
    · obtain rfl := Option.some.inj heq
      exact Or.inr (Or.inl ⟨rfl, event, draw, op, hevent, hop, (Option.some.inj hc').symm⟩)
    · exact Or.inl hj
  | @advance i now x c c'' s hi hc heff =>
    rcases setParcel_cases hx' with ⟨hji, heq⟩ | ⟨-, hj⟩
    · subst hji
      obtain rfl := Option.some.inj heq
      obtain rfl := Option.some.inj hc'
      exact Or.inr (Or.inr ⟨x, c, s, now, hi, hc, rfl, heff, rfl, by simp [setParcel]⟩)
    · exact Or.inl hj
  | acked | deadLettered =>
    rcases setParcel_cases hx' with ⟨-, heq⟩ | ⟨-, hj⟩
    · cases heq
    · exact Or.inl hj

/-- A parcel stays until its call has returned or thrown. -/
theorem parcel_stays (hs : N.Happens S a S') {i : ℕ} {x : Parcel W} (hi : S.parcels i = some x) :
    (∃ x', S'.parcels i = some x' ∧ x'.queue = x.queue ∧ x'.message = x.message) ∨
    S'.world = S.world ∧ ∃ c, x.call = some c ∧
      ((∃ result, c.pc = .returned result) ∨ ∃ e, c.pc = .thrown e) := by
  have hset {j : ℕ} {T : Bus W π} {o : Option (Parcel W)} (hT : T.parcels = S.parcels) :
      j ≠ i → (T.setParcel j o).parcels i = some x := by
    intro hji
    simpa [setParcel, hT, hji.symm] using hi
  cases hs with
  | request | work | confirm => exact Or.inl ⟨x, hi, rfl, rfl⟩
  | @publish r j hr hp hj =>
    exact Or.inl ⟨x, hset rfl fun h => by simp [← h, hj] at hi, rfl, rfl⟩
  | @redeliver k j y hk hj =>
    exact Or.inl ⟨x, hset rfl fun h => by simp [← h, hj] at hi, rfl, rfl⟩
  | @receive k draw y event op hk | @advance k now y c c' s hk | @retried k y c e hk
    | @crash k y hk =>
    by_cases hki : k = i
    · subst hki
      obtain rfl : x = y := by simpa [hi] using hk
      exact Or.inl ⟨_, Function.update_self .., rfl, rfl⟩
    · exact Or.inl ⟨x, hset rfl hki, rfl, rfl⟩
  | @acked k y c result hk hc hpc =>
    by_cases hki : k = i
    · subst hki
      obtain rfl : x = y := by simpa [hi] using hk
      exact Or.inr ⟨rfl, c, hc, Or.inl ⟨result, hpc⟩⟩
    · exact Or.inl ⟨x, hset rfl hki, rfl, rfl⟩
  | @deadLettered k y c e hk hc hpc =>
    by_cases hki : k = i
    · subst hki
      obtain rfl : x = y := by simpa [hi] using hk
      exact Or.inr ⟨rfl, c, hc, Or.inr ⟨e, hpc⟩⟩
    · exact Or.inl ⟨x, hset rfl hki, rfl, rfl⟩

/-- The rows of an inbox after a step: those there were, those just inserted for a message
being delivered, marked or not. -/
theorem inbox_cases (hs : N.Happens S a S') {q : Queue} {row : InboxRow}
    (hrow : row ∈ S'.inbox q) :
    (∃ row₀ ∈ S.inbox q, row₀.eventId = row.eventId) ∨
    ∃ i x c, S.parcels i = some x ∧ x.call = some c ∧ x.queue = q ∧
      c.event.eventId = row.eventId := by
  cases hs with
  | request | work | publish | confirm | redeliver | receive | acked | retried | deadLettered
    | crash => exact Or.inl ⟨row, hrow, rfl⟩
  | @advance i now x c c' s hi hc heff =>
    by_cases hq : q = x.queue
    · subst hq
      have hin : row ∈ s.inbox := by simpa [setParcel] using hrow
      cases heff with
      | duplicate | absent | raced | started | operated => exact Or.inl ⟨row, hin, rfl⟩
      | inserted =>
        rcases List.mem_append.1 hin with hin | hin
        · exact Or.inl ⟨row, hin, rfl⟩
        · obtain rfl := List.mem_singleton.1 hin
          exact Or.inr ⟨i, x, c, hi, hc, rfl, rfl⟩
      | succeeded =>
        obtain ⟨row₀, hrow₀, rfl⟩ := List.mem_map.1 hin
        refine Or.inl ⟨row₀, hrow₀, ?_⟩
        split <;> rfl
      | failed => exact Or.inl ⟨row, (List.mem_filter.1 hin).1, rfl⟩
    · exact Or.inl ⟨row, by simpa [setParcel, hq] using hrow, rfl⟩

theorem Orderly.step (hN : N.Sound) (h : Orderly N S) (hs : N.Happens S a S') :
    Orderly N S' := by
  have hmono {p : Queue × Message} (hp : p ∈ N.posts S.world) : p ∈ N.posts S'.world :=
    h.posts_mono hN hs hp
  have hids {id : Uuid} (hid : id ∈ (N.outbox S.world).map OutboxRow.id) :
      id ∈ (N.outbox S'.world).map OutboxRow.id := by
    rw [Wiring.ids_eq] at hid ⊢
    obtain ⟨p, hp, rfl⟩ := List.mem_map.1 hid
    exact List.mem_map.2 ⟨p, hmono hp, rfl⟩
  refine ⟨fun j x' hx' => ?_, fun j x' c' hx' hc' => ?_, ?_, ?_, ?_, fun q row hrow => ?_, ?_⟩
  · rcases parcel_cases hs hx' with ⟨i, x, hi, hq, hm⟩ | ⟨r, hr, hq, hm⟩
    · rw [hq, hm]
      exact hmono (h.posted i x hi)
    · rw [hq, hm]
      exact hmono (Wiring.mem_posts hr)
  · rcases call_cases hs hx' hc' with hj | ⟨-, event, draw, op, hevent, hop, rfl⟩ |
      ⟨x, c, s, now, hj, hc, rfl, heff, -, -⟩
    · exact h.calls j x' c' hj hc'
    · exact .process hevent hop
    · exact (h.calls j x c hj hc).effect heff
  · intro j t ht
    cases hs with
    | publish | confirm | redeliver | receive | advance | acked | retried | deadLettered
      | crash => exact h.tasks j t ht
    | @request i p =>
      by_cases hji : j = i
      · obtain rfl : _ = t := by simpa [setTask, hji] using ht
        exact .start
      · exact h.tasks j t (by simpa [setTask, hji] using ht)
    | @work i p effect next seen hi =>
      by_cases hji : j = i
      · obtain rfl : _ = t := by simpa [setTask, hji] using ht
        exact .next S.world (h.tasks i _ hi)
      · exact h.tasks j t (by simpa [setTask, hji] using ht)
  · intro id hid
    cases hs with
    | request | work | confirm | redeliver | receive | advance | acked | retried
      | deadLettered | crash => exact hids (h.sent id hid)
    | publish hr =>
      rcases List.mem_cons.1 hid with rfl | hid
      · exact List.mem_map_of_mem hr
      · exact h.sent id hid
  · intro r hr hpub
    have happ (hchange : N.Appends S.world S'.world) : r.id ∈ S.sent := by
      rcases hchange.pending r hr with hold | hpending
      · exact h.published r hold hpub
      · rw [hpub] at hpending
        cases hpending
    cases hs with
    | request | redeliver | receive | acked | retried | deadLettered | crash =>
      exact h.published r hr hpub
    | work hi => exact happ (hN.request _ _ _ _ _ (h.tasks _ _ hi))
    | publish => exact List.mem_cons_of_mem _ (h.published r hr hpub)
    | confirm hid =>
      rcases hN.published_mark _ _ _ r hr hpub with rfl | ⟨r', hr', hrid, hpub'⟩
      · exact hid
      · exact hrid ▸ h.published r' hr' hpub'
    | @advance i now x c c' s hi hc heff =>
      cases heff with
      | duplicate | absent | raced | started | inserted | succeeded | failed =>
        exact h.published r hr hpub
      | operated effect next hpc =>
        obtain ⟨-, ⟨draw, hop⟩, hrest⟩ := h.calls i x c hi hc
        obtain ⟨seen, hseen⟩ := hrest _ hpc
        exact happ (hN.delivery _ _ _ _ _ _ _ _ hop hseen)
  · rcases inbox_cases hs hrow with ⟨row₀, hrow₀, heq⟩ | ⟨i, x, c, hi, hc, rfl, heq⟩
    · obtain ⟨m, event, hm, hevent, hid⟩ := h.inboxes q row₀ hrow₀
      exact ⟨m, event, hmono hm, hevent, hid.trans heq⟩
    · exact ⟨x.message, c.event, hmono (h.posted i x hi), (h.calls i x c hi hc).1, heq⟩
  · cases hs with
    | request | publish | redeliver | receive | acked | retried | deadLettered | crash =>
      exact h.fresh
    | work _ hfresh | advance _ _ _ hfresh => exact hfresh
    | confirm =>
      rw [Wiring.Fresh, hN.issued_mark]
      exact h.fresh

theorem orderly_of_run {init : W → Prop} {ts : List (Move (Bus W π) (BusLabel π η))}
    (hN : N.Sound) (hrun : (N.system init).Run ts S) : Orderly N S := by
  refine hrun.invariant (I := Orderly N) (fun _ h => orderly_of_init h) fun S a S' h hs => ?_
  exact h.step hN (Wiring.happens_of_step hs)

/-- What was posted by some point of a run still is at its end. -/
theorem posts_of_mem {init : W → Prop} {ts : List (Move (Bus W π) (BusLabel π η))}
    (hN : N.Sound) (hrun : (N.system init).Run ts S) {t : Move (Bus W π) (BusLabel π η)}
    (ht : t ∈ ts) {p : Queue × Message} (hp : p ∈ N.posts t.post.world) :
    p ∈ N.posts S.world := by
  obtain ⟨l, r, hts⟩ := List.append_of_mem ht
  refine hrun.across (C := fun u => Orderly N u.pre)
    (R := fun S S' => ∀ p ∈ N.posts S.world, p ∈ N.posts S'.world) (fun _ _ h => h)
    (fun _ _ _ h h' p hp => h' p (h p hp)) ?_ ?_ hts p hp
  · intro S a S' hs ho p hp
    exact ho.posts_mono hN (Wiring.happens_of_step hs) hp
  · intro u hu
    obtain ⟨l', -, hpre, -⟩ := hrun.of_mem hu
    exact orderly_of_run hN hpre

/-- A row whose publication is confirmed was there before the step, and confirmed, or it is
the one this step publishes. -/
theorem sent_cases (hN : N.Sound) (h : Orderly N S) (hs : N.Happens S a S') {r' : OutboxRow}
    (hr' : r' ∈ N.outbox S'.world) (hsent : r'.id ∈ S'.sent) :
    (∃ r ∈ N.outbox S.world, r.targetQueue = r'.targetQueue ∧ r.message = r'.message ∧
      r.id ∈ S.sent) ∨
    ∃ i x, S'.parcels i = some x ∧ x.queue = r'.targetQueue ∧ x.message = r'.message := by
  have hold (hid : r'.id ∈ S.sent) : ∃ r ∈ N.outbox S.world, r.targetQueue = r'.targetQueue ∧
      r.message = r'.message ∧ r.id ∈ S.sent := by
    obtain ⟨r, hr, hrid⟩ := List.mem_map.1 (h.sent _ hid)
    obtain ⟨r'', hr'', heq⟩ := List.mem_map.1 (h.posts_mono hN hs (Wiring.mem_posts hr))
    obtain ⟨hq, hm⟩ := Prod.mk.inj heq
    have hid'' : r''.id = r'.id := (congrArg Message.id hm).trans hrid
    obtain rfl := (h.step hN hs).eq_of_id hN hr'' hr' hid''
    exact ⟨r, hr, hq.symm, hm.symm, hrid ▸ hid⟩
  cases hs with
  | request | work | confirm | redeliver | receive | advance | acked | retried | deadLettered
    | crash => exact Or.inl (hold hsent)
  | @publish r j hr hp hj =>
    by_cases hid : r'.id = r.id
    · obtain rfl := h.eq_of_id hN hr' hr hid
      exact Or.inr ⟨j, _, Function.update_self .., rfl, rfl⟩
    · exact Or.inl (hold ((List.mem_cons.1 hsent).resolve_left hid))

/-- The step answers the delivery of `m` from `q` with `result`. -/
def Answers (S S' : Bus W π) (q : Queue) (m : Message) (result : ProcessResult) : Prop :=
  ∃ i x c c', S.parcels i = some x ∧ x.queue = q ∧ x.message = m ∧ x.call = some c ∧
    c.pc ≠ .returned result ∧ S'.parcels i = some { x with call := some c' } ∧
    c'.pc = .returned result

/-- Only a marked event is answered 'duplicate'. -/
theorem Orderly.processed_of_duplicate (ho : Orderly N S) (hs : N.Happens S a S') {q : Queue}
    {m : Message} (ha : S.Answers S' q m .duplicate) :
    ∃ event, (q, m) ∈ N.posts S.world ∧ m.event = some event ∧
      (S.inbox q).Processed event.eventId := by
  obtain ⟨i, x, c, c', hi, rfl, rfl, hc, hpc, hi', hpc'⟩ := ha
  rcases call_cases hs hi' rfl with hj | ⟨-, event, draw, op, -, -, heq⟩ |
    ⟨y, d, s, now, hj, hd, heq, heff, -, -⟩
  · rw [hi] at hj
    obtain rfl : c = c' := by simpa [hc] using congrArg Parcel.call (Option.some.inj hj)
    exact absurd hpc' hpc
  · rw [heq] at hpc'
    cases hpc'
  · obtain rfl : x = y := by simpa [hi] using hj
    obtain rfl : c = d := by simpa [hc] using hd
    cases heff with
    | duplicate hwait hp => exact ⟨c.event, ho.posted i x hi, (ho.calls i x c hi hc).1, hp⟩
    | absent | raced | started | inserted | operated | succeeded | failed => cases hpc'

/-- A mark stems from a delivery that was answered 'processed'. -/
theorem answered_of_processed {init : W → Prop} {ts : List (Move (Bus W π) (BusLabel π η))}
    (hN : N.Sound) (hrun : (N.system init).Run ts S) {q : Queue} {eventId : Uuid}
    (hp : (S.inbox q).Processed eventId) :
    ∃ t ∈ ts, ∃ m event, t.pre.Answers t.post q m .processed ∧ (q, m) ∈ N.posts S.world ∧
      m.event = some event ∧ event.eventId = eventId := by
  induction hrun with
  | nil h => simp [h.2.1 q, Inbox.Processed, Inbox.findOne] at hp
  | @snoc ts S S' a hrun hs ih =>
    have ho := orderly_of_run hN hrun
    have hhap := Wiring.happens_of_step hs
    have hold (hp : (S.inbox q).Processed eventId) : ∃ t ∈ ts ++ [⟨S, a, S'⟩], ∃ m event,
        t.pre.Answers t.post q m .processed ∧ (q, m) ∈ N.posts S'.world ∧
        m.event = some event ∧ event.eventId = eventId := by
      obtain ⟨t, ht, m, event, ha, hm, hevent⟩ := ih hp
      exact ⟨t, List.mem_append_left _ ht, m, event, ha, ho.posts_mono hN hhap hm, hevent⟩
    have hkeep {p : Queue × Message} (hp : p ∈ N.posts S.world) : p ∈ N.posts S'.world :=
      ho.posts_mono hN hhap hp
    cases hhap with
    | request | work | publish | confirm | redeliver | receive | acked | retried
      | deadLettered | crash => exact hold hp
    | @advance i now x c c' s hi hc heff =>
      by_cases hq : q = x.queue
      · subst hq
        have hp' : s.inbox.Processed eventId := by simpa [setParcel] using hp
        rcases (heff.processed_iff _).1 hp' with ⟨hp', -⟩ | ⟨-, rfl, u, hpc⟩
        · exact hold hp'
        · have hpc' := heff.returned_processed_iff.2 ⟨u, hpc⟩
          exact ⟨_, List.mem_append_right _ (List.mem_singleton.2 rfl), x.message, c.event,
            ⟨i, x, c, c', hi, rfl, rfl, hc, by simp [hpc], Function.update_self .., hpc'⟩,
            hkeep (ho.posted i x hi), (ho.calls i x c hi hc).1, rfl⟩
      · exact hold (by simpa [setParcel, hq] using hp)

section Accounts

variable {K : Queue → Message → Prop} {D : W → Message → Prop}

/-- Handling a message of the kind now would commit in one step and leave its effect `D`. -/
def Effective (N : Wiring W π η) (K : Queue → Message → Prop) (D : W → Message → Prop)
    (w : W) : Prop :=
  ∀ q m draw op, K q m → (q, m) ∈ N.posts w → N.handle q m draw = some op →
    ∃ effect next, op = .step effect next ∧ (∀ w', (next w').finished = true) ∧
      next w = .done () ∧ D (effect w) m

/-- Messages of the kind `K` are pending, on their way, or have had their effect `D`. -/
structure Accounted (N : Wiring W π η) (K : Queue → Message → Prop) (D : W → Message → Prop)
    (S : Bus W π) : Prop where
  done : ∀ i x c, S.parcels i = some x → x.call = some c → K x.queue x.message →
    ((∃ u, c.pc = .operation (.done u)) ∨ ∃ result, c.pc = .returned result) →
    D S.world x.message
  unfailed : ∀ i x c, S.parcels i = some x → x.call = some c → K x.queue x.message →
    ∀ e, c.pc ≠ .operation (.throw e) ∧ c.pc ≠ .thrown e
  sent : ∀ r ∈ N.outbox S.world, K r.targetQueue r.message → r.id ∈ S.sent →
    (∃ i x, S.parcels i = some x ∧ x.queue = r.targetQueue ∧ x.message = r.message) ∨
      D S.world r.message

theorem accounted_of_init {init : W → Prop} (hinit : (N.system init).init S) :
    Accounted N K D S := by
  obtain ⟨⟨-, hout, -⟩, -, hparcels, -⟩ := hinit
  refine ⟨fun i x c hi => ?_, fun i x c hi => ?_, fun r hr => ?_⟩
  · simp [hparcels i] at hi
  · simp [hparcels i] at hi
  · simp [hout] at hr

/-- Once none of them is left, every message of the kind has had its effect. -/
theorem Accounted.of_delivered (h : Accounted N K D S) (ho : Orderly N S)
    (hrest : S.Delivered N K) {q : Queue} {m : Message} (hm : (q, m) ∈ N.posts S.world)
    (hK : K q m) : D S.world m := by
  obtain ⟨r, hr, heq⟩ := List.mem_map.1 hm
  obtain ⟨rfl, rfl⟩ := Prod.mk.inj heq
  have hpub : r.status = .published := by
    cases hs : r.status with
    | pending => exact absurd hs (hrest.pending r hr hK)
    | published => rfl
  rcases h.sent r hr hK (ho.published r hr hpub) with ⟨i, x, hi, hxq, hxm⟩ | hD
  · exact absurd (hxq ▸ hxm ▸ hK) (hrest.parcels i x hi)
  · exact hD

/-- The one step a call of the kind can be at. -/
theorem Orderly.operation_eq (ho : Orderly N S) (heff : Effective N K D S.world) {i : ℕ}
    {x : Parcel W} {c : Call W ServiceError} (hi : S.parcels i = some x) (hc : x.call = some c)
    (hK : K x.queue x.message) {rest : Proc W ServiceError Unit} (hpc : c.pc = .operation rest) :
    rest.finished = true ∨ ∃ effect next, rest = .step effect next ∧ next S.world = .done () ∧
      D (effect S.world) x.message := by
  obtain ⟨-, ⟨draw, hop⟩, hrest⟩ := ho.calls i x c hi hc
  obtain ⟨effect, next, heq, hfin, hnext, hD⟩ := heff _ _ _ _ hK (ho.posted i x hi) hop
  obtain ⟨seen, hseen⟩ := hrest rest hpc
  rw [heq] at hseen
  rcases rest_single hfin hseen with h | h
  · exact Or.inr ⟨effect, next, h, hnext, hD⟩
  · exact Or.inl h

theorem Accounted.step (hN : N.Sound) (h : Accounted N K D S) (ho : Orderly N S)
    (hs : N.Happens S a S') (hstable : ∀ m, D S.world m → D S'.world m)
    (heff : Effective N K D S.world)
    (hdup : ∀ q m, K q m → S.Answers S' q m .duplicate → D S.world m) :
    Accounted N K D S' := by
  have ho' := ho.step hN hs
  refine ⟨fun j x' c' hx' hc' hK hpc => ?_, fun j x' c' hx' hc' hK e => ?_, ?_⟩
  · rcases call_cases hs hx' hc' with hj | ⟨-, event, draw, op, hevent, hop, rfl⟩ |
      ⟨x, c, s, now, hj, hc, rfl, he, hw, -⟩
    · exact hstable _ (h.done j x' c' hj hc' hK hpc)
    · rcases hpc with ⟨u, hpc⟩ | ⟨result, hpc⟩ <;> cases hpc
    · have hdone := h.done j x c hj hc hK
      have hop {rest : Proc W ServiceError Unit} (hpc : c.pc = .operation rest) :=
        ho.operation_eq heff hj hc hK hpc
      obtain ⟨-, ⟨draw, hdraw⟩, -⟩ := ho.calls j x c hj hc
      cases he with
      | duplicate hwait =>
        exact hstable _ (hdup _ _ hK ⟨j, x, c, _, hj, rfl, rfl, hc, by
          rcases hwait with hwait | hwait | hwait <;> simp [hwait], hx', rfl⟩)
      | absent | raced => rcases hpc with ⟨u, hpc⟩ | ⟨result, hpc⟩ <;> cases hpc
      | started | inserted =>
        rcases hpc with ⟨u, hpc⟩ | ⟨result, hpc⟩
        · obtain ⟨effect, next, heq, -⟩ := heff _ _ _ _ hK (ho.posted j x hj) hdraw
          rw [heq] at hpc
          cases hpc
        · cases hpc
      | operated effect next hpc' =>
        rcases hop hpc' with hfin | ⟨effect', next', heq, -, hD⟩
        · cases hfin
        · obtain ⟨rfl, rfl⟩ := Proc.step.inj heq
          rw [hw]
          exact hD
      | succeeded u hpc' => exact hstable _ (hdone (Or.inl ⟨u, hpc'⟩))
      | failed => rcases hpc with ⟨u, hpc⟩ | ⟨result, hpc⟩ <;> cases hpc
  · rcases call_cases hs hx' hc' with hj | ⟨-, event, draw, op, hevent, hop, rfl⟩ |
      ⟨x, c, s, now, hj, hc, rfl, he, hw, -⟩
    · exact h.unfailed j x' c' hj hc' hK e
    · exact ⟨fun hpc => (by cases hpc), fun hpc => (by cases hpc)⟩
    · have hunfailed := h.unfailed j x c hj hc hK
      have hop {rest : Proc W ServiceError Unit} (hpc : c.pc = .operation rest) :=
        ho.operation_eq heff hj hc hK hpc
      obtain ⟨-, ⟨draw, hdraw⟩, -⟩ := ho.calls j x c hj hc
      cases he with
      | duplicate | absent | raced | succeeded =>
        exact ⟨fun hpc => (by cases hpc), fun hpc => (by cases hpc)⟩
      | started | inserted =>
        obtain ⟨effect, next, heq, -⟩ := heff _ _ _ _ hK (ho.posted j x hj) hdraw
        exact ⟨fun hpc => (by rw [heq] at hpc; cases hpc), fun hpc => (by cases hpc)⟩
      | operated effect next hpc' =>
        rcases hop hpc' with hfin | ⟨effect', next', heq, hnext, -⟩
        · cases hfin
        · obtain ⟨rfl, rfl⟩ := Proc.step.inj heq
          refine ⟨fun hpc => ?_, fun hpc => (by cases hpc)⟩
          simp only [hnext] at hpc
          cases hpc
      | failed err hpc => exact absurd hpc (hunfailed err).1
  · intro r' hr' hK hsent
    rcases sent_cases hN ho hs hr' hsent with ⟨r, hr, hq, hm, hsent⟩ | hparcel
    · rw [← hq, ← hm] at hK ⊢
      rcases h.sent r hr hK hsent with ⟨i, x, hi, hxq, hxm⟩ | hD
      · rw [← hxq, ← hxm] at hK ⊢
        rcases parcel_stays hs hi with ⟨x', hi', hq', hm'⟩ | ⟨hw, c, hc, hret | ⟨e, hpc⟩⟩
        · exact Or.inl ⟨i, x', hi', hq', hm'⟩
        · exact Or.inr (hstable _ (h.done i x c hi hc hK (Or.inr hret)))
        · exact absurd hpc (h.unfailed i x c hi hc hK e).2
      · exact Or.inr (hstable _ hD)
    · exact Or.inl hparcel

/-- An event an inbox has marked has had its effect, if it is of the kind. -/
def Marked (N : Wiring W π η) (K : Queue → Message → Prop) (D : W → Message → Prop)
    (S : Bus W π) : Prop :=
  ∀ q m event, K q m → (q, m) ∈ N.posts S.world → m.event = some event →
    (S.inbox q).Processed event.eventId → D S.world m

theorem marked_of_init {init : W → Prop} (hinit : (N.system init).init S) : Marked N K D S := by
  obtain ⟨⟨-, hout, -⟩, -⟩ := hinit
  intro q m event hK hm
  simp [Wiring.posts, hout] at hm

/-- If no other message to the queue has the event id, the mark means just that. -/
theorem Marked.step (hN : N.Sound) (h : Marked N K D S) (ha : Accounted N K D S)
    (ho : Orderly N S) (hs : N.Happens S a S') (hstable : ∀ m, D S.world m → D S'.world m)
    (huniq : ∀ q m m' event event', K q m → (q, m) ∈ N.posts S'.world →
      (q, m') ∈ N.posts S'.world → m.event = some event → m'.event = some event' →
      event'.eventId = event.eventId → m' = m) :
    Marked N K D S' := by
  intro q m event hK hm hevent hp
  have hold (hp : (S.inbox q).Processed event.eventId) : D S'.world m := by
    obtain ⟨row, hrow⟩ := Option.ne_none_iff_exists'.1 hp.findOne_ne_none
    obtain ⟨m', event', hm', hevent', hid⟩ := ho.inboxes q row (Table.mem_of_find hrow)
    have hsame : event'.eventId = event.eventId := hid.trans (Table.key_of_find hrow)
    obtain rfl := huniq q m m' event event' hK hm (ho.posts_mono hN hs hm') hevent hevent' hsame
    exact hstable _ (h q m' event hK hm' hevent hp)
  cases hs with
  | request | work | publish | confirm | redeliver | receive | acked | retried | deadLettered
    | crash => exact hold hp
  | @advance i now x c c' s hi hc heff =>
    by_cases hq : q = x.queue
    · subst hq
      have hp' : s.inbox.Processed event.eventId := by simpa [setParcel] using hp
      rcases (heff.processed_iff _).1 hp' with ⟨hp', -⟩ | ⟨-, hid, u, hpc⟩
      · exact hold hp'
      · have hsame := huniq x.queue m x.message event c.event hK hm
          (ho.posts_mono hN (.advance hi hc heff ‹_›) (ho.posted i x hi)) hevent
          (ho.calls i x c hi hc).1 hid.symm
        rw [← hsame] at hK ⊢
        exact hstable _ (ha.done i x c hi hc hK (Or.inl ⟨u, hpc⟩))
    · exact hold (by simpa [setParcel, hq] using hp)

/-- A marked event is answered 'duplicate' after its effect only. -/
theorem Marked.of_answers (h : Marked N K D S) (ho : Orderly N S) (hs : N.Happens S a S')
    {q : Queue} {m : Message} (hK : K q m) (ha : S.Answers S' q m .duplicate) :
    D S.world m := by
  obtain ⟨event, hm, hevent, hp⟩ := ho.processed_of_duplicate hs ha
  exact h q m event hK hm hevent hp

section Runs

variable {init : W → Prop} {ts : List (Move (Bus W π) (BusLabel π η))}

/-- The rule for a kind of messages whose handling always succeeds. -/
theorem accounted_of_run (hN : N.Sound) (hrun : (N.system init).Run ts S)
    (hstable : ∀ t ∈ ts, ∀ m, D t.pre.world m → D t.post.world m)
    (heff : ∀ t ∈ ts, Effective N K D t.pre.world)
    (hdup : ∀ t ∈ ts, ∀ q m, K q m → t.pre.Answers t.post q m .duplicate → D t.pre.world m) :
    Accounted N K D S := by
  refine (hrun.invariant_of_steps (I := fun S => Orderly N S ∧ Accounted N K D S)
    (C := fun t => (∀ m, D t.pre.world m → D t.post.world m) ∧ Effective N K D t.pre.world ∧
      ∀ q m, K q m → t.pre.Answers t.post q m .duplicate → D t.pre.world m)
    (fun S hinit => ⟨orderly_of_init hinit, accounted_of_init hinit⟩) ?_
    fun t ht => ⟨hstable t ht, heff t ht, hdup t ht⟩).2
  rintro S a S' ⟨ho, h⟩ hs ⟨hstable, heff, hdup⟩
  have hhap := Wiring.happens_of_step hs
  exact ⟨ho.step hN hhap, h.step hN ho hhap hstable heff hdup⟩

/-- The same where no two messages to the queue share an event id. -/
theorem accounted_of_run_of_unique (hN : N.Sound) (hrun : (N.system init).Run ts S)
    (hstable : ∀ t ∈ ts, ∀ m, D t.pre.world m → D t.post.world m)
    (heff : ∀ t ∈ ts, Effective N K D t.pre.world)
    (huniq : ∀ t ∈ ts, ∀ q m m' event event', K q m → (q, m) ∈ N.posts t.post.world →
      (q, m') ∈ N.posts t.post.world → m.event = some event → m'.event = some event' →
      event'.eventId = event.eventId → m' = m) :
    Accounted N K D S := by
  refine (hrun.invariant_of_steps
    (I := fun S => Orderly N S ∧ Accounted N K D S ∧ Marked N K D S)
    (C := fun t => (∀ m, D t.pre.world m → D t.post.world m) ∧ Effective N K D t.pre.world ∧
      ∀ q m m' event event', K q m → (q, m) ∈ N.posts t.post.world →
        (q, m') ∈ N.posts t.post.world → m.event = some event → m'.event = some event' →
        event'.eventId = event.eventId → m' = m)
    (fun S hinit => ⟨orderly_of_init hinit, accounted_of_init hinit, marked_of_init hinit⟩) ?_
    fun t ht => ⟨hstable t ht, heff t ht, huniq t ht⟩).2.1
  rintro S a S' ⟨ho, h, hm⟩ hs ⟨hstable, heff, huniq⟩
  have hhap := Wiring.happens_of_step hs
  exact ⟨ho.step hN hhap, h.step hN ho hhap hstable heff fun q m hK => hm.of_answers ho hhap hK,
    hm.step hN h ho hhap hstable huniq⟩

end Runs

end Accounts

end Bus

end RouteFast
