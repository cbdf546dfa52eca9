import RouteFast.Reliability.Backlog

/-! One process that works alone on an outbox, while its table can be read and written: a row
that cannot be published is put off for longer each time, and the others get their turn. -/

namespace RouteFast

open Transition

/-- The time that `n` failed attempts in a row put a new row off for, all told. -/
def spent : ℕ → ℕ
  | 0 => 0
  | n + 1 => spent n + OutboxRow.delayMs (n + 1)

theorem spent_mono {m n : ℕ} (h : m ≤ n) : spent m ≤ spent n := by
  induction n, h using Nat.le_induction with
  | base => exact le_rfl
  | succ n _ ih => exact ih.trans (Nat.le_add_right _ _)

theorem OutboxRow.delayMs_mono {m n : ℕ} (h : m ≤ n) : delayMs m ≤ delayMs n := by
  have hpow : 2 ^ min m 6 ≤ 2 ^ min n 6 := Nat.pow_le_pow_right (by norm_num) (min_le_min_right 6 h)
  unfold delayMs
  omega

/-- How often the row has been tried. -/
def timesTried (T : List Try) (id : Uuid) : ℕ :=
  (Shares.share (fun t : Try => t.event.id) id T).length

theorem timesTried_snoc {T : List Try} {t : Try} {id : Uuid} :
    timesTried (T ++ [t]) id = timesTried T id + if t.event.id = id then 1 else 0 := by
  by_cases h : t.event.id = id <;> simp [timesTried, Shares.share, h]

/-- The row has been put off for each time it was tried. -/
structure Ready (since : Date) (T : List Try) (x : OutboxRow) : Prop where
  attempts : timesTried T x.id ≤ x.attempts
  available : since + spent (timesTried T x.id) ≤ max since x.availableAt

/-- The row is one of the table, and was not PUBLISHED at the opening. -/
structure Stored (opening rows : List OutboxRow) (x : OutboxRow) : Prop where
  row : ∃ y ∈ rows, y.id = x.id ∧ y.createdAt = x.createdAt
  pending : ∀ y ∈ opening, y.id = x.id → y.status = .pending

/-- A row that was published is PUBLISHED once it has been saved, and is not tried again. -/
structure PublishedOnce (rows : List OutboxRow) (T : List Try) (pc : FlushPc) : Prop where
  published : ∀ t ∈ T, t.ok = true → (∃ x ∈ rows, x.id = t.event.id ∧ x.status = .published) ∨
    ∃ e, pc.held = some e ∧ e.id = t.event.id ∧ e.status = .published
  queue : ∀ x ∈ pc.queue, ∀ t ∈ T, t.ok = true → t.event.id ≠ x.id
  held : ∀ e, pc.held = some e → e.status = .pending → ∀ t ∈ T, t.ok = true → t.event.id ≠ e.id
  once : ((T.filter Try.ok).map fun t => t.event.id).Nodup

/-- Table, tries and the flush in progress of a process that works alone. -/
structure Spaced (opening : List OutboxRow) (since clock : Date) (rows : List OutboxRow)
    (T : List Try) (pc : FlushPc) : Prop where
  ids : (rows.map OutboxRow.id).Nodup
  closed : ∀ x ∈ opening, x.status = .published → x ∈ rows
  ready : ∀ x ∈ rows, x.status = .pending → (∀ e, pc.held = some e → e.id ≠ x.id) →
    Ready since T x
  memory : (pc.memory.map OutboxRow.id).Nodup
  stored : ∀ x ∈ pc.memory, Stored opening rows x
  queue : ∀ x ∈ pc.queue,
    timesTried T x.id ≤ x.attempts ∧ since + spent (timesTried T x.id) ≤ clock
  held : ∀ e, pc.held = some e → e.status = .pending → Ready since T e
  saving : ∀ loaded event rest, pc = .saving loaded event rest → event.status = .published
  tries : ∀ t ∈ T, Stored opening rows t.event
  spaced : ∀ id, since + spent (timesTried T id - 1) ≤ clock
  publishedOnce : PublishedOnce rows T pc

namespace PublishedOnce

variable {rows new : List OutboxRow} {T : List Try} {pc pc' : FlushPc} {event e : OutboxRow}
  {rest : List OutboxRow} {flush : ℕ × ℕ}

/-- With nothing held, what was published is PUBLISHED. -/
theorem stored (h : PublishedOnce rows T pc) (hheld : pc.held = none) :
    ∀ t ∈ T, t.ok = true → ∃ x ∈ rows, x.id = t.event.id ∧ x.status = .published := by
  intro t ht hok
  rcases h.published t ht hok with hrow | ⟨e, he, -⟩
  · exact hrow
  · simp [hheld] at he

theorem idle (h : PublishedOnce rows T pc) (hheld : pc.held = none)
    (hpc' : pc' = .finding ∨ pc' = .ended) : PublishedOnce rows T pc' := by
  have hstored := h.stored hheld
  rcases hpc' with rfl | rfl
  · exact ⟨fun t ht hok => Or.inl (hstored t ht hok), by simp [FlushPc.queue],
      by simp [FlushPc.held], h.once⟩
  · exact ⟨fun t ht hok => Or.inl (hstored t ht hok), by simp [FlushPc.queue],
      by simp [FlushPc.held], h.once⟩

theorem enqueue (h : PublishedOnce rows T pc) : PublishedOnce (rows ++ new) T pc := by
  refine ⟨fun t ht hok => (h.published t ht hok).imp_left ?_, h.queue, h.held, h.once⟩
  rintro ⟨x, hx, hrow⟩
  exact ⟨x, List.mem_append_left _ hx, hrow⟩

/-- What the query finds is PENDING, so none of it has been published. -/
theorem found {events : List OutboxRow} (h : PublishedOnce rows T .finding)
    (hids : (rows.map OutboxRow.id).Nodup)
    (hpending : ∀ x ∈ events, x ∈ rows ∧ x.status = .pending) :
    PublishedOnce rows T (FlushPc.next events) := by
  have hstored := h.stored rfl
  refine ⟨fun t ht hok => Or.inl (hstored t ht hok), fun x hx t ht hok hid => ?_, ?_, h.once⟩
  · rw [FlushPc.queue_next] at hx
    obtain ⟨hrow, hstatus⟩ := hpending x hx
    obtain ⟨y, hy, hyid, hypublished⟩ := hstored t ht hok
    obtain rfl : y = x := List.inj_on_of_nodup_map hids hy hrow (hyid.trans hid)
    simp [hstatus] at hypublished
  · simp [FlushPc.held_next]

/-- The row in memory has been published, and `e` is held of it. -/
theorem succeeded (h : PublishedOnce rows T (.publishing event rest))
    (hrest : ∀ x ∈ rest, event.id ≠ x.id) (hheld : pc'.held = some e) (hqueue : pc'.queue = rest)
    (hid : e.id = event.id) (hpublished : e.status = .published) :
    PublishedOnce rows (T ++ [⟨flush, event, true⟩]) pc' := by
  have hold := h.queue event List.mem_cons_self
  refine ⟨fun t ht hok => ?_, fun x hx t ht hok => ?_, fun e' he' hpending => ?_, ?_⟩
  · rcases List.mem_append.1 ht with ht | ht
    · exact Or.inl (h.stored rfl t ht hok)
    · obtain rfl := List.mem_singleton.1 ht
      exact Or.inr ⟨e, hheld, hid, hpublished⟩
  · rw [hqueue] at hx
    rcases List.mem_append.1 ht with ht | ht
    · exact h.queue x (List.mem_cons_of_mem _ hx) t ht hok
    · obtain rfl := List.mem_singleton.1 ht
      exact hrest x hx
  · obtain rfl : e = e' := Option.some.inj (hheld.symm.trans he')
    simp [hpublished] at hpending
  · rw [List.filter_append, List.map_append, List.nodup_append]
    refine ⟨h.once, by simp, ?_⟩
    rintro id hin _ hlast rfl
    obtain ⟨t, ht, rfl⟩ := List.mem_map.1 hin
    obtain ⟨ht, hok⟩ := List.mem_filter.1 ht
    exact hold t ht hok (by simpa using hlast)

/-- The publish has failed. -/
theorem failed (h : PublishedOnce rows T (.publishing event rest)) (hheld : pc'.held = some e)
    (hqueue : pc'.queue = rest) (hid : e.id = event.id) :
    PublishedOnce rows (T ++ [⟨flush, event, false⟩]) pc' := by
  have hok : ∀ t ∈ T ++ [⟨flush, event, false⟩], t.ok = true → t ∈ T := by
    intro t ht hok
    refine (List.mem_append.1 ht).resolve_right fun hlast => ?_
    obtain rfl := List.mem_singleton.1 hlast
    cases hok
  refine ⟨fun t ht htrue => Or.inl (h.stored rfl t (hok t ht htrue) htrue),
    fun x hx t ht htrue => ?_, fun e' he' _ t ht htrue => ?_, ?_⟩
  · exact h.queue x (List.mem_cons_of_mem _ (hqueue ▸ hx)) t (hok t ht htrue) htrue
  · obtain rfl : e = e' := Option.some.inj (hheld.symm.trans he')
    exact hid ▸ h.queue event List.mem_cons_self t (hok t ht htrue) htrue
  · simpa [List.filter_append] using h.once

/-- What is published stays so when the row that is held is saved. -/
theorem save (h : PublishedOnce rows T pc) (hheld : pc.held = some event) :
    ∀ t ∈ T, t.ok = true → ∃ x ∈ Table.save OutboxRow.id event rows,
      x.id = t.event.id ∧ x.status = .published := by
  intro t ht hok
  rcases h.published t ht hok with ⟨x, hx, hid, hpublished⟩ | ⟨e, he, hid, hpublished⟩
  · by_cases hsame : x.id = event.id
    · refine ⟨event, Table.mem_save_self, hsame.symm.trans hid, ?_⟩
      cases hstatus : event.status with
      | published => rfl
      | pending => exact absurd (hid.symm.trans hsame) (h.held event hheld hstatus t ht hok)
    · exact ⟨x, Table.mem_save_of_ne hx hsame, hid, hpublished⟩
  · obtain rfl : event = e := Option.some.inj (hheld.symm.trans he)
    exact ⟨event, Table.mem_save_self, hid, hpublished⟩

theorem saved (h : PublishedOnce rows T pc) (hheld : pc.held = some event) (hqueue : pc.queue = rest) :
    PublishedOnce (Table.save OutboxRow.id event rows) T (FlushPc.next rest) := by
  refine ⟨fun t ht hok => Or.inl (h.save hheld t ht hok), fun x hx => ?_, ?_, h.once⟩
  · rw [FlushPc.queue_next] at hx
    exact h.queue x (hqueue ▸ hx)
  · simp [FlushPc.held_next]

/-- The `save` of the `try` has failed; what it wrote, if anything, is PUBLISHED. -/
theorem again {loaded : OutboxRow} {now : Date} {outcome : SaveOutcome}
    (h : PublishedOnce rows T (.saving loaded event rest)) (hpublished : event.status = .published) :
    PublishedOnce (outcome.write event rows) T (.savingFailed loaded (event.backOff now) now rest) := by
  refine ⟨fun t ht hok => ?_, h.queue, fun e he hpending => ?_, h.once⟩
  · cases outcome with
    | failed =>
      refine (h.published t ht hok).imp_right ?_
      rintro ⟨e, he, hid, -⟩
      obtain rfl := Option.some.inj he
      exact ⟨event.backOff now, rfl, hid, hpublished⟩
    | stored | storedThenFailed => exact Or.inl (h.save rfl t ht hok)
  · obtain rfl := Option.some.inj he
    exact absurd hpending (by simp [OutboxRow.backOff, hpublished])

end PublishedOnce

theorem Ready.of_times {since : Date} {T T' : List Try} {x : OutboxRow} (h : Ready since T x)
    (hsame : timesTried T' x.id = timesTried T x.id) : Ready since T' x :=
  ⟨hsame ▸ h.attempts, hsame ▸ h.available⟩

namespace Spaced

variable {opening rows new : List OutboxRow} {since clock now : Date} {T : List Try}
  {pc pc' : FlushPc} {event : OutboxRow} {batchSize : ℕ}

theorem later (h : Spaced opening since clock rows T pc) (hnow : clock ≤ now) :
    Spaced opening since now rows T pc :=
  { h with
    queue := fun x hx => ⟨(h.queue x hx).1, (h.queue x hx).2.trans hnow⟩
    spaced := fun id => (h.spaced id).trans hnow }

/-- A flush with nothing in memory, or none. -/
theorem idle (h : Spaced opening since clock rows T pc) (hheld : pc.held = none)
    (hpc' : pc' = .finding ∨ pc' = .ended) : Spaced opening since clock rows T pc' := by
  have hready : ∀ x ∈ rows, x.status = .pending → Ready since T x := fun x hx hpending =>
    h.ready x hx hpending (by simp [hheld])
  rcases hpc' with rfl | rfl
  · exact ⟨h.ids, h.closed, fun x hx hpending _ => hready x hx hpending, List.nodup_nil,
      by simp [FlushPc.memory], by simp [FlushPc.queue], by simp [FlushPc.held], by simp,
      h.tries, h.spaced, h.publishedOnce.idle hheld (Or.inl rfl)⟩
  · exact ⟨h.ids, h.closed, fun x hx hpending _ => hready x hx hpending, List.nodup_nil,
      by simp [FlushPc.memory], by simp [FlushPc.queue], by simp [FlushPc.held], by simp,
      h.tries, h.spaced, h.publishedOnce.idle hheld (Or.inr rfl)⟩

theorem enqueue (h : Spaced opening since clock rows T pc)
    (hids : ((rows ++ new).map OutboxRow.id).Nodup) :
    Spaced opening since clock (rows ++ new) T pc := by
  have hstored : ∀ x, Stored opening rows x → Stored opening (rows ++ new) x := by
    rintro x ⟨⟨y, hy, hsame⟩, hpending⟩
    exact ⟨⟨y, List.mem_append_left _ hy, hsame⟩, hpending⟩
  refine { h with
    ids := hids
    closed := fun x hx hpublished => List.mem_append_left _ (h.closed x hx hpublished)
    ready := fun x hx hpending hfree => ?_
    stored := fun x hx => hstored x (h.stored x hx)
    tries := fun t ht => hstored _ (h.tries t ht)
    publishedOnce := h.publishedOnce.enqueue }
  rcases List.mem_append.1 hx with hx | hx
  · exact h.ready x hx hpending hfree
  · -- a new row has not been tried
    have hnone : timesTried T x.id = 0 := by
      refine List.length_eq_zero_iff.2 (Shares.share_nil_iff.2 fun t ht hid => ?_)
      obtain ⟨y, hy, hyid, -⟩ := (h.tries t ht).row
      rw [List.map_append] at hids
      exact (List.nodup_append.1 hids).2.2 _ (List.mem_map_of_mem hy) _ (List.mem_map_of_mem hx)
        (hyid.trans hid)
    exact ⟨by simp [hnone], by simp [hnone, spent]⟩

/-- What the query finds is due, so each row has served the time it was put off for. -/
theorem found {events : List OutboxRow} (h : Spaced opening since clock rows T .finding)
    (hclock : since ≤ clock) (hnow : clock ≤ now)
    (hfound : Least OutboxRow.CreatedBefore batchSize (rows.filter fun r => r.Due now) events) :
    Spaced opening since now rows T (FlushPc.next events) := by
  have hmem : ∀ x ∈ events, x ∈ rows ∧ x.Due now := fun x hx => by
    simpa using hfound.mem hx
  have hmemory : (FlushPc.next events).memory = events := FlushPc.memory_next events
  have hqueue : (FlushPc.next events).queue = events := FlushPc.queue_next events
  have hheld : (FlushPc.next events).held = none := FlushPc.held_next events
  have hready : ∀ x ∈ rows, x.status = .pending → Ready since T x := fun x hx hpending =>
    h.ready x hx hpending (by simp [FlushPc.held])
  refine ⟨h.ids, h.closed, fun x hx hpending _ => hready x hx hpending, ?_, fun x hx => ?_,
    fun x hx => ?_, by simp [hheld], ?_, h.tries, fun id => (h.spaced id).trans hnow,
    h.publishedOnce.found h.ids fun x hx => ⟨(hmem x hx).1, (hmem x hx).2.1⟩⟩
  · rw [hmemory]
    have hsub : (rows.filter fun r => r.Due now).Sublist rows := List.filter_sublist
    have hnodup := h.ids.sublist (hsub.map OutboxRow.id)
    obtain ⟨rest, hperm, -⟩ := hfound.within
    have hall := (hperm.map OutboxRow.id).nodup_iff.2 hnodup
    rw [List.map_append] at hall
    exact (List.nodup_append.1 hall).1
  · obtain ⟨hrow, hdue⟩ := hmem x (hmemory ▸ hx)
    refine ⟨⟨x, hrow, rfl, rfl⟩, fun y hy hid => ?_⟩
    cases hstatus : y.status with
    | pending => rfl
    | published =>
      obtain rfl : y = x :=
        List.inj_on_of_nodup_map h.ids (h.closed y hy hstatus) hrow hid
      exact absurd hdue.1 (by simp [hstatus])
  · obtain ⟨hrow, hdue⟩ := hmem x (hqueue ▸ hx)
    obtain ⟨hattempts, havailable⟩ := hready x hrow hdue.1
    exact ⟨hattempts, havailable.trans (max_le (hclock.trans hnow) hdue.2)⟩
  · intro loaded event rest h
    cases events <;> cases h

/-- The row in memory has been tried; `e` is what is held of it. -/
theorem tried {e : OutboxRow} {rest : List OutboxRow} {flush : ℕ × ℕ} {ok : Bool}
    (h : Spaced opening since clock rows T (.publishing event rest)) (hnow : clock ≤ now)
    (hmemory : pc'.memory = e :: rest) (hheld : pc'.held = some e) (hqueue : pc'.queue = rest)
    (hid : e.id = event.id) (hcreated : e.createdAt = event.createdAt)
    (hready : e.status = .pending → e.attempts = event.attempts + 1 ∧
      e.availableAt = now + OutboxRow.delayMs (event.attempts + 1))
    (hsaving : ∀ loaded event rest, pc' = .saving loaded event rest → event.status = .published)
    (honce : (∀ x ∈ rest, event.id ≠ x.id) →
      PublishedOnce rows (T ++ [⟨flush, event, ok⟩]) pc') :
    Spaced opening since now rows (T ++ [⟨flush, event, ok⟩]) pc' := by
  obtain ⟨hattempts, havailable⟩ := h.queue event List.mem_cons_self
  have hother {id : Uuid} (hne : event.id ≠ id) :
      timesTried (T ++ [⟨flush, event, ok⟩]) id = timesTried T id := by
    simp [timesTried_snoc, hne]
  have hself : timesTried (T ++ [⟨flush, event, ok⟩]) event.id = timesTried T event.id + 1 := by
    simp [timesTried_snoc]
  have hevent : Stored opening rows event := h.stored event List.mem_cons_self
  have hnodup := h.memory
  rw [FlushPc.memory, List.map_cons, List.nodup_cons] at hnodup
  have hrest : ∀ x ∈ rest, event.id ≠ x.id := fun x hx he =>
    hnodup.1 (he ▸ List.mem_map_of_mem hx)
  refine ⟨h.ids, h.closed, fun x hx hpending hfree => ?_, ?_, fun x hx => ?_, fun x hx => ?_,
    fun e' he' hpending => ?_, hsaving, fun t ht => ?_, fun id => ?_, honce hrest⟩
  · have hne : event.id ≠ x.id := hid ▸ hfree e hheld
    exact (h.ready x hx hpending (by simp [FlushPc.held])).of_times (hother hne)
  · rw [hmemory, List.map_cons, List.nodup_cons, hid]
    exact hnodup
  · rw [hmemory] at hx
    rcases List.mem_cons.1 hx with rfl | hx
    · exact ⟨by simpa [hid, hcreated] using hevent.row, by simpa [hid] using hevent.pending⟩
    · exact h.stored x (List.mem_cons_of_mem _ hx)
  · rw [hqueue] at hx
    rw [hother (hrest x hx)]
    have hold := h.queue x (List.mem_cons_of_mem _ hx)
    exact ⟨hold.1, hold.2.trans hnow⟩
  · obtain rfl : e = e' := Option.some.inj (hheld.symm.trans he')
    obtain ⟨hcount, hlater⟩ := hready hpending
    have hdelay : OutboxRow.delayMs (timesTried T event.id + 1) ≤
        OutboxRow.delayMs (event.attempts + 1) :=
      OutboxRow.delayMs_mono (Nat.succ_le_succ hattempts)
    refine ⟨?_, ?_⟩
    · rw [hid, hself, hcount]
      omega
    · rw [hid, hself, hlater, spent, ← Nat.add_assoc]
      exact le_max_of_le_right (Nat.add_le_add (havailable.trans hnow) hdelay)
  · rcases List.mem_append.1 ht with ht | ht
    · exact h.tries t ht
    · obtain rfl := List.mem_singleton.1 ht
      exact hevent
  · by_cases hne : event.id = id
    · subst hne
      rw [hself, Nat.add_sub_cancel]
      exact havailable.trans hnow
    · rw [hother hne]
      exact (h.spaced id).trans hnow

/-- The table once the row that is held has been written. -/
theorem save (h : Spaced opening since clock rows T pc) (hheld : pc.held = some event)
    (hmemory : event ∈ pc.memory) :
    ((Table.save OutboxRow.id event rows).map OutboxRow.id).Nodup ∧
    (∀ x ∈ opening, x.status = .published → x ∈ Table.save OutboxRow.id event rows) ∧
    (∀ x ∈ Table.save OutboxRow.id event rows, x.status = .pending → Ready since T x) ∧
    ∀ x, Stored opening rows x → Stored opening (Table.save OutboxRow.id event rows) x := by
  have hevent : Stored opening rows event := h.stored event hmemory
  have hids : ((Table.save OutboxRow.id event rows).map OutboxRow.id).Nodup :=
    Table.nodup_save h.ids
  refine ⟨hids, fun x hx hpublished => ?_, fun x hx hpending => ?_, fun x hx => ?_⟩
  · refine Table.mem_save_of_ne (h.closed x hx hpublished) fun hid => ?_
    exact absurd (hevent.pending x hx hid) (by simp [hpublished])
  · by_cases hid : event.id = x.id
    · obtain rfl : event = x := List.inj_on_of_nodup_map hids Table.mem_save_self hx hid
      exact h.held event hheld hpending
    · have hold : x ∈ rows := (Table.mem_of_mem_save hx).resolve_left fun he => hid (he ▸ rfl)
      refine h.ready x hold hpending fun e he => ?_
      obtain rfl : event = e := Option.some.inj (hheld.symm.trans he)
      exact hid
  · obtain ⟨⟨y, hy, hyid, hycreated⟩, hpending⟩ := hx
    by_cases hid : y.id = event.id
    · obtain ⟨z, hz, hzid, hzcreated⟩ := hevent.row
      obtain rfl : y = z := List.inj_on_of_nodup_map h.ids hy hz (hid.trans hzid.symm)
      exact ⟨⟨event, Table.mem_save_self, hid.symm.trans hyid, hzcreated.symm.trans hycreated⟩,
        hpending⟩
    · exact ⟨⟨y, Table.mem_save_of_ne hy hid, hyid, hycreated⟩, hpending⟩

/-- The row that was held has been saved, and the loop goes on. -/
theorem saved {rest : List OutboxRow} (h : Spaced opening since clock rows T pc)
    (hheld : pc.held = some event) (hmemory : pc.memory = event :: rest) (hqueue : pc.queue = rest)
    (hnow : clock ≤ now) :
    Spaced opening since now (Table.save OutboxRow.id event rows) T (FlushPc.next rest) := by
  obtain ⟨hids, hclosed, hready, hstored⟩ := h.save hheld (hmemory ▸ List.mem_cons_self)
  have hmemory' : (FlushPc.next rest).memory = rest := FlushPc.memory_next rest
  have hqueue' : (FlushPc.next rest).queue = rest := FlushPc.queue_next rest
  have hheld' : (FlushPc.next rest).held = none := FlushPc.held_next rest
  have hnodup := h.memory
  rw [hmemory, List.map_cons, List.nodup_cons] at hnodup
  refine ⟨hids, hclosed, fun x hx hpending _ => hready x hx hpending, ?_, fun x hx => ?_,
    fun x hx => ?_, by simp [hheld'], ?_, fun t ht => hstored _ (h.tries t ht),
    fun id => (h.spaced id).trans hnow, h.publishedOnce.saved hheld hqueue⟩
  · rw [hmemory']
    exact hnodup.2
  · rw [hmemory'] at hx
    exact hstored x (h.stored x (hmemory ▸ List.mem_cons_of_mem _ hx))
  · have hold := h.queue x (hqueue.symm ▸ hqueue' ▸ hx)
    exact ⟨hold.1, hold.2.trans hnow⟩
  · intro loaded event rest' h
    cases rest <;> cases h

/-- The `save` of the `try` has failed, and that of the `catch` is to come. -/
theorem again {loaded : OutboxRow} {rest : List OutboxRow} {outcome : SaveOutcome}
    (h : Spaced opening since clock rows T (.saving loaded event rest)) (hnow : clock ≤ now) :
    Spaced opening since now (outcome.write event rows) T
      (.savingFailed loaded (event.backOff now) now rest) := by
  have hpublished : event.status = .published := h.saving _ _ _ rfl
  obtain ⟨hids, hclosed, hready, hstored⟩ := h.save rfl List.mem_cons_self
  have hevent : Stored opening rows event := h.stored event List.mem_cons_self
  have hmemory : ∀ x ∈ (event.backOff now) :: rest, Stored opening rows x := by
    intro x hx
    rcases List.mem_cons.1 hx with rfl | hx
    · exact ⟨hevent.row, hevent.pending⟩
    · exact h.stored x (List.mem_cons_of_mem _ hx)
  have hqueue : ∀ x ∈ rest,
      timesTried T x.id ≤ x.attempts ∧ since + spent (timesTried T x.id) ≤ now :=
    fun x hx => ⟨(h.queue x hx).1, (h.queue x hx).2.trans hnow⟩
  have hheld : ∀ e, some (event.backOff now) = some e → e.status = .pending → Ready since T e := by
    rintro e he hpending
    obtain rfl := Option.some.inj he
    exact absurd hpending (by simp [OutboxRow.backOff, hpublished])
  have honce : PublishedOnce (outcome.write event rows) T
      (.savingFailed loaded (event.backOff now) now rest) := h.publishedOnce.again hpublished
  cases outcome with
  | failed =>
    refine ⟨h.ids, h.closed, fun x hx hpending hfree => ?_, h.memory, hmemory, hqueue, hheld,
      by simp, h.tries, fun id => (h.spaced id).trans hnow, honce⟩
    refine h.ready x hx hpending fun e he => ?_
    obtain rfl := Option.some.inj he
    exact hfree (event.backOff now) rfl
  | stored | storedThenFailed =>
    exact ⟨hids, hclosed, fun x hx hpending _ => hready x hx hpending, h.memory,
      fun x hx => hstored x (hmemory x hx), hqueue, hheld, by simp,
      fun t ht => hstored _ (h.tries t ht), fun id => (h.spaced id).trans hnow, honce⟩

/-- An answer, unless the `save` of a `catch` throws. -/
theorem answer {answer : FlushAnswer} {rows' : List OutboxRow} {logged : PublishLog}
    (flush : ℕ × ℕ) (h : Spaced opening since clock rows T pc) (hclock : since ≤ clock)
    (hnow : clock ≤ now) (heff : FlushPc.Effect batchSize now rows pc answer rows' logged pc')
    (hkept : ∀ loaded event failedAt rest outcome, pc = .savingFailed loaded event failedAt rest →
      answer = .saved outcome → outcome.resolves = true) :
    Spaced opening since now rows' (T ++ pc.tries flush answer) pc' := by
  have hstore {outcome : SaveOutcome} (hok : outcome.resolves = true) (event : OutboxRow) :
      outcome.write event rows = Table.save OutboxRow.id event rows := by
    cases outcome with
    | stored => rfl
    | failed | storedThenFailed => cases hok
  cases heff with
  | findFailed =>
    simp only [FlushPc.tries, List.append_nil]
    exact (h.later hnow).idle rfl (Or.inr rfl)
  | found events hleast =>
    simp only [FlushPc.tries, List.append_nil]
    exact h.found hclock hnow hleast
  | published event rest =>
    refine h.tried hnow rfl rfl rfl rfl rfl (fun hpending => ?_) ?_ fun hrest =>
      h.publishedOnce.succeeded hrest rfl rfl rfl rfl
    · cases hpending
    · rintro loaded event' rest' he
      obtain ⟨rfl, rfl, rfl⟩ := FlushPc.saving.inj he
      rfl
  | publishFailed event rest =>
    exact h.tried hnow rfl rfl rfl rfl rfl (fun _ => ⟨rfl, rfl⟩) (by simp) fun _ =>
      h.publishedOnce.failed rfl rfl rfl
  | saved loaded event rest outcome hok =>
    simp only [FlushPc.tries, List.append_nil, hstore hok]
    exact h.saved rfl rfl rfl hnow
  | saveFailed loaded event rest outcome =>
    simp only [FlushPc.tries, List.append_nil]
    exact h.again hnow
  | putOff loaded event failedAt rest outcome hok =>
    simp only [FlushPc.tries, List.append_nil, hstore hok]
    exact h.saved rfl rfl rfl hnow
  | rejected loaded event failedAt rest outcome hfail =>
    have hok := hkept loaded event failedAt rest outcome rfl rfl
    simp [hfail] at hok

end Spaced

/-- The `save` of a `catch` throws. -/
def FlushPc.rejects : FlushPc → FlushAnswer → Bool
  | .savingFailed _ _ _ _, .saved outcome => !outcome.resolves
  | _, _ => false

/-- A commit, or a step of process `i` other than its crash. -/
def RelayAction.steady (i : ℕ) : RelayAction → Bool
  | .enqueue _ => true
  | .flush k _ | .answer k _ _ => k = i
  | .crash _ => false

namespace Watch

def rejects (S : Watch) : RelayAction → List (ℕ × ℕ) :=
  S.answered fun flush pc answer => if pc.rejects answer then [flush] else []

/-- Only process `i` works, and it can write to its table when a publish has failed. -/
def Alone (i : ℕ) (t : WatchMove) : Prop :=
  t.label.action.steady i = true ∧ t.pre.rejects t.label.action = []

instance (i : ℕ) : DecidablePred (Alone i) := fun t =>
  inferInstanceAs (Decidable (t.label.action.steady i = true ∧
    t.pre.rejects t.label.action = []))

/-- The rows that were not PUBLISHED at the beginning, created no later than `r`. -/
def backlog (S : Watch) (r : OutboxRow) : List OutboxRow :=
  S.relay.rows.filter fun x => x.CreatedBefore r ∧ x.id ≠ r.id ∧
    ∀ y ∈ S.start.rows, y.id = x.id → y.status = .pending

/-- What process `i` awaits, if a flush is in progress. -/
def At (S : Watch) (i : ℕ) (pc : FlushPc) : Prop :=
  (∃ j, S.pc (i, j) = some pc ∧ pc ≠ .ended) ∨
    pc = .ended ∧ ∀ j pc', S.pc (i, j) = some pc' → pc' = .ended

variable {batchSize i : ℕ} {S S' : Watch} {label : RelayLabel} {r : OutboxRow}

theorem exists_at (S : Watch) (i : ℕ) : ∃ pc, S.At i pc := by
  by_cases h : ∃ j pc, S.pc (i, j) = some pc ∧ pc ≠ .ended
  · obtain ⟨j, pc, hpc⟩ := h
    exact ⟨pc, Or.inl ⟨j, hpc⟩⟩
  · refine ⟨.ended, Or.inr ⟨rfl, fun j pc' hpc' => ?_⟩⟩
    by_contra hne
    exact h ⟨j, pc', hpc', hne⟩

theorem reachable_of_run {ts : List WatchMove} (hrun : (watch batchSize).Run ts S) :
    (relaySystem batchSize).Reachable S.start ∧ (relaySystem batchSize).Reachable S.relay := by
  refine hrun.invariant (I := fun S => (relaySystem batchSize).Reachable S.start ∧
    (relaySystem batchSize).Reachable S.relay) ?_ ?_
  · rintro S ⟨hstart, hrelay, -⟩
    exact ⟨hstart, hrelay ▸ hstart⟩
  · rintro S label S' ⟨hstart, ts, hrelay⟩ hs
    simp only [watch] at hs
    split at hs
    · obtain ⟨relay, hstep, rfl⟩ := Option.map_eq_some_iff.1 hs
      exact ⟨hstart, _, hrelay.snoc hstep⟩
    · cases hs

/-- Two flushes of one process are not both in progress. -/
theorem pc_alone {j k : ℕ} {pc pc' : FlushPc} (hsound : S.relay.Sound)
    (hpc : S.pc (i, j) = some pc) (hne : pc ≠ .ended) (hpc' : S.pc (i, k) = some pc')
    (hne' : pc' ≠ .ended) : j = k :=
  (hsound.workers i).alone j k ⟨pc, hpc, hne⟩ ⟨pc', hpc', hne'⟩

/-- A process that begins a flush has none in progress. -/
theorem at_before_flush {j : ℕ} {pc : FlushPc} (hsound : S'.relay.Sound)
    (hs : (watch batchSize).step S label = some S') (haction : label.action = .flush i j)
    (hpc : S'.At i pc) : S.At i pc ∨ S.At i .ended ∧ (pc = .finding ∨ pc = .ended) := by
  have hkept : ∀ k pc', S.pc (i, k) = some pc' → S'.pc (i, k) = some pc' := by
    obtain ⟨-, -, relay, heff, rfl⟩ := step_effect hs
    intro k pc' hpc'
    exact heff.flush_kept hpc' (by simp [haction]) (by simp [haction])
  rcases hpc with ⟨k, hk, hne⟩ | ⟨rfl, hended⟩
  · rcases pc_cases hs hk with ⟨hold, -⟩ | ⟨hbegins, hnew⟩ | ⟨_, _, _, _, hanswer, -, -⟩
    · exact Or.inl (Or.inl ⟨k, hold, hne⟩)
    · refine Or.inr ⟨Or.inr ⟨rfl, fun l pc' hl => ?_⟩, hnew⟩
      by_contra hne'
      obtain rfl := pc_alone hsound hk hne (hkept l pc' hl) hne'
      obtain rfl : pc = pc' := Option.some.inj (hk.symm.trans (hkept k pc' hl))
      rcases hnew with rfl | rfl
      · obtain ⟨-, hfresh, relay, heff, rfl⟩ := step_effect hs
        rw [haction] at heff
        cases heff with
        | flush _ _ hnone =>
          obtain rfl : k = j := by simpa [haction, RelayAction.begins] using hbegins
          simp [Watch.pc, hnone] at hl
      · exact hne rfl
    · rw [haction] at hanswer
      cases hanswer
  · exact Or.inl (Or.inr ⟨rfl, fun k pc' hk => hended k pc' (hkept k pc' hk)⟩)

/-- A process whose call is answered goes on with that flush. -/
theorem at_after_answer {j : ℕ} {answer : FlushAnswer} {pc pc' pc'' : FlushPc}
    (hsound : S.relay.Sound) (hs : (watch batchSize).step S label = some S')
    (haction : label.action = .answer i j answer) (hpc : S.pc (i, j) = some pc)
    (hne : pc ≠ .ended) (hpc' : S'.pc (i, j) = some pc') (hat : S'.At i pc'') : pc'' = pc' := by
  rcases hat with ⟨k, hk, hne'⟩ | ⟨rfl, hended⟩
  · by_cases hkj : k = j
    · subst hkj
      exact Option.some.inj (hk.symm.trans hpc')
    · rcases pc_cases hs hk with ⟨hold, -⟩ | ⟨hbegins, -⟩ | ⟨_, _, _, _, hanswer, -, -⟩
      · exact absurd (pc_alone hsound hold hne' hpc hne) hkj
      · rw [haction] at hbegins
        cases hbegins
      · exact absurd (RelayAction.answer.inj (haction.symm.trans hanswer)).2.1.symm hkj
  · exact (hended j pc' hpc').symm

/-- Table, tries and flush of process `i`. -/
def SpacedAt (i : ℕ) (S : Watch) : Prop :=
  ∀ pc, S.At i pc → Spaced S.start.rows S.since S.clock S.relay.rows S.tries pc

/-- The spacing of a process that works alone is kept by each of its steps. -/
theorem SpacedAt.step (h : S.SpacedAt i) (hsound : S.relay.Sound) (hclock : S.since ≤ S.clock)
    (hs : (watch batchSize).step S label = some S') (halone : Alone i ⟨S, label, S'⟩) :
    S'.SpacedAt i := by
  intro pc hpc
  have hs' := hs
  obtain ⟨hsteady, hrejects⟩ := halone
  obtain ⟨hnow, -, relay, heff, rfl⟩ := step_effect hs
  have hsound' := hsound.step heff
  cases haction : label.action with
  | enqueue new =>
    rw [haction] at heff
    cases heff with
    | enqueue _ _ hids =>
      simpa [after, haction, answered] using ((h pc hpc).enqueue hids).later hnow
  | flush k j =>
    obtain rfl : k = i := by simpa [haction, RelayAction.steady] using hsteady
    have hrows : relay.rows = S.relay.rows := by
      rw [haction] at heff
      cases heff
      rfl
    have hspaced : Spaced S.start.rows S.since label.now S.relay.rows S.tries pc := by
      rcases at_before_flush hsound' hs' haction hpc with hat | ⟨hat, hidle⟩
      · exact (h pc hat).later hnow
      · exact ((h .ended hat).later hnow).idle rfl hidle
    simpa [after, haction, answered, hrows] using hspaced
  | answer k j answer =>
    obtain rfl : k = i := by simpa [haction, RelayAction.steady] using hsteady
    rw [haction] at heff
    cases heff with
    | answer _ _ _ pc₀ pc₁ rows logged hpc₀ heff =>
      have hold : S.pc (k, j) = some pc₀ := hpc₀
      have hkept : ∀ loaded event failedAt rest outcome,
          pc₀ = .savingFailed loaded event failedAt rest → answer = .saved outcome →
            outcome.resolves = true := by
        rintro loaded event failedAt rest outcome rfl rfl
        have hnone : S.rejects (.answer k j (.saved outcome)) = [] := haction ▸ hrejects
        rw [rejects, answered_eq hold] at hnone
        simpa [FlushPc.rejects] using hnone
      have hspaced := (h pc₀ (Or.inl ⟨j, hold, heff.pc_ne_ended⟩)).answer (k, j) hclock hnow heff
        hkept
      obtain ⟨pc', _, _, hpc', -⟩ := answer_effect hs' haction hold
      obtain rfl : pc₁ = pc' := by
        simpa [Watch.pc, after, Relay.setWorker, OutboxWorker.set] using hpc'
      obtain rfl := at_after_answer hsound hs' haction hold heff.pc_ne_ended hpc' hpc
      simpa only [after, haction, answered_eq hold, Relay.setWorker] using hspaced
  | crash k => simp [haction, RelayAction.steady] at hsteady

theorem relay_sound_of_run {ts : List WatchMove} (hrun : (watch batchSize).Run ts S) :
    S.relay.Sound := by
  obtain ⟨-, ts, hrelay⟩ := reachable_of_run hrun
  exact Relay.sound_of_run hrelay

/-- Ids of rows are unique in every state of the relay. -/
theorem nodup_of_run {ts : List RelayMove} {R : Relay}
    (hrun : (relaySystem batchSize).Run ts R) : (R.rows.map OutboxRow.id).Nodup := by
  refine hrun.invariant (I := fun R => (R.rows.map OutboxRow.id).Nodup) ?_ ?_
  · rintro R ⟨hrows, -⟩
    simp [hrows]
  · intro R label R' hids hs
    have heff := Relay.step_effect hs
    rcases heff.rows_cases with ⟨new, hnew, hrows⟩ | hrows | ⟨-, -, -, e, outcome, -, -, hrows⟩
    · rw [hnew] at heff
      cases heff with
      | enqueue _ _ hall => exact hall
    · exact hrows ▸ hids
    · rw [hrows]
      cases outcome with
      | failed => exact hids
      | stored | storedThenFailed => exact Table.nodup_save hids

theorem spacedAt_of_run {ts : List WatchMove} (hrun : (watch batchSize).Run ts S)
    (halone : ∀ t ∈ ts, Alone i t) (hidle : (S.start.workers i).running = false) :
    S.SpacedAt i := by
  induction hrun with
  | @nil S hinit =>
    have hrun₀ := Transition.System.Run.nil (M := watch batchSize) hinit
    have hsound := relay_sound_of_run hrun₀
    obtain ⟨⟨ts, hstart⟩, hrelay, hclock, -, -, htries⟩ := hinit
    rintro pc (⟨j, hj, hne⟩ | ⟨rfl, -⟩)
    · have hrunning := (hsound.workers i).running.2 ⟨j, pc, hj, hne⟩
      rw [hrelay, hidle] at hrunning
      cases hrunning
    · have hids := hrelay ▸ nodup_of_run hstart
      refine ⟨hids, fun x hx _ => hrelay ▸ hx, fun x _ _ _ => ⟨?_, ?_⟩, List.nodup_nil, ?_, ?_,
        by simp [FlushPc.held], by simp, ?_, fun id => ?_, ?_⟩
      · simp [htries, timesTried, Shares.share]
      · simp [htries, timesTried, Shares.share, spent]
      · simp [FlushPc.memory]
      · simp [FlushPc.queue]
      · simp [htries]
      · simp [htries, timesTried, Shares.share, spent, hclock]
      · exact ⟨by simp [htries], by simp [FlushPc.queue], by simp [FlushPc.held], by simp [htries]⟩
  | @snoc ts S S' label hrun hs ih =>
    have hidle' : (S.start.workers i).running = false := (step_start hs).1 ▸ hidle
    refine (ih (fun t ht => halone t (List.mem_append_left _ ht)) hidle').step
      (relay_sound_of_run hrun) (numbered_of_run hrun).clock hs (halone _ (by simp))

/-- What was tried in place of `r` is ahead of it. -/
theorem mem_backlog {pc : FlushPc} {t : Try}
    (h : Spaced S.start.rows S.since S.clock S.relay.rows S.tries pc) (huntried : S.Untried r.id)
    (ht : t ∈ S.tries) (hbefore : t.event.CreatedBefore r) :
    t.event.id ∈ (S.backlog r).map OutboxRow.id := by
  obtain ⟨⟨y, hy, hid, hcreated⟩, hpending⟩ := h.tries t ht
  refine List.mem_map.2 ⟨y, List.mem_filter.2 ⟨hy, ?_⟩, hid⟩
  have hyr : y.CreatedBefore r := by
    unfold OutboxRow.CreatedBefore at hbefore ⊢
    rwa [hcreated]
  simpa [hyr, hid, huntried t ht] using hpending

end Watch

/-- A process that works alone comes back to a row only after it has put it off for longer each
time, so it tries a row that is due before it has gone through more batches than the rows ahead
can fill. -/
theorem tried_of_run {batchSize i : ℕ} {ts : List WatchMove} {S : Watch}
    (hrun : (watch batchSize).Run ts S) (halone : ∀ t ∈ ts, Watch.Alone i t)
    (hidle : (S.start.workers i).running = false) :
    (∀ id, S.since + spent (timesTried S.tries id - 1) ≤ S.clock) ∧
    ∀ n r, S.Waiting r → S.clock < S.since + spent n →
      (S.backlog r).length * n < S.completed.length * batchSize →
      ∃ t ∈ S.tries, t.event.id = r.id := by
  obtain ⟨pc, hpc⟩ := S.exists_at i
  have hspaced := Watch.spacedAt_of_run hrun halone hidle pc hpc
  refine ⟨hspaced.spaced, fun n r hr hn hmany => ?_⟩
  by_contra hnone
  have huntried : S.Untried r.id := fun t ht hid => hnone ⟨t, ht, hid⟩
  have hlength := (Watch.passing_of_run hrun hr huntried).length_le (Watch.numbered_of_run hrun)
  have htimes : ∀ id, timesTried S.tries id ≤ n := by
    intro id
    by_contra hmore
    have hle : spent n ≤ spent (timesTried S.tries id - 1) := spent_mono (by omega)
    have hlate := hn.trans_le (Nat.add_le_add_left hle S.since)
    exact absurd hlate (not_lt.2 (hspaced.spaced id))
  have hshares : (S.tries.filter fun t => decide (t.event.CreatedBefore r)).length ≤
      ((S.backlog r).map OutboxRow.id).length * n := by
    refine Shares.length_le_mul (fun t => t.event.id) (fun t ht => ?_) fun id _ => ?_
    · obtain ⟨ht, hbefore⟩ : t ∈ S.tries ∧ t.event.CreatedBefore r := by simpa using ht
      exact Watch.mem_backlog hspaced huntried ht hbefore
    · have hsub : (Shares.share (fun t : Try => t.event.id) id (S.tries.filter fun t => decide
          (t.event.CreatedBefore r))).Sublist (Shares.share (fun t => t.event.id) id S.tries) :=
        List.filter_sublist.filter _
      exact hsub.length_le.trans (htimes id)
  rw [List.length_map] at hshares
  omega

section Runs

/-- The older row fails and is put off, the other one is in the next batch, and then nothing is
due. -/
def drainedRun : List RelayLabel :=
  [⟨2000, .flush 0 0⟩, ⟨2000, .answer 0 0 (.found (some [poisonRow]))⟩,
    ⟨2010, .answer 0 0 (.published false)⟩, ⟨2020, .answer 0 0 (.saved .stored)⟩,
    ⟨2500, .flush 0 1⟩, ⟨2500, .answer 0 1 (.found (some [waitingRow]))⟩,
    ⟨2510, .answer 0 1 (.published true)⟩, ⟨2520, .answer 0 1 (.saved .stored)⟩,
    ⟨2600, .flush 0 2⟩, ⟨2600, .answer 0 2 (.found (some []))⟩]

/-- The older row is tried again when its delay is over. -/
def spacedRun : List RelayLabel :=
  drainedRun ++ [⟨3010, .flush 0 3⟩, ⟨3010, .answer 0 3 (.found (some [poisonRow.backOff 2010]))⟩,
    ⟨3015, .answer 0 3 (.published false)⟩]

theorem tried_spacedRun : ∃ S, (watch 1).replay watched spacedRun = some S ∧
    (S.backlog waitingRow).length = 1 ∧ S.completed = [(0, 0), (0, 1), (0, 2)] ∧
    timesTried S.tries poisonRow.id = 2 ∧ 2000 + spent (2 - 1) ≤ 3015 ∧
    ∃ t ∈ S.tries, t.event.id = waitingRow.id := by
  have hrun : (watch 1).Run ((watch 1).moves watched spacedRun) _ :=
    .of_replay watched_init rfl
  have htried := tried_of_run (i := 0) hrun (by decide) rfl
  exact ⟨_, rfl, by decide, rfl, by decide, htried.1 poisonRow.id, htried.2 2 waitingRow
    ⟨by decide, by decide, fun _ _ _ _ h => by cases h⟩ (by decide) (by decide)⟩

end Runs

/-- What a process that works alone makes of its outbox: nothing is published twice, what is
published is PUBLISHED when the flush is over, and a row that is due waits for the rows ahead of
it and for the tries of these that failed. -/
theorem drained_of_run {batchSize i : ℕ} {ts : List WatchMove} {S : Watch}
    (hrun : (watch batchSize).Run ts S) (halone : ∀ t ∈ ts, Watch.Alone i t)
    (hidle : (S.start.workers i).running = false) :
    ((S.tries.filter Try.ok).map fun t => t.event.id).Nodup ∧
    ((S.relay.workers i).running = false → ∀ t ∈ S.tries, t.ok = true →
      ∃ x ∈ S.relay.rows, x.id = t.event.id ∧ x.status = .published) ∧
    ∀ r, S.Waiting r →
      (S.backlog r).length + (S.tries.filter fun t => !t.ok).length <
        S.completed.length * batchSize →
      ∃ t ∈ S.tries, t.event.id = r.id := by
  have hspaced := Watch.spacedAt_of_run hrun halone hidle
  obtain ⟨pc, hpc⟩ := S.exists_at i
  have honce := (hspaced pc hpc).publishedOnce
  refine ⟨honce.once, fun hover => ?_, fun r hr hmany => ?_⟩
  · have hidle' : S.At i .ended := by
      refine Or.inr ⟨rfl, fun j pc' hj => ?_⟩
      by_contra hne
      have hrunning := ((Watch.relay_sound_of_run hrun).workers i).running.2 ⟨j, pc', hj, hne⟩
      rw [hover] at hrunning
      cases hrunning
    exact (hspaced .ended hidle').publishedOnce.stored rfl
  · by_contra hnone
    have huntried : S.Untried r.id := fun t ht hid => hnone ⟨t, ht, hid⟩
    have hlength := (Watch.passing_of_run hrun hr huntried).length_le (Watch.numbered_of_run hrun)
    -- the tries ahead of `r`: one that succeeded for each row, and those that failed
    have hsplit := List.length_eq_length_filter_add (l := S.tries.filter fun t => decide
      (t.event.CreatedBefore r)) Try.ok
    have hsucceeded : ((S.tries.filter fun t => decide (t.event.CreatedBefore r)).filter
        Try.ok).length ≤ (S.backlog r).length := by
      have hsub : (((S.tries.filter fun t => decide (t.event.CreatedBefore r)).filter
          Try.ok).map fun t => t.event.id).Sublist ((S.tries.filter Try.ok).map fun t =>
            t.event.id) := (List.filter_sublist.filter _).map _
      have hahead : (((S.tries.filter fun t => decide (t.event.CreatedBefore r)).filter
          Try.ok).map fun t => t.event.id) ⊆ (S.backlog r).map OutboxRow.id := by
        intro id hid
        obtain ⟨t, ht, rfl⟩ := List.mem_map.1 hid
        obtain ⟨ht, hbefore⟩ : t ∈ S.tries ∧ t.event.CreatedBefore r := by
          simpa using (List.mem_filter.1 ht).1
        exact Watch.mem_backlog (hspaced pc hpc) huntried ht hbefore
      have hall := List.subperm_of_subset (honce.once.sublist hsub) hahead
      simpa using hall.length_le
    have hfailed : ((S.tries.filter fun t => decide (t.event.CreatedBefore r)).filter
        fun t => !t.ok).length ≤ (S.tries.filter fun t => !t.ok).length :=
      (List.filter_sublist.filter _).length_le
    omega

theorem drained_drainedRun : ∃ S, (watch 1).replay watched drainedRun = some S ∧
    S.completed = [(0, 0), (0, 1), (0, 2)] ∧
    ((S.tries.filter Try.ok).map fun t => t.event.id).Nodup ∧
    (∃ x ∈ S.relay.rows, x.id = "event-2" ∧ x.status = .published) ∧
    ∃ t ∈ S.tries, t.event.id = waitingRow.id := by
  have hrun : (watch 1).Run ((watch 1).moves watched drainedRun) _ :=
    .of_replay watched_init rfl
  have hdrained := drained_of_run (i := 0) hrun (by decide) rfl
  exact ⟨_, rfl, rfl, hdrained.1,
    hdrained.2.1 rfl ⟨(0, 1), waitingRow, true⟩ (by decide) rfl,
    hdrained.2.2 waitingRow ⟨by decide, by decide, fun _ _ _ _ h => by cases h⟩ (by decide)⟩

end RouteFast
