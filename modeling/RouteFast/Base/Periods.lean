import Mathlib.Data.List.Induction

/-! Logs that markers divide into periods. A marker begins a period of its kind, which the next
marker ends; what is counted are other events of the log. -/

namespace Periods

variable {ε κ : Type*} (mark : ε → Option κ) (counted : ε → Bool) (initial p : κ)

/-- The log has `period` after a marker of kind `p`, with no marker in between, and goes on with
`after`. -/
def Follows (seen period after : List ε) : Prop :=
  (∃ before e, mark e = some p ∧ seen = before ++ e :: (period ++ after)) ∧
    ∀ e ∈ period, mark e = none

/-- The kind of the period the log ends in. -/
def kind : List ε → κ := List.foldl (fun k e => (mark e).getD k) initial

/-- The counted events of the period the log ends in. -/
def tally : List ε → ℕ :=
  List.foldl (fun n e => if (mark e).isSome then 0 else if counted e then n + 1 else n) 0

/-- No period of kind `p` has more than `n` counted events. -/
def Bounded (n : ℕ) (seen : List ε) : Prop :=
  ∀ period after, Follows mark p seen period after → period.countP counted ≤ n

variable {mark counted initial p} {seen period after : List ε} {e : ε}

theorem kind_snoc : kind mark initial (seen ++ [e]) = (mark e).getD (kind mark initial seen) := by
  simp [kind]

theorem kind_marked {k : κ} (h : mark e = some k) : kind mark initial (seen ++ [e]) = k := by
  simp [kind_snoc, h]

theorem kind_unmarked (h : mark e = none) :
    kind mark initial (seen ++ [e]) = kind mark initial seen := by
  simp [kind_snoc, h]

theorem tally_marked {k : κ} (h : mark e = some k) : tally mark counted (seen ++ [e]) = 0 := by
  simp [tally, h]

theorem tally_unmarked (h : mark e = none) : tally mark counted (seen ++ [e]) =
    tally mark counted seen + if counted e then 1 else 0 := by
  simp only [tally, List.foldl_append, List.foldl_cons, List.foldl_nil, h, Option.isSome_none]
  split_ifs <;> simp_all

theorem snoc_split (before : List ε) (m : ε) :
    before ++ m :: (period ++ [e] ++ []) = (before ++ m :: (period ++ [])) ++ [e] := by
  simp

/-- A period the log ends in is the one `kind` is about, -/
theorem Follows.kind_eq (h : Follows mark p seen period []) : kind mark initial seen = p := by
  obtain ⟨⟨before, m, hm, rfl⟩, hnone⟩ := h
  induction period using List.reverseRecOn with
  | nil => exact kind_marked hm
  | append_singleton period e ih =>
    rw [snoc_split, kind_unmarked (hnone e (by simp))]
    exact ih fun e' he' => hnone e' (by simp [he'])

/-- and the one `tally` counts in. -/
theorem Follows.tally_eq (h : Follows mark p seen period []) :
    tally mark counted seen = period.countP counted := by
  obtain ⟨⟨before, m, hm, rfl⟩, hnone⟩ := h
  induction period using List.reverseRecOn with
  | nil => exact tally_marked hm
  | append_singleton period e ih =>
    have htally : tally mark counted (before ++ m :: (period ++ [])) = period.countP counted :=
      ih fun e' he' => hnone e' (by simp [he'])
    rw [snoc_split, tally_unmarked (hnone e (by simp)), htally, List.countP_append,
      List.countP_singleton]

/-- A log in a period of kind `p` has begun it, where it is not in one from the start. -/
theorem exists_follows (hinitial : initial ≠ p) (h : kind mark initial seen = p) :
    ∃ period, Follows mark p seen period [] := by
  induction seen using List.reverseRecOn with
  | nil => exact absurd h hinitial
  | append_singleton seen e ih =>
    cases hm : mark e with
    | some k =>
      obtain rfl : k = p := (kind_marked hm).symm.trans h
      exact ⟨[], ⟨seen, e, hm, by simp⟩, by simp⟩
    | none =>
      obtain ⟨period, ⟨before, m, hmark, rfl⟩, hnone⟩ := ih ((kind_unmarked hm).symm.trans h)
      refine ⟨period ++ [e], ⟨before, m, hmark, by simp⟩, ?_⟩
      intro e' he'
      rcases List.mem_append.1 he' with he' | he'
      · exact hnone e' he'
      · simp_all

theorem Bounded.nil {n : ℕ} : Bounded mark counted p n [] := by
  intro period after h
  obtain ⟨⟨before, m, -, heq⟩, -⟩ := h
  simp at heq

/-- A period of a log one event longer ends before that event or with it. -/
theorem Follows.of_snoc (h : Follows mark p (seen ++ [e]) period after) :
    (∃ after', Follows mark p seen period after') ∨ period = [] ∨
      ∃ period', Follows mark p seen period' [] ∧ period = period' ++ [e] := by
  obtain ⟨⟨before, m, hm, heq⟩, hnone⟩ := h
  rcases List.eq_nil_or_concat after with rfl | ⟨after', x, rfl⟩
  · rcases List.eq_nil_or_concat period with rfl | ⟨period', x, rfl⟩
    · exact Or.inr (Or.inl rfl)
    · right; right
      rw [List.append_nil, List.concat_eq_append, ← List.cons_append, ← List.append_assoc] at heq
      obtain ⟨rfl, hx⟩ := List.append_inj' heq rfl
      obtain rfl : e = x := by simpa using hx
      refine ⟨period', ⟨⟨before, m, hm, by simp⟩, ?_⟩, List.concat_eq_append⟩
      intro e' he'
      exact hnone e' (by simp [he'])
  · left
    rw [List.concat_eq_append, ← List.append_assoc, ← List.cons_append, ← List.append_assoc] at heq
    obtain ⟨rfl, -⟩ := List.append_inj' heq rfl
    exact ⟨after', ⟨before, m, hm, rfl⟩, hnone⟩

/-- A counted event may come in a period of kind `p` while the tally is below the bound. -/
theorem Bounded.snoc {n : ℕ} (h : Bounded mark counted p n seen)
    (hroom : kind mark initial seen = p → counted e → tally mark counted seen < n) :
    Bounded mark counted p n (seen ++ [e]) := by
  intro period after hf
  rcases hf.of_snoc with ⟨after', hearlier⟩ | rfl | ⟨period', hcurrent, rfl⟩
  · exact h period after' hearlier
  · exact Nat.zero_le n
  · have hle : period'.countP counted ≤ n := h period' [] hcurrent
    have htally : tally mark counted seen = period'.countP counted := hcurrent.tally_eq
    rw [List.countP_append, List.countP_singleton]
    split_ifs with he
    · have hlt : tally mark counted seen < n := hroom hcurrent.kind_eq he
      omega
    · omega

theorem Bounded.snoc_uncounted {n : ℕ} (h : Bounded mark counted p n seen)
    (he : counted e = false) : Bounded mark counted p n (seen ++ [e]) := by
  apply h.snoc
  intro (_ : kind mark p seen = p) hcounted
  simp [he] at hcounted

end Periods
