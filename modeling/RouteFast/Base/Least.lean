import Mathlib.Data.List.Sort
import Mathlib.Data.List.Perm.Subperm

/-! The first `k` of a list in the order of a relation, as `ORDER BY .. LIMIT k` and
sorted searches return them: ties may come in any order, and any of them may be cut. -/

variable {α : Type*}

/-- `out` holds the `k` first of `s` by `r`, in order. -/
structure Least (r : α → α → Prop) (k : ℕ) (s out : List α) : Prop where
  sorted : out.Pairwise r
  within : ∃ rest, (out ++ rest).Perm s ∧ ∀ x ∈ out, ∀ y ∈ rest, r x y
  length : out.length = min k s.length

/-- The front of a sorted list. -/
theorem least_take {r : α → α → Prop} {s : List α} (h : s.Pairwise r) (k : ℕ) :
    Least r k s (s.take k) := by
  refine ⟨h.sublist (List.take_sublist k s), ⟨s.drop k, ?_, ?_⟩, List.length_take⟩
  · rw [List.take_append_drop]
  · rw [← List.take_append_drop k s, List.pairwise_append] at h
    exact h.2.2

namespace Least

variable {r : α → α → Prop} {k n : ℕ} {s out raw : List α} {x y : α}

theorem mem (h : Least r k s out) (hx : x ∈ out) : x ∈ s := by
  obtain ⟨rest, hperm, -⟩ := h.within
  exact hperm.mem_iff.1 (List.mem_append_left _ hx)

theorem length_le (h : Least r k s out) : out.length ≤ k := h.length ▸ min_le_left _ _

theorem subperm (h : Least r k s out) : out.Subperm s := by
  obtain ⟨rest, hperm, -⟩ := h.within
  exact (List.sublist_append_left out rest).subperm.trans hperm.subperm

/-- What was cut comes after all that was kept. -/
theorem before (h : Least r k s out) (hx : x ∈ out) (hy : y ∈ s) (hout : y ∉ out) : r x y := by
  obtain ⟨rest, hperm, hle⟩ := h.within
  rcases List.mem_append.1 (hperm.mem_iff.2 hy) with hmem | hmem
  · exact absurd hmem hout
  · exact hle x hx y hmem

/-- Cut to a shorter length, it is still first. -/
theorem take (h : Least r n s out) (hk : k ≤ n) : Least r k s (out.take k) := by
  obtain ⟨rest, hperm, hle⟩ := h.within
  refine ⟨h.sorted.sublist (List.take_sublist k out), ⟨out.drop k ++ rest, ?_, ?_⟩, ?_⟩
  · rwa [← List.append_assoc, List.take_append_drop]
  · intro x hx y hy
    rcases List.mem_append.1 hy with hy | hy
    · have hsorted := h.sorted
      rw [← List.take_append_drop k out, List.pairwise_append] at hsorted
      exact hsorted.2.2 x hx y hy
    · exact hle x (List.mem_of_mem_take hx) y hy
  · rw [List.length_take, h.length]
    omega

/-- A filter of what was kept comes first among what passes the filter. -/
theorem filter (h : Least r n s raw) (p : α → Bool) :
    Least r (raw.filter p).length (s.filter p) (raw.filter p) := by
  obtain ⟨rest, hperm, hle⟩ := h.within
  have hfilter : (raw.filter p ++ rest.filter p).Perm (s.filter p) := by
    rw [← List.filter_append]
    exact hperm.filter p
  refine ⟨h.sorted.filter p, ⟨rest.filter p, hfilter, fun x hx y hy => ?_⟩, ?_⟩
  · exact hle x (List.mem_filter.1 hx).1 y (List.mem_filter.1 hy).1
  · have hlen := hfilter.length_eq
    rw [List.length_append] at hlen
    omega

/-- Filtering after a cut loses nothing if and only if the cut left enough. -/
theorem filter_take_iff (h : Least r n s raw) (p : α → Bool) :
    Least r k (s.filter p) ((raw.filter p).take k) ↔
      min k (s.filter p).length ≤ (raw.filter p).length := by
  constructor
  · intro hleast
    have hlen := hleast.length
    rw [List.length_take] at hlen
    omega
  · intro henough
    have hle := (h.filter p).length
    have htake := (h.filter p).take (min_le_right k _)
    rw [← List.take_eq_take_min] at htake
    refine ⟨htake.sorted, htake.within, ?_⟩
    rw [List.length_take]
    omega

/-- What is left of `s` is all that was cut. -/
theorem iff_diff [DecidableEq α] : Least r k s out ↔ out.Pairwise r ∧
    (out ++ s.diff out).Perm s ∧ (∀ x ∈ out, ∀ y ∈ s.diff out, r x y) ∧
      out.length = min k s.length := by
  constructor
  · rintro ⟨hsorted, ⟨rest, hperm, hle⟩, hlen⟩
    have hdiff : (out ++ s.diff out).Perm s := by
      refine List.subperm_append_diff_self_of_count_le fun x _ => ?_
      rw [← hperm.count_eq, List.count_append]
      omega
    have hrest : (s.diff out).Perm rest :=
      (List.perm_append_left_iff out).1 (hdiff.trans hperm.symm)
    exact ⟨hsorted, hdiff, fun x hx y hy => hle x hx y (hrest.mem_iff.1 hy), hlen⟩
  · rintro ⟨hsorted, hperm, hle, hlen⟩
    exact ⟨hsorted, ⟨_, hperm, hle⟩, hlen⟩

instance [DecidableEq α] [DecidableRel r] : Decidable (Least r k s out) :=
  decidable_of_iff _ iff_diff.symm

/-- All of a short list comes, in order. -/
theorem perm_of_length_le (h : Least r k s out) (hk : s.length ≤ k) : out.Perm s := by
  obtain ⟨rest, hperm, -⟩ := h.within
  have hlen := hperm.length_eq
  rw [List.length_append, h.length, min_eq_right hk] at hlen
  obtain rfl : rest = [] := List.length_eq_zero_iff.1 (by omega)
  simpa using hperm

/-- A front by a finer order is one by the coarser order too. -/
theorem mono {r' : α → α → Prop} (h : Least r' k s out) (hle : ∀ x y, r' x y → r x y) :
    Least r k s out := by
  obtain ⟨rest, hperm, hbefore⟩ := h.within
  exact ⟨h.sorted.imp fun {x y} => hle x y,
    ⟨rest, hperm, fun x hx y hy => hle x y (hbefore x hx y hy)⟩, h.length⟩

end Least

theorem least_take_of_perm {r : α → α → Prop} {s sorted : List α} (hsorted : sorted.Pairwise r)
    (hperm : sorted.Perm s) (k : ℕ) : Least r k s (sorted.take k) := by
  obtain ⟨hpairs, ⟨rest, hrest, hle⟩, hlen⟩ := least_take hsorted k
  exact ⟨hpairs, ⟨rest, hrest.trans hperm, hle⟩, by rw [hlen, hperm.length_eq]⟩

theorem exists_least {r : α → α → Prop} [Std.Total r] [IsTrans α r] (k : ℕ) (s : List α) :
    ∃ out, Least r k s out := by
  classical
  exact ⟨_, least_take_of_perm (List.pairwise_insertionSort r s) (List.perm_insertionSort r s) k⟩

/-- An element that nothing comes before may come first, however many are kept. -/
theorem exists_least_cons {r : α → α → Prop} [Std.Total r] [IsTrans α r] {x : α} {s : List α}
    (hx : x ∈ s) (hfirst : ∀ y ∈ s, r x y) :
    ∃ rest, ∀ k, Least r k s ((x :: rest).take k) := by
  classical
  have hrest := List.perm_insertionSort r (s.erase x)
  refine ⟨(s.erase x).insertionSort r, least_take_of_perm ?_ ?_⟩
  · refine List.pairwise_cons.2 ⟨fun y hy => ?_, List.pairwise_insertionSort r _⟩
    exact hfirst y (List.mem_of_mem_erase (hrest.mem_iff.1 hy))
  · exact (hrest.cons x).trans (List.perm_cons_erase hx).symm

/-- However ties are cut, an element with `p` is kept: this is so if and only if, for one of
these, fewer than `n` others come before it or tie with it. -/
theorem least_exists_iff {r : α → α → Prop} [DecidableRel r] [Std.Total r] [IsTrans α r]
    {p : α → Bool} {n : ℕ} {s : List α} : (∀ out, Least r n s out → ∃ x ∈ out, p x) ↔
      ∃ x ∈ s, p x ∧ (s.filter fun y => !p y && decide (r y x)).length < n := by
  constructor
  · intro hkept
    by_contra hmany
    push Not at hmany
    -- the order that puts the others first where `r` ties
    let r' (x y : α) : Prop := r x y ∧ (r y x → p x → p y)
    have : Std.Total r' := by
      constructor
      intro x y
      by_cases hxy : r x y
      · by_cases hyx : r y x
        · cases hp : p x with
          | false => exact Or.inl ⟨hxy, fun _ hx => by simp [hp] at hx⟩
          | true => exact Or.inr ⟨hyx, fun _ _ => hp⟩
        · exact Or.inl ⟨hxy, fun h => absurd h hyx⟩
      · have hyx := (Std.Total.total (r := r) x y).resolve_left hxy
        exact Or.inr ⟨hyx, fun h => absurd h hxy⟩
    have : IsTrans α r' := by
      constructor
      rintro x y z ⟨hxy, hp⟩ ⟨hyz, hq⟩
      refine ⟨trans_of r hxy hyz, fun hzx hx => ?_⟩
      exact hq (trans_of r hzx hxy) (hp (trans_of r hyz hzx) hx)
    obtain ⟨out, hout⟩ := exists_least (r := r') n s
    obtain ⟨x, hx, hpx⟩ := hkept out (hout.mono fun _ _ h => h.1)
    obtain ⟨rest, hperm, hbefore⟩ := hout.within
    have hcut : rest.filter (fun y => !p y && decide (r y x)) = [] := by
      rw [List.filter_eq_nil_iff]
      intro y hy hyx
      obtain ⟨hpy, hyx⟩ : p y = false ∧ r y x := by simpa using hyx
      have hle := hbefore x hx y hy
      simp [hle.2 hyx hpx] at hpy
    have hsame := (hperm.filter fun y => !p y && decide (r y x)).length_eq
    rw [List.filter_append, hcut, List.append_nil] at hsame
    have hless : (out.filter fun y => !p y && decide (r y x)).length < out.length :=
      List.length_filter_lt_length_iff_exists.2 ⟨x, hx, by simp [hpx]⟩
    have hle := hmany x (hout.mem hx) hpx
    have hn := hout.length_le
    omega
  · rintro ⟨x, hx, hpx, hfew⟩ out hout
    by_contra hnone
    push Not at hnone
    have hxout : x ∉ out := fun hmem => by simpa [hpx] using hnone x hmem
    have hsub : out.Subperm (s.filter fun y => !p y && decide (r y x)) := by
      have hall : out.filter (fun y => !p y && decide (r y x)) = out := by
        rw [List.filter_eq_self]
        intro y hy
        simpa using ⟨Bool.eq_false_iff.2 (hnone y hy), hout.before hy hx hxout⟩
      rw [← hall]
      exact hout.subperm.filter _
    have hlen := hsub.length_le
    rw [hout.length] at hlen
    have hshort : s.length ≤ n := by
      by_contra hlong
      omega
    exact hxout ((hout.perm_of_length_le hshort).mem_iff.2 hx)
