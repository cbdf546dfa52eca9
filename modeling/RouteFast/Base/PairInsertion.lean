import Mathlib.Data.List.Induction
import Mathlib.Order.Lattice

/-! A pair inserted into a list, the second element somewhere after the first, and the scan that
keeps the first least of the candidates. -/

variable {α β κ : Type*}

/-- `[...xs.slice(0, i), x, ...xs.slice(i)]` -/
def insertAt (xs : List α) (i : ℕ) (x : α) : List α := xs.take i ++ x :: xs.drop i

/-- `ys` is `xs` with `p` inserted at position `i`, and `d` after it, at position `j`. -/
def PairInserted (p d : α) (xs : List α) (i j : ℕ) (ys : List α) : Prop :=
  ∃ a b c, xs = a ++ b ++ c ∧ ys = a ++ p :: b ++ d :: c ∧ i = a.length ∧
    j = a.length + 1 + b.length

theorem insertAt_append (l r : List α) (x : α) : insertAt (l ++ r) l.length x = l ++ x :: r := by
  simp [insertAt]

theorem insertAt_insertAt (a b c : List α) (p d : α) :
    insertAt (insertAt (a ++ b ++ c) a.length p) (a.length + 1 + b.length) d =
      a ++ p :: b ++ d :: c := by
  have hfirst : insertAt (a ++ b ++ c) a.length p = a ++ p :: b ++ c := by
    rw [List.append_assoc, insertAt_append]
    simp
  have hlen : a.length + 1 + b.length = (a ++ p :: b).length := by
    simp only [List.length_append, List.length_cons]
    omega
  rw [hfirst, hlen, insertAt_append]

theorem exists_append_length {xs : List α} {i : ℕ} (h : i ≤ xs.length) :
    ∃ l r, xs = l ++ r ∧ l.length = i :=
  ⟨xs.take i, xs.drop i, (List.take_append_drop i xs).symm, List.length_take_of_le h⟩

theorem pairInserted_iff {p d : α} {xs ys : List α} {i j : ℕ} : PairInserted p d xs i j ys ↔
    i < j ∧ j ≤ xs.length + 1 ∧ ys = insertAt (insertAt xs i p) j d := by
  constructor
  · rintro ⟨a, b, c, rfl, rfl, rfl, rfl⟩
    refine ⟨by omega, ?_, (insertAt_insertAt a b c p d).symm⟩
    simp only [List.length_append]
    omega
  · rintro ⟨hij, hj, rfl⟩
    obtain ⟨a, r, rfl, rfl⟩ := exists_append_length (show i ≤ xs.length by omega)
    rw [List.length_append] at hj
    obtain ⟨b, c, rfl, hb⟩ := exists_append_length (show j - 1 - a.length ≤ r.length by omega)
    obtain rfl : j = a.length + 1 + b.length := by omega
    exact ⟨a, b, c, by simp, by rw [← List.append_assoc, insertAt_insertAt], rfl, rfl⟩

theorem PairInserted.filter {p d : α} {xs ys : List α} {i j : ℕ} (h : PairInserted p d xs i j ys)
    {q : α → Bool} (hp : q p = false) (hd : q d = false) : ys.filter q = xs.filter q := by
  obtain ⟨a, b, c, rfl, rfl, -, -⟩ := h
  simp [hp, hd]

theorem PairInserted.sublist {p d : α} {xs ys : List α} {i j : ℕ}
    (h : PairInserted p d xs i j ys) : xs.Sublist ys := by
  obtain ⟨a, b, c, rfl, rfl, -, -⟩ := h
  have hb : (a ++ b).Sublist (a ++ p :: b) := (List.Sublist.refl a).append (List.sublist_cons_self p b)
  exact hb.append (List.sublist_cons_self d c)

/-- A list in which `q` finds a pair has that pair inserted into the rest. -/
theorem pairInserted_of_filter {p d : α} {ys : List α} {q : α → Bool}
    (h : ys.filter q = [p, d]) :
    ∃ i j, PairInserted p d (ys.filter fun x => !q x) i j ys := by
  obtain ⟨a, r, rfl, ha, hp, hr⟩ := List.filter_eq_cons_iff.1 h
  obtain ⟨b, c, rfl, hb, hd, hc⟩ := List.filter_eq_cons_iff.1 hr
  have hnone : ∀ l : List α, (∀ x ∈ l, ¬ q x = true) → l.filter (fun x => !q x) = l := by
    intro l hl
    rw [List.filter_eq_self]
    intro x hx
    simpa using hl x hx
  refine ⟨a.length, a.length + 1 + b.length, a, b, c, ?_, by simp, rfl, rfl⟩
  have hc := List.filter_eq_nil_iff.1 hc
  simp [hp, hd, hnone a ha, hnone b hb, hnone c hc]

theorem prefix_append_cons_iff {l r before : List α} {x : α} : before <+: l ++ x :: r ↔
    before <+: l ∨ ∃ r', r' <+: r ∧ before = l ++ x :: r' := by
  induction l generalizing before with
  | nil =>
    rw [List.nil_append, List.prefix_cons_iff, List.prefix_nil]
    simp [and_comm]
  | cons y l ih =>
    rw [List.cons_append, List.prefix_cons_iff, List.prefix_cons_iff]
    constructor
    · rintro (rfl | ⟨t, rfl, ht⟩)
      · exact Or.inl (Or.inl rfl)
      · rcases ih.1 ht with hl | ⟨r', hr', rfl⟩
        · exact Or.inl (Or.inr ⟨t, rfl, hl⟩)
        · exact Or.inr ⟨r', hr', rfl⟩
    · rintro ((rfl | ⟨t, rfl, ht⟩) | ⟨r', hr', rfl⟩)
      · exact Or.inl rfl
      · exact Or.inr ⟨t, rfl, ih.2 (Or.inl ht)⟩
      · exact Or.inr ⟨l ++ x :: r', rfl, ih.2 (Or.inr ⟨r', hr', rfl⟩)⟩

/-- The pairs of positions at which a pair can be inserted into a list of length `n`, as two
nested loops go through them. -/
def positions (n : ℕ) : List (ℕ × ℕ) :=
  (List.range (n + 1)).flatMap fun i => (List.range' (i + 1) (n + 1 - i)).map (Prod.mk i)

theorem mem_positions {n i j : ℕ} : (i, j) ∈ positions n ↔ i < j ∧ j ≤ n + 1 := by
  simp only [positions, List.mem_flatMap, List.mem_range, List.mem_map, List.mem_range'_1,
    Prod.mk.injEq]
  constructor
  · rintro ⟨i', hi, j', hj, rfl, rfl⟩
    omega
  · rintro ⟨hij, hj⟩
    exact ⟨i, by omega, j, by omega, rfl, rfl⟩

/-- The loops go through the positions in lexicographic order. -/
theorem positions_sorted (n : ℕ) :
    (positions n).Pairwise fun x y => x.1 < y.1 ∨ x.1 = y.1 ∧ x.2 < y.2 := by
  rw [positions, List.pairwise_flatMap]
  constructor
  · intro i _
    rw [List.pairwise_map]
    exact (List.pairwise_lt_range' 1).imp fun h => Or.inr ⟨rfl, h⟩
  · refine List.pairwise_lt_range.imp fun {i i'} hlt x hx y hy => ?_
    obtain ⟨j, -, rfl⟩ := List.mem_map.1 hx
    obtain ⟨j', -, rfl⟩ := List.mem_map.1 hy
    exact Or.inl hlt

/-- One step of the scan: a candidate that passes replaces the best one if it costs less. -/
def keepLess [LinearOrder β] (ok : α → Bool) (cost : α → β) (best : Option (α × β)) (x : α) :
    Option (α × β) :=
  if ok x then
    match best with
    | none => some (x, cost x)
    | some (y, c) => if cost x < c then some (x, cost x) else some (y, c)
  else best

/-- The first of the least that pass, with its cost. -/
def FirstLeast [LinearOrder β] (ok : α → Bool) (cost : α → β) (xs : List α) :
    Option (α × β) → Prop
  | none => ∀ x ∈ xs, ok x = false
  | some (x, c) => c = cost x ∧ ok x ∧ ∃ l r, xs = l ++ x :: r ∧
      (∀ y ∈ l, ok y → cost x < cost y) ∧ ∀ y ∈ r, ok y → cost x ≤ cost y

namespace FirstLeast

variable [LinearOrder β] {ok : α → Bool} {cost : α → β} {xs : List α} {best : Option (α × β)}

theorem snoc (h : FirstLeast ok cost xs best) (x : α) :
    FirstLeast ok cost (xs ++ [x]) (keepLess ok cost best x) := by
  unfold keepLess
  cases hx : ok x with
  | false =>
    cases best with
    | none =>
      intro y hy
      rcases List.mem_append.1 hy with hy | hy
      · exact h y hy
      · obtain rfl : y = x := by simpa using hy
        exact hx
    | some best =>
      obtain ⟨y, c⟩ := best
      obtain ⟨hc, hy, l, r, rfl, hl, hr⟩ := h
      refine ⟨hc, hy, l, r ++ [x], by simp, hl, fun z hz hzok => ?_⟩
      rcases List.mem_append.1 hz with hz | hz
      · exact hr z hz hzok
      · obtain rfl : z = x := by simpa using hz
        simp [hx] at hzok
  | true =>
    cases best with
    | none =>
      refine ⟨rfl, hx, xs, [], rfl, fun y hy hyok => ?_, by simp⟩
      simp [h y hy] at hyok
    | some best =>
      obtain ⟨y, c⟩ := best
      obtain ⟨rfl, hy, l, r, rfl, hl, hr⟩ := h
      by_cases hlt : cost x < cost y
      · simp only [if_true, hlt]
        refine ⟨rfl, hx, l ++ y :: r, [], rfl, fun z hz hzok => ?_, by simp⟩
        rcases List.mem_append.1 hz with hz | hz
        · exact hlt.trans (hl z hz hzok)
        · rcases List.mem_cons.1 hz with rfl | hz
          · exact hlt
          · exact hlt.trans_le (hr z hz hzok)
      · simp only [if_true, hlt, if_false]
        refine ⟨rfl, hy, l, r ++ [x], by simp, hl, fun z hz hzok => ?_⟩
        rcases List.mem_append.1 hz with hz | hz
        · exact hr z hz hzok
        · obtain rfl : z = x := by simpa using hz
          exact not_lt.1 hlt

theorem foldl (ok : α → Bool) (cost : α → β) (xs : List α) :
    FirstLeast ok cost xs (xs.foldl (keepLess ok cost) none) := by
  induction xs using List.reverseRecOn with
  | nil => simp [FirstLeast]
  | append_singleton xs x ih =>
    rw [List.foldl_append]
    exact ih.snoc x

theorem exists_of_mem (h : FirstLeast ok cost xs best) {x : α} (hx : x ∈ xs) (hok : ok x) :
    ∃ y, best = some (y, cost y) := by
  cases best with
  | none => simp [h x hx] at hok
  | some best => exact ⟨best.1, by rw [← h.1]⟩

/-- Of the candidates that `f` makes of keys in the order of `r`, the one kept has the first
key among the least. -/
theorem of_map {f : κ → α} {ks : List κ} {r : κ → κ → Prop} {x : α} {c : β}
    (h : FirstLeast ok cost (ks.map f) (some (x, c))) (hks : ks.Pairwise r) :
    ∃ k ∈ ks, x = f k ∧ ok x ∧ ∀ k' ∈ ks, ok (f k') → cost x ≤ cost (f k') ∧
      (¬ r k k' → k' ≠ k → cost x < cost (f k')) := by
  obtain ⟨-, hx, l, s, heq, hl, hs⟩ := h
  obtain ⟨kl, ks', rfl, rfl, hks'⟩ := List.map_eq_append_iff.1 heq
  obtain ⟨k, kr, rfl, rfl, rfl⟩ := List.map_eq_cons_iff.1 hks'
  refine ⟨k, by simp, rfl, hx, fun k' hk' hok => ?_⟩
  have hfirst : ∀ k' ∈ kr, r k k' :=
    fun _ h => List.rel_of_pairwise_cons (List.pairwise_append.1 hks).2.1 h
  rcases List.mem_append.1 hk' with hk' | hk'
  · have hlt := hl _ (List.mem_map_of_mem hk') hok
    exact ⟨hlt.le, fun _ _ => hlt⟩
  · rcases List.mem_cons.1 hk' with rfl | hk'
    · exact ⟨le_refl _, fun _ hne => absurd rfl hne⟩
    · exact ⟨hs _ (List.mem_map_of_mem hk') hok, fun hnot => absurd (hfirst k' hk') hnot⟩

end FirstLeast
