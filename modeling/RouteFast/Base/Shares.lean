import Mathlib.Data.List.Nodup

/-! How long a list is, from how many of its elements each key has. -/

namespace Shares

variable {α κ : Type*} [DecidableEq κ] (key : α → κ)

/-- The elements of the key. -/
def share (k : κ) (l : List α) : List α := l.filter fun x => key x = k

variable {key} {k : κ} {keys : List κ} {l : List α} {x : α} {n : ℕ}

theorem mem_share : x ∈ share key k l ↔ x ∈ l ∧ key x = k := by simp [share]

theorem share_append {l' : List α} : share key k (l ++ l') = share key k l ++ share key k l' :=
  List.filter_append l l'

theorem share_nil_iff : share key k l = [] ↔ ∀ x ∈ l, key x ≠ k := by
  simp [share, List.filter_eq_nil_iff]

/-- One key's elements, and those of the others. -/
theorem length_share_add (key : α → κ) : (share key k l).length + (l.filter fun x => key x ≠ k).length =
    l.length := by
  induction l with
  | nil => rfl
  | cons x l ih =>
    by_cases hx : key x = k
    · simp_all [share]
      omega
    · simp_all [share]
      omega

/-- Taking another key's elements away leaves those of this one. -/
theorem share_filter_ne {k' : κ} (h : k' ≠ k) :
    share key k' (l.filter fun x => key x ≠ k) = share key k' l := by
  unfold share
  rw [List.filter_filter]
  congr 1
  funext x
  by_cases hx : key x = k'
  · simp [hx, h]
  · simp [hx]

/-- Keys that have at least `n` elements each. -/
theorem mul_length_le (key : α → κ) (hkeys : keys.Nodup) (h : ∀ k ∈ keys, n ≤ (share key k l).length) :
    keys.length * n ≤ l.length := by
  induction keys generalizing l with
  | nil => simp
  | cons k keys ih =>
    obtain ⟨hk, hkeys⟩ := List.nodup_cons.1 hkeys
    have hrest : keys.length * n ≤ (l.filter fun x => key x ≠ k).length := by
      apply ih hkeys
      intro k' hk'
      have hne : k' ≠ k := fun he => hk (he ▸ hk')
      rw [share_filter_ne hne]
      exact h k' (List.mem_cons_of_mem k hk')
    have hfirst := h k List.mem_cons_self
    have hall := length_share_add key (k := k) (l := l)
    rw [List.length_cons, Nat.succ_mul]
    omega

/-- Keys that have all the elements among them, at most `n` each. -/
theorem length_le_mul (key : α → κ) (hall : ∀ x ∈ l, key x ∈ keys)
    (h : ∀ k ∈ keys, (share key k l).length ≤ n) : l.length ≤ keys.length * n := by
  induction keys generalizing l with
  | nil =>
    cases l with
    | nil => simp
    | cons x l => exact absurd (hall x List.mem_cons_self) List.not_mem_nil
  | cons k keys ih =>
    have hrest : (l.filter fun x => key x ≠ k).length ≤ keys.length * n := by
      apply ih
      · intro x hx
        obtain ⟨hx, hne⟩ : x ∈ l ∧ key x ≠ k := by simpa using hx
        exact (List.mem_cons.1 (hall x hx)).resolve_left hne
      · intro k' hk'
        have hsub : (share key k' (l.filter fun x => key x ≠ k)).Sublist (share key k' l) :=
          List.filter_sublist.filter _
        exact Nat.le_trans hsub.length_le (h k' (List.mem_cons_of_mem k hk'))
    have hfirst := h k List.mem_cons_self
    have hsplit := length_share_add key (k := k) (l := l)
    rw [List.length_cons, Nat.succ_mul]
    omega

end Shares
