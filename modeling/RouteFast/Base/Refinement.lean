import RouteFast.Base.Run
import Mathlib.Logic.Relation

/-! A run seen from above: each state shows a value of an abstract machine, and each transition
is one of its moves or leaves the value as it is. -/

namespace Transition

variable {σ α τ : Type*} {M : System σ α} {shows : σ → τ → Prop} {move : τ → τ → Prop}
  {ts : List (Move σ α)} {t : Move σ α} {s : σ} {x₀ : τ}

/-- The transition shows a move of the abstract machine, or none. -/
def Refines (shows : σ → τ → Prop) (move : τ → τ → Prop) (t : Move σ α) : Prop :=
  ∃ x y, shows t.pre x ∧ shows t.post y ∧ (y = x ∨ move x y)

/-- The transition changes what is shown. -/
def Changes (shows : σ → τ → Prop) (t : Move σ α) : Prop :=
  ∃ x y, shows t.pre x ∧ shows t.post y ∧ y ≠ x

/-- Refinement, step by step. -/
theorem System.Run.refines {C : Move σ α → Prop} (hinit : ∀ s, M.init s → shows s x₀)
    (hstep : ∀ s a s' x, shows s x → M.step s a = some s' → C ⟨s, a, s'⟩ →
      ∃ y, shows s' y ∧ (y = x ∨ move x y))
    (hrun : M.Run ts s) (hC : ∀ t ∈ ts, C t) :
    (∃ x, shows s x ∧ Relation.ReflTransGen move x₀ x) ∧ ∀ t ∈ ts, Refines shows move t := by
  induction hrun with
  | nil h => exact ⟨⟨x₀, hinit _ h, .refl⟩, by simp⟩
  | @snoc ts s s' a _ hs ih =>
    obtain ⟨⟨x, hx, hreach⟩, hall⟩ := ih fun t ht => hC t (List.mem_append_left _ ht)
    obtain ⟨y, hy, hmove⟩ := hstep s a s' x hx hs (hC _ (by simp))
    refine ⟨⟨y, hy, ?_⟩, fun t ht => ?_⟩
    · rcases hmove with rfl | hmove
      · exact hreach
      · exact hreach.tail hmove
    · rcases List.mem_append.1 ht with ht | ht
      · exact hall t ht
      · obtain rfl := List.mem_singleton.1 ht
        exact ⟨x, y, hx, hy, hmove⟩

section Rank

variable {rank : τ → ℕ}

/-- With one value shown by each state, a rank that moves raise bounds how many transitions of
a run change it. -/
theorem System.Run.changes_le (hrun : M.Run ts s) (hinit : ∀ s, M.init s → shows s x₀)
    (hunique : ∀ s x y, shows s x → shows s y → x = y)
    (hrank : ∀ x y, move x y → rank x < rank y)
    (hrefines : ∀ t ∈ ts, Refines shows move t) {us : List (Move σ α)} (hus : us.Sublist ts)
    (hchanges : ∀ u ∈ us, Changes shows u) {x : τ} (hx : shows s x) :
    rank x₀ + us.length ≤ rank x := by
  induction hrun generalizing us x with
  | nil h =>
    obtain rfl := List.sublist_nil.1 hus
    obtain rfl := hunique _ _ _ hx (hinit _ h)
    exact Nat.le_refl _
  | @snoc ts s s' a _ _ ih =>
    have hold : ∀ t ∈ ts, Refines shows move t := fun t ht =>
      hrefines t (List.mem_append_left _ ht)
    obtain ⟨y, z, hy, hz, hmove⟩ := hrefines ⟨s, a, s'⟩ (by simp)
    obtain rfl := hunique _ _ _ hx hz
    have hle : rank y ≤ rank x := by
      rcases hmove with rfl | hmove
      · exact Nat.le_refl _
      · exact Nat.le_of_lt (hrank y x hmove)
    rcases List.sublist_append_iff.1 hus with ⟨us₁, us₂, rfl, hus₁, hus₂⟩
    have hbefore := ih hold hus₁ (fun u hu => hchanges u (List.mem_append_left _ hu)) hy
    rcases List.sublist_singleton.1 hus₂ with rfl | rfl
    · simp only [List.append_nil]
      exact Nat.le_trans hbefore hle
    · -- the last transition is one that changes what is shown
      obtain ⟨y', x', hy', hx', hne⟩ := hchanges ⟨s, a, s'⟩ (by simp)
      obtain rfl := hunique _ _ _ hy hy'
      obtain rfl := hunique _ _ _ hx hx'
      have hlt := hrank y x (hmove.resolve_left hne)
      rw [List.length_append, List.length_singleton]
      omega

end Rank

end Transition
