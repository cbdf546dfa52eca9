import RouteFast.Base.Proc
import Mathlib.Algebra.BigOperators.Finprod
import Mathlib.Tactic.Abel

/-! What the computations of a pool hold among them, summed over all of them. Only finitely
many have been started, so that a step changes the sum by what its own computation holds
before and after it. -/

/-- A change of one term is a change of the sum. -/
theorem finsum_update_add {α M : Type*} [DecidableEq α] [AddCommMonoid M] {f : α → M}
    (hf : f.support.Finite) (i : α) (x : M) :
    finsum (Function.update f i x) + f i = finsum f + x := by
  have hsupport : f.support ⊆ ↑(insert i hf.toFinset) := by
    intro j hj
    rw [Finset.coe_insert, Set.Finite.coe_toFinset]
    exact Or.inr hj
  have hupdate : (Function.update f i x).support ⊆ ↑(insert i hf.toFinset) := by
    intro j hj
    rw [Finset.coe_insert, Set.Finite.coe_toFinset]
    by_cases hij : j = i
    · exact Or.inl hij
    · exact Or.inr (by simpa [Function.update_of_ne hij] using hj)
  rw [finsum_eq_sum_of_support_subset f hsupport, finsum_eq_sum_of_support_subset _ hupdate,
    ← Finset.add_sum_erase _ f (Finset.mem_insert_self i _),
    ← Finset.add_sum_erase _ (Function.update f i x) (Finset.mem_insert_self i _)]
  have hrest : ∑ j ∈ (insert i hf.toFinset).erase i, Function.update f i x j =
      ∑ j ∈ (insert i hf.toFinset).erase i, f j :=
    Finset.sum_congr rfl fun j hj => Function.update_of_ne (Finset.ne_of_mem_erase hj) _ _
  rw [hrest, Function.update_self, add_comm x, add_comm _ (f i), ← add_assoc]

namespace Transition.Pool

variable {σ ε α π M : Type*} [AddCommMonoid M] {init : σ → Prop} {body : π → Proc σ ε α}
  {holds : Thread σ ε α π → M}

/-- What the computation at `i` holds. -/
def held (holds : Thread σ ε α π → M) (P : Pool σ ε α π) (i : ℕ) : M :=
  (P.threads i).elim 0 holds

/-- What all of them hold together. -/
noncomputable def total (holds : Thread σ ε α π → M) (P : Pool σ ε α π) : M :=
  finsum (held holds P)

theorem finite_held {P : Pool σ ε α π} (h : {i | P.threads i ≠ none}.Finite) :
    (held holds P).support.Finite := by
  refine h.subset fun i hi hnone => hi ?_
  simp [held, hnone]

theorem finite_of_run {ts : List (Move (Pool σ ε α π) (PoolLabel π))} {P : Pool σ ε α π}
    (hrun : (system init body).Run ts P) : {i | P.threads i ≠ none}.Finite := by
  induction hrun with
  | nil hinit => simp [hinit.2]
  | @snoc ts P P' a hrun hs ih =>
    rcases step_cases hs with ⟨i, p, -, -, rfl⟩ | ⟨i, p, effect, next, seen, -, -, rfl⟩
    all_goals
      refine (ih.insert i).subset fun j hj => ?_
      by_cases hij : j = i
      · exact Or.inl hij
      · exact Or.inr (by simpa [hij] using hj)

/-- A computation put in its place changes the total by what the old one there held. -/
theorem total_set {P : Pool σ ε α π} (h : {i | P.threads i ≠ none}.Finite) (i : ℕ)
    (t : Thread σ ε α π) :
    (P.set i t).total holds + held holds P i = P.total holds + holds t := by
  have hset : held holds (P.set i t) = Function.update (held holds P) i (holds t) := by
    funext j
    by_cases hij : j = i
    · subst hij
      simp [held]
    · simp [held, hij]
  rw [total, hset]
  exact finsum_update_add (finite_held h) i (holds t)

end Transition.Pool

/-- What comes in with a step goes out or stays, if it does so for the one computation. -/
theorem balance_of_step {M : Type*} [AddCancelCommMonoid M]
    {total total' before after gains leaves : M} (h : total' + before = total + after)
    (hstep : before + gains = leaves + after) : total + gains = leaves + total' := by
  refine add_right_cancel (b := before) ?_
  calc total + gains + before = total + (before + gains) := by abel
    _ = leaves + (total + after) := by rw [hstep]; abel
    _ = leaves + total' + before := by rw [← h]; abel
