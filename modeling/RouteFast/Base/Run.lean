import Mathlib.Data.List.Basic

/-! Runs of a guarded transition system. A run is kept as the list of its
transitions, so that a law about every step and a law about every state reached
are both statements about that list. -/

namespace Transition

/-- A transition system: `step s a` is `some s'` when `a` is enabled in `s`.
Every choice of the environment is part of the label. -/
structure System (σ α : Type*) where
  init : σ → Prop
  step : σ → α → Option σ

/-- One transition of a run. -/
structure Move (σ α : Type*) where
  pre : σ
  label : α
  post : σ

namespace System

variable {σ α : Type*} (M : System σ α)

inductive Run : List (Move σ α) → σ → Prop
  | nil {s : σ} : M.init s → Run [] s
  | snoc {ts : List (Move σ α)} {s s' : σ} {a : α} :
      Run ts s → M.step s a = some s' → Run (ts ++ [⟨s, a, s'⟩]) s'

def Reachable (s : σ) : Prop := ∃ ts, M.Run ts s

/-- The state after the labels, if every one of them is enabled in turn. -/
def replay (s : σ) : List α → Option σ
  | [] => some s
  | a :: as => (M.step s a).bind fun s' => replay s' as

/-- The transitions the labels make, up to the first one that is not enabled. -/
def moves (s : σ) : List α → List (Move σ α)
  | [] => []
  | a :: as =>
    match M.step s a with
    | some s' => ⟨s, a, s'⟩ :: moves s' as
    | none => []

variable {M}

theorem Run.replay_append {ts : List (Move σ α)} {s s' : σ} {as : List α}
    (hrun : M.Run ts s) (h : M.replay s as = some s') : M.Run (ts ++ M.moves s as) s' := by
  induction as generalizing ts s with
  | nil =>
    obtain rfl : s = s' := by simpa [replay] using h
    simpa [moves] using hrun
  | cons a as ih =>
    simp only [replay, Option.bind_eq_some_iff] at h
    obtain ⟨s₁, hs, h⟩ := h
    have h₁ := ih (hrun.snoc hs) h
    simpa [moves, hs] using h₁

/-- A successful replay from an initial state is a run. -/
theorem Run.of_replay {s s' : σ} {as : List α} (hinit : M.init s)
    (h : M.replay s as = some s') : M.Run (M.moves s as) s' := by
  simpa using (Run.nil hinit).replay_append h

/-- A step keeps the invariant if it meets `C`; then a run of such steps ends in it. -/
theorem Run.invariant_of_steps {C : Move σ α → Prop} {I : σ → Prop}
    (hinit : ∀ s, M.init s → I s)
    (hstep : ∀ s a s', I s → M.step s a = some s' → C ⟨s, a, s'⟩ → I s')
    {ts : List (Move σ α)} {s : σ} (hrun : M.Run ts s) (hC : ∀ t ∈ ts, C t) : I s := by
  induction hrun with
  | nil h => exact hinit _ h
  | @snoc ts s s' a _ hs ih =>
    have hInv : I s := ih fun t ht => hC t (List.mem_append_left _ ht)
    exact hstep s a s' hInv hs (hC _ (by simp))

theorem Run.invariant {I : σ → Prop} (hinit : ∀ s, M.init s → I s)
    (hstep : ∀ s a s', I s → M.step s a = some s' → I s')
    {ts : List (Move σ α)} {s : σ} (hrun : M.Run ts s) : I s :=
  hrun.invariant_of_steps (C := fun _ => True) hinit
    (fun s a s' hI hs _ => hstep s a s' hI hs) (fun _ _ => trivial)

/-- A member of a list with one more element at its end is that element or one of the others. -/
theorem mem_snoc_split {β : Type*} {xs l r : List β} {x y : β} (h : xs ++ [y] = l ++ x :: r) :
    (xs = l ∧ y = x ∧ r = []) ∨ ∃ r', xs = l ++ x :: r' := by
  rcases List.append_eq_append_iff.1 h with ⟨a, rfl, ha⟩ | ⟨c, rfl, hc⟩
  · cases a with
    | nil => exact Or.inl (by simpa using ha)
    | cons z a => simp at ha
  · cases c with
    | nil => exact Or.inl (by simpa using hc.symm)
    | cons z c =>
      obtain ⟨rfl, -⟩ : x = z ∧ r = c ++ [y] := by simpa using hc
      exact Or.inr ⟨c, rfl⟩

/-- Each transition of a run is a step taken after the part of the run before it. -/
theorem Run.split {ts : List (Move σ α)} {s : σ} (hrun : M.Run ts s) {l r : List (Move σ α)}
    {t : Move σ α} (h : ts = l ++ t :: r) :
    M.Run l t.pre ∧ M.step t.pre t.label = some t.post := by
  induction hrun generalizing r with
  | nil => simp at h
  | snoc hrun hs ih =>
    rcases mem_snoc_split h with ⟨rfl, rfl, -⟩ | ⟨r', h'⟩
    · exact ⟨hrun, hs⟩
    · exact ih h'

/-- A run cut after one of its transitions. -/
theorem Run.through {ts : List (Move σ α)} {s : σ} (hrun : M.Run ts s) {l r : List (Move σ α)}
    {t : Move σ α} (h : ts = l ++ t :: r) : M.Run (l ++ [t]) t.post :=
  (hrun.split h).1.snoc (hrun.split h).2

/-- A run cut after any transition from `t` on still goes through `t`. -/
theorem Run.cut {ts : List (Move σ α)} {s : σ} (hrun : M.Run ts s) {l r : List (Move σ α)}
    {t u : Move σ α} (h : ts = l ++ t :: r) (hu : u ∈ t :: r) :
    ∃ r', (∀ v ∈ l ++ t :: r', v ∈ ts) ∧ M.Run (l ++ t :: r') u.post := by
  obtain ⟨a, b, hab⟩ := List.append_of_mem hu
  have hts : ts = (l ++ a) ++ u :: b := by rw [h, hab, List.append_assoc]
  have hcut := hrun.through hts
  obtain ⟨r', hr'⟩ : ∃ r', a ++ [u] = t :: r' := by
    cases a with
    | nil => exact ⟨[], by simpa using (List.cons.inj hab).1.symm⟩
    | cons x a => exact ⟨a ++ [u], by simp [(List.cons.inj hab).1]⟩
  rw [List.append_assoc, hr'] at hcut
  refine ⟨r', fun v hv => ?_, hcut⟩
  rw [← hr', ← List.append_assoc] at hv
  rw [hts]
  rcases List.mem_append.1 hv with hv | hv
  · exact List.mem_append_left _ hv
  · exact List.mem_append_right _ (by simp_all)

theorem Run.of_mem {ts : List (Move σ α)} {s : σ} (hrun : M.Run ts s) {t : Move σ α}
    (ht : t ∈ ts) :
    ∃ l, (∀ u ∈ l, u ∈ ts) ∧ M.Run l t.pre ∧ M.step t.pre t.label = some t.post := by
  obtain ⟨l, r, rfl⟩ := List.append_of_mem ht
  obtain ⟨hl, hs⟩ := hrun.split rfl
  exact ⟨l, fun u hu => List.mem_append_left _ hu, hl, hs⟩

/-- A relation that holds across each step meeting `C`, and composes, holds from any
point of a run of such steps to its end. -/
theorem Run.across {C : Move σ α → Prop} {R : σ → σ → Prop} (hrefl : ∀ s, R s s)
    (htrans : ∀ a b c, R a b → R b c → R a c)
    (hstep : ∀ s a s', M.step s a = some s' → C ⟨s, a, s'⟩ → R s s')
    {ts : List (Move σ α)} {s : σ} (hrun : M.Run ts s) (hC : ∀ t ∈ ts, C t)
    {l r : List (Move σ α)} {t : Move σ α} (h : ts = l ++ t :: r) : R t.post s := by
  induction hrun generalizing r with
  | nil => simp at h
  | @snoc ts s s' a hrun hs ih =>
    rcases mem_snoc_split h with ⟨-, rfl, -⟩ | ⟨r', h'⟩
    · exact hrefl s'
    · have hR := ih (fun t ht => hC t (List.mem_append_left _ ht)) h'
      exact htrans _ _ _ hR (hstep _ _ _ hs (hC _ (by simp)))

/-- It holds between the state that a transition of the run leaves and the one a later
transition meets. -/
theorem Run.pairwise {C : Move σ α → Prop} {R : σ → σ → Prop} (hrefl : ∀ s, R s s)
    (htrans : ∀ a b c, R a b → R b c → R a c)
    (hstep : ∀ s a s', M.step s a = some s' → C ⟨s, a, s'⟩ → R s s')
    {ts : List (Move σ α)} {s : σ} (hrun : M.Run ts s) (hC : ∀ t ∈ ts, C t) :
    ts.Pairwise fun t u => R t.post u.pre := by
  induction hrun with
  | nil => exact List.Pairwise.nil
  | @snoc ts s s' a hrun hs ih =>
    have hold : ∀ t ∈ ts, C t := fun t ht => hC t (List.mem_append_left _ ht)
    refine List.pairwise_append.2 ⟨ih hold, List.pairwise_singleton _ _, fun t ht u hu => ?_⟩
    obtain rfl := List.mem_singleton.1 hu
    obtain ⟨l, r, hts⟩ := List.append_of_mem ht
    exact hrun.across hrefl htrans hstep hold hts

section Leads

variable {A B : α → Prop} {s s' s'' : σ}

/-- Steps with labels of `A` lead from one state to the other. -/
def Leads (M : System σ α) (A : α → Prop) (s s' : σ) : Prop :=
  ∃ as, (∀ a ∈ as, A a) ∧ M.replay s as = some s'

theorem Leads.refl (s : σ) : M.Leads A s s := ⟨[], by simp, rfl⟩

theorem Leads.head {a : α} (ha : A a) (hs : M.step s a = some s') (h : M.Leads A s' s'') :
    M.Leads A s s'' := by
  obtain ⟨as, hA, h⟩ := h
  refine ⟨a :: as, fun b hb => ?_, by simp [replay, hs, h]⟩
  rcases List.mem_cons.1 hb with rfl | hb
  · exact ha
  · exact hA b hb

theorem Leads.one {a : α} (ha : A a) (hs : M.step s a = some s') : M.Leads A s s' :=
  .head ha hs (.refl s')

theorem Leads.trans (h : M.Leads A s s') (h' : M.Leads A s' s'') : M.Leads A s s'' := by
  obtain ⟨as, hA, h⟩ := h
  induction as generalizing s with
  | nil =>
    obtain rfl : s = s' := Option.some.inj h
    exact h'
  | cons a as ih =>
    obtain ⟨s₁, hs, h⟩ := Option.bind_eq_some_iff.1 h
    exact .head (hA a List.mem_cons_self) hs (ih (fun b hb => hA b (List.mem_cons_of_mem a hb)) h)

theorem Leads.mono (hAB : ∀ a, A a → B a) (h : M.Leads A s s') : M.Leads B s s' := by
  obtain ⟨as, hA, h⟩ := h
  exact ⟨as, fun a ha => hAB a (hA a ha), h⟩

/-- A run goes on to wherever its last state leads. -/
theorem Run.leads {ts : List (Move σ α)} (hrun : M.Run ts s) (h : M.Leads A s s') :
    ∃ ts', M.Run (ts ++ ts') s' := by
  obtain ⟨as, -, h⟩ := h
  exact ⟨_, hrun.replay_append h⟩

end Leads

end System

end Transition
