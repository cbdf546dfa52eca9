import RouteFast.Base.Run
import Mathlib.Logic.Function.Basic

/-! Computations over shared state that other computations may interleave with,
and pools of any number of them. Only a single `step` is atomic: whatever a
computation learns in one step may be stale in the next. -/

namespace Transition

/-- A computation over the shared state `σ`, cut at the points where others may run. -/
inductive Proc (σ ε α : Type*) where
  | done (result : α)
  | throw (error : ε)
  | step (effect : σ → σ) (next : σ → Proc σ ε α)

/-- How a call over a connection ends. -/
inductive CallEnd where
  | answered
  /-- It throws, and has changed nothing. -/
  | failed
  /-- It throws, and has changed what it was to change: the answer is lost. -/
  | lost
  deriving DecidableEq, Repr

namespace CallEnd

variable {σ : Type*}

/-- What the call does if it was to do `effect`. -/
def apply (effect : σ → σ) : CallEnd → σ → σ
  | .answered | .lost => effect
  | .failed => id

/-- The call has its effect or none. -/
theorem apply_cases (effect : σ → σ) (ending : CallEnd) :
    ending.apply effect = effect ∨ ending.apply effect = id := by
  cases ending with
  | answered | lost => exact Or.inl rfl
  | failed => exact Or.inr rfl

end CallEnd

namespace Proc

variable {σ ε α : Type*}

/-- One atomic step over a connection: the computation goes on if it is answered. -/
def call (ending : CallEnd) (error : ε) (effect : σ → σ) (next : σ → Proc σ ε α) : Proc σ ε α :=
  .step (ending.apply effect) (match ending with | .answered => next | _ => fun _ => .throw error)

/-- A call goes on if it is answered, and throws otherwise. -/
theorem call_cases {ending : CallEnd} {error : ε} {effect g : σ → σ} {next k : σ → Proc σ ε α}
    (h : .step effect next = call ending error g k) (s : σ) : effect = ending.apply g ∧
      ((ending = .answered ∧ next s = k s) ∨ ending ≠ .answered ∧ next s = .throw error) := by
  obtain ⟨rfl, rfl⟩ := Proc.step.inj h
  cases ending with
  | answered => exact ⟨rfl, Or.inl ⟨rfl, rfl⟩⟩
  | failed | lost => exact ⟨rfl, Or.inr ⟨by simp, rfl⟩⟩

/-- One atomic step that reads the state and changes nothing. -/
def read (next : σ → Proc σ ε α) : Proc σ ε α := .step id next

/-- One atomic step that changes the state. -/
def write (effect : σ → σ) (next : Proc σ ε α) : Proc σ ε α := .step effect fun _ => next

/-- A whole transaction as one atomic step: an error leaves the state as it was. -/
def atomically (f : σ → Except ε (α × σ)) : Proc σ ε α :=
  .step (fun s => match f s with | .ok (_, s') => s' | .error _ => s)
    (fun s => match f s with | .ok (a, _) => .done a | .error e => .throw e)

/-- The computation run with nothing interleaved. -/
def run : Proc σ ε α → σ → Except ε α × σ
  | .done a, s => (.ok a, s)
  | .throw e, s => (.error e, s)
  | .step effect next, s => run (next s) (effect s)

def finished : Proc σ ε α → Bool
  | .step _ _ => false
  | _ => true

def isDone : Proc σ ε α → Bool
  | .done _ => true
  | _ => false

/-- One computation after another, if the first does not throw. -/
def andThen : Proc σ ε Unit → Proc σ ε α → Proc σ ε α
  | .done _, q => q
  | .throw e, _ => .throw e
  | .step effect next, q => .step effect fun s => (next s).andThen q

/-- The computation on a part of a larger state, its result dropped. -/
def within {τ : Type*} (get : τ → σ) (put : σ → τ → τ) : Proc σ ε α → Proc τ ε Unit
  | .done _ => .done ()
  | .throw e => .throw e
  | .step effect next =>
    .step (fun t => put (effect (get t)) t) fun t => (next (get t)).within get put

/-- The computation on a part of a larger state, and what follows it there. -/
def withinThen {τ β : Type*} (get : τ → σ) (put : σ → τ → τ) :
    Proc σ ε α → (α → Proc τ ε β) → Proc τ ε β
  | .done a, k => k a
  | .throw e, _ => .throw e
  | .step effect next, k =>
    .step (fun t => put (effect (get t)) t) fun t => (next (get t)).withinThen get put k

theorem withinThen_call {τ β : Type*} {get : τ → σ} {put : σ → τ → τ} {ending : CallEnd} {error : ε}
    {effect : σ → σ} {next : σ → Proc σ ε α} {k : α → Proc τ ε β}
    (hself : ∀ t, put (get t) t = t) : (call ending error effect next).withinThen get put k =
      call ending error (fun t => put (effect (get t)) t) fun t =>
        (next (get t)).withinThen get put k := by
  cases ending with
  | answered | lost => rfl
  | failed =>
    have hid : (fun t => put (id (get t)) t) = id := funext hself
    simp only [call, withinThen, CallEnd.apply, hid]

theorem finished_within {τ : Type*} (get : τ → σ) (put : σ → τ → τ) (p : Proc σ ε α) :
    (p.within get put).finished = p.finished := by
  cases p <;> rfl

/-- Run alone, a computation on a part of the state changes that part only. -/
theorem run_within {τ : Type*} (get : τ → σ) (put : σ → τ → τ) (hget : ∀ s t, get (put s t) = s)
    (hput : ∀ s s' t, put s (put s' t) = put s t) (hself : ∀ t, put (get t) t = t)
    (p : Proc σ ε α) (t : τ) : (p.within get put).run t =
      ((p.run (get t)).1.map fun _ => (), put (p.run (get t)).2 t) := by
  induction p generalizing t with
  | done a => simp [within, run, hself, Except.map]
  | throw e => simp [within, run, hself, Except.map]
  | step effect next ih => simp only [within, run, ih, hget, hput]

end Proc

/-- A computation in progress. `seen` is the state its last step was taken in. -/
structure Thread (σ ε α π : Type*) where
  request : π
  rest : Proc σ ε α
  seen : Option σ

structure Pool (σ ε α π : Type*) where
  shared : σ
  threads : ℕ → Option (Thread σ ε α π)

inductive PoolLabel (π : Type*) where
  | spawn (i : ℕ) (request : π)
  | advance (i : ℕ)
  deriving DecidableEq

/-- The computation that the label starts or takes a step of. -/
def PoolLabel.thread {π : Type*} : PoolLabel π → ℕ
  | .spawn i _ | .advance i => i

namespace Pool

variable {σ ε α π : Type*}

def set (P : Pool σ ε α π) (i : ℕ) (t : Thread σ ε α π) : Pool σ ε α π :=
  { P with threads := Function.update P.threads i (some t) }

@[simp] theorem set_shared (P : Pool σ ε α π) (i : ℕ) (t : Thread σ ε α π) :
    (P.set i t).shared = P.shared := rfl

@[simp] theorem set_threads_self (P : Pool σ ε α π) (i : ℕ) (t : Thread σ ε α π) :
    (P.set i t).threads i = some t := by simp [set]

@[simp] theorem set_threads_ne (P : Pool σ ε α π) {i j : ℕ} (t : Thread σ ε α π) (h : j ≠ i) :
    (P.set i t).threads j = P.threads j := by simp [set, h]

/-- Any number of requests, each running `body`, interleaved step by step. -/
def system (init : σ → Prop) (body : π → Proc σ ε α) : System (Pool σ ε α π) (PoolLabel π) where
  init P := init P.shared ∧ ∀ i, P.threads i = none
  step P
    | .spawn i p => if (P.threads i).isNone then some (P.set i ⟨p, body p, none⟩) else none
    | .advance i =>
      match P.threads i with
      | some ⟨p, .step effect next, _⟩ =>
        some (({ P with shared := effect P.shared } : Pool σ ε α π).set i
          ⟨p, next P.shared, some P.shared⟩)
      | _ => none

variable {init : σ → Prop} {body : π → Proc σ ε α}

/-- Everything a step of the pool can be. -/
theorem step_cases {P P' : Pool σ ε α π} {a : PoolLabel π}
    (h : (system init body).step P a = some P') :
    (∃ i p, a = .spawn i p ∧ P.threads i = none ∧ P' = P.set i ⟨p, body p, none⟩) ∨
    (∃ i p effect next seen, a = .advance i ∧ P.threads i = some ⟨p, .step effect next, seen⟩ ∧
      P' = ({ P with shared := effect P.shared } : Pool σ ε α π).set i
        ⟨p, next P.shared, some P.shared⟩) := by
  cases a with
  | spawn i p =>
    simp only [system] at h
    split at h
    · next hn => exact Or.inl ⟨i, p, rfl, by simpa using hn, by simpa using h.symm⟩
    · cases h
  | advance i =>
    simp only [system] at h
    split at h
    · next p effect next seen ht =>
      exact Or.inr ⟨i, p, effect, next, seen, rfl, ht, by simpa using h.symm⟩
    · cases h

theorem threads_of_replay {P P' : Pool σ ε α π} {as : List (PoolLabel π)}
    (h : (system init body).replay P as = some P') {i : ℕ} (hi : ∀ a ∈ as, a.thread ≠ i) :
    P'.threads i = P.threads i := by
  induction as generalizing P with
  | nil =>
    obtain rfl := Option.some.inj h
    rfl
  | cons a as ih =>
    obtain ⟨P₁, hs, h⟩ := Option.bind_eq_some_iff.1 h
    have ha := hi a List.mem_cons_self
    rw [ih h fun b hb => hi b (List.mem_cons_of_mem a hb)]
    rcases step_cases hs with ⟨j, p, rfl, -, rfl⟩ | ⟨j, p, effect, next, seen, rfl, -, rfl⟩
    · exact set_threads_ne P _ (Ne.symm ha)
    · exact set_threads_ne _ _ (Ne.symm ha)

/-- What is left of a request after some of its steps: `Residual body p seen rest`
holds of exactly the threads a pool can contain. -/
inductive Residual (body : π → Proc σ ε α) (p : π) : Option σ → Proc σ ε α → Prop
  | start : Residual body p none (body p)
  | next {seen : Option σ} {effect : σ → σ} {k : σ → Proc σ ε α} (s : σ) :
      Residual body p seen (.step effect k) → Residual body p (some s) (k s)

/-- What is left of one computation. -/
abbrev Rest (p : Proc σ ε α) : Option σ → Proc σ ε α → Prop := Residual (fun q => q) p

theorem Residual.of_rest {p : π} {seen : Option σ} {rest : Proc σ ε α}
    (h : Rest (body p) seen rest) : Residual body p seen rest := by
  induction h with
  | start => exact .start
  | next s _ ih => exact .next s ih

/-- What is left of a computation is all of it, or what is left after its first step. -/
theorem rest_step {effect : σ → σ} {next : σ → Proc σ ε α} {seen : Option σ} {rest : Proc σ ε α}
    (h : Rest (.step effect next) seen rest) :
    rest = .step effect next ∨ ∃ s seen', Rest (next s) seen' rest := by
  generalize hp : Proc.step effect next = p at h
  induction h with
  | start => exact Or.inl rfl
  | @next _ _ k s _ ih =>
    rcases ih with heq | ⟨s', seen', h⟩
    · obtain ⟨-, rfl⟩ := Proc.step.inj (heq.trans hp.symm)
      exact Or.inr ⟨s, none, .start⟩
    · exact Or.inr ⟨s', some s, .next s h⟩

theorem rest_finished {p : Proc σ ε α} {seen : Option σ} {rest : Proc σ ε α}
    (hp : p.finished = true) (h : Rest p seen rest) : rest = p := by
  induction h with
  | start => rfl
  | next s _ ih =>
    rw [← ih] at hp
    cases hp

/-- A computation of one step is all left or over. -/
theorem rest_single {effect : σ → σ} {next : σ → Proc σ ε α} {seen : Option σ} {rest : Proc σ ε α}
    (hnext : ∀ s, (next s).finished = true) (h : Rest (.step effect next) seen rest) :
    rest = .step effect next ∨ rest.finished = true := by
  rcases rest_step h with heq | ⟨s, seen', h⟩
  · exact Or.inl heq
  · exact Or.inr (rest_finished (hnext s) h ▸ hnext s)

theorem finished_atomically (f : σ → Except ε (α × σ)) (s : σ) :
    (match f s with | .ok (a, _) => Proc.done a | .error e => .throw e : Proc σ ε α).finished
      = true := by
  split <;> rfl

/-- A transaction commits and is done, or throws and leaves the state as it was. -/
theorem rest_atomically {f : σ → Except ε (α × σ)} {seen : Option σ} {effect : σ → σ}
    {next : σ → Proc σ ε α} (h : Rest (.atomically f) seen (.step effect next)) (s : σ) :
    (effect s = s ∧ ∃ e, next s = .throw e) ∨ ∃ a, f s = .ok (a, effect s) ∧ next s = .done a := by
  rcases rest_single (finished_atomically f) h with heq | hfin
  · obtain ⟨rfl, rfl⟩ := Proc.step.inj heq
    cases hf : f s with
    | error e => exact Or.inl ⟨by simp only [hf], e, by simp only [hf]⟩
    | ok r => exact Or.inr ⟨r.1, by simp only [hf], by simp only [hf]⟩
  · cases hfin

/-- What is left of a computation on a part of the state is left of it there. -/
theorem rest_within {τ : Type*} {get : τ → σ} {put : σ → τ → τ} {p : Proc σ ε α}
    {seen : Option τ} {rest : Proc τ ε Unit} (h : Rest (p.within get put) seen rest) :
    ∃ rest₀, Rest p (seen.map get) rest₀ ∧ rest = rest₀.within get put := by
  generalize hseen : seen = seen', hrest : rest = rest' at h
  induction h generalizing seen rest with
  | start =>
    subst hseen hrest
    exact ⟨p, .start, rfl⟩
  | @next seen₁ effect k t h ih =>
    subst hseen hrest
    obtain ⟨rest₀, hrest₀, heq⟩ := ih rfl rfl
    cases rest₀ with
    | done | throw => cases heq
    | step effect₀ next₀ =>
      obtain ⟨-, rfl⟩ := Proc.step.inj heq
      exact ⟨next₀ (get t), .next (get t) hrest₀, rfl⟩

/-- A transaction that commits in this state, as the one step it is. -/
theorem atomically_within {τ : Type*} (get : τ → σ) (put : σ → τ → τ)
    {f : σ → Except ε (α × σ)} {t : τ} {a : α} {s : σ} (hf : f (get t) = .ok (a, s)) :
    ∃ effect next, (Proc.atomically f).within get put = .step effect next ∧
      (∀ t', (next t').finished = true) ∧ next t = .done () ∧ effect t = put s t := by
  refine ⟨_, _, rfl, fun t' => ?_, ?_, ?_⟩
  · rw [Proc.finished_within, finished_atomically]
  · simp only [hf]
    rfl
  · simp only [hf]

/-- Every thread of a reachable pool is a residual of its request's body. -/
theorem run_residual {ts : List (Move (Pool σ ε α π) (PoolLabel π))} {P : Pool σ ε α π}
    (hrun : (system init body).Run ts P) :
    ∀ i t, P.threads i = some t → Residual body t.request t.seen t.rest := by
  refine hrun.invariant (I := fun P => ∀ i t, P.threads i = some t →
    Residual body t.request t.seen t.rest) ?_ ?_
  · rintro P ⟨-, hnone⟩ i t ht
    simp [hnone i] at ht
  · intro P a P' ih h j t ht
    rcases step_cases h with ⟨i, p, -, -, rfl⟩ | ⟨i, p, effect, next, seen, -, hi, rfl⟩
    · by_cases hj : j = i
      · subst hj
        obtain rfl : _ = t := by simpa using ht
        exact .start
      · exact ih j t (by simpa [hj] using ht)
    · by_cases hj : j = i
      · subst hj
        obtain rfl : _ = t := by simpa using ht
        exact .next P.shared (ih j _ hi)
      · exact ih j t (by simpa [hj] using ht)

/-- Each thread was spawned in the run. -/
theorem spawned_of_run {ts : List (Move (Pool σ ε α π) (PoolLabel π))} {P : Pool σ ε α π}
    (hrun : (system init body).Run ts P) {i : ℕ} {t : Thread σ ε α π}
    (ht : P.threads i = some t) : ∃ u ∈ ts, u.label = .spawn i t.request := by
  induction hrun generalizing t with
  | nil h => simp [h.2 i] at ht
  | @snoc ts P P' a hrun hs ih =>
    have hkept (hti : ∃ u ∈ ts, u.label = .spawn i t.request) :
        ∃ u ∈ ts ++ [⟨P, a, P'⟩], u.label = .spawn i t.request := by
      obtain ⟨u, hu, hlabel⟩ := hti
      exact ⟨u, List.mem_append_left _ hu, hlabel⟩
    rcases step_cases hs with ⟨j, p, rfl, -, rfl⟩ | ⟨j, p, effect, next, seen, -, hj, rfl⟩
    · by_cases hij : i = j
      · subst hij
        obtain rfl : _ = t := by simpa using ht
        exact ⟨_, List.mem_append_right _ (List.mem_singleton_self _), rfl⟩
      · exact hkept (ih (by simpa [hij] using ht))
    · by_cases hij : i = j
      · subst hij
        obtain rfl : _ = t := by simpa using ht
        have hbefore := ih hj
        exact hkept hbefore
      · exact hkept (ih (by simpa [hij] using ht))

/-- A thread that has taken a step took its last one at a transition of the run. -/
theorem last_step {ts : List (Move (Pool σ ε α π) (PoolLabel π))} {P : Pool σ ε α π}
    (hrun : (system init body).Run ts P) {i : ℕ} {t : Thread σ ε α π} {s : σ}
    (ht : P.threads i = some t) (hseen : t.seen = some s) :
    ∃ l u r effect next seen, ts = l ++ u :: r ∧ u.label = .advance i ∧ u.pre.shared = s ∧
      u.pre.threads i = some ⟨t.request, .step effect next, seen⟩ ∧ u.post.shared = effect s ∧
      t.rest = next s := by
  induction hrun with
  | nil h => simp [h.2 i] at ht
  | @snoc ts P P' a hrun hs ih =>
    have hkept (hti : P.threads i = some t) : ∃ l u r effect next seen,
        ts ++ [⟨P, a, P'⟩] = l ++ u :: r ∧ u.label = .advance i ∧ u.pre.shared = s ∧
        u.pre.threads i = some ⟨t.request, .step effect next, seen⟩ ∧
        u.post.shared = effect s ∧ t.rest = next s := by
      obtain ⟨l, u, r, effect, next, seen, rfl, hu⟩ := ih hti
      exact ⟨l, u, r ++ [⟨P, a, P'⟩], effect, next, seen, by simp, hu⟩
    rcases step_cases hs with ⟨j, p, -, -, rfl⟩ | ⟨j, p, effect, next, seen, rfl, hj, rfl⟩
    · by_cases hij : i = j
      · subst hij
        obtain rfl : _ = t := by simpa using ht
        cases hseen
      · exact hkept (by simpa [hij] using ht)
    · by_cases hij : i = j
      · subst hij
        obtain rfl : _ = t := by simpa using ht
        obtain rfl := Option.some.inj hseen
        exact ⟨ts, _, [], effect, next, seen, rfl, rfl, rfl, hj, rfl, rfl⟩
      · exact hkept (by simpa [hij] using ht)

/-- An invariant of the shared state that every step of a residual keeps if it meets `C`. -/
theorem run_invariant_of_steps {C : Move (Pool σ ε α π) (PoolLabel π) → Prop} {Inv : σ → Prop}
    (hinit : ∀ s, init s → Inv s)
    (hstep : ∀ P P' i p seen effect next, Residual body p seen (.step effect next) →
      P.threads i = some ⟨p, .step effect next, seen⟩ → C ⟨P, .advance i, P'⟩ →
      Inv P.shared → Inv (effect P.shared))
    {ts : List (Move (Pool σ ε α π) (PoolLabel π))} {P : Pool σ ε α π}
    (hrun : (system init body).Run ts P) (hC : ∀ t ∈ ts, C t) : Inv P.shared := by
  induction hrun with
  | nil h => exact hinit _ h.1
  | @snoc ts P P' a hrun hs ih =>
    have hInv : Inv P.shared := ih fun t ht => hC t (List.mem_append_left _ ht)
    have hlast := hC ⟨P, a, P'⟩ (by simp)
    rcases step_cases hs with ⟨i, p, -, -, rfl⟩ | ⟨i, p, effect, next, seen, rfl, hi, rfl⟩
    · exact hInv
    · exact hstep P _ i p seen effect next (run_residual hrun i _ hi) hi hlast hInv

/-- An invariant of the shared state that every step of every residual keeps. -/
theorem run_invariant {Inv : σ → Prop} (hinit : ∀ s, init s → Inv s)
    (hstep : ∀ p seen effect next s, Residual body p seen (.step effect next) →
      Inv s → Inv (effect s))
    {ts : List (Move (Pool σ ε α π) (PoolLabel π))} {P : Pool σ ε α π}
    (hrun : (system init body).Run ts P) : Inv P.shared :=
  run_invariant_of_steps (C := fun _ => True) hinit
    (fun P _ _ p seen effect next hres _ _ hInv => hstep p seen effect next P.shared hres hInv)
    hrun (fun _ _ => trivial)

end Pool

end Transition
