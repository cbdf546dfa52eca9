import RouteFast.Base.Run
import RouteFast.Common
import Mathlib.Tactic.Linarith

/-! The circuit breaker in front of the candidate queries. A call is admitted in one state of
the breaker and completes in whatever state the breaker has by then. -/

namespace RouteFast

open Transition

inductive CircuitBreakerState where
  | closed
  | opened
  | halfOpen
  deriving DecidableEq, Repr

structure CircuitBreakerConfig where
  failureThreshold : ℚ
  resetTimeoutMs : ℚ
  halfOpenMaxCalls : Option ℚ

/-- `this.config.halfOpenMaxCalls ?? 1` -/
def CircuitBreakerConfig.limit (c : CircuitBreakerConfig) : ℚ := c.halfOpenMaxCalls.getD 1

structure CircuitBreaker where
  state : CircuitBreakerState
  consecutiveFailures : ℕ
  openedAtMs : Date
  halfOpenInFlight : ℤ
  deriving DecidableEq

/-- The constructor. -/
def CircuitBreaker.construct (c : CircuitBreakerConfig) : Except ServiceError CircuitBreaker :=
  if c.failureThreshold < 1 then .error (.error "failureThreshold must be >= 1")
  else if c.resetTimeoutMs < 1 then .error (.error "resetTimeoutMs must be >= 1")
  else .ok ⟨.closed, 0, 0, 0⟩

/-- What an observer sees of the breaker: the times `open` runs, the transitions `onTransition`
is told of, and the invocations of the guarded operation. -/
inductive CircuitEvent where
  | opens (atMs : Date)
  | transition (previous next : CircuitBreakerState)
  | invoked (call : ℕ) (atMs : Date)
  deriving DecidableEq

/-- The breaker, the clock, the calls whose operation has not settled, and all that was seen. -/
structure CircuitState extends CircuitBreaker where
  nowMs : Date
  inFlight : List ℕ
  seen : List CircuitEvent
  deriving DecidableEq

/-- How the body of the `try` ends. `shouldCount` is what `shouldCountFailure` says of the
error, `none` when it throws itself. -/
inductive Completion where
  | resolved
  /-- The operation resolves, and then `onTransition` or `onCall` throws. -/
  | resolvedThenThrew (shouldCount : Option Bool)
  | rejected (shouldCount : Option Bool)
  deriving DecidableEq

namespace CircuitState

variable (c : CircuitBreakerConfig) (s : CircuitState)

def transition (next : CircuitBreakerState) : CircuitState :=
  if next = s.state then s
  else
    { s with
      state := next
      halfOpenInFlight := if next ≠ .halfOpen then 0 else s.halfOpenInFlight
      seen := s.seen ++ [.transition s.state next] }

def moveToHalfOpenWhenReady : CircuitState :=
  if s.state ≠ .opened then s
  else if (((s.nowMs : ℤ) - s.openedAtMs : ℤ) : ℚ) < c.resetTimeoutMs then s
  else s.transition .halfOpen

def onSuccess : CircuitState :=
  let s := { s with consecutiveFailures := 0 }
  if s.state ≠ .closed then s.transition .closed else s

/-- `open()` -/
def opening : CircuitState :=
  let s : CircuitState :=
    { s with
      consecutiveFailures := 0
      openedAtMs := s.nowMs
      seen := s.seen ++ [.opens s.nowMs] }
  s.transition .opened

def onFailure : CircuitState :=
  if s.state = .halfOpen then s.opening
  else
    let s := { s with consecutiveFailures := s.consecutiveFailures + 1 }
    if c.failureThreshold ≤ s.consecutiveFailures then s.opening else s

/-- `await operation()`, up to where it is waited for. -/
def invoke (call : ℕ) : CircuitState :=
  { s with
    inFlight := call :: s.inFlight
    seen := s.seen ++ [.invoked call s.nowMs] }

/-- The two checks of `execute` and the invocation; a short-circuited call leaves nothing
behind. -/
def enter (call : ℕ) : CircuitState :=
  match s.state with
  | .opened => s
  | .halfOpen =>
    if c.limit ≤ s.halfOpenInFlight then s
    else ({ s with halfOpenInFlight := s.halfOpenInFlight + 1 } : CircuitState).invoke call
  | .closed => s.invoke call

/-- `execute` up to the invocation. The first transition is outside the `try`, so that what its
hook throws ends the call. -/
def beginExecute (call : ℕ) (hookThrows : Bool) : CircuitState :=
  let s' := s.moveToHalfOpenWhenReady c
  if hookThrows ∧ s'.state ≠ s.state then s' else s'.enter c call

/-- The `catch` block. -/
def caught (shouldCount : Option Bool) : CircuitState :=
  match shouldCount with
  | none => s
  | some true => s.onFailure c
  | some false => s.onSuccess

/-- The `finally` block. -/
def leave (call : ℕ) : CircuitState :=
  { s with
    halfOpenInFlight :=
      if s.state = .halfOpen ∧ 0 < s.halfOpenInFlight then s.halfOpenInFlight - 1
      else s.halfOpenInFlight
    inFlight := s.inFlight.erase call }

/-- `execute` from where the operation has settled. -/
def complete (call : ℕ) : Completion → CircuitState
  | .resolved => s.onSuccess.leave call
  | .resolvedThenThrew shouldCount => (s.onSuccess.caught c shouldCount).leave call
  | .rejected shouldCount => (s.caught c shouldCount).leave call

end CircuitState

inductive CircuitLabel where
  | execute (call : ℕ) (hookThrows : Bool)
  | complete (call : ℕ) (completion : Completion)
  | advance (ms : ℕ)
  deriving DecidableEq

/-- Any number of overlapping calls of `execute` on one breaker. -/
def circuitSystem (c : CircuitBreakerConfig) : System CircuitState CircuitLabel where
  init s := ∃ now, (CircuitBreaker.construct c).map (⟨·, now, [], []⟩) = .ok s
  step s
    | .execute call hookThrows =>
      if call ∈ s.inFlight then none else some (s.beginExecute c call hookThrows)
    | .complete call completion =>
      if call ∈ s.inFlight then some (s.complete c call completion) else none
    | .advance ms => some { s with nowMs := s.nowMs + ms }

abbrev CircuitMove := Move CircuitState CircuitLabel

namespace CircuitEvent

/-- What may follow the events `before`: an operation is invoked no sooner than
`resetTimeoutMs` after each opening, an open circuit goes to HALF_OPEN only, and CLOSED is
entered from HALF_OPEN only. -/
def MayFollow (c : CircuitBreakerConfig) (before : List CircuitEvent) : CircuitEvent → Prop
  | .opens _ => True
  | .transition previous next =>
    (previous = .opened → next = .halfOpen) ∧ (next = .closed → previous = .halfOpen)
  | .invoked _ t => ∀ t₀ : Date, .opens t₀ ∈ before → t₀ + c.resetTimeoutMs ≤ t

end CircuitEvent

/-- An open circuit stays open for its whole reset window. -/
def StaysOpen (c : CircuitBreakerConfig) (seen : List CircuitEvent) : Prop :=
  ∀ before e after, seen = before ++ e :: after → e.MayFollow c before

/-- The completion runs `onSuccess` first. -/
def Completion.Succeeds : Completion → Prop
  | .resolved | .resolvedThenThrew _ => True
  | .rejected shouldCount => shouldCount = some false

instance : DecidablePred Completion.Succeeds
  | .resolved | .resolvedThenThrew _ => isTrue trivial
  | .rejected shouldCount => inferInstanceAs (Decidable (shouldCount = some false))

def CircuitLabel.Succeeds : CircuitLabel → Prop
  | .complete _ completion => completion.Succeeds
  | .execute _ _ | .advance _ => False

instance : DecidablePred CircuitLabel.Succeeds
  | .complete _ completion => inferInstanceAs (Decidable completion.Succeeds)
  | .execute _ _ | .advance _ => isFalse id

/-- A call that was admitted earlier succeeds, or fails with an error that is not counted,
while the circuit is open. -/
def LateSuccess (t : CircuitMove) : Prop := t.pre.state = .opened ∧ t.label.Succeeds

instance : DecidablePred LateSuccess := fun t =>
  inferInstanceAs (Decidable (t.pre.state = .opened ∧ t.label.Succeeds))

namespace StaysOpen

variable {c : CircuitBreakerConfig} {seen : List CircuitEvent} {e : CircuitEvent}

theorem nil : StaysOpen c [] := by
  intro before e after h
  simp at h

theorem snoc (h : StaysOpen c seen) (he : e.MayFollow c seen) : StaysOpen c (seen ++ [e]) := by
  intro before e' after heq
  rcases System.mem_snoc_split heq with ⟨rfl, rfl, -⟩ | ⟨after', heq'⟩
  · exact he
  · exact h before e' after' heq'

/-- A transition seen at any time is one the circuit may make. -/
theorem transition (h : StaysOpen c seen) {previous next : CircuitBreakerState}
    (hmem : .transition previous next ∈ seen) (hprev : previous = .opened) : next = .halfOpen := by
  obtain ⟨before, after, heq⟩ := List.append_of_mem hmem
  exact (h before _ after heq).1 hprev

end StaysOpen

namespace CircuitState

variable {c : CircuitBreakerConfig} {s : CircuitState}

/-- The reset window of every opening seen is over. -/
def Waited (c : CircuitBreakerConfig) (s : CircuitState) : Prop :=
  ∀ t₀ : Date, .opens t₀ ∈ s.seen → t₀ + c.resetTimeoutMs ≤ s.nowMs

/-- What a run keeps: the law, that nothing is seen before it happens, and that a circuit which
is not open has waited for all of its openings. -/
structure Guarded (c : CircuitBreakerConfig) (s : CircuitState) : Prop where
  law : StaysOpen c s.seen
  past : ∀ t₀, .opens t₀ ∈ s.seen → t₀ ≤ s.nowMs
  since : s.state = .opened → ∀ t₀, .opens t₀ ∈ s.seen → t₀ ≤ s.openedAtMs
  waited : s.state ≠ .opened → s.Waited c

theorem transition_state (next : CircuitBreakerState) : (s.transition next).state = next := by
  by_cases h : next = s.state
  · simp [transition, h]
  · simp [transition, h]

@[simp] theorem transition_nowMs (next : CircuitBreakerState) :
    (s.transition next).nowMs = s.nowMs := by
  unfold transition
  split_ifs <;> rfl

@[simp] theorem transition_openedAtMs (next : CircuitBreakerState) :
    (s.transition next).openedAtMs = s.openedAtMs := by
  unfold transition
  split_ifs <;> rfl

theorem transition_seen (next : CircuitBreakerState) : (s.transition next).seen =
    s.seen ++ if next = s.state then [] else [.transition s.state next] := by
  unfold transition
  split_ifs <;> simp

theorem opens_mem_transition {next : CircuitBreakerState} {t₀ : Date} :
    .opens t₀ ∈ (s.transition next).seen ↔ .opens t₀ ∈ s.seen := by
  rw [transition_seen]
  split_ifs <;> simp

/-- A transition the diagram has, taken when the circuit has waited. -/
theorem Guarded.transition (h : s.Guarded c) {next : CircuitBreakerState}
    (hwaited : s.Waited c) (hopened : next ≠ .opened)
    (hmay : (CircuitEvent.transition s.state next).MayFollow c s.seen) :
    (s.transition next).Guarded c where
  law := by
    rw [transition_seen]
    split_ifs
    · simpa using h.law
    · exact h.law.snoc hmay
  past t₀ ht := by simpa using h.past t₀ (opens_mem_transition.1 ht)
  since ho := absurd ((transition_state next).symm.trans ho) hopened
  waited _ t₀ ht := by simpa using hwaited t₀ (opens_mem_transition.1 ht)

theorem Guarded.moveToHalfOpenWhenReady (h : s.Guarded c) :
    (s.moveToHalfOpenWhenReady c).Guarded c := by
  unfold CircuitState.moveToHalfOpenWhenReady
  split_ifs with hstate hready
  · exact h
  · exact h
  · have hstate : s.state = .opened := not_not.1 hstate
    refine h.transition ?_ (by decide) ⟨fun _ => rfl, fun hc => by cases hc⟩
    intro t₀ ht
    have hle : (t₀ : ℚ) ≤ s.openedAtMs := by exact_mod_cast h.since hstate t₀ ht
    have hready : c.resetTimeoutMs ≤ (s.nowMs : ℚ) - s.openedAtMs := by
      have := not_lt.1 hready
      push_cast at this
      exact this
    linarith

/-- `open()` starts a new window, also when the circuit is open already. -/
theorem Guarded.opening (h : s.Guarded c) : s.opening.Guarded c where
  law := by
    unfold CircuitState.opening
    rw [transition_seen]
    have hlaw : StaysOpen c (s.seen ++ [.opens s.nowMs]) := h.law.snoc trivial
    split_ifs with hstate
    · simpa using hlaw
    · exact hlaw.snoc ⟨fun ho => absurd ho.symm hstate, fun hc => by cases hc⟩
  past t₀ ht := by
    rcases List.mem_append.1 (opens_mem_transition.1 ht) with ht | ht
    · simpa [CircuitState.opening] using h.past t₀ ht
    · simp_all [CircuitState.opening]
  since _ t₀ ht := by
    rcases List.mem_append.1 (opens_mem_transition.1 ht) with ht | ht
    · simpa [CircuitState.opening] using h.past t₀ ht
    · simp_all [CircuitState.opening]
  waited ho := absurd (transition_state _) ho

theorem Guarded.onFailure (h : s.Guarded c) : (s.onFailure c).Guarded c := by
  have hcount : ({ s with consecutiveFailures := s.consecutiveFailures + 1 } : CircuitState).Guarded
      c := ⟨h.law, h.past, h.since, h.waited⟩
  unfold CircuitState.onFailure
  dsimp only
  split_ifs
  · exact h.opening
  · exact hcount.opening
  · exact hcount

/-- `onSuccess` closes the circuit from any state; only from OPEN is that too early. -/
theorem Guarded.onSuccess (h : s.Guarded c) (hstate : s.state ≠ .opened) :
    s.onSuccess.Guarded c := by
  have hreset : ({ s with consecutiveFailures := 0 } : CircuitState).Guarded c :=
    ⟨h.law, h.past, h.since, h.waited⟩
  unfold CircuitState.onSuccess
  dsimp only
  split_ifs with hclosed
  · refine hreset.transition (h.waited hstate) (by decide) ⟨fun ho => absurd ho hstate, fun _ => ?_⟩
    cases hs : s.state with
    | closed => exact absurd hs hclosed
    | opened => exact absurd hs hstate
    | halfOpen => rfl
  · exact hreset

theorem onSuccess_state (s : CircuitState) : s.onSuccess.state = .closed := by
  unfold onSuccess
  dsimp only
  split_ifs with h
  · exact transition_state _
  · simpa using h

theorem Guarded.leave (h : s.Guarded c) (call : ℕ) : (s.leave call).Guarded c :=
  ⟨h.law, h.past, h.since, h.waited⟩

theorem Guarded.invoke (h : s.Guarded c) (hstate : s.state ≠ .opened) (call : ℕ) :
    (s.invoke call).Guarded c where
  law := h.law.snoc (h.waited hstate)
  past t₀ ht := h.past t₀ (by simpa [CircuitState.invoke] using ht)
  since ho := absurd ho hstate
  waited _ t₀ ht := h.waited hstate t₀ (by simpa [CircuitState.invoke] using ht)

theorem Guarded.enter (h : s.Guarded c) (call : ℕ) : (s.enter c call).Guarded c := by
  have hprobe : ({ s with halfOpenInFlight := s.halfOpenInFlight + 1 } : CircuitState).Guarded c :=
    ⟨h.law, h.past, h.since, h.waited⟩
  unfold CircuitState.enter
  split
  next => exact h
  next hstate =>
    split_ifs
    · exact h
    · exact hprobe.invoke (by simp [hstate]) call
  next hstate => exact h.invoke (by simp [hstate]) call

theorem Guarded.beginExecute (h : s.Guarded c) (call : ℕ) (hookThrows : Bool) :
    (s.beginExecute c call hookThrows).Guarded c := by
  unfold CircuitState.beginExecute
  dsimp only
  split_ifs
  · exact h.moveToHalfOpenWhenReady
  · exact h.moveToHalfOpenWhenReady.enter call

/-- The `catch` block is entered with the state the operation left, which is not OPEN, or with
an error that counts. -/
theorem Guarded.caught (h : s.Guarded c) {shouldCount : Option Bool}
    (hstate : s.state = .opened → shouldCount ≠ some false) :
    (s.caught c shouldCount).Guarded c := by
  rcases shouldCount with _ | _ | _
  · exact h
  · exact h.onSuccess fun ho => hstate ho rfl
  · exact h.onFailure

theorem Guarded.complete (h : s.Guarded c) (call : ℕ) {completion : Completion}
    (hlate : s.state = .opened → ¬ completion.Succeeds) :
    (s.complete c call completion).Guarded c := by
  cases completion with
  | resolved => exact (h.onSuccess fun ho => hlate ho trivial).leave call
  | resolvedThenThrew shouldCount =>
    have hclosed := h.onSuccess fun ho => hlate ho trivial
    exact (hclosed.caught fun ho => by simp [onSuccess_state] at ho).leave call
  | rejected shouldCount => exact (h.caught hlate).leave call

theorem Guarded.advance (h : s.Guarded c) (ms : ℕ) :
    ({ s with nowMs := s.nowMs + ms } : CircuitState).Guarded c where
  law := h.law
  past t₀ ht := (h.past t₀ ht).trans (Nat.le_add_right _ _)
  since := h.since
  waited hstate t₀ ht := by
    have hle : (s.nowMs : ℚ) ≤ ((s.nowMs + ms : ℕ) : ℚ) := by exact_mod_cast Nat.le_add_right _ _
    exact (h.waited hstate t₀ ht).trans hle

theorem init_cases (h : (circuitSystem c).init s) :
    ∃ now, s = ⟨⟨.closed, 0, 0, 0⟩, now, [], []⟩ := by
  obtain ⟨now, h⟩ := h
  unfold CircuitBreaker.construct at h
  split_ifs at h with hthreshold hreset
  · cases h
  · cases h
  · cases h
    exact ⟨now, rfl⟩

/-- What a step does to the circuit. -/
theorem step_cases {s' : CircuitState} {a : CircuitLabel}
    (hs : (circuitSystem c).step s a = some s') :
    (∃ call hookThrows, a = .execute call hookThrows ∧ call ∉ s.inFlight ∧
      s' = s.beginExecute c call hookThrows) ∨
    (∃ call completion, a = .complete call completion ∧ call ∈ s.inFlight ∧
      s' = s.complete c call completion) ∨
    ∃ ms, a = .advance ms ∧ s' = { s with nowMs := s.nowMs + ms } := by
  cases a with
  | execute call hookThrows =>
    simp only [circuitSystem, Option.ite_none_left_eq_some, Option.some.injEq] at hs
    exact Or.inl ⟨call, hookThrows, rfl, hs.1, hs.2.symm⟩
  | complete call completion =>
    simp only [circuitSystem, Option.ite_none_right_eq_some, Option.some.injEq] at hs
    exact Or.inr (Or.inl ⟨call, completion, rfl, hs.1, hs.2.symm⟩)
  | advance ms =>
    simp only [circuitSystem, Option.some.injEq] at hs
    exact Or.inr (Or.inr ⟨ms, rfl, hs.symm⟩)

theorem guarded_of_init (h : (circuitSystem c).init s) : s.Guarded c := by
  obtain ⟨now, rfl⟩ := init_cases h
  refine ⟨StaysOpen.nil, ?_, ?_, ?_⟩
  · simp
  · simp
  · simp [Waited]

theorem guarded_step {s' : CircuitState} {a : CircuitLabel} (h : s.Guarded c)
    (hs : (circuitSystem c).step s a = some s') (hlate : ¬ LateSuccess ⟨s, a, s'⟩) :
    s'.Guarded c := by
  obtain ⟨call, hookThrows, rfl, -, rfl⟩ | ⟨call, completion, rfl, -, rfl⟩ | ⟨ms, rfl, rfl⟩ :=
    step_cases hs
  · exact h.beginExecute call hookThrows
  · exact h.complete call fun ho hsucc => hlate ⟨ho, hsucc⟩
  · exact h.advance ms

/-- What has been seen stays seen. -/
theorem subset_transition (s : CircuitState) (next : CircuitBreakerState) :
    s.seen ⊆ (s.transition next).seen := by
  rw [transition_seen]
  exact List.subset_append_left _ _

theorem subset_onSuccess (s : CircuitState) : s.seen ⊆ s.onSuccess.seen := by
  unfold onSuccess
  dsimp only
  split_ifs
  · exact subset_transition { s with consecutiveFailures := 0 } _
  · exact List.Subset.refl _

theorem subset_opening (s : CircuitState) : s.seen ⊆ s.opening.seen := by
  intro e he
  exact subset_transition _ _ (List.mem_append_left _ he)

theorem subset_caught (s : CircuitState) (shouldCount : Option Bool) :
    s.seen ⊆ (s.caught c shouldCount).seen := by
  rcases shouldCount with _ | _ | _
  · exact List.Subset.refl _
  · exact subset_onSuccess s
  · unfold caught onFailure
    dsimp only
    split_ifs
    · exact subset_opening s
    · exact subset_opening _
    · exact List.Subset.refl _

theorem subset_enter (s : CircuitState) (call : ℕ) : s.seen ⊆ (s.enter c call).seen := by
  unfold enter
  split
  · exact List.Subset.refl _
  · split_ifs
    · exact List.Subset.refl _
    · exact List.subset_append_left _ _
  · exact List.subset_append_left _ _

theorem subset_moveToHalfOpenWhenReady (s : CircuitState) :
    s.seen ⊆ (s.moveToHalfOpenWhenReady c).seen := by
  unfold moveToHalfOpenWhenReady
  split_ifs
  · exact List.Subset.refl _
  · exact List.Subset.refl _
  · exact subset_transition s _

theorem subset_beginExecute (s : CircuitState) (call : ℕ) (hookThrows : Bool) :
    s.seen ⊆ (s.beginExecute c call hookThrows).seen := by
  unfold beginExecute
  dsimp only
  split_ifs
  · exact subset_moveToHalfOpenWhenReady s
  · exact List.Subset.trans (subset_moveToHalfOpenWhenReady s) (subset_enter _ call)

theorem subset_complete (s : CircuitState) (call : ℕ) (completion : Completion) :
    s.seen ⊆ (s.complete c call completion).seen := by
  cases completion with
  | resolved => exact subset_onSuccess s
  | resolvedThenThrew shouldCount =>
    exact List.Subset.trans (subset_onSuccess s) (subset_caught _ shouldCount)
  | rejected shouldCount => exact subset_caught s shouldCount

theorem subset_step {s' : CircuitState} {a : CircuitLabel}
    (hs : (circuitSystem c).step s a = some s') : s.seen ⊆ s'.seen := by
  obtain ⟨call, hookThrows, rfl, -, rfl⟩ | ⟨call, completion, rfl, -, rfl⟩ | ⟨ms, rfl, rfl⟩ :=
    step_cases hs
  · exact subset_beginExecute s call hookThrows
  · exact subset_complete s call completion
  · exact List.Subset.refl _

/-- From OPEN, `onSuccess` goes straight to CLOSED. -/
theorem mem_onSuccess (hstate : s.state = .opened) :
    .transition .opened .closed ∈ s.onSuccess.seen := by
  simp [onSuccess, transition_seen, hstate]

/-- A late success is seen as a transition from OPEN to CLOSED. -/
theorem mem_of_lateSuccess {s' : CircuitState} {a : CircuitLabel}
    (hs : (circuitSystem c).step s a = some s') (h : LateSuccess ⟨s, a, s'⟩) :
    .transition .opened .closed ∈ s'.seen := by
  obtain ⟨hstate, hsucc⟩ : s.state = .opened ∧ a.Succeeds := h
  obtain ⟨call, hookThrows, rfl, -, rfl⟩ | ⟨call, completion, rfl, -, rfl⟩ | ⟨ms, rfl, rfl⟩ :=
    step_cases hs
  · exact hsucc.elim
  · cases completion with
    | resolved => exact mem_onSuccess hstate
    | resolvedThenThrew shouldCount =>
      exact subset_caught _ shouldCount (mem_onSuccess hstate)
    | rejected shouldCount =>
      obtain rfl : shouldCount = some false := hsucc
      exact mem_onSuccess hstate
  · exact hsucc.elim

end CircuitState

open CircuitState

/-- The circuit stays open through its windows exactly in the runs without a late success. -/
theorem staysOpen_iff (c : CircuitBreakerConfig) {ts : List CircuitMove} {s : CircuitState}
    (hrun : (circuitSystem c).Run ts s) : StaysOpen c s.seen ↔ ∀ t ∈ ts, ¬ LateSuccess t := by
  constructor
  · intro hlaw t ht hlate
    obtain ⟨l, r, hts⟩ := List.append_of_mem ht
    have hgrow : t.post.seen ⊆ s.seen :=
      hrun.across (C := fun _ => True) (R := fun s s' => s.seen ⊆ s'.seen)
        (fun s => List.Subset.refl _) (fun _ _ _ => List.Subset.trans)
        (fun _ _ _ hs _ => subset_step hs) (fun _ _ => trivial) hts
    have hseen := mem_of_lateSuccess (hrun.split hts).2 hlate
    have hnext := hlaw.transition (hgrow hseen) rfl
    cases hnext
  · intro hnone
    have hg : s.Guarded c := hrun.invariant_of_steps (C := fun t => ¬ LateSuccess t)
      (fun _ h => guarded_of_init h) (fun _ _ _ h hs hlate => guarded_step h hs hlate) hnone
    exact hg.law

def twoCallsConfig : CircuitBreakerConfig := ⟨1, 1000, none⟩

def circuitStart : CircuitState := ⟨⟨.closed, 0, 0, 0⟩, 0, [], []⟩

theorem init_circuitStart : (circuitSystem twoCallsConfig).init circuitStart := ⟨0, by decide⟩

/-- Two calls are admitted, the first opens the circuit and the second succeeds. -/
def lateSuccessLabels : List CircuitLabel :=
  [.execute 0 false, .execute 1 false, .complete 0 (.rejected (some true)),
    .complete 1 .resolved, .execute 2 false]

def lateSuccessEnd : CircuitState :=
  ⟨⟨.closed, 0, 0, 0⟩, 0, [2],
    [.invoked 0 0, .invoked 1 0, .opens 0, .transition .closed .opened,
      .transition .opened .closed, .invoked 2 0]⟩

theorem not_staysOpen : ¬ ∀ (c : CircuitBreakerConfig) (ts : List CircuitMove) (s : CircuitState),
    (circuitSystem c).Run ts s → StaysOpen c s.seen := by
  intro h
  have hrun := System.Run.of_replay init_circuitStart
    (show (circuitSystem twoCallsConfig).replay circuitStart lateSuccessLabels =
      some lateSuccessEnd by decide)
  -- the call invoked last comes at time 0, in the window of the opening at time 0
  have hlast := h _ _ _ hrun [.invoked 0 0, .invoked 1 0, .opens 0, .transition .closed .opened,
    .transition .opened .closed] (.invoked 2 0) [] rfl 0 (by decide)
  norm_num [twoCallsConfig] at hlast

/-- The circuit opens, short-circuits a call, and is closed again by a probe. -/
def probedLabels : List CircuitLabel :=
  [.execute 0 false, .complete 0 (.rejected (some true)), .execute 1 false, .advance 1000,
    .execute 2 false, .complete 2 .resolved]

def probedEnd : CircuitState :=
  ⟨⟨.closed, 0, 0, 0⟩, 1000, [],
    [.invoked 0 0, .opens 0, .transition .closed .opened, .transition .opened .halfOpen,
      .invoked 2 1000, .transition .halfOpen .closed]⟩

theorem staysOpen_probed : StaysOpen twoCallsConfig probedEnd.seen :=
  (staysOpen_iff twoCallsConfig (System.Run.of_replay init_circuitStart
    (show (circuitSystem twoCallsConfig).replay circuitStart probedLabels = some probedEnd by
      decide))).2 (by decide)

end RouteFast
