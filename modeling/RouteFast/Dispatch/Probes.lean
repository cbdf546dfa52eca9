import RouteFast.Base.Periods
import RouteFast.Dispatch.CircuitBreaker
import Mathlib.Data.Rat.Floor

/-! The probes of a half-open circuit. The counter goes up where a call is admitted and down
where a call ends, in whatever period that may be; here it is held against the operations seen
to be invoked since the circuit went to HALF_OPEN. -/

namespace RouteFast

open Transition Periods

namespace CircuitEvent

/-- The state a transition enters. -/
def entered : CircuitEvent → Option CircuitBreakerState
  | .transition _ next => some next
  | .opens _ | .invoked _ _ => none

def isInvoked : CircuitEvent → Bool
  | .invoked _ _ => true
  | .opens _ | .transition _ _ => false

end CircuitEvent

/-- `period` was seen after the circuit went to HALF_OPEN and before it went on from there. -/
def HalfOpenPeriod (seen period after : List CircuitEvent) : Prop :=
  Follows CircuitEvent.entered .halfOpen seen period after

def invocations (period : List CircuitEvent) : ℕ := period.countP CircuitEvent.isInvoked

/-- No more than `n` operations are invoked in one period of HALF_OPEN, and `halfOpenInFlight`
is how many the current one has. -/
structure ProbesWithin (n : ℚ) (s : CircuitState) : Prop where
  atMost : ∀ period after, HalfOpenPeriod s.seen period after → (invocations period : ℚ) ≤ n
  admitted : s.state = .halfOpen →
    ∃ period, HalfOpenPeriod s.seen period [] ∧ s.halfOpenInFlight = invocations period
  nonneg : 0 ≤ s.halfOpenInFlight
  idle : s.state ≠ .halfOpen → s.halfOpenInFlight = 0

/-- No hook throws, and `shouldCountFailure` does not. -/
def Completion.Quiet : Completion → Prop
  | .resolved => True
  | .resolvedThenThrew _ => False
  | .rejected shouldCount => shouldCount ≠ none

instance : DecidablePred Completion.Quiet
  | .resolved => isTrue trivial
  | .resolvedThenThrew _ => isFalse id
  | .rejected shouldCount => inferInstanceAs (Decidable (shouldCount ≠ none))

def CircuitLabel.Quiet : CircuitLabel → Prop
  | .execute _ hookThrows => hookThrows = false
  | .complete _ completion => completion.Quiet
  | .advance _ => True

instance : DecidablePred CircuitLabel.Quiet
  | .execute _ hookThrows => inferInstanceAs (Decidable (hookThrows = false))
  | .complete _ completion => inferInstanceAs (Decidable completion.Quiet)
  | .advance _ => isTrue trivial

namespace CircuitState

variable {c : CircuitBreakerConfig} {s : CircuitState}

/-- What a run keeps: the log ends in the state the circuit is in, and the counter is the tally
of that period while it is one of HALF_OPEN. -/
structure Metered (c : CircuitBreakerConfig) (s : CircuitState) : Prop where
  current : kind CircuitEvent.entered .closed s.seen = s.state
  admitted : s.state = .halfOpen →
    s.halfOpenInFlight = tally CircuitEvent.entered CircuitEvent.isInvoked s.seen
  idle : s.state ≠ .halfOpen → s.halfOpenInFlight = 0
  bounded : Bounded CircuitEvent.entered CircuitEvent.isInvoked .halfOpen ⌈c.limit⌉₊ s.seen

theorem Metered.probesWithin (h : s.Metered c) : ProbesWithin ⌈c.limit⌉₊ s where
  atMost period after hperiod := by
    have hle : invocations period ≤ ⌈c.limit⌉₊ := h.bounded period after hperiod
    exact_mod_cast hle
  admitted hstate := by
    obtain ⟨period, hperiod⟩ := exists_follows (by decide) (h.current.trans hstate)
    refine ⟨period, hperiod, ?_⟩
    rw [h.admitted hstate, hperiod.tally_eq]
    rfl
  nonneg := by
    by_cases hstate : s.state = .halfOpen
    · rw [h.admitted hstate]
      exact Int.natCast_nonneg _
    · rw [h.idle hstate]
  idle := h.idle

/-- A transition to HALF_OPEN comes from a state in which the counter is 0. -/
theorem Metered.transition (h : s.Metered c) (next : CircuitBreakerState) :
    (s.transition next).Metered c := by
  unfold CircuitState.transition
  split_ifs with hsame hleave
  · exact h
  · exact ⟨kind_marked rfl, fun ho => absurd ho hleave, fun _ => rfl, h.bounded.snoc_uncounted rfl⟩
  · obtain rfl : next = .halfOpen := not_not.1 hleave
    refine ⟨kind_marked rfl, fun _ => ?_, fun ho => absurd rfl ho, h.bounded.snoc_uncounted rfl⟩
    have htally : tally CircuitEvent.entered CircuitEvent.isInvoked
        (s.seen ++ [.transition s.state .halfOpen]) = 0 := tally_marked rfl
    rw [htally]
    exact h.idle (Ne.symm hsame)

theorem Metered.moveToHalfOpenWhenReady (h : s.Metered c) :
    (s.moveToHalfOpenWhenReady c).Metered c := by
  unfold CircuitState.moveToHalfOpenWhenReady
  split_ifs
  · exact h
  · exact h
  · exact h.transition _

theorem Metered.onSuccess (h : s.Metered c) : s.onSuccess.Metered c := by
  have hreset : ({ s with consecutiveFailures := 0 } : CircuitState).Metered c :=
    ⟨h.current, h.admitted, h.idle, h.bounded⟩
  unfold CircuitState.onSuccess
  dsimp only
  split_ifs
  · exact hreset.transition _
  · exact hreset

theorem Metered.opening (h : s.Metered c) : s.opening.Metered c := by
  unfold CircuitState.opening
  apply Metered.transition
  refine ⟨?_, ?_, h.idle, h.bounded.snoc_uncounted rfl⟩
  · rw [kind_unmarked rfl]
    exact h.current
  · intro hstate
    rw [tally_unmarked rfl]
    exact h.admitted hstate

theorem Metered.onFailure (h : s.Metered c) : (s.onFailure c).Metered c := by
  have hcount : ({ s with consecutiveFailures := s.consecutiveFailures + 1 } : CircuitState).Metered
      c := ⟨h.current, h.admitted, h.idle, h.bounded⟩
  unfold CircuitState.onFailure
  dsimp only
  split_ifs
  · exact h.opening
  · exact hcount.opening
  · exact hcount

/-- Outside HALF_OPEN an operation is invoked without a slot, -/
theorem Metered.invoke (h : s.Metered c) (hstate : s.state ≠ .halfOpen) (call : ℕ) :
    (s.invoke call).Metered c where
  current := (kind_unmarked rfl).trans h.current
  admitted ho := absurd ho hstate
  idle := h.idle
  bounded := by
    apply h.bounded.snoc
    intro hkind _
    exact absurd (h.current.symm.trans hkind) hstate

/-- and in HALF_OPEN with one of those still free. -/
theorem Metered.probe (h : s.Metered c) (hstate : s.state = .halfOpen)
    (hfree : ¬ c.limit ≤ s.halfOpenInFlight) (call : ℕ) :
    (({ s with halfOpenInFlight := s.halfOpenInFlight + 1 } : CircuitState).invoke call).Metered
      c where
  current := (kind_unmarked rfl).trans h.current
  admitted _ := by
    simp only [CircuitState.invoke]
    rw [tally_unmarked rfl, h.admitted hstate]
    simp [CircuitEvent.isInvoked]
  idle hidle := absurd hstate hidle
  bounded := by
    apply h.bounded.snoc
    intro (_ : kind CircuitEvent.entered .closed s.seen = .halfOpen) _
    rw [h.admitted hstate, Int.cast_natCast] at hfree
    exact Nat.lt_ceil.2 (not_le.1 hfree)

theorem Metered.enter (h : s.Metered c) (call : ℕ) : (s.enter c call).Metered c := by
  unfold CircuitState.enter
  split
  next => exact h
  next hstate =>
    split_ifs with hfull
    · exact h
    · exact h.probe hstate hfull call
  next hstate => exact h.invoke (by simp [hstate]) call

theorem Metered.beginExecute (h : s.Metered c) (call : ℕ) (hookThrows : Bool) :
    (s.beginExecute c call hookThrows).Metered c := by
  unfold CircuitState.beginExecute
  dsimp only
  split_ifs
  · exact h.moveToHalfOpenWhenReady
  · exact h.moveToHalfOpenWhenReady.enter call

theorem opening_state (s : CircuitState) : s.opening.state = .opened := transition_state _

/-- A failure that counts ends the period, if it is one of HALF_OPEN. -/
theorem onFailure_state_ne (s : CircuitState) : (s.onFailure c).state ≠ .halfOpen := by
  unfold onFailure
  dsimp only
  split_ifs with hstate
  · simp [opening_state]
  · simp [opening_state]
  · exact hstate

theorem Metered.caught (h : s.Metered c) (shouldCount : Option Bool) :
    (s.caught c shouldCount).Metered c := by
  rcases shouldCount with _ | _ | _
  · exact h
  · exact h.onSuccess
  · exact h.onFailure

theorem caught_state_ne (s : CircuitState) {shouldCount : Option Bool}
    (hquiet : shouldCount ≠ none) : (s.caught c shouldCount).state ≠ .halfOpen := by
  rcases shouldCount with _ | _ | _
  · exact absurd rfl hquiet
  · simp [caught, onSuccess_state]
  · exact onFailure_state_ne s

/-- Where the circuit is not in HALF_OPEN, the `finally` block has no slot to free. -/
theorem Metered.leave (h : s.Metered c) (hstate : s.state ≠ .halfOpen) (call : ℕ) :
    (s.leave call).Metered c where
  current := h.current
  admitted ho := absurd ho hstate
  idle _ := by simp [CircuitState.leave, hstate, h.idle hstate]
  bounded := h.bounded

/-- A completion takes the circuit out of HALF_OPEN before its `finally` block runs, so that a
call of an earlier period frees no slot of the current one. -/
theorem Metered.complete (h : s.Metered c) (call : ℕ) {completion : Completion}
    (hquiet : completion.Quiet) : (s.complete c call completion).Metered c := by
  cases completion with
  | resolved => exact h.onSuccess.leave (by simp [onSuccess_state]) call
  | resolvedThenThrew shouldCount => exact hquiet.elim
  | rejected shouldCount => exact (h.caught shouldCount).leave (caught_state_ne s hquiet) call

theorem metered_of_init (h : (circuitSystem c).init s) : s.Metered c := by
  obtain ⟨now, rfl⟩ := init_cases h
  exact ⟨rfl, fun _ => rfl, fun _ => rfl, Bounded.nil⟩

theorem metered_step {s' : CircuitState} {a : CircuitLabel} (h : s.Metered c)
    (hs : (circuitSystem c).step s a = some s') (hquiet : a.Quiet) : s'.Metered c := by
  obtain ⟨call, hookThrows, rfl, -, rfl⟩ | ⟨call, completion, rfl, -, rfl⟩ | ⟨ms, rfl, rfl⟩ :=
    step_cases hs
  · exact h.beginExecute call hookThrows
  · exact h.complete call hquiet
  · exact ⟨h.current, h.admitted, h.idle, h.bounded⟩

end CircuitState

open CircuitState

/-- A limit that is not whole admits calls up to the next whole number. -/
theorem probesWithin_ceil (c : CircuitBreakerConfig) {ts : List CircuitMove} {s : CircuitState}
    (hrun : (circuitSystem c).Run ts s) (hquiet : ∀ t ∈ ts, t.label.Quiet) :
    ProbesWithin ⌈c.limit⌉₊ s := by
  have hm : s.Metered c := hrun.invariant_of_steps (C := fun t => t.label.Quiet)
    (fun _ h => metered_of_init h) (fun _ _ _ h hs hq => metered_step h hs hq) hquiet
  exact hm.probesWithin

/-- The limit counts calls: no period of HALF_OPEN invokes more of them, however the calls
overlap and however late those of earlier periods end. -/
theorem probesWithin_of_run (c : CircuitBreakerConfig) {n : ℕ} (hlimit : c.limit = n)
    {ts : List CircuitMove} {s : CircuitState} (hrun : (circuitSystem c).Run ts s)
    (hquiet : ∀ t ∈ ts, t.label.Quiet) : ProbesWithin n s := by
  have hceil : ProbesWithin ⌈c.limit⌉₊ s := probesWithin_ceil c hrun hquiet
  rwa [hlimit, Nat.ceil_natCast] at hceil

/-- Two calls are admitted while the circuit is closed. The first opens it, the second fails in
the period of HALF_OPEN that follows, and the probe of that period is still out in the next. -/
def lateProbeLabels : List CircuitLabel :=
  [.execute 0 false, .execute 1 false, .complete 0 (.rejected (some true)), .advance 1000,
    .execute 2 false, .execute 3 false, .complete 1 (.rejected (some true)), .advance 1000,
    .execute 4 false]

def lateProbeEnd : CircuitState :=
  ⟨⟨.halfOpen, 0, 1000, 1⟩, 2000, [4, 2],
    [.invoked 0 0, .invoked 1 0, .opens 0, .transition .closed .opened,
      .transition .opened .halfOpen, .invoked 2 1000, .opens 1000, .transition .halfOpen .opened,
      .transition .opened .halfOpen, .invoked 4 2000]⟩

theorem probesWithin_lateProbe : ProbesWithin 1 lateProbeEnd := by
  have hlimit : twoCallsConfig.limit = (1 : ℕ) := by decide +kernel
  have hrun := System.Run.of_replay init_circuitStart
    (show (circuitSystem twoCallsConfig).replay circuitStart lateProbeLabels = some lateProbeEnd by
      decide)
  exact_mod_cast probesWithin_of_run twoCallsConfig hlimit hrun (by decide)

end RouteFast
