import RouteFast.Dispatch.Probes

/-! When the circuit trips and when it lets a call through again. Both are read off what can be
seen from outside: how the calls ended, the openings, the operations in flight. -/

namespace RouteFast

open Transition

/-- How the breaker takes the end of an operation: `onSuccess` or `onFailure`. -/
inductive Verdict where
  | success
  | failure
  deriving DecidableEq, Repr

def caughtVerdicts : Option Bool → List Verdict
  | none => []
  | some true => [.failure]
  | some false => [.success]

def Completion.verdicts : Completion → List Verdict
  | .resolved => [.success]
  | .resolvedThenThrew shouldCount => .success :: caughtVerdicts shouldCount
  | .rejected shouldCount => caughtVerdicts shouldCount

def CircuitLabel.verdicts : CircuitLabel → List Verdict
  | .complete _ completion => completion.verdicts
  | .execute _ _ | .advance _ => []

/-- How many failures the log ends with. -/
def failuresInARow (log : List Verdict) : ℕ := (log.reverse.takeWhile (· = .failure)).length

@[simp] theorem failuresInARow_nil : failuresInARow [] = 0 := rfl

@[simp] theorem failuresInARow_success (log : List Verdict) :
    failuresInARow (log ++ [.success]) = 0 := by
  simp [failuresInARow]

@[simp] theorem failuresInARow_failure (log : List Verdict) :
    failuresInARow (log ++ [.failure]) = failuresInARow log + 1 := by
  simp [failuresInARow]

namespace CircuitState

variable {c : CircuitBreakerConfig} {s : CircuitState} {log : List Verdict} {call : ℕ}

/-- The counter is the number of failures in a row while the circuit is closed, and it is
closed while they are fewer than the threshold. -/
structure Tallied (c : CircuitBreakerConfig) (log : List Verdict) (s : CircuitState) : Prop where
  threshold : 1 ≤ c.failureThreshold
  counted : s.state = .closed → s.consecutiveFailures = failuresInARow log
  below : s.state = .closed → (failuresInARow log : ℚ) < c.failureThreshold
  tripped : s.state ≠ .closed → c.failureThreshold ≤ failuresInARow log

theorem transition_consecutiveFailures (next : CircuitBreakerState) :
    (s.transition next).consecutiveFailures = s.consecutiveFailures := by
  unfold transition
  split_ifs <;> rfl

theorem Tallied.closed_iff (h : s.Tallied c log) :
    s.state = .closed ↔ (failuresInARow log : ℚ) < c.failureThreshold := by
  constructor
  · exact h.below
  · intro hlt
    by_contra hstate
    exact absurd (h.tripped hstate) (not_le.2 hlt)

theorem Tallied.moveToHalfOpenWhenReady (h : s.Tallied c log) :
    (s.moveToHalfOpenWhenReady c).Tallied c log := by
  unfold CircuitState.moveToHalfOpenWhenReady
  split_ifs with hstate hready
  · exact h
  · exact h
  · have hstate : s.state = .opened := not_not.1 hstate
    have hnot : (s.transition .halfOpen).state ≠ .closed := by simp [transition_state]
    exact ⟨h.threshold, fun hc => absurd hc hnot, fun hc => absurd hc hnot,
      fun _ => h.tripped (by simp [hstate])⟩

theorem Tallied.onSuccess (h : s.Tallied c log) : s.onSuccess.Tallied c (log ++ [.success]) := by
  have hzero : s.onSuccess.consecutiveFailures = 0 := by
    unfold CircuitState.onSuccess
    dsimp only
    split_ifs
    · exact transition_consecutiveFailures _
    · rfl
  have hpos := h.threshold
  refine ⟨hpos, fun _ => by simp [hzero], fun _ => ?_, fun hc => ?_⟩
  · rw [failuresInARow_success]
    push_cast
    linarith
  · exact absurd (onSuccess_state s) hc

/-- The circuit opens when the failures in a row have reached the threshold. -/
theorem Tallied.opening (hthreshold : 1 ≤ c.failureThreshold)
    (h : c.failureThreshold ≤ failuresInARow log) : s.opening.Tallied c log := by
  have hnot : s.opening.state ≠ .closed := by simp [opening_state]
  exact ⟨hthreshold, fun hc => absurd hc hnot, fun hc => absurd hc hnot, fun _ => h⟩

theorem Tallied.onFailure (h : s.Tallied c log) :
    (s.onFailure c).Tallied c (log ++ [.failure]) := by
  -- once it has tripped, another failure changes nothing
  have hmore (hstate : s.state ≠ .closed) :
      c.failureThreshold ≤ failuresInARow (log ++ [.failure]) := by
    have hle := h.tripped hstate
    rw [failuresInARow_failure]
    push_cast
    linarith
  unfold CircuitState.onFailure
  dsimp only
  split_ifs with hhalf hfull
  · exact .opening h.threshold (hmore (by simp [hhalf]))
  · refine .opening h.threshold ?_
    by_cases hstate : s.state = .closed
    · rwa [failuresInARow_failure, ← h.counted hstate]
    · exact hmore hstate
  · refine ⟨h.threshold, fun hstate => ?_, fun hstate => ?_, hmore⟩
    · rw [failuresInARow_failure, ← h.counted hstate]
    · rw [failuresInARow_failure, ← h.counted hstate]
      exact not_le.1 hfull

theorem Tallied.caught (h : s.Tallied c log) (shouldCount : Option Bool) :
    (s.caught c shouldCount).Tallied c (log ++ caughtVerdicts shouldCount) := by
  rcases shouldCount with _ | _ | _
  · simpa [caughtVerdicts, CircuitState.caught] using h
  · exact h.onSuccess
  · exact h.onFailure

theorem Tallied.leave (h : s.Tallied c log) (call : ℕ) : (s.leave call).Tallied c log :=
  ⟨h.threshold, h.counted, h.below, h.tripped⟩

theorem Tallied.complete (h : s.Tallied c log) (call : ℕ) (completion : Completion) :
    (s.complete c call completion).Tallied c (log ++ completion.verdicts) := by
  cases completion with
  | resolved => exact h.onSuccess.leave call
  | resolvedThenThrew shouldCount =>
    have hcaught := h.onSuccess.caught shouldCount
    rw [List.append_assoc] at hcaught
    exact hcaught.leave call
  | rejected shouldCount => exact (h.caught shouldCount).leave call

theorem Tallied.enter (h : s.Tallied c log) (call : ℕ) : (s.enter c call).Tallied c log := by
  unfold CircuitState.enter
  split
  next => exact h
  next =>
    split_ifs
    · exact h
    · exact ⟨h.threshold, h.counted, h.below, h.tripped⟩
  next => exact ⟨h.threshold, h.counted, h.below, h.tripped⟩

theorem Tallied.beginExecute (h : s.Tallied c log) (call : ℕ) (hookThrows : Bool) :
    (s.beginExecute c call hookThrows).Tallied c log := by
  unfold CircuitState.beginExecute
  dsimp only
  split_ifs
  · exact h.moveToHalfOpenWhenReady
  · exact h.moveToHalfOpenWhenReady.enter call

/-- No slot is taken twice: the probes are among the operations in flight. -/
structure Seated (s : CircuitState) : Prop where
  nonneg : 0 ≤ s.halfOpenInFlight
  idle : s.state ≠ .halfOpen → s.halfOpenInFlight = 0
  seats : s.halfOpenInFlight ≤ s.inFlight.length
  opened : s.state = .opened → .opens s.openedAtMs ∈ s.seen

theorem transition_inFlight (next : CircuitBreakerState) :
    (s.transition next).inFlight = s.inFlight := by
  unfold transition
  split_ifs <;> rfl

theorem Seated.transition (h : s.Seated) {next : CircuitBreakerState}
    (hopens : next = .opened → .opens s.openedAtMs ∈ s.seen) : (s.transition next).Seated := by
  unfold CircuitState.transition
  split_ifs with hsame hleave
  · exact h
  · exact ⟨le_rfl, fun _ => rfl, Int.natCast_nonneg _,
      fun ho => List.mem_append_left _ (hopens ho)⟩
  · have hzero := h.idle fun hs => hsame ((not_not.1 hleave).trans hs.symm)
    exact ⟨h.nonneg, fun _ => hzero, h.seats, fun ho => List.mem_append_left _ (hopens ho)⟩

theorem Seated.moveToHalfOpenWhenReady (h : s.Seated) : (s.moveToHalfOpenWhenReady c).Seated := by
  unfold CircuitState.moveToHalfOpenWhenReady
  split_ifs
  · exact h
  · exact h
  · exact h.transition fun ho => by cases ho

theorem Seated.onSuccess (h : s.Seated) : s.onSuccess.Seated := by
  have hreset : ({ s with consecutiveFailures := 0 } : CircuitState).Seated :=
    ⟨h.nonneg, h.idle, h.seats, h.opened⟩
  unfold CircuitState.onSuccess
  dsimp only
  split_ifs
  · exact hreset.transition fun ho => by cases ho
  · exact hreset

theorem Seated.opening (h : s.Seated) : s.opening.Seated := by
  have hseen : CircuitEvent.opens s.nowMs ∈ s.seen ++ [.opens s.nowMs] :=
    List.mem_append_right _ (List.mem_singleton.2 rfl)
  have hwindow : ({ s with
      consecutiveFailures := 0
      openedAtMs := s.nowMs
      seen := s.seen ++ [.opens s.nowMs] } : CircuitState).Seated :=
    ⟨h.nonneg, h.idle, h.seats, fun _ => hseen⟩
  exact hwindow.transition fun _ => hseen

theorem Seated.onFailure (h : s.Seated) : (s.onFailure c).Seated := by
  have hcount : ({ s with consecutiveFailures := s.consecutiveFailures + 1 } :
      CircuitState).Seated := ⟨h.nonneg, h.idle, h.seats, h.opened⟩
  unfold CircuitState.onFailure
  dsimp only
  split_ifs
  · exact h.opening
  · exact hcount.opening
  · exact hcount

theorem Seated.caught (h : s.Seated) (shouldCount : Option Bool) :
    (s.caught c shouldCount).Seated := by
  rcases shouldCount with _ | _ | _
  · exact h
  · exact h.onSuccess
  · exact h.onFailure

theorem onSuccess_inFlight (s : CircuitState) : s.onSuccess.inFlight = s.inFlight := by
  unfold onSuccess
  dsimp only
  split_ifs
  · exact transition_inFlight _
  · rfl

theorem caught_inFlight (s : CircuitState) (shouldCount : Option Bool) :
    (s.caught c shouldCount).inFlight = s.inFlight := by
  rcases shouldCount with _ | _ | _
  · rfl
  · exact onSuccess_inFlight s
  · unfold caught onFailure
    dsimp only
    split_ifs
    · exact transition_inFlight _
    · exact transition_inFlight _
    · rfl

/-- Whatever period the call was admitted in, it gives up one seat at most. -/
theorem Seated.leave (h : s.Seated) (hcall : call ∈ s.inFlight) : (s.leave call).Seated := by
  have hlength : (s.inFlight.erase call).length = s.inFlight.length - 1 :=
    List.length_erase_of_mem hcall
  have hpos := List.length_pos_of_mem hcall
  have hseats := h.seats
  have hnonneg := h.nonneg
  refine ⟨?_, fun hstate => ?_, ?_, h.opened⟩
  · simp only [CircuitState.leave]
    split_ifs <;> omega
  · simpa [CircuitState.leave, show s.state ≠ .halfOpen from hstate] using h.idle hstate
  · simp only [CircuitState.leave, hlength]
    by_cases hstate : s.state = .halfOpen
    · simp only [hstate, true_and]
      split_ifs <;> omega
    · have hzero := h.idle hstate
      split_ifs <;> omega

theorem Seated.complete (h : s.Seated) (hcall : call ∈ s.inFlight) (completion : Completion) :
    (s.complete c call completion).Seated := by
  cases completion with
  | resolved => exact h.onSuccess.leave (by rwa [onSuccess_inFlight])
  | resolvedThenThrew shouldCount =>
    exact (h.onSuccess.caught shouldCount).leave (by rwa [caught_inFlight, onSuccess_inFlight])
  | rejected shouldCount => exact (h.caught shouldCount).leave (by rwa [caught_inFlight])

theorem Seated.enter (h : s.Seated) (call : ℕ) : (s.enter c call).Seated := by
  have hseats := h.seats
  have hnonneg := h.nonneg
  unfold CircuitState.enter
  split
  next => exact h
  next hstate =>
    split_ifs
    · exact h
    · refine ⟨?_, fun hne => absurd hstate hne, ?_, fun ho => ?_⟩
      · simp only [CircuitState.invoke]
        omega
      · simp only [CircuitState.invoke, List.length_cons]
        omega
      · simp [CircuitState.invoke, hstate] at ho
  next hstate =>
    refine ⟨hnonneg, h.idle, ?_, fun ho => ?_⟩
    · simp only [CircuitState.invoke, List.length_cons]
      omega
    · simp [CircuitState.invoke, hstate] at ho

theorem Seated.beginExecute (h : s.Seated) (call : ℕ) (hookThrows : Bool) :
    (s.beginExecute c call hookThrows).Seated := by
  unfold CircuitState.beginExecute
  dsimp only
  split_ifs
  · exact h.moveToHalfOpenWhenReady
  · exact h.moveToHalfOpenWhenReady.enter call

theorem mem_invoke (s : CircuitState) (call : ℕ) : call ∈ (s.invoke call).inFlight :=
  List.mem_cons_self ..

/-- A circuit that is not open turns a call away only when its slots are taken. -/
theorem Seated.mem_enter (h : s.Seated) (hstate : s.state ≠ .opened) (call : ℕ) :
    call ∈ (s.enter c call).inFlight ∨
      s.state ≠ .closed ∧ c.limit ≤ s.inFlight.length := by
  unfold CircuitState.enter
  split
  next ho => exact absurd ho hstate
  next hhalf =>
    split_ifs with hfull
    · have hseats : (s.halfOpenInFlight : ℚ) ≤ s.inFlight.length := by
        exact_mod_cast h.seats
      exact Or.inr ⟨by simp [hhalf], hfull.trans hseats⟩
    · exact Or.inl (mem_invoke _ call)
  next => exact Or.inl (mem_invoke s call)

end CircuitState

open CircuitState

section Runs

variable {c : CircuitBreakerConfig} {ts : List CircuitMove} {s : CircuitState}

theorem tallied_of_run (hrun : (circuitSystem c).Run ts s) :
    s.Tallied c (ts.flatMap fun t => t.label.verdicts) := by
  induction hrun with
  | @nil s h =>
    have hthreshold : 1 ≤ c.failureThreshold := by
      obtain ⟨now, h⟩ := h
      by_contra hlt
      simp [CircuitBreaker.construct, not_le.1 hlt, Except.map] at h
    obtain ⟨now, rfl⟩ := init_cases h
    refine ⟨hthreshold, fun _ => rfl, fun _ => ?_, fun hc => absurd rfl hc⟩
    simp only [List.flatMap_nil, failuresInARow_nil]
    push_cast
    linarith
  | @snoc ts s s' a hrun hs ih =>
    rw [List.flatMap_append, List.flatMap_singleton]
    obtain ⟨call, hookThrows, rfl, -, rfl⟩ | ⟨call, completion, rfl, -, rfl⟩ | ⟨ms, rfl, rfl⟩ :=
      step_cases hs
    · simpa [CircuitLabel.verdicts] using ih.beginExecute call hookThrows
    · exact ih.complete call completion
    · rw [CircuitLabel.verdicts, List.append_nil]
      exact ⟨ih.threshold, ih.counted, ih.below, ih.tripped⟩

/-- However the calls overlap, the circuit is closed exactly while fewer failures than the
threshold have come in a row, in the order in which the calls end. -/
theorem closed_iff_of_run (hrun : (circuitSystem c).Run ts s) :
    s.state = .closed ↔
      (failuresInARow (ts.flatMap fun t => t.label.verdicts) : ℚ) < c.failureThreshold :=
  (tallied_of_run hrun).closed_iff

/-- A failure opens the circuit, and the success of a probe closes it. -/
theorem closed_probed : probedEnd.state = .closed ↔
    (failuresInARow (((circuitSystem twoCallsConfig).moves circuitStart probedLabels).flatMap
      fun t => t.label.verdicts) : ℚ) < twoCallsConfig.failureThreshold :=
  closed_iff_of_run (System.Run.of_replay init_circuitStart (by decide))

theorem seated_of_run (hrun : (circuitSystem c).Run ts s) : s.Seated := by
  induction hrun with
  | @nil s h =>
    obtain ⟨now, rfl⟩ := init_cases h
    exact ⟨le_rfl, fun _ => rfl, le_rfl, fun ho => by cases ho⟩
  | @snoc ts s s' a hrun hs ih =>
    obtain ⟨call, hookThrows, rfl, -, rfl⟩ | ⟨call, completion, rfl, hcall, rfl⟩ |
      ⟨ms, rfl, rfl⟩ := step_cases hs
    · exact ih.beginExecute call hookThrows
    · exact ih.complete hcall completion
    · exact ⟨ih.nonneg, ih.idle, ih.seats, ih.opened⟩

/-- A call is let through unless the window of an opening is not over, or as many operations
are in flight as the circuit has probes: no slot is ever lost. -/
theorem admitted_of_run (hrun : (circuitSystem c).Run ts s) (call : ℕ) :
    call ∈ (s.beginExecute c call false).inFlight ∨
      (s.state = .opened ∧ ∃ t₀ : Date, .opens t₀ ∈ s.seen ∧
        (s.nowMs : ℚ) < t₀ + c.resetTimeoutMs) ∨
      (s.state ≠ .closed ∧ c.limit ≤ s.inFlight.length) := by
  have hseated := seated_of_run hrun
  simp only [beginExecute, Bool.false_eq_true, false_and, if_false]
  by_cases hopened : s.state = .opened
  · by_cases hready : (((s.nowMs : ℤ) - s.openedAtMs : ℤ) : ℚ) < c.resetTimeoutMs
    · refine Or.inr (Or.inl ⟨hopened, s.openedAtMs, hseated.opened hopened, ?_⟩)
      push_cast at hready
      linarith
    · have hmove : s.moveToHalfOpenWhenReady c = s.transition .halfOpen := by
        unfold moveToHalfOpenWhenReady
        rw [if_neg (not_not.2 hopened), if_neg hready]
      have hnot : (s.moveToHalfOpenWhenReady c).state ≠ .opened := by
        simp [hmove, transition_state]
      have hlist : (s.moveToHalfOpenWhenReady c).inFlight = s.inFlight := by
        rw [hmove, transition_inFlight]
      rcases hseated.moveToHalfOpenWhenReady.mem_enter (c := c) hnot call
        with hin | ⟨-, hfull⟩
      · exact Or.inl hin
      · exact Or.inr (Or.inr ⟨by simp [hopened], hlist ▸ hfull⟩)
  · have hstay : s.moveToHalfOpenWhenReady c = s := by
      unfold moveToHalfOpenWhenReady
      rw [if_pos hopened]
    rw [hstay]
    rcases hseated.mem_enter (c := c) hopened call with hin | hfull
    · exact Or.inl hin
    · exact Or.inr (Or.inr hfull)

/-- Two calls outlive the periods they were admitted in and fail while the circuit is half-open
and open. -/
def staleLabels : List CircuitLabel :=
  [.execute 0 false, .execute 1 false, .complete 0 (.rejected (some true)), .advance 1000,
    .execute 2 false, .complete 1 (.rejected (some true)), .advance 1000,
    .complete 2 (.rejected (some true)), .advance 1000]

def staleEnd : CircuitState :=
  ⟨⟨.opened, 0, 2000, 0⟩, 3000, [],
    [.invoked 0 0, .invoked 1 0, .opens 0, .transition .closed .opened,
      .transition .opened .halfOpen, .invoked 2 1000, .opens 1000, .transition .halfOpen .opened,
      .opens 2000]⟩

/-- Neither has taken the slot along: the next call is let through. -/
theorem admitted_stale : 3 ∈ (staleEnd.beginExecute twoCallsConfig 3 false).inFlight := by
  have hrun := System.Run.of_replay init_circuitStart
    (show (circuitSystem twoCallsConfig).replay circuitStart staleLabels = some staleEnd by decide)
  rcases admitted_of_run hrun 3 with hin | ⟨-, t₀, hopens, hwindow⟩ | ⟨-, hfull⟩
  · exact hin
  · have hold : t₀ = 0 ∨ t₀ = 1000 ∨ t₀ = 2000 := by simpa [staleEnd] using hopens
    exfalso
    rcases hold with rfl | rfl | rfl <;> norm_num [staleEnd, twoCallsConfig] at hwindow
  · exact absurd hfull (by decide +kernel)

end Runs

end RouteFast
