import RouteFast.Base.Shares
import RouteFast.Reliability.Ordering

/-! How long a row waits in the outbox. A flush takes the oldest rows that are due, and a row
that cannot be published comes back; the relay is watched for a while, to see what a row that is
due has to wait for. -/

namespace RouteFast

open Transition

/-- A call of `publish` that has ended, and the flush that made it. -/
structure Try where
  flush : ℕ × ℕ
  event : OutboxRow
  ok : Bool
  deriving DecidableEq

namespace FlushPc

/-- The answer ends the loop, with no row of the batch left. -/
def completes : FlushPc → FlushAnswer → Bool
  | .finding, .found (some []) => true
  | .saving _ _ [], .saved outcome | .savingFailed _ _ _ [], .saved outcome => outcome.resolves
  | _, _ => false

/-- The call of `publish` that the answer ends. -/
def tries (flush : ℕ × ℕ) : FlushPc → FlushAnswer → List Try
  | .publishing event _, .published ok => [⟨flush, event, ok⟩]
  | _, _ => []

end FlushPc

/-- A relay since it was at `start`, by one clock: the flushes that have begun since then, those
of them that have gone through their batch, and the rows that were tried. -/
structure Watch where
  start : Relay
  since : Date
  relay : Relay
  clock : Date
  begun : List (ℕ × ℕ)
  completed : List (ℕ × ℕ)
  tries : List Try

namespace RelayAction

/-- The flush that begins. -/
def begins : RelayAction → List (ℕ × ℕ)
  | .flush i j => [(i, j)]
  | .enqueue _ | .answer _ _ _ | .crash _ => []

end RelayAction

namespace Watch

/-- What of a flush the action is the answer to. -/
def answered {α : Type} (S : Watch) (read : ℕ × ℕ → FlushPc → FlushAnswer → List α) :
    RelayAction → List α
  | .answer i j answer => ((S.relay.workers i).flushes j).elim [] fun pc => read (i, j) pc answer
  | .enqueue _ | .flush _ _ | .crash _ => []

def completes (S : Watch) : RelayAction → List (ℕ × ℕ) :=
  S.answered fun flush pc answer =>
    if flush ∈ S.begun ∧ pc.completes answer then [flush] else []

/-- The number of a flush is a new one, after a crash too. -/
def New (S : Watch) (flush : ℕ × ℕ) : Prop :=
  flush ∉ S.begun ∧ ((S.start.workers flush.1).flushes flush.2).isNone

instance (S : Watch) : DecidablePred S.New := fun flush =>
  inferInstanceAs (Decidable (flush ∉ S.begun ∧
    ((S.start.workers flush.1).flushes flush.2).isNone = true))

/-- The state after the step of the relay. -/
def after (S : Watch) (label : RelayLabel) (relay : Relay) : Watch :=
  { S with
    relay := relay
    clock := label.now
    begun := S.begun ++ label.action.begins
    completed := S.completed ++ S.completes label.action
    tries := S.tries ++ S.answered FlushPc.tries label.action }

/-- The tries of one flush. -/
def triesOf (S : Watch) (flush : ℕ × ℕ) : List Try := Shares.share Try.flush flush S.tries

/-- The row is due at the beginning, and is not being saved then. -/
structure Waiting (S : Watch) (r : OutboxRow) : Prop where
  row : r ∈ S.start.rows
  due : r.Due S.since
  free : ∀ i j pc e, (S.start.workers i).flushes j = some pc → pc.held = some e → e.id ≠ r.id

def Untried (S : Watch) (id : Uuid) : Prop := ∀ t ∈ S.tries, t.event.id ≠ id

instance (S : Watch) : DecidablePred S.Untried := fun id =>
  inferInstanceAs (Decidable (∀ t ∈ S.tries, t.event.id ≠ id))

/-- A full batch of rows created no later than `r`. -/
def Full (batchSize : ℕ) (r : OutboxRow) (tries : List Try) : Prop :=
  tries.length = batchSize ∧ ∀ t ∈ tries, t.event.CreatedBefore r

end Watch

/-- The watch begins in any state the relay can be in. -/
def watch (batchSize : ℕ) : System Watch RelayLabel where
  init S := (relaySystem batchSize).Reachable S.start ∧ S.relay = S.start ∧ S.clock = S.since ∧
    S.begun = [] ∧ S.completed = [] ∧ S.tries = []
  step S label :=
    if S.clock ≤ label.now ∧ ∀ flush ∈ label.action.begins, S.New flush then
      (S.relay.step batchSize label.now label.action).map (S.after label)
    else none

abbrev WatchMove := Move Watch RelayLabel

namespace FlushPc

variable {batchSize : ℕ} {now : Date} {rows rows' : List OutboxRow} {logged : PublishLog}
  {pc pc' : FlushPc} {answer : FlushAnswer} {flush : ℕ × ℕ} {r e : OutboxRow} {T : List Try}

/-- An answer writes the row that is held, if anything. -/
theorem Effect.rows_cases (h : Effect batchSize now rows pc answer rows' logged pc') :
    rows' = rows ∨ ∃ e outcome, pc.held = some e ∧ rows' = SaveOutcome.write e rows outcome := by
  cases h with
  | findFailed | found | published | publishFailed => exact Or.inl rfl
  | saved loaded event rest outcome => exact Or.inr ⟨event, outcome, rfl, rfl⟩
  | saveFailed loaded event rest outcome => exact Or.inr ⟨event, outcome, rfl, rfl⟩
  | putOff loaded event failedAt rest outcome => exact Or.inr ⟨event, outcome, rfl, rfl⟩
  | rejected loaded event failedAt rest outcome => exact Or.inr ⟨event, outcome, rfl, rfl⟩

/-- The row held next is the row held now, or the one just tried. -/
theorem Effect.held_cases (h : Effect batchSize now rows pc answer rows' logged pc')
    (flush : ℕ × ℕ) (he : pc'.held = some e) : (∃ e', pc.held = some e' ∧ e'.id = e.id) ∨
      ∃ t ∈ pc.tries flush answer, t.event.id = e.id := by
  cases h with
  | findFailed => cases he
  | found events => simp [held_next] at he
  | published event rest =>
    obtain rfl := Option.some.inj he
    exact Or.inr ⟨⟨flush, event, true⟩, by simp [tries], rfl⟩
  | publishFailed event rest =>
    obtain rfl := Option.some.inj he
    exact Or.inr ⟨⟨flush, event, false⟩, by simp [tries], rfl⟩
  | saved => simp [held_next] at he
  | saveFailed loaded event rest outcome =>
    obtain rfl := Option.some.inj he
    exact Or.inl ⟨event, rfl, rfl⟩
  | putOff => simp [held_next] at he
  | rejected => cases he

/-- The row is still in the queue, or the batch is a full one of rows created no later. -/
def Behind (batchSize : ℕ) (r : OutboxRow) (T : List Try) (queue : List OutboxRow) : Prop :=
  (∃ x ∈ queue, x.id = r.id) ∨ T.length + queue.length = batchSize ∧
    (∀ t ∈ T, t.event.CreatedBefore r) ∧ ∀ x ∈ queue, x.CreatedBefore r

/-- What a flush has tried, and what it is still going to try. -/
def Round (batchSize : ℕ) (r : OutboxRow) (T : List Try) : FlushPc → Prop
  | .finding => T = []
  | .publishing event rest => Behind batchSize r T (event :: rest)
  | .saving _ _ rest | .savingFailed _ _ _ rest => Behind batchSize r T rest
  | .ended => True

theorem Behind.next {queue : List OutboxRow} (h : Behind batchSize r T queue) :
    Round batchSize r T (next queue) := by
  cases queue with
  | nil => trivial
  | cons event rest => exact h

theorem Behind.full (h : Behind batchSize r T []) : Watch.Full batchSize r T := by
  rcases h with ⟨x, hx, -⟩ | ⟨hlength, hbefore, -⟩
  · cases hx
  · exact ⟨hlength, hbefore⟩

/-- The query returns the row, or fills the batch with rows created no later. -/
theorem behind_found {events : List OutboxRow} (hr : r ∈ rows) (hdue : r.Due now)
    (h : Least OutboxRow.CreatedBefore batchSize (rows.filter fun r => r.Due now) events) :
    Behind batchSize r [] events := by
  have hmem : r ∈ rows.filter fun r => r.Due now := by simpa using ⟨hr, hdue⟩
  by_cases hin : r ∈ events
  · exact Or.inl ⟨r, hin, rfl⟩
  · have hlong : batchSize < (rows.filter fun r => r.Due now).length := by
      by_contra hshort
      exact hin ((h.perm_of_length_le (not_lt.1 hshort)).mem_iff.2 hmem)
    have hlength := h.length
    refine Or.inr ⟨?_, by simp, fun x hx => h.before hx hmem hin⟩
    simp only [List.length_nil]
    omega

/-- Its next row, if it is not `r`, has been tried. -/
theorem Behind.tried {event : OutboxRow} {rest : List OutboxRow} {ok : Bool}
    (h : Behind batchSize r T (event :: rest)) (hne : event.id ≠ r.id) :
    Behind batchSize r (T ++ [⟨flush, event, ok⟩]) rest := by
  rcases h with ⟨x, hx, hid⟩ | ⟨hlength, hT, hqueue⟩
  · rcases List.mem_cons.1 hx with rfl | hx
    · exact absurd hid hne
    · exact Or.inl ⟨x, hx, hid⟩
  · refine Or.inr ⟨?_, fun t ht => ?_, fun x hx => hqueue x (List.mem_cons_of_mem _ hx)⟩
    · simp only [List.length_cons, List.length_append, List.length_nil] at hlength ⊢
      omega
    · rcases List.mem_append.1 ht with ht | ht
      · exact hT t ht
      · obtain rfl := List.mem_singleton.1 ht
        exact hqueue event List.mem_cons_self

theorem Effect.ended_of_completes (h : Effect batchSize now rows pc answer rows' logged pc')
    (hcompletes : pc.completes answer = true) : pc' = .ended := by
  cases h with
  | findFailed | rejected => rfl
  | found events =>
    cases events with
    | nil => rfl
    | cons event rest => cases hcompletes
  | published | publishFailed => cases hcompletes
  | saved loaded event rest outcome | putOff loaded event failedAt rest outcome =>
    cases rest with
    | nil => rfl
    | cons x rest => cases hcompletes
  | saveFailed loaded event rest outcome hfail =>
    cases rest with
    | nil => exact absurd hcompletes (by simp [completes, hfail])
    | cons x rest => cases hcompletes

/-- A flush that does not try `r` tries a full batch created no later. -/
theorem Effect.round (h : Effect batchSize now rows pc answer rows' logged pc') (hr : r ∈ rows)
    (hdue : r.Due now) (hother : ∀ t ∈ pc.tries flush answer, t.event.id ≠ r.id)
    (hT : Round batchSize r T pc) : Round batchSize r (T ++ pc.tries flush answer) pc' ∧
      (pc.completes answer → Watch.Full batchSize r (T ++ pc.tries flush answer)) := by
  cases h with
  | findFailed => exact ⟨trivial, by simp [completes]⟩
  | found events hleast =>
    obtain rfl : T = [] := hT
    have hbehind : Behind batchSize r [] events := behind_found hr hdue hleast
    refine ⟨hbehind.next, fun hcompletes => ?_⟩
    cases events with
    | nil => exact hbehind.full
    | cons event rest => simp [completes] at hcompletes
  | published event rest =>
    exact ⟨Behind.tried hT (hother ⟨flush, event, true⟩ (by simp [tries])), by simp [completes]⟩
  | publishFailed event rest =>
    exact ⟨Behind.tried hT (hother ⟨flush, event, false⟩ (by simp [tries])), by simp [completes]⟩
  | saved loaded event rest outcome hok =>
    have hbehind : Behind batchSize r T rest := hT
    simp only [tries, List.append_nil]
    refine ⟨hbehind.next, fun hcompletes => ?_⟩
    cases rest with
    | nil => exact hbehind.full
    | cons x rest => simp [completes] at hcompletes
  | saveFailed loaded event rest outcome hfail =>
    simp only [tries, List.append_nil]
    refine ⟨hT, fun hcompletes => ?_⟩
    cases rest <;> simp [completes, hfail] at hcompletes
  | putOff loaded event failedAt rest outcome hok =>
    have hbehind : Behind batchSize r T rest := hT
    simp only [tries, List.append_nil]
    refine ⟨hbehind.next, fun hcompletes => ?_⟩
    cases rest with
    | nil => exact hbehind.full
    | cons x rest => simp [completes] at hcompletes
  | rejected loaded event failedAt rest outcome hfail =>
    refine ⟨trivial, fun hcompletes => ?_⟩
    cases rest <;> simp [completes, hfail] at hcompletes

end FlushPc

namespace Relay

variable {batchSize : ℕ} {now : Date} {S S' : Relay} {action : RelayAction} {k l : ℕ}
  {pc' : FlushPc}

/-- Where a flush comes from: it was there, it has just begun, or its call has been answered. -/
theorem Effect.flush_cases (h : Effect batchSize now S action S')
    (hpc : (S'.workers k).flushes l = some pc') :
    ((S.workers k).flushes l = some pc' ∧ ∀ answer, action ≠ .answer k l answer) ∨
    (action = .flush k l ∧ (pc' = .finding ∨ pc' = .ended)) ∨
    ∃ answer pc rows logged, action = .answer k l answer ∧ (S.workers k).flushes l = some pc ∧
      FlushPc.Effect batchSize now S.rows pc answer rows logged pc' := by
  cases h with
  | enqueue rows => exact Or.inl ⟨hpc, by simp⟩
  | flush i j hnew =>
    by_cases hki : k = i
    · subst hki
      by_cases hlj : l = j
      · subst hlj
        refine Or.inr (Or.inl ⟨rfl, ?_⟩)
        cases hrunning : (S.workers k).running with
        | true =>
          have hended : FlushPc.ended = pc' := by
            simpa [setWorker, OutboxWorker.flush, hrunning] using hpc
          exact Or.inr hended.symm
        | false =>
          have hfinding : FlushPc.finding = pc' := by
            simpa [setWorker, OutboxWorker.flush, hrunning] using hpc
          exact Or.inl hfinding.symm
      · refine Or.inl ⟨?_, by simp⟩
        cases hrunning : (S.workers k).running with
        | true => simpa [setWorker, OutboxWorker.flush, hrunning, hlj] using hpc
        | false => simpa [setWorker, OutboxWorker.flush, hrunning, hlj] using hpc
    · exact Or.inl ⟨by simpa [setWorker, hki] using hpc, by simp⟩
  | answer i j answer pc pc'' rows logged hold heff =>
    by_cases hki : k = i
    · subst hki
      by_cases hlj : l = j
      · subst hlj
        obtain rfl : pc'' = pc' := by simpa [setWorker, OutboxWorker.set] using hpc
        exact Or.inr (Or.inr ⟨answer, pc, rows, logged, rfl, hold, heff⟩)
      · refine Or.inl ⟨by simpa [setWorker, OutboxWorker.set, hlj] using hpc, fun answer' h => ?_⟩
        exact hlj (RelayAction.answer.inj h).2.1.symm
    · refine Or.inl ⟨by simpa [setWorker, hki] using hpc, fun answer' h => ?_⟩
      exact hki (RelayAction.answer.inj h).1.symm
  | crash i =>
    by_cases hki : k = i
    · subst hki
      simp [setWorker, OutboxWorker.started] at hpc
    · exact Or.inl ⟨by simpa [setWorker, hki] using hpc, by simp⟩

/-- A flush goes on where it was, unless it is answered or its process crashes. -/
theorem Effect.flush_kept (h : Effect batchSize now S action S') {pc : FlushPc}
    (hpc : (S.workers k).flushes l = some pc) (hcrash : action ≠ .crash k)
    (hother : ∀ answer, action ≠ .answer k l answer) : (S'.workers k).flushes l = some pc := by
  cases h with
  | enqueue rows => exact hpc
  | flush i j hnew =>
    by_cases hki : k = i
    · subst hki
      have hlj : l ≠ j := by
        rintro rfl
        simp [hpc] at hnew
      cases hrunning : (S.workers k).running with
      | true => simpa [setWorker, OutboxWorker.flush, hrunning, hlj] using hpc
      | false => simpa [setWorker, OutboxWorker.flush, hrunning, hlj] using hpc
    · simpa [setWorker, hki] using hpc
  | answer i j answer =>
    by_cases hki : k = i
    · subst hki
      have hlj : l ≠ j := by
        rintro rfl
        exact hother answer rfl
      simpa [setWorker, OutboxWorker.set, hlj] using hpc
    · simpa [setWorker, hki] using hpc
  | crash i =>
    have hki : k ≠ i := by
      rintro rfl
      exact hcrash rfl
    simpa [setWorker, hki] using hpc

/-- What becomes of the table. -/
theorem Effect.rows_cases (h : Effect batchSize now S action S') :
    (∃ new, action = .enqueue new ∧ S'.rows = S.rows ++ new) ∨ S'.rows = S.rows ∨
    ∃ i j pc e outcome, (S.workers i).flushes j = some pc ∧ pc.held = some e ∧
      S'.rows = SaveOutcome.write e S.rows outcome := by
  cases h with
  | enqueue rows => exact Or.inl ⟨rows, rfl, rfl⟩
  | flush | crash => exact Or.inr (Or.inl rfl)
  | answer i j answer pc pc' rows logged hpc heff =>
    rcases heff.rows_cases with hsame | ⟨e, outcome, he, hrows⟩
    · exact Or.inr (Or.inl hsame)
    · exact Or.inr (Or.inr ⟨i, j, pc, e, outcome, hpc, he, hrows⟩)

end Relay

namespace Watch

variable {batchSize : ℕ} {S S' : Watch} {label : RelayLabel} {r : OutboxRow} {flush : ℕ × ℕ}

/-- The call the flush awaits. -/
def pc (S : Watch) (flush : ℕ × ℕ) : Option FlushPc := (S.relay.workers flush.1).flushes flush.2

theorem step_effect (h : (watch batchSize).step S label = some S') :
    S.clock ≤ label.now ∧ (∀ flush ∈ label.action.begins, S.New flush) ∧
    ∃ relay, Relay.Effect batchSize label.now S.relay label.action relay ∧
      S' = S.after label relay := by
  simp only [watch] at h
  split at h
  · next hready =>
    obtain ⟨relay, hrelay, rfl⟩ := Option.map_eq_some_iff.1 h
    exact ⟨hready.1, hready.2, relay, Relay.step_effect hrelay, rfl⟩
  · cases h

/-- The watch goes on from where it began. -/
theorem step_start (h : (watch batchSize).step S label = some S') :
    S'.start = S.start ∧ S'.since = S.since := by
  obtain ⟨-, -, relay, -, rfl⟩ := step_effect h
  exact ⟨rfl, rfl⟩

/-- What is answered is about the flush that the action is the answer to. -/
theorem mem_answered {α : Type} {read : ℕ × ℕ → FlushPc → FlushAnswer → List α}
    {action : RelayAction} {x : α} (h : x ∈ S.answered read action) :
    ∃ i j answer pc, action = .answer i j answer ∧ S.pc (i, j) = some pc ∧
      x ∈ read (i, j) pc answer := by
  cases action with
  | answer i j answer =>
    cases hpc : (S.relay.workers i).flushes j with
    | none => simp [answered, hpc] at h
    | some pc => exact ⟨i, j, answer, pc, rfl, hpc, by simpa [answered, hpc] using h⟩
  | enqueue | flush | crash => cases h

theorem answered_eq {α : Type} {read : ℕ × ℕ → FlushPc → FlushAnswer → List α} {i j : ℕ}
    {answer : FlushAnswer} {pc : FlushPc} (hpc : S.pc (i, j) = some pc) :
    S.answered read (.answer i j answer) = read (i, j) pc answer := by
  have hflush : (S.relay.workers i).flushes j = some pc := hpc
  simp [answered, hflush]

theorem mem_tries {action : RelayAction} {t : Try} (h : t ∈ S.answered FlushPc.tries action) :
    ∃ i j ok rest, action = .answer i j (.published ok) ∧
      S.pc (i, j) = some (.publishing t.event rest) ∧ t = ⟨(i, j), t.event, ok⟩ := by
  obtain ⟨i, j, answer, pc, rfl, hpc, ht⟩ := mem_answered h
  cases pc with
  | publishing event rest =>
    cases answer with
    | published ok =>
      obtain rfl := List.mem_singleton.1 ht
      exact ⟨i, j, ok, rest, rfl, hpc, rfl⟩
    | found | saved => cases ht
  | finding | saving | savingFailed | ended => cases ht

theorem mem_completes {action : RelayAction} (h : flush ∈ S.completes action) :
    ∃ i j answer pc, action = .answer i j answer ∧ flush = (i, j) ∧ S.pc (i, j) = some pc ∧
      flush ∈ S.begun ∧ pc.completes answer = true := by
  obtain ⟨i, j, answer, pc, rfl, hpc, hmem⟩ := mem_answered h
  split at hmem
  · next hends =>
    obtain rfl := List.mem_singleton.1 hmem
    exact ⟨i, j, answer, pc, rfl, rfl, hpc, hends.1, hends.2⟩
  · cases hmem

/-- The tries of a flush, once a call of it has been answered. -/
theorem triesOf_answer {i j : ℕ} {answer : FlushAnswer} {pc : FlushPc}
    (hs : (watch batchSize).step S label = some S') (haction : label.action = .answer i j answer)
    (hpc : S.pc (i, j) = some pc) :
    S'.triesOf (i, j) = S.triesOf (i, j) ++ pc.tries (i, j) answer := by
  obtain ⟨-, -, relay, -, rfl⟩ := step_effect hs
  have hall : ∀ t ∈ pc.tries (i, j) answer, t.flush = (i, j) := by
    intro t ht
    cases pc <;> cases answer <;> simp_all [FlushPc.tries]
  have hshare :
      Shares.share Try.flush (i, j) (pc.tries (i, j) answer) = pc.tries (i, j) answer :=
    List.filter_eq_self.2 fun t ht => by simpa using hall t ht
  simp only [triesOf, after, haction, answered_eq hpc, Shares.share_append, hshare]

/-- A step that is not the end of a `publish` of the flush adds nothing to its tries. -/
theorem triesOf_cases (hs : (watch batchSize).step S label = some S') (flush : ℕ × ℕ) :
    S'.triesOf flush = S.triesOf flush ∨ ∃ event rest ok,
      label.action = .answer flush.1 flush.2 (.published ok) ∧
      S.pc flush = some (.publishing event rest) := by
  obtain ⟨-, -, relay, -, rfl⟩ := step_effect hs
  cases hnew : Shares.share Try.flush flush (S.answered FlushPc.tries label.action) with
  | nil => exact Or.inl (by simp [triesOf, after, Shares.share_append, hnew])
  | cons t l =>
    obtain ⟨ht, rfl⟩ := Shares.mem_share.1 (hnew ▸ List.mem_cons_self)
    obtain ⟨i, j, ok, rest, haction, hpc, ht⟩ := mem_tries ht
    have hflush : t.flush = (i, j) := by rw [ht]
    rw [hflush]
    exact Or.inr ⟨t.event, rest, ok, haction, hpc⟩

/-- Where a flush comes from. -/
theorem pc_cases {pc' : FlushPc} (hs : (watch batchSize).step S label = some S')
    (hpc : S'.pc flush = some pc') :
    (S.pc flush = some pc' ∧ S'.triesOf flush = S.triesOf flush) ∨
    (flush ∈ label.action.begins ∧ (pc' = .finding ∨ pc' = .ended)) ∨
    ∃ answer pc rows logged, label.action = .answer flush.1 flush.2 answer ∧
      S.pc flush = some pc ∧
      FlushPc.Effect batchSize label.now S.relay.rows pc answer rows logged pc' := by
  have hs' := hs
  obtain ⟨-, -, relay, heff, rfl⟩ := step_effect hs
  rcases heff.flush_cases hpc with ⟨hold, hother⟩ | ⟨haction, hpc'⟩ |
    ⟨answer, pc, rows, logged, haction, hold, heff⟩
  · refine Or.inl ⟨hold, (triesOf_cases hs' flush).resolve_right ?_⟩
    rintro ⟨event, rest, ok, haction, -⟩
    exact hother _ haction
  · exact Or.inr (Or.inl ⟨by simp [haction, RelayAction.begins], hpc'⟩)
  · exact Or.inr (Or.inr ⟨answer, pc, rows, logged, haction, hold, heff⟩)

/-- What a flush awaits once its call has been answered. -/
theorem answer_effect {i j : ℕ} {answer : FlushAnswer} {pc : FlushPc}
    (hs : (watch batchSize).step S label = some S') (haction : label.action = .answer i j answer)
    (hpc : S.pc (i, j) = some pc) : ∃ pc' rows logged, S'.pc (i, j) = some pc' ∧
      FlushPc.Effect batchSize label.now S.relay.rows pc answer rows logged pc' := by
  obtain ⟨-, -, relay, heff, rfl⟩ := step_effect hs
  rw [haction] at heff
  cases heff with
  | answer _ _ _ pc'' pc' rows logged hold heff =>
    obtain rfl : pc = pc'' := Option.some.inj (hpc.symm.trans hold)
    refine ⟨pc', rows, logged, ?_, heff⟩
    simp [Watch.pc, after, Relay.setWorker, OutboxWorker.set]

theorem mem_begun_step (hs : (watch batchSize).step S label = some S') (h : flush ∈ S'.begun) :
    flush ∈ S.begun ∨ flush ∈ label.action.begins := by
  obtain ⟨-, -, relay, -, rfl⟩ := step_effect hs
  exact List.mem_append.1 h

theorem mem_completed_step (hs : (watch batchSize).step S label = some S')
    (h : flush ∈ S'.completed) : flush ∈ S.completed ∨ flush ∈ S.completes label.action := by
  obtain ⟨-, -, relay, -, rfl⟩ := step_effect hs
  exact List.mem_append.1 h

/-- The bookkeeping: a number is used once, and a flush is completed once and then ended. -/
structure Numbered (S : Watch) : Prop where
  clock : S.since ≤ S.clock
  pc : ∀ flush pc, S.pc flush = some pc → ¬ S.New flush
  tries : ∀ t ∈ S.tries, ¬ S.New t.flush
  completed : ∀ flush ∈ S.completed,
    flush ∈ S.begun ∧ ∀ pc, S.pc flush = some pc → pc = .ended
  nodup : S.completed.Nodup

theorem New.of_after {relay : Relay} (h : (S.after label relay).New flush) : S.New flush :=
  ⟨fun hin => h.1 (List.mem_append_left _ hin), h.2⟩

theorem Numbered.step (h : S.Numbered) (hs : (watch batchSize).step S label = some S') :
    S'.Numbered := by
  obtain ⟨hnow, hnew, relay, heff, rfl⟩ := step_effect hs
  refine ⟨h.clock.trans hnow, fun flush pc' hpc' => ?_, fun t ht => ?_, fun flush hdone => ?_, ?_⟩
  · rcases pc_cases hs hpc' with ⟨hold, -⟩ | ⟨hbegins, -⟩ | ⟨answer, pc, -, -, -, hold, -⟩
    · exact fun h' => h.pc flush _ hold h'.of_after
    · exact fun h' => h'.1 (List.mem_append_right _ hbegins)
    · exact fun h' => h.pc flush pc hold h'.of_after
  · rcases List.mem_append.1 ht with ht | ht
    · exact fun h' => h.tries t ht h'.of_after
    · obtain ⟨i, j, ok, rest, -, hpc, ht⟩ := mem_tries ht
      have hflush : t.flush = (i, j) := by rw [ht]
      rw [hflush]
      exact fun h' => h.pc _ _ hpc h'.of_after
  · rcases List.mem_append.1 hdone with hdone | hdone
    · obtain ⟨hbegun, hended⟩ := h.completed flush hdone
      refine ⟨List.mem_append_left _ hbegun, fun pc' hpc' => ?_⟩
      rcases pc_cases hs hpc' with ⟨hold, -⟩ | ⟨hbegins, -⟩ | ⟨answer, pc, _, _, -, hold, heff⟩
      · exact hended pc' hold
      · exact absurd hbegun (hnew flush hbegins).1
      · exact absurd (hended pc hold) heff.pc_ne_ended
    · obtain ⟨i, j, answer, pc, haction, rfl, hpc, hbegun, hcompletes⟩ := mem_completes hdone
      obtain ⟨pc', rows, logged, hpc', heff⟩ := answer_effect hs haction hpc
      obtain rfl := heff.ended_of_completes hcompletes
      exact ⟨List.mem_append_left _ hbegun, fun pc'' h => Option.some.inj (h.symm.trans hpc')⟩
  · refine List.nodup_append.2 ⟨h.nodup, ?_, ?_⟩
    · cases hlabel : label.action with
      | answer i j answer =>
        cases hpc : S.pc (i, j) with
        | none => simp [completes, answered, show (S.relay.workers i).flushes j = none from hpc]
        | some pc =>
          rw [completes, answered_eq hpc]
          split <;> simp
      | enqueue | flush | crash => exact List.nodup_nil
    · rintro flush hdone _ hdone' rfl
      obtain ⟨i, j, answer, pc, -, rfl, hpc, -, hcompletes⟩ := mem_completes hdone'
      rw [(h.completed _ hdone).2 pc hpc] at hcompletes
      cases answer <;> cases hcompletes

theorem numbered_of_run {ts : List WatchMove} (hrun : (watch batchSize).Run ts S) :
    S.Numbered := by
  refine hrun.invariant ?_ fun S label S' h hs => h.step hs
  rintro S ⟨-, hrelay, hclock, hbegun, hcompleted, htries⟩
  refine ⟨hclock.ge, fun flush pc hpc hnew => ?_, by simp [htries], by simp [hcompleted], ?_⟩
  · have hnone := hnew.2
    rw [← hrelay] at hnone
    rw [show (S.relay.workers flush.1).flushes flush.2 = some pc from hpc] at hnone
    cases hnone
  · simp [hcompleted]

/-- The row is where it was, nobody saves it, and every flush that has begun passes it over at
the price of a full batch. -/
structure Passing (batchSize : ℕ) (r : OutboxRow) (S : Watch) : Prop where
  row : r ∈ S.relay.rows
  free : ∀ flush pc e, S.pc flush = some pc → pc.held = some e → e.id ≠ r.id
  rounds : ∀ flush pc, S.pc flush = some pc → flush ∈ S.begun →
    pc.Round batchSize r (S.triesOf flush)
  completed : ∀ flush ∈ S.completed, Full batchSize r (S.triesOf flush)

theorem Untried.of_step {id : Uuid} (h : S'.Untried id)
    (hs : (watch batchSize).step S label = some S') : S.Untried id := by
  obtain ⟨-, -, relay, -, rfl⟩ := step_effect hs
  exact fun t ht => h t (List.mem_append_left _ ht)

/-- The call of `publish` that an answer ends is one of the tries. -/
theorem Untried.answered {id : Uuid} {i j : ℕ} {answer : FlushAnswer} {pc : FlushPc}
    (h : S'.Untried id) (hs : (watch batchSize).step S label = some S')
    (haction : label.action = .answer i j answer) (hpc : S.pc (i, j) = some pc) :
    ∀ t ∈ pc.tries (i, j) answer, t.event.id ≠ id := by
  obtain ⟨-, -, relay, -, rfl⟩ := step_effect hs
  intro t ht
  apply h t
  apply List.mem_append_right
  rw [haction, answered_eq hpc]
  exact ht

/-- No row is deleted, and none is written that is not held. -/
theorem mem_rows_step {x : OutboxRow} (hs : (watch batchSize).step S label = some S')
    (hx : x ∈ S.relay.rows)
    (hfree : ∀ flush pc e, S.pc flush = some pc → pc.held = some e → e.id ≠ x.id) :
    x ∈ S'.relay.rows := by
  obtain ⟨-, -, relay, heff, rfl⟩ := step_effect hs
  show x ∈ relay.rows
  rcases heff.rows_cases with ⟨new, -, hrows⟩ | hrows | ⟨i, j, pc, e, outcome, hpc, he, hrows⟩
  · exact hrows ▸ List.mem_append_left _ hx
  · exact hrows ▸ hx
  · rw [hrows]
    have hne : x.id ≠ e.id := (hfree (i, j) pc e hpc he).symm
    cases outcome with
    | failed => exact hx
    | stored | storedThenFailed => exact Table.mem_save_of_ne hx hne

theorem Passing.step (hnumbered : S.Numbered) (h : S.Passing batchSize r) (hdue : r.Due S.since)
    (hs : (watch batchSize).step S label = some S') (huntried : S'.Untried r.id) :
    S'.Passing batchSize r := by
  have hnow : r.Due label.now :=
    ⟨hdue.1, hdue.2.trans (hnumbered.clock.trans (step_effect hs).1)⟩
  have hnew := (step_effect hs).2.1
  refine ⟨mem_rows_step hs h.row h.free, fun flush pc' e hpc' he => ?_,
    fun flush pc' hpc' hbegun => ?_, fun flush hdone => ?_⟩
  · rcases pc_cases hs hpc' with ⟨hold, -⟩ | ⟨-, rfl | rfl⟩ |
      ⟨answer, pc, rows, logged, haction, hold, heff⟩
    · exact h.free flush pc' e hold he
    · cases he
    · cases he
    · rcases heff.held_cases flush he with ⟨e', he', hid⟩ | ⟨t, ht, hid⟩
      · exact hid ▸ h.free flush pc e' hold he'
      · exact hid ▸ huntried.answered hs haction hold t ht
  · rcases mem_begun_step hs hbegun with hbegun | hbegins
    · rcases pc_cases hs hpc' with ⟨hold, htries⟩ | ⟨hbegins, -⟩ |
        ⟨answer, pc, rows, logged, haction, hold, heff⟩
      · exact htries ▸ h.rounds flush pc' hold hbegun
      · exact absurd hbegun (hnew flush hbegins).1
      · rw [triesOf_answer hs haction hold]
        have hother := huntried.answered hs haction hold
        exact (heff.round h.row hnow hother (h.rounds flush pc hold hbegun)).1
    · -- a new number has no tries yet
      have hnone : S.pc flush = none := by
        rw [Option.eq_none_iff_forall_ne_some]
        exact fun pc hpc => hnumbered.pc flush pc hpc (hnew flush hbegins)
      rcases pc_cases hs hpc' with ⟨hold, -⟩ | ⟨-, rfl | rfl⟩ | ⟨-, pc, -, -, -, hold, -⟩
      · simp [hnone] at hold
      · rcases triesOf_cases hs flush with hsame | ⟨event, rest, -, -, hpc⟩
        · refine hsame.trans (Shares.share_nil_iff.2 fun t ht hflush => ?_)
          exact hnumbered.tries t ht (hflush ▸ hnew flush hbegins)
        · simp [hnone] at hpc
      · trivial
      · simp [hnone] at hold
  · rcases mem_completed_step hs hdone with hdone | hdone
    · rcases triesOf_cases hs flush with hsame | ⟨event, rest, -, -, hpc⟩
      · exact hsame ▸ h.completed flush hdone
      · cases (hnumbered.completed flush hdone).2 _ hpc
    · obtain ⟨i, j, answer, pc, haction, rfl, hpc, hbegun, hcompletes⟩ := mem_completes hdone
      obtain ⟨pc', rows, logged, hpc', heff⟩ := answer_effect hs haction hpc
      rw [triesOf_answer hs haction hpc]
      have hother := huntried.answered hs haction hpc
      exact (heff.round h.row hnow hother (h.rounds _ pc hpc hbegun)).2 hcompletes

/-- Full batches, one for each completed flush, are that many tries. -/
theorem Passing.length_le (h : S.Passing batchSize r) (hnumbered : S.Numbered) :
    S.completed.length * batchSize ≤
      (S.tries.filter fun t => decide (t.event.CreatedBefore r)).length := by
  refine Shares.mul_length_le Try.flush hnumbered.nodup fun flush hdone => ?_
  obtain ⟨hlength, hbefore⟩ := h.completed flush hdone
  have hsame : Shares.share Try.flush flush (S.tries.filter fun t => decide
      (t.event.CreatedBefore r)) = S.triesOf flush := by
    unfold triesOf Shares.share
    rw [List.filter_filter]
    refine List.filter_congr fun t ht => ?_
    by_cases hflush : t.flush = flush
    · simp [hflush, hbefore t (Shares.mem_share.2 ⟨ht, hflush⟩)]
    · simp [hflush]
  rw [hsame, hlength]

theorem passing_of_run {ts : List WatchMove} (hrun : (watch batchSize).Run ts S)
    (hr : S.Waiting r) (huntried : S.Untried r.id) : S.Passing batchSize r := by
  induction hrun with
  | nil hinit =>
    obtain ⟨-, hrelay, -, hbegun, hcompleted, -⟩ := hinit
    refine ⟨hrelay ▸ hr.row, fun flush pc e hpc he => ?_, ?_, ?_⟩
    · exact hr.free flush.1 flush.2 pc e (hrelay ▸ hpc) he
    · simp [hbegun]
    · simp [hcompleted]
  | @snoc ts S S' label hrun hs ih =>
    obtain ⟨hstart, hsince⟩ := step_start hs
    have hr' : S.Waiting r := by
      obtain ⟨hrow, hdue, hfree⟩ := hr
      rw [hstart] at hrow hfree
      exact ⟨hrow, hsince ▸ hdue, hfree⟩
    exact (ih hr' (huntried.of_step hs)).step (numbered_of_run hrun) hr'.due hs huntried

end Watch

/-- Whatever the processes do, crash or fail at: a row that is due and has not been tried has
been passed over by full batches only, of rows created no later. -/
theorem passedOver_of_run {batchSize : ℕ} {ts : List WatchMove} {S : Watch} {r : OutboxRow}
    (hrun : (watch batchSize).Run ts S) (hr : S.Waiting r) (huntried : S.Untried r.id) :
    (∀ flush ∈ S.completed, Watch.Full batchSize r (S.triesOf flush)) ∧
    S.completed.length * batchSize ≤
      (S.tries.filter fun t => decide (t.event.CreatedBefore r)).length := by
  have hpassing := Watch.passing_of_run hrun hr huntried
  exact ⟨hpassing.completed, hpassing.length_le (Watch.numbered_of_run hrun)⟩

section Runs

/-- A row that cannot be published, and one created after it. -/
def poisonRow : OutboxRow :=
  .pending "event-1" .dispatchStarted .orderEvents [] "corr-1" 1000

def waitingRow : OutboxRow :=
  .pending "event-2" .dispatchStarted .orderEvents [] "corr-2" 1001

def stocked : Relay := ⟨[poisonRow, waitingRow], [], fun _ => .started⟩

theorem stocked_reachable : (relaySystem 1).Reachable stocked := by
  have hreplay : (relaySystem 1).replay emptyRelay [⟨1001, .enqueue [poisonRow, waitingRow]⟩] =
      some stocked := rfl
  exact ⟨_, .of_replay ⟨rfl, rfl, fun _ => rfl⟩ hreplay⟩

def watched : Watch := ⟨stocked, 2000, stocked, 2000, [], [], []⟩

theorem watched_init : (watch 1).init watched :=
  ⟨stocked_reachable, rfl, rfl, rfl, rfl, rfl⟩

/-- The second process crashes with the older row in its memory; the first one tries it. -/
def passingRun : List RelayLabel :=
  [⟨2000, .flush 1 0⟩, ⟨2000, .answer 1 0 (.found (some [poisonRow]))⟩, ⟨2005, .flush 0 0⟩,
    ⟨2005, .answer 0 0 (.found (some [poisonRow]))⟩, ⟨2008, .crash 1⟩,
    ⟨2010, .answer 0 0 (.published false)⟩, ⟨2020, .answer 0 0 (.saved .stored)⟩]

theorem passedOver_passingRun : ∃ S, (watch 1).replay watched passingRun = some S ∧
    S.completed = [(0, 0)] ∧
    S.completed.length * 1 ≤
      (S.tries.filter fun t => decide (t.event.CreatedBefore waitingRow)).length := by
  have hrun : (watch 1).Run ((watch 1).moves watched passingRun) _ :=
    .of_replay watched_init rfl
  exact ⟨_, rfl, rfl, (passedOver_of_run hrun
    ⟨by decide, by decide, fun _ _ _ _ h => by cases h⟩ (by decide)).2⟩

end Runs

end RouteFast
