import RouteFast.Base.Least
import RouteFast.Base.Run
import RouteFast.Reliability.Event

/-! The outbox worker. Any number of processes poll one `outbox_events` table; each of their
flushes is kept as the call it awaits, so that calls end in any order and in any way. A row is
saved from the memory of the flush that found it, which may be stale by then. -/

namespace RouteFast

open Transition

namespace OutboxRow

/-- What the `try` does to the row in memory, once it has been published. -/
def markPublished (now : Date) (event : OutboxRow) : OutboxRow :=
  { event with
    status := .published
    publishedAt := some now
    attempts := event.attempts + 1 }

/-- `Math.min(30_000, 500 * 2 ** Math.min(attempts, 6))` -/
def delayMs (attempts : ℕ) : ℕ := min 30000 (500 * 2 ^ min attempts 6)

/-- What the `catch` does to the row in memory. -/
def backOff (now : Date) (event : OutboxRow) : OutboxRow :=
  { event with
    attempts := event.attempts + 1
    availableAt := now + delayMs (event.attempts + 1) }

/-- `status: PENDING, availableAt: LessThanOrEqual(now)` -/
def Due (now : Date) (r : OutboxRow) : Prop := r.status = .pending ∧ r.availableAt ≤ now

instance (now : Date) : DecidablePred (Due now) := fun r =>
  inferInstanceAs (Decidable (r.status = .pending ∧ r.availableAt ≤ now))

/-- `order: { createdAt: 'ASC' }` -/
def CreatedBefore (a b : OutboxRow) : Prop := a.createdAt ≤ b.createdAt

instance : DecidableRel CreatedBefore := fun a b =>
  inferInstanceAs (Decidable (a.createdAt ≤ b.createdAt))

/-- A retry is due after one second at the earliest and after thirty at the latest. -/
theorem delayMs_bounds {attempts : ℕ} (h : 0 < attempts) :
    1000 ≤ delayMs attempts ∧ delayMs attempts ≤ 30000 := by
  refine ⟨le_min (by norm_num) ?_, min_le_left _ _⟩
  have hone : 1 ≤ min attempts 6 := le_min h (by norm_num)
  have hpow : 2 ^ 1 ≤ 2 ^ min attempts 6 := Nat.pow_le_pow_right (by norm_num) hone
  omega

end OutboxRow

/-- How `repository.save` ends; the row may be stored although the call threw. -/
inductive SaveOutcome where
  | stored
  | failed
  | storedThenFailed
  deriving DecidableEq

namespace SaveOutcome

/-- The table after the call. -/
def write (event : OutboxRow) (rows : List OutboxRow) : SaveOutcome → List OutboxRow
  | .stored | .storedThenFailed => Table.save OutboxRow.id event rows
  | .failed => rows

def resolves : SaveOutcome → Bool
  | .stored => true
  | .failed | .storedThenFailed => false

end SaveOutcome

/-- The call a flush awaits. `loaded` is the row of the loop as the query found it, kept for
comparison only. -/
inductive FlushPc where
  | finding
  | publishing (event : OutboxRow) (rest : List OutboxRow)
  /-- The `save` of the `try`. -/
  | saving (loaded event : OutboxRow) (rest : List OutboxRow)
  /-- The `save` of the `catch`. -/
  | savingFailed (loaded event : OutboxRow) (failedAt : Date) (rest : List OutboxRow)
  | ended
  deriving DecidableEq

/-- How the awaited call ends. -/
inductive FlushAnswer where
  | found (events : Option (List OutboxRow))
  | published (ok : Bool)
  | saved (outcome : SaveOutcome)

/-- The calls of `publish` that ended, oldest first, and whether they resolved. -/
abbrev PublishLog := List (Uuid × Bool)

namespace FlushPc

/-- `for (const event of events)` -/
def next : List OutboxRow → FlushPc
  | [] => .ended
  | event :: rest => .publishing event rest

/-- `OutboxWorker.flush` from one await to the next: the table, what is published, and the
call awaited then. -/
def step (batchSize : ℕ) (now : Date) (rows : List OutboxRow) :
    FlushPc → FlushAnswer → Option (List OutboxRow × PublishLog × FlushPc)
  | .finding, .found none => some (rows, [], .ended)
  | .finding, .found (some events) =>
    -- `now` is the time of the answer; the source takes its `new Date()` when it sends the query
    if Least OutboxRow.CreatedBefore batchSize (rows.filter fun r => r.Due now) events then
      some (rows, [], .next events)
    else none
  | .publishing event rest, .published true =>
    some (rows, [(event.id, true)], .saving event (event.markPublished now) rest)
  | .publishing event rest, .published false =>
    some (rows, [(event.id, false)], .savingFailed event (event.backOff now) now rest)
  | .saving loaded event rest, .saved outcome =>
    some (outcome.write event rows, [],
      if outcome.resolves then .next rest
      else .savingFailed loaded (event.backOff now) now rest)
  | .savingFailed _ event _ rest, .saved outcome =>
    some (outcome.write event rows, [], if outcome.resolves then .next rest else .ended)
  | _, _ => none

/-- The rows the flush holds in memory. -/
def memory : FlushPc → List OutboxRow
  | .publishing event rest | .saving _ event rest | .savingFailed _ event _ rest => event :: rest
  | .finding | .ended => []

end FlushPc

/-- One process: `this.running`, and its calls of `flush`. -/
structure OutboxWorker where
  running : Bool
  flushes : ℕ → Option FlushPc

namespace OutboxWorker

/-- The flush goes on; the `finally` when it is over. -/
def set (w : OutboxWorker) (j : ℕ) (pc : FlushPc) : OutboxWorker where
  running := if pc = .ended then false else w.running
  flushes := Function.update w.flushes j (some pc)

/-- `flush()`, up to its query. -/
def flush (w : OutboxWorker) (j : ℕ) : OutboxWorker :=
  if w.running then { w with flushes := Function.update w.flushes j (some .ended) }
  else ⟨true, Function.update w.flushes j (some .finding)⟩

def started : OutboxWorker := ⟨false, fun _ => none⟩

/-- The flush has passed its guard and is not over. -/
def Active (w : OutboxWorker) (j : ℕ) : Prop := ∃ pc, w.flushes j = some pc ∧ pc ≠ .ended

end OutboxWorker

structure Relay where
  rows : List OutboxRow
  log : PublishLog
  workers : ℕ → OutboxWorker

inductive RelayAction where
  /-- A transaction commits, with the rows it inserted. -/
  | enqueue (rows : List OutboxRow)
  | flush (i j : ℕ)
  | answer (i j : ℕ) (answer : FlushAnswer)
  | crash (i : ℕ)

namespace Relay

def row (S : Relay) (id : Uuid) : Option OutboxRow := Table.find OutboxRow.id id S.rows

def setWorker (S : Relay) (i : ℕ) (w : OutboxWorker) : Relay :=
  { S with workers := Function.update S.workers i w }

def step (batchSize : ℕ) (now : Date) (S : Relay) : RelayAction → Option Relay
  | .enqueue rows =>
    if (∀ r ∈ rows, r.status = .pending) ∧ ((S.rows ++ rows).map OutboxRow.id).Nodup then
      some { S with rows := S.rows ++ rows }
    else none
  | .flush i j =>
    if ((S.workers i).flushes j).isNone then some (S.setWorker i ((S.workers i).flush j)) else none
  | .answer i j answer =>
    ((S.workers i).flushes j).bind fun pc =>
      (pc.step batchSize now S.rows answer).map fun (rows, published, pc') =>
        ({ S with
          rows := rows
          log := S.log ++ published } : Relay).setWorker i ((S.workers i).set j pc')
  | .crash i => some (S.setWorker i .started)

end Relay

/-- A step and the time it is taken at, by the clock of whoever takes it. -/
structure RelayLabel where
  now : Date
  action : RelayAction

def relaySystem (batchSize : ℕ) : System Relay RelayLabel where
  init S := S.rows = [] ∧ S.log = [] ∧ ∀ i, S.workers i = .started
  step S label := S.step batchSize label.now label.action

abbrev RelayMove := Move Relay RelayLabel

/-- No row goes, no row is PUBLISHED that was not, flushes of one process exclude each other,
and a failed attempt is put off by one to thirty seconds. -/
structure NeverLost (t : RelayMove) : Prop where
  kept : ∀ id, t.pre.row id ≠ none → t.post.row id ≠ none
  published : ∀ r ∈ t.post.rows, r.status = .published → (r.id, true) ∈ t.post.log
  alone : ∀ i j k, (t.post.workers i).Active j → (t.post.workers i).Active k → j = k
  running : ∀ i, (t.post.workers i).running ↔ ∃ j, (t.post.workers i).Active j
  retried : ∀ i j loaded event failedAt rest,
    t.label.action = .answer i j (.saved .stored) →
    (t.pre.workers i).flushes j = some (.savingFailed loaded event failedAt rest) →
    ∃ r, t.post.row loaded.id = some r ∧ loaded.attempts < r.attempts ∧
      failedAt + 1000 ≤ r.availableAt ∧ r.availableAt ≤ failedAt + 30000

/-- A PUBLISHED row has been published. -/
def Recorded (log : PublishLog) (r : OutboxRow) : Prop :=
  r.status = .published → (r.id, true) ∈ log

namespace FlushPc

variable {batchSize : ℕ} {now : Date} {rows rows' : List OutboxRow} {log logged : PublishLog}
  {pc pc' : FlushPc} {answer : FlushAnswer}

/-- Everything the end of an awaited call can lead to. -/
inductive Effect (batchSize : ℕ) (now : Date) (rows : List OutboxRow) :
    FlushPc → FlushAnswer → List OutboxRow → PublishLog → FlushPc → Prop
  | findFailed : Effect batchSize now rows .finding (.found none) rows [] .ended
  | found (events : List OutboxRow) :
      Least OutboxRow.CreatedBefore batchSize (rows.filter fun r => r.Due now) events →
      Effect batchSize now rows .finding (.found (some events)) rows [] (.next events)
  | published (event : OutboxRow) (rest : List OutboxRow) :
      Effect batchSize now rows (.publishing event rest) (.published true) rows [(event.id, true)]
        (.saving event (event.markPublished now) rest)
  | publishFailed (event : OutboxRow) (rest : List OutboxRow) :
      Effect batchSize now rows (.publishing event rest) (.published false) rows
        [(event.id, false)] (.savingFailed event (event.backOff now) now rest)
  | saved (loaded event : OutboxRow) (rest : List OutboxRow) (outcome : SaveOutcome) :
      outcome.resolves = true →
      Effect batchSize now rows (.saving loaded event rest) (.saved outcome)
        (outcome.write event rows) [] (.next rest)
  | saveFailed (loaded event : OutboxRow) (rest : List OutboxRow) (outcome : SaveOutcome) :
      outcome.resolves = false →
      Effect batchSize now rows (.saving loaded event rest) (.saved outcome)
        (outcome.write event rows) [] (.savingFailed loaded (event.backOff now) now rest)
  | putOff (loaded event : OutboxRow) (failedAt : Date) (rest : List OutboxRow)
      (outcome : SaveOutcome) : outcome.resolves = true →
      Effect batchSize now rows (.savingFailed loaded event failedAt rest) (.saved outcome)
        (outcome.write event rows) [] (.next rest)
  | rejected (loaded event : OutboxRow) (failedAt : Date) (rest : List OutboxRow)
      (outcome : SaveOutcome) : outcome.resolves = false →
      Effect batchSize now rows (.savingFailed loaded event failedAt rest) (.saved outcome)
        (outcome.write event rows) [] .ended

theorem step_effect (h : pc.step batchSize now rows answer = some (rows', logged, pc')) :
    Effect batchSize now rows pc answer rows' logged pc' := by
  cases pc with
  | finding =>
    cases answer with
    | found events =>
      cases events with
      | none =>
        obtain ⟨rfl, rfl, rfl⟩ : rows = rows' ∧ [] = logged ∧ .ended = pc' := by simpa [step] using h
        exact .findFailed
      | some events =>
        simp only [step] at h
        split at h
        · next hleast =>
          obtain ⟨rfl, rfl, rfl⟩ : rows = rows' ∧ [] = logged ∧ next events = pc' := by
            simpa using h
          exact .found events hleast
        · cases h
    | published | saved => cases h
  | publishing event rest =>
    cases answer with
    | published ok =>
      cases ok with
      | true =>
        obtain ⟨rfl, rfl, rfl⟩ : rows = rows' ∧ _ = logged ∧ _ = pc' := by simpa [step] using h
        exact .published event rest
      | false =>
        obtain ⟨rfl, rfl, rfl⟩ : rows = rows' ∧ _ = logged ∧ _ = pc' := by simpa [step] using h
        exact .publishFailed event rest
    | found | saved => cases h
  | saving loaded event rest =>
    cases answer with
    | saved outcome =>
      cases hok : outcome.resolves with
      | true =>
        obtain ⟨rfl, rfl, rfl⟩ : _ = rows' ∧ [] = logged ∧ _ = pc' := by simpa [step, hok] using h
        exact .saved loaded event rest outcome hok
      | false =>
        obtain ⟨rfl, rfl, rfl⟩ : _ = rows' ∧ [] = logged ∧ _ = pc' := by simpa [step, hok] using h
        exact .saveFailed loaded event rest outcome hok
    | found | published => cases h
  | savingFailed loaded event failedAt rest =>
    cases answer with
    | saved outcome =>
      cases hok : outcome.resolves with
      | true =>
        obtain ⟨rfl, rfl, rfl⟩ : _ = rows' ∧ [] = logged ∧ _ = pc' := by simpa [step, hok] using h
        exact .putOff loaded event failedAt rest outcome hok
      | false =>
        obtain ⟨rfl, rfl, rfl⟩ : _ = rows' ∧ [] = logged ∧ _ = pc' := by simpa [step, hok] using h
        exact .rejected loaded event failedAt rest outcome hok
    | found | published => cases h
  | ended => cases h

theorem memory_next (events : List OutboxRow) : (next events).memory = events := by
  cases events <;> rfl

/-- The row of an attempt that failed at `failedAt`, against the row that was loaded. -/
structure PutOff (loaded event : OutboxRow) (failedAt : Date) : Prop where
  id : event.id = loaded.id
  attempts : loaded.attempts < event.attempts
  after : failedAt + 1000 ≤ event.availableAt
  before : event.availableAt ≤ failedAt + 30000

theorem putOff_backOff {loaded event : OutboxRow} (hid : event.id = loaded.id)
    (hattempts : loaded.attempts ≤ event.attempts) : PutOff loaded (event.backOff now) now := by
  obtain ⟨hlow, hhigh⟩ := OutboxRow.delayMs_bounds (Nat.succ_pos event.attempts)
  exact ⟨hid, Nat.lt_succ_of_le hattempts, Nat.add_le_add_left hlow now,
    Nat.add_le_add_left hhigh now⟩

/-- What a flush holds in memory is true, as far as the log goes. -/
structure Sound (log : PublishLog) (pc : FlushPc) : Prop where
  memory : ∀ r ∈ pc.memory, Recorded log r
  saving : ∀ loaded event rest, pc = .saving loaded event rest →
    event.id = loaded.id ∧ loaded.attempts ≤ event.attempts
  savingFailed : ∀ loaded event failedAt rest, pc = .savingFailed loaded event failedAt rest →
    PutOff loaded event failedAt

theorem sound_ended : Sound log .ended where
  memory r hr := by cases hr
  saving _ _ _ h := by cases h
  savingFailed _ _ _ _ h := by cases h

theorem sound_finding : Sound log .finding where
  memory r hr := by cases hr
  saving _ _ _ h := by cases h
  savingFailed _ _ _ _ h := by cases h

theorem sound_next {events : List OutboxRow} (h : ∀ r ∈ events, Recorded log r) :
    Sound log (next events) := by
  refine ⟨by rwa [memory_next], fun _ _ _ h => ?_, fun _ _ _ _ h => ?_⟩ <;>
    cases events <;> cases h

theorem Sound.mono (h : Sound log pc) (logged : PublishLog) : Sound (log ++ logged) pc :=
  ⟨fun r hr hp => List.mem_append_left _ (h.memory r hr hp), h.saving, h.savingFailed⟩

/-- A saved row is the one in memory; the others are those of the table. -/
theorem recorded_write {event : OutboxRow} (outcome : SaveOutcome)
    (hrows : ∀ r ∈ rows, Recorded log r) (hevent : Recorded log event) :
    ∀ r ∈ outcome.write event rows, Recorded log r := by
  intro r hr
  cases outcome with
  | failed => exact hrows r hr
  | stored | storedThenFailed =>
    rcases Table.mem_of_mem_save hr with rfl | hr
    · exact hevent
    · exact hrows r hr

theorem Effect.sound (h : Effect batchSize now rows pc answer rows' logged pc')
    (hrows : ∀ r ∈ rows, Recorded log r) (hpc : Sound log pc) :
    (∀ r ∈ rows', Recorded (log ++ logged) r) ∧ Sound (log ++ logged) pc' := by
  have hkept : ∀ logged, ∀ r ∈ rows, Recorded (log ++ logged) r :=
    fun logged r hr hp => List.mem_append_left _ (hrows r hr hp)
  cases h with
  | findFailed => exact ⟨hkept [], sound_ended⟩
  | found events hleast =>
    exact ⟨hkept [], sound_next fun r hr => hkept [] r (List.mem_of_mem_filter (hleast.mem hr))⟩
  | published event rest =>
    refine ⟨hkept _, fun r hr hp => ?_, ?_, fun _ _ _ _ h => FlushPc.noConfusion h⟩
    · rcases List.mem_cons.1 hr with rfl | hr
      · exact List.mem_append_right _ List.mem_cons_self
      · exact List.mem_append_left _ (hpc.memory r (List.mem_cons_of_mem _ hr) hp)
    · rintro loaded event' rest' h
      obtain ⟨rfl, rfl, rfl⟩ := FlushPc.saving.inj h
      exact ⟨rfl, Nat.le_succ _⟩
  | publishFailed event rest =>
    refine ⟨hkept _, fun r hr hp => ?_, fun _ _ _ h => FlushPc.noConfusion h, ?_⟩
    · refine List.mem_append_left _ ?_
      rcases List.mem_cons.1 hr with rfl | hr
      · exact hpc.memory event List.mem_cons_self hp
      · exact hpc.memory r (List.mem_cons_of_mem _ hr) hp
    · rintro loaded event' failedAt rest' h
      obtain ⟨rfl, rfl, rfl, rfl⟩ := FlushPc.savingFailed.inj h
      exact putOff_backOff rfl le_rfl
  | saved loaded event rest outcome =>
    rw [List.append_nil]
    have hevent := hpc.memory event List.mem_cons_self
    exact ⟨recorded_write outcome hrows hevent,
      sound_next fun r hr => hpc.memory r (List.mem_cons_of_mem _ hr)⟩
  | saveFailed loaded event rest outcome =>
    rw [List.append_nil]
    have hevent := hpc.memory event List.mem_cons_self
    refine ⟨recorded_write outcome hrows hevent, fun r hr => ?_,
      fun _ _ _ h => FlushPc.noConfusion h, ?_⟩
    · rcases List.mem_cons.1 hr with rfl | hr
      · exact hevent
      · exact hpc.memory r (List.mem_cons_of_mem _ hr)
    · rintro loaded' event' failedAt rest' h
      obtain ⟨rfl, rfl, rfl, rfl⟩ := FlushPc.savingFailed.inj h
      obtain ⟨hid, hattempts⟩ := hpc.saving _ _ _ rfl
      exact putOff_backOff hid hattempts
  | putOff loaded event failedAt rest outcome =>
    rw [List.append_nil]
    have hevent := hpc.memory event List.mem_cons_self
    exact ⟨recorded_write outcome hrows hevent,
      sound_next fun r hr => hpc.memory r (List.mem_cons_of_mem _ hr)⟩
  | rejected loaded event failedAt rest outcome =>
    rw [List.append_nil]
    have hevent := hpc.memory event List.mem_cons_self
    exact ⟨recorded_write outcome hrows hevent, sound_ended⟩

/-- No answer takes a row away. -/
theorem Effect.kept (h : Effect batchSize now rows pc answer rows' logged pc') {id : Uuid}
    (hrow : Table.find OutboxRow.id id rows ≠ none) : Table.find OutboxRow.id id rows' ≠ none := by
  have hwrite (event : OutboxRow) (outcome : SaveOutcome) :
      Table.find OutboxRow.id id (outcome.write event rows) ≠ none := by
    cases outcome with
    | failed => exact hrow
    | stored | storedThenFailed =>
      simp only [SaveOutcome.write, Table.find_save]
      split
      · simp
      · exact hrow
  cases h with
  | findFailed | found | published | publishFailed => exact hrow
  | saved loaded event rest outcome => exact hwrite event outcome
  | saveFailed loaded event rest outcome => exact hwrite event outcome
  | putOff loaded event failedAt rest outcome => exact hwrite event outcome
  | rejected loaded event failedAt rest outcome => exact hwrite event outcome

theorem Effect.pc_ne_ended (h : Effect batchSize now rows pc answer rows' logged pc') :
    pc ≠ .ended := by
  cases h <;> simp

end FlushPc

namespace OutboxWorker

variable {w : OutboxWorker} {log : PublishLog} {j : ℕ} {pc pc' : FlushPc}

/-- One flush at a time, and `running` says whether there is one. -/
structure Sound (log : PublishLog) (w : OutboxWorker) : Prop where
  flushes : ∀ j pc, w.flushes j = some pc → pc.Sound log
  alone : ∀ j k, w.Active j → w.Active k → j = k
  running : w.running ↔ ∃ j, w.Active j

theorem sound_started : Sound log started := by
  have hnone (j : ℕ) : ¬ started.Active j := by
    rintro ⟨pc, hpc, -⟩
    cases hpc
  refine ⟨fun j pc hpc => ?_, fun j k hj => absurd hj (hnone j), ?_⟩
  · cases hpc
  · exact iff_of_false Bool.false_ne_true fun ⟨j, hj⟩ => hnone j hj

theorem Sound.mono (h : w.Sound log) (logged : PublishLog) : w.Sound (log ++ logged) :=
  ⟨fun j pc hpc => (h.flushes j pc hpc).mono logged, h.alone, h.running⟩

theorem active_update {flushes : ℕ → Option FlushPc} {running : Bool} {k : ℕ} :
    Active ⟨running, Function.update flushes j (some pc)⟩ k ↔
      if k = j then pc ≠ .ended else ∃ pc, flushes k = some pc ∧ pc ≠ .ended := by
  by_cases hk : k = j
  · subst hk
    simp [Active]
  · simp [Active, hk]

/-- A tick: the first flush of its process begins, and any other returns at once. -/
theorem Sound.flush (h : w.Sound log) (hnew : w.flushes j = none) : (w.flush j).Sound log := by
  have hnot : ¬ w.Active j := by
    rintro ⟨pc, hpc, -⟩
    simp [hnew] at hpc
  unfold OutboxWorker.flush
  cases hrunning : w.running with
  | true =>
    simp only [if_true]
    have hsame (k : ℕ) : Active ⟨true, Function.update w.flushes j (some .ended)⟩ k ↔
        w.Active k := by
      rw [active_update]
      split
      · next hk => simpa [hk] using hnot
      · rfl
    refine ⟨fun k pc hpc => ?_, fun k l hk hl => ?_, ?_⟩
    · by_cases hk : k = j
      · subst hk
        obtain rfl : FlushPc.ended = pc := by simpa using hpc
        exact FlushPc.sound_ended
      · exact h.flushes k pc (by simpa [hk] using hpc)
    · exact h.alone k l ((hsame k).1 hk) ((hsame l).1 hl)
    · obtain ⟨k, hk⟩ := h.running.1 hrunning
      exact ⟨fun _ => ⟨k, (hsame k).2 hk⟩, fun _ => rfl⟩
  | false =>
    have hnone (k : ℕ) : ¬ w.Active k := fun hk => by
      have hrun := h.running.2 ⟨k, hk⟩
      simp [hrunning] at hrun
    simp only [Bool.false_eq_true, if_false]
    have hsame (k : ℕ) : Active ⟨true, Function.update w.flushes j (some .finding)⟩ k ↔ k = j := by
      rw [active_update]
      split
      · next hk => simp [hk]
      · next hk => exact iff_of_false (hnone k) hk
    refine ⟨fun k pc hpc => ?_, fun k l hk hl => ?_, ?_⟩
    · by_cases hk : k = j
      · subst hk
        obtain rfl : FlushPc.finding = pc := by simpa using hpc
        exact FlushPc.sound_finding
      · exact h.flushes k pc (by simpa [hk] using hpc)
    · exact ((hsame k).1 hk).trans ((hsame l).1 hl).symm
    · exact ⟨fun _ => ⟨j, (hsame j).2 rfl⟩, fun _ => rfl⟩

/-- The flush in progress goes on, or ends and frees the process. -/
theorem Sound.set (h : w.Sound log) (hactive : w.Active j) (hpc' : pc'.Sound log) :
    (w.set j pc').Sound log := by
  have hsame (k : ℕ) : (w.set j pc').Active k ↔ k = j ∧ pc' ≠ .ended := by
    unfold OutboxWorker.set
    rw [active_update]
    split
    · next hk => simp [hk]
    · next hk => simpa [hk] using fun pc hpc hne => hk (h.alone k j ⟨pc, hpc, hne⟩ hactive)
  refine ⟨fun k pc hpc => ?_, fun k l hk hl => ?_, ?_⟩
  · by_cases hk : k = j
    · subst hk
      obtain rfl : pc' = pc := by simpa [OutboxWorker.set] using hpc
      exact hpc'
    · exact h.flushes k pc (by simpa [OutboxWorker.set, hk] using hpc)
  · exact ((hsame k).1 hk).1.trans ((hsame l).1 hl).1.symm
  · have hrunning : w.running = true := h.running.2 ⟨j, hactive⟩
    simp only [hsame, exists_eq_left]
    by_cases hover : pc' = .ended <;> simp [OutboxWorker.set, hover, hrunning]

end OutboxWorker

namespace Relay

variable {batchSize : ℕ} {now : Date} {S S' : Relay} {action : RelayAction}

/-- Everything a step of the relay can be. -/
inductive Effect (batchSize : ℕ) (now : Date) (S : Relay) : RelayAction → Relay → Prop
  | enqueue (rows : List OutboxRow) : (∀ r ∈ rows, r.status = .pending) →
      ((S.rows ++ rows).map OutboxRow.id).Nodup →
      Effect batchSize now S (.enqueue rows) { S with rows := S.rows ++ rows }
  | flush (i j : ℕ) : (S.workers i).flushes j = none →
      Effect batchSize now S (.flush i j) (S.setWorker i ((S.workers i).flush j))
  | answer (i j : ℕ) (answer : FlushAnswer) (pc pc' : FlushPc) (rows : List OutboxRow)
      (logged : PublishLog) : (S.workers i).flushes j = some pc →
      FlushPc.Effect batchSize now S.rows pc answer rows logged pc' →
      Effect batchSize now S (.answer i j answer) (({ S with
        rows := rows
        log := S.log ++ logged } : Relay).setWorker i ((S.workers i).set j pc'))
  | crash (i : ℕ) : Effect batchSize now S (.crash i) (S.setWorker i .started)

theorem step_effect (h : S.step batchSize now action = some S') :
    Effect batchSize now S action S' := by
  cases action with
  | enqueue rows =>
    simp only [step] at h
    split at h
    · next hrows =>
      obtain rfl := Option.some.inj h
      exact .enqueue rows hrows.1 hrows.2
    · cases h
  | flush i j =>
    simp only [step] at h
    split at h
    · next hnew =>
      obtain rfl := Option.some.inj h
      exact .flush i j (by simpa using hnew)
    · cases h
  | answer i j answer =>
    simp only [step, Option.bind_eq_some_iff, Option.map_eq_some_iff] at h
    obtain ⟨pc, hpc, ⟨rows, logged, pc'⟩, hstep, rfl⟩ := h
    exact .answer i j answer pc pc' rows logged hpc (FlushPc.step_effect hstep)
  | crash i =>
    obtain rfl := Option.some.inj h
    exact .crash i

/-- What holds of the table, the log and all that is in memory. -/
structure Sound (S : Relay) : Prop where
  rows : ∀ r ∈ S.rows, Recorded S.log r
  workers : ∀ i, (S.workers i).Sound S.log

theorem Sound.setWorker {w : OutboxWorker} (h : S.Sound) (i : ℕ) (hw : w.Sound S.log) :
    (S.setWorker i w).Sound := by
  refine ⟨h.rows, fun k => ?_⟩
  by_cases hk : k = i
  · subst hk
    simpa [Relay.setWorker] using hw
  · simpa [Relay.setWorker, hk] using h.workers k

theorem Sound.step (h : S.Sound) (hs : Effect batchSize now S action S') : S'.Sound := by
  cases hs with
  | enqueue rows hpending hnodup =>
    refine ⟨fun r hr hp => ?_, h.workers⟩
    rcases List.mem_append.1 hr with hr | hr
    · exact h.rows r hr hp
    · simp [hpending r hr] at hp
  | flush i j hnew => exact h.setWorker i ((h.workers i).flush hnew)
  | answer i j answer pc pc' rows logged hpc heff =>
    obtain ⟨hrows, hpc'⟩ := heff.sound h.rows ((h.workers i).flushes j pc hpc)
    have hlogged : Sound { S with
        rows := rows
        log := S.log ++ logged } := ⟨hrows, fun k => (h.workers k).mono logged⟩
    exact hlogged.setWorker i (((h.workers i).mono logged).set ⟨pc, hpc, heff.pc_ne_ended⟩ hpc')
  | crash i => exact h.setWorker i OutboxWorker.sound_started

theorem sound_of_run {ts : List RelayMove} (hrun : (relaySystem batchSize).Run ts S) : S.Sound := by
  refine hrun.invariant ?_ fun S label S' h hs => h.step (step_effect hs)
  rintro S ⟨hrows, -, hworkers⟩
  refine ⟨fun r hr => by simp [hrows] at hr, fun i => ?_⟩
  rw [hworkers i]
  exact OutboxWorker.sound_started

/-- No step deletes a row. -/
theorem Effect.kept (h : Effect batchSize now S action S') {id : Uuid} (hrow : S.row id ≠ none) :
    S'.row id ≠ none := by
  cases h with
  | enqueue rows =>
    obtain ⟨r, hr⟩ := Option.ne_none_iff_exists'.1 hrow
    have hfind : Table.find OutboxRow.id id S.rows = some r := hr
    simp [row, Table.find, List.find?_append, show S.rows.find? _ = some r from hfind]
  | flush | crash => exact hrow
  | answer i j answer pc pc' rows logged hpc heff => exact heff.kept hrow

/-- What the `save` of a `catch` leaves under the row's id, once it has succeeded. -/
theorem Effect.retried {i j : ℕ} {loaded event : OutboxRow} {failedAt : Date}
    {rest : List OutboxRow} (h : Effect batchSize now S (.answer i j (.saved .stored)) S')
    (hpc : (S.workers i).flushes j = some (.savingFailed loaded event failedAt rest)) :
    S'.row event.id = some event := by
  cases h with
  | answer _ _ _ pc pc' rows logged hpc' heff =>
    obtain rfl := Option.some.inj (hpc'.symm.trans hpc)
    cases heff with
    | putOff => exact Table.find_save_self
    | rejected _ _ _ _ _ hfailed => cases hfailed

end Relay

/-- The outbox loses nothing, in any run. -/
theorem neverLost {batchSize : ℕ} {ts : List RelayMove} {S : Relay}
    (hrun : (relaySystem batchSize).Run ts S) : ∀ t ∈ ts, NeverLost t := by
  intro t ht
  obtain ⟨l, -, hpre, hs⟩ := hrun.of_mem ht
  have hsound := Relay.sound_of_run (hpre.snoc hs)
  have heff := Relay.step_effect hs
  refine ⟨fun id => heff.kept, hsound.rows, fun i => (hsound.workers i).alone,
    fun i => (hsound.workers i).running, ?_⟩
  intro i j loaded event failedAt rest hlabel hpc
  have hputOff := (((Relay.sound_of_run hpre).workers i).flushes j _ hpc).savingFailed _ _ _ _ rfl
  rw [hlabel] at heff
  exact ⟨event, hputOff.id ▸ heff.retried hpc, hputOff.attempts, hputOff.after, hputOff.before⟩

section Runs

def emptyRelay : Relay := ⟨[], [], fun _ => .started⟩

def relayedRow : OutboxRow :=
  .pending "event-1" .dispatchStarted .orderEvents [] "corr-1" 1000

/-- Two processes publish one row. The first cannot save it, and then can; the second, whose
publish fails, saves its older copy over it. -/
def staleSave : List RelayLabel :=
  [⟨1000, .enqueue [relayedRow]⟩, ⟨1100, .flush 0 0⟩, ⟨1100, .flush 1 0⟩, ⟨1110, .flush 1 1⟩,
    ⟨1120, .answer 0 0 (.found (some [relayedRow]))⟩,
    ⟨1120, .answer 1 0 (.found (some [relayedRow]))⟩,
    ⟨1130, .answer 0 0 (.published true)⟩, ⟨1140, .answer 0 0 (.saved .failed)⟩,
    ⟨1150, .answer 0 0 (.saved .stored)⟩, ⟨1160, .answer 1 0 (.published false)⟩,
    ⟨1170, .answer 1 0 (.saved .stored)⟩]

theorem neverLost_staleSave : ∃ S, (relaySystem 25).replay emptyRelay staleSave = some S ∧
    S.log = [("event-1", true), ("event-1", false)] ∧
    (S.row "event-1").map OutboxRow.availableAt = some 2160 ∧
    ∀ t ∈ (relaySystem 25).moves emptyRelay staleSave, NeverLost t := by
  have hrun : (relaySystem 25).Run ((relaySystem 25).moves emptyRelay staleSave) _ :=
    .of_replay ⟨rfl, rfl, fun _ => rfl⟩ rfl
  exact ⟨_, rfl, rfl, rfl, neverLost hrun⟩

end Runs

end RouteFast
