import RouteFast.Dispatch.Outcome
import RouteFast.Reliability.Relay

/-! The order in which the events of one dispatch leave. Each batch is sorted by creation, but
a row whose publish failed is hidden until its retry is due, and the loop does not wait. -/

namespace RouteFast

open Transition

/-- A committed row. Moments count the steps taken before its insert and before its commit. -/
structure Enqueued where
  row : OutboxRow
  inserted : ℕ
  committed : ℕ
  deriving DecidableEq

/-- The outbox of Dispatch with its one worker, by one clock. -/
structure DispatchRelay where
  relay : Relay
  clock : Date
  moment : ℕ
  enqueued : List Enqueued

inductive DispatchAction where
  /-- A transaction commits the rows, each with the moment of its insert. -/
  | enqueue (rows : List (OutboxRow × ℕ))
  | flush (j : ℕ)
  | answer (j : ℕ) (answer : FlushAnswer)
  | crash

namespace DispatchAction

def relay : DispatchAction → RelayAction
  | .enqueue rows => .enqueue (rows.map Prod.fst)
  | .flush j => .flush 0 j
  | .answer j ended => .answer 0 j ended
  | .crash => .crash 0

/-- The rows an action commits at the moment. -/
def enqueued (moment : ℕ) : DispatchAction → List Enqueued
  | .enqueue rows => rows.map fun (row, inserted) => ⟨row, inserted, moment⟩
  | .flush _ | .answer _ _ | .crash => []

end DispatchAction

structure DispatchLabel where
  now : Date
  action : DispatchAction

/-- `availableAt: new Date()` is set before the commit. -/
def dispatchRelay (batchSize : ℕ) : System DispatchRelay DispatchLabel where
  init S := (relaySystem batchSize).init S.relay ∧ S.enqueued = []
  step S label :=
    if S.clock ≤ label.now ∧ ∀ e ∈ label.action.enqueued S.moment,
        e.inserted ≤ S.moment ∧ e.row.availableAt ≤ label.now then
      (S.relay.step batchSize label.now label.action.relay).map fun relay =>
        ⟨relay, label.now, S.moment + 1, S.enqueued ++ label.action.enqueued S.moment⟩
    else none

abbrev DispatchRelayMove := Move DispatchRelay DispatchLabel

/-- Rows of one dispatch for one queue, the one committed before the other was created. -/
def Earlier (a b : Enqueued) : Prop :=
  a.committed < b.inserted ∧ a.row.targetQueue = b.row.targetQueue ∧
    a.row.dispatch = b.row.dispatch ∧ a.row.dispatch ≠ none

/-- Of two such rows, the earlier one has its first successful publish first. -/
def InOrder (S : DispatchRelay) : Prop :=
  ∀ a ∈ S.enqueued, ∀ b ∈ S.enqueued, Earlier a b → (b.row.id, true) ∈ S.relay.log →
    S.relay.log.idxOf (a.row.id, true) < S.relay.log.idxOf (b.row.id, true)

/-- The id of the row whose successful publish the step is the end of. -/
def publishes (t : DispatchRelayMove) : Option Uuid :=
  match t.label.action with
  | .answer j (.published true) =>
    match (t.pre.relay.workers 0).flushes j with
    | some (.publishing event _) => some event.id
    | _ => none
  | _ => none

/-- The row is published, if it is, after every earlier row whose publish has failed and every
earlier row that is not ahead of it by `created_at`. -/
def RetriesFirst (t : DispatchRelayMove) : Prop :=
  ∀ a ∈ t.pre.enqueued, ∀ b ∈ t.pre.enqueued, Earlier a b → publishes t = some b.row.id →
    (a.row.id, false) ∈ t.pre.relay.log ∨ b.row.createdAt ≤ a.row.createdAt →
    (a.row.id, true) ∈ t.pre.relay.log

instance (a b : Enqueued) : Decidable (Earlier a b) :=
  inferInstanceAs (Decidable (_ ∧ _ ∧ _ ∧ _))

instance : DecidablePred RetriesFirst := fun t =>
  inferInstanceAs (Decidable (∀ a ∈ t.pre.enqueued, ∀ b ∈ t.pre.enqueued, _ → _ → _ → _))

theorem publishes_eq_some_iff {t : DispatchRelayMove} {id : Uuid} :
    publishes t = some id ↔ ∃ j event rest, t.label.action = .answer j (.published true) ∧
      (t.pre.relay.workers 0).flushes j = some (.publishing event rest) ∧ event.id = id := by
  unfold publishes
  constructor
  · intro h
    split at h
    · next j haction =>
      split at h
      · next event rest hpc => exact ⟨j, event, rest, haction, hpc, Option.some.inj h⟩
      · cases h
    · cases h
  · rintro ⟨j, event, rest, haction, hpc, rfl⟩
    simp [haction, hpc]

/-- The row's publish has been called, and has ended. -/
def Tried (log : PublishLog) (id : Uuid) : Prop := ∃ ok, (id, ok) ∈ log

theorem Tried.mono {log : PublishLog} {id : Uuid} (h : Tried log id) (logged : PublishLog) :
    Tried (log ++ logged) id := by
  obtain ⟨ok, hok⟩ := h
  exact ⟨ok, List.mem_append_left _ hok⟩

/-- A row, in the table or in memory, that has kept its id and its creation time. -/
def Known (enqueued : List Enqueued) (r : OutboxRow) : Prop :=
  ∃ e ∈ enqueued, e.row.id = r.id ∧ e.row.createdAt = r.createdAt

theorem Known.mono {enqueued : List Enqueued} {r : OutboxRow} (h : Known enqueued r)
    (new : List Enqueued) : Known (enqueued ++ new) r := by
  obtain ⟨e, he, h⟩ := h
  exact ⟨e, List.mem_append_left _ he, h⟩

namespace FlushPc

variable {batchSize moment : ℕ} {now : Date} {rows rows' : List OutboxRow}
  {log logged : PublishLog} {pc pc' : FlushPc} {answer : FlushAnswer} {enqueued : List Enqueued}

/-- The rows whose publish is still to end. -/
def queue : FlushPc → List OutboxRow
  | .publishing event rest => event :: rest
  | .saving _ _ rest | .savingFailed _ _ _ rest => rest
  | .finding | .ended => []

/-- The row whose publish has ended and which is being saved. -/
def held : FlushPc → Option OutboxRow
  | .saving _ event _ | .savingFailed _ event _ _ => some event
  | .finding | .publishing _ _ | .ended => none

theorem queue_next (events : List OutboxRow) : (next events).queue = events := by
  cases events <;> rfl

theorem held_next (events : List OutboxRow) : (next events).held = none := by
  cases events <;> rfl

/-- The queue is sorted, and lacks no row that has never been tried and belongs ahead of one of
its rows. -/
structure Orderly (enqueued : List Enqueued) (log : PublishLog) (pc : FlushPc) : Prop where
  known : ∀ r ∈ pc.memory, Known enqueued r
  tried : ∀ r, pc.held = some r → Tried log r.id
  sorted : pc.queue.Pairwise OutboxRow.CreatedBefore
  ahead : ∀ a ∈ enqueued, ∀ b ∈ enqueued, (∃ x ∈ pc.queue, x.id = b.row.id) →
    a.committed < b.inserted → ¬ Tried log a.row.id → a.row.createdAt < b.row.createdAt →
    ∃ y ∈ pc.queue, y.id = a.row.id

theorem orderly_ended : Orderly enqueued log .ended := by
  refine ⟨?_, ?_, ?_, ?_⟩ <;> simp [memory, held, queue]

theorem orderly_finding : Orderly enqueued log .finding := by
  refine ⟨?_, ?_, ?_, ?_⟩ <;> simp [memory, held, queue]

theorem Orderly.mono_log (h : Orderly enqueued log pc) (logged : PublishLog) :
    Orderly enqueued (log ++ logged) pc :=
  ⟨h.known, fun r hr => (h.tried r hr).mono logged, h.sorted,
    fun a ha b hb hx hab hnot hcreated =>
      h.ahead a ha b hb hx hab (fun ht => hnot (ht.mono logged)) hcreated⟩

/-- The row that was held has been saved. -/
theorem Orderly.next {event : OutboxRow} {rest : List OutboxRow} (h : Orderly enqueued log pc)
    (hmemory : pc.memory = event :: rest) (hqueue : pc.queue = rest) :
    Orderly enqueued log (next rest) where
  known r hr := by
    rw [memory_next] at hr
    exact h.known r (hmemory ▸ List.mem_cons_of_mem _ hr)
  tried r hr := by
    rw [held_next] at hr
    cases hr
  sorted := by
    rw [queue_next, ← hqueue]
    exact h.sorted
  ahead := by
    rw [queue_next, ← hqueue]
    exact h.ahead

/-- The row that was held is held again, for its retry. -/
theorem Orderly.again {loaded event : OutboxRow} {rest : List OutboxRow}
    (h : Orderly enqueued log (.saving loaded event rest)) (failedAt : Date) :
    Orderly enqueued log (.savingFailed loaded (event.backOff now) failedAt rest) := by
  refine ⟨fun r hr => ?_, fun r hr => ?_, h.sorted, h.ahead⟩
  · rcases List.mem_cons.1 hr with rfl | hr
    · exact h.known event List.mem_cons_self
    · exact h.known r (List.mem_cons_of_mem _ hr)
  · obtain rfl := Option.some.inj hr
    exact h.tried event rfl

/-- The first row of the queue has been tried, and is held. -/
theorem Orderly.tail {event e : OutboxRow} {rest : List OutboxRow}
    (h : Orderly enqueued log (.publishing event rest)) (ok : Bool)
    (hmemory : pc'.memory = e :: rest) (hheld : pc'.held = some e) (hqueue : pc'.queue = rest)
    (hid : e.id = event.id) (hcreated : e.createdAt = event.createdAt) :
    Orderly enqueued (log ++ [(event.id, ok)]) pc' := by
  have htried : Tried (log ++ [(event.id, ok)]) event.id := ⟨ok, by simp⟩
  refine ⟨fun r hr => ?_, fun r hr => ?_, ?_, fun a ha b hb hx hab hnot hlt => ?_⟩
  · rw [hmemory] at hr
    rcases List.mem_cons.1 hr with rfl | hr
    · obtain ⟨e', he', hid', hcreated'⟩ := h.known event List.mem_cons_self
      exact ⟨e', he', hid'.trans hid.symm, hcreated'.trans hcreated.symm⟩
    · exact h.known r (List.mem_cons_of_mem _ hr)
  · rw [hheld] at hr
    obtain rfl := Option.some.inj hr
    exact hid ▸ htried
  · rw [hqueue]
    exact h.sorted.tail
  · rw [hqueue] at hx ⊢
    obtain ⟨x, hx, hxb⟩ := hx
    have hnot' : ¬ Tried log a.row.id := fun ht => hnot (ht.mono _)
    obtain ⟨y, hy, hya⟩ := h.ahead a ha b hb ⟨x, List.mem_cons_of_mem _ hx, hxb⟩ hab hnot' hlt
    rcases List.mem_cons.1 hy with rfl | hy
    · exact absurd (hya ▸ htried) hnot
    · exact ⟨y, hy, hya⟩

/-- What holds of the table: ids as they were committed, and rows that were never tried still
as they were. -/
structure Stocked (enqueued : List Enqueued) (log : PublishLog) (clock : Date)
    (rows : List OutboxRow) : Prop where
  ids : rows.map OutboxRow.id = enqueued.map fun e => e.row.id
  known : ∀ r ∈ rows, Known enqueued r
  fresh : ∀ e ∈ enqueued, ¬ Tried log e.row.id →
    e.row ∈ rows ∧ e.row.status = .pending ∧ e.row.availableAt ≤ clock

theorem Stocked.mono_log (h : Stocked enqueued log moment rows) (logged : PublishLog) :
    Stocked enqueued (log ++ logged) moment rows :=
  ⟨h.ids, h.known, fun e he hnot => h.fresh e he fun ht => hnot (ht.mono logged)⟩

theorem Stocked.write {clock : Date} {event : OutboxRow} (outcome : SaveOutcome)
    (h : Stocked enqueued log clock rows) (hknown : Known enqueued event)
    (htried : Tried log event.id) : Stocked enqueued log clock (outcome.write event rows) := by
  have hsave : Stocked enqueued log clock (Table.save OutboxRow.id event rows) := by
    obtain ⟨e, he, hid, -⟩ := id hknown
    have hmem : event.id ∈ rows.map OutboxRow.id := by
      rw [h.ids]
      exact List.mem_map.2 ⟨e, he, hid⟩
    obtain ⟨r, hr, hrid⟩ := List.mem_map.1 hmem
    obtain ⟨x, hx⟩ : ∃ x, Table.find OutboxRow.id event.id rows = some x := by
      rw [← Option.ne_none_iff_exists']
      exact fun hnone => Table.find_eq_none_iff.1 hnone r hr hrid
    refine ⟨?_, fun r hr => ?_, fun e he hnot => ?_⟩
    · rw [Table.map_save_of_find hx (Table.key_of_find hx), h.ids]
    · rcases Table.mem_of_mem_save hr with rfl | hr
      · exact hknown
      · exact h.known r hr
    · obtain ⟨hmem, hpending⟩ := h.fresh e he hnot
      exact ⟨Table.mem_save_of_ne hmem fun heq => hnot (heq ▸ htried), hpending⟩
  cases outcome with
  | failed => exact h
  | stored | storedThenFailed => exact hsave

/-- The query finds, ahead of each row, those that were never tried and belong there. -/
theorem orderly_found {clock : Date} {events : List OutboxRow}
    (hnodup : (enqueued.map fun e => e.row.id).Nodup)
    (h : Stocked enqueued log clock rows) (hnow : clock ≤ now)
    (hfound : Least OutboxRow.CreatedBefore batchSize (rows.filter fun r => r.Due now) events) :
    Orderly enqueued log (next events) := by
  have hmem : ∀ r ∈ events, r ∈ rows := fun r hr => List.mem_of_mem_filter (hfound.mem hr)
  have hmemory : (next events).memory = events := memory_next events
  have hqueue : (next events).queue = events := queue_next events
  refine ⟨fun r hr => ?_, fun r hr => ?_, ?_, fun a ha b hb hx hab hnot hlt => ?_⟩
  · exact h.known r (hmem r (hmemory ▸ hr))
  · rw [held_next] at hr
    cases hr
  · exact hqueue.symm ▸ hfound.sorted
  · rw [hqueue] at hx ⊢
    obtain ⟨x, hx, hxb⟩ := hx
    obtain ⟨e, he, hid, hcreated⟩ := h.known x (hmem x hx)
    obtain rfl : e = b := List.inj_on_of_nodup_map hnodup he hb (hid.trans hxb)
    obtain ⟨hrow, hpending, havailable⟩ := h.fresh a ha hnot
    have hdue : a.row ∈ rows.filter fun r => r.Due now := by
      simp [hrow, OutboxRow.Due, hpending, havailable.trans hnow]
    by_contra hmissing
    have hnotin : a.row ∉ events := fun hin => hmissing ⟨a.row, hin, rfl⟩
    have hbefore : x.createdAt ≤ a.row.createdAt := hfound.before hx hdue hnotin
    exact absurd hlt (not_lt.2 (hcreated ▸ hbefore))

/-- An answer keeps the table stocked and the flush orderly. -/
theorem Effect.orderly {clock : Date} (h : Effect batchSize now rows pc answer rows' logged pc')
    (hnodup : (enqueued.map fun e => e.row.id).Nodup) (hrows : Stocked enqueued log clock rows)
    (hpc : Orderly enqueued log pc) (hnow : clock ≤ now) :
    Stocked enqueued (log ++ logged) clock rows' ∧ Orderly enqueued (log ++ logged) pc' := by
  have hsaved {event : OutboxRow} (outcome : SaveOutcome) (hmemory : event ∈ pc.memory)
      (hheld : pc.held = some event) : Stocked enqueued log clock (outcome.write event rows) :=
    hrows.write outcome (hpc.known event hmemory) (hpc.tried event hheld)
  cases h with
  | findFailed => exact ⟨hrows.mono_log [], orderly_ended⟩
  | found events hleast =>
    rw [List.append_nil]
    exact ⟨hrows, orderly_found hnodup hrows hnow hleast⟩
  | published event rest => exact ⟨hrows.mono_log _, hpc.tail true rfl rfl rfl rfl rfl⟩
  | publishFailed event rest => exact ⟨hrows.mono_log _, hpc.tail false rfl rfl rfl rfl rfl⟩
  | saved loaded event rest outcome =>
    rw [List.append_nil]
    exact ⟨hsaved outcome List.mem_cons_self rfl, hpc.next rfl rfl⟩
  | saveFailed loaded event rest outcome =>
    rw [List.append_nil]
    exact ⟨hsaved outcome List.mem_cons_self rfl, hpc.again now⟩
  | putOff loaded event failedAt rest outcome =>
    rw [List.append_nil]
    exact ⟨hsaved outcome List.mem_cons_self rfl, hpc.next rfl rfl⟩
  | rejected loaded event failedAt rest outcome =>
    rw [List.append_nil]
    exact ⟨hsaved outcome List.mem_cons_self rfl, orderly_ended⟩

/-- New rows come behind all that is known. -/
theorem Orderly.enqueue {new : List Enqueued} (h : Orderly enqueued log pc)
    (hold : ∀ b ∈ enqueued, b.inserted ≤ moment) (hnew : ∀ a ∈ new, a.committed = moment)
    (hnodup : ((enqueued ++ new).map fun e => e.row.id).Nodup) :
    Orderly (enqueued ++ new) log pc := by
  refine ⟨fun r hr => (h.known r hr).mono new, h.tried, h.sorted, ?_⟩
  rintro a ha b hb ⟨x, hx, hxb⟩ hab hnot hlt
  have hmemory : x ∈ pc.memory := by
    cases pc with
    | publishing => exact hx
    | saving | savingFailed => exact List.mem_cons_of_mem _ hx
    | finding | ended => cases hx
  obtain ⟨e, he, hid, -⟩ := h.known x hmemory
  obtain rfl : e = b :=
    List.inj_on_of_nodup_map hnodup (List.mem_append_left _ he) hb (hid.trans hxb)
  rcases List.mem_append.1 ha with ha | ha
  · exact h.ahead a ha e he ⟨x, hx, hxb⟩ hab hnot hlt
  · have hle := hold e he
    rw [← hnew a ha] at hle
    exact absurd hab (not_lt.2 hle)

end FlushPc

namespace DispatchRelay

variable {batchSize : ℕ} {S S' : DispatchRelay} {label : DispatchLabel} {a b : Enqueued}

/-- The state after the step of the relay. -/
def after (S : DispatchRelay) (label : DispatchLabel) (relay : Relay) : DispatchRelay where
  relay := relay
  clock := label.now
  moment := S.moment + 1
  enqueued := S.enqueued ++ label.action.enqueued S.moment

theorem step_effect (h : (dispatchRelay batchSize).step S label = some S') :
    S.clock ≤ label.now ∧ (∀ e ∈ label.action.enqueued S.moment,
      e.inserted ≤ S.moment ∧ e.row.availableAt ≤ label.now) ∧
    ∃ relay, Relay.Effect batchSize label.now S.relay label.action.relay relay ∧
      S' = S.after label relay := by
  simp only [dispatchRelay] at h
  split at h
  · next hready =>
    obtain ⟨relay, hrelay, rfl⟩ := Option.map_eq_some_iff.1 h
    exact ⟨hready.1, hready.2, relay, Relay.step_effect hrelay, rfl⟩
  · cases h

structure Orderly (S : DispatchRelay) : Prop where
  nodup : (S.enqueued.map fun e => e.row.id).Nodup
  moments : ∀ e ∈ S.enqueued, e.inserted ≤ e.committed ∧ e.committed < S.moment
  stocked : FlushPc.Stocked S.enqueued S.relay.log S.clock S.relay.rows
  logged : ∀ p ∈ S.relay.log, ∃ e ∈ S.enqueued, e.row.id = p.1
  flushes : ∀ j pc, (S.relay.workers 0).flushes j = some pc →
    pc.Orderly S.enqueued S.relay.log

theorem committed_enqueued {action : DispatchAction} {moment : ℕ} :
    ∀ e ∈ action.enqueued moment, e.committed = moment := by
  intro e he
  cases action with
  | enqueue rows =>
    obtain ⟨p, -, rfl⟩ := List.mem_map.1 he
    rfl
  | flush | answer | crash => cases he

/-- A step that commits nothing. -/
theorem Orderly.idle {relay : Relay} (h : S.Orderly) (hnow : S.clock ≤ label.now)
    (hnothing : label.action.enqueued S.moment = [])
    (hstocked : FlushPc.Stocked S.enqueued relay.log S.clock relay.rows)
    (hlogged : ∀ p ∈ relay.log, ∃ e ∈ S.enqueued, e.row.id = p.1)
    (hflushes : ∀ j pc, (relay.workers 0).flushes j = some pc →
      pc.Orderly S.enqueued relay.log) : (S.after label relay).Orderly := by
  have hsame : (S.after label relay).enqueued = S.enqueued := by
    simp [DispatchRelay.after, hnothing]
  refine ⟨hsame ▸ h.nodup, fun e he => ?_, ?_, hsame ▸ hlogged, hsame ▸ hflushes⟩
  · have hmoments := h.moments e (hsame ▸ he)
    exact ⟨hmoments.1, Nat.lt_succ_of_lt hmoments.2⟩
  · rw [hsame]
    exact ⟨hstocked.ids, hstocked.known, fun e he hnot =>
      (hstocked.fresh e he hnot).imp_right fun hrow => hrow.imp_right fun hle => hle.trans hnow⟩

/-- A commit. -/
theorem Orderly.enqueue {rows : List (OutboxRow × ℕ)} {now : Date} (h : S.Orderly)
    (hnow : S.clock ≤ now)
    (hready : ∀ e ∈ (DispatchAction.enqueue rows).enqueued S.moment,
      e.inserted ≤ S.moment ∧ e.row.availableAt ≤ now)
    (hpending : ∀ r ∈ rows.map Prod.fst, r.status = .pending)
    (hids : ((S.relay.rows ++ rows.map Prod.fst).map OutboxRow.id).Nodup) :
    (S.after ⟨now, .enqueue rows⟩ { S.relay with
      rows := S.relay.rows ++ rows.map Prod.fst }).Orderly := by
  let new := (DispatchAction.enqueue rows).enqueued S.moment
  have hnew : new.map Enqueued.row = rows.map Prod.fst := by
    simp [new, DispatchAction.enqueued]
  have hmap : new.map (fun e => e.row.id) = (rows.map Prod.fst).map OutboxRow.id := by
    rw [← hnew, List.map_map]
    rfl
  have hnodup : ((S.enqueued ++ new).map fun e => e.row.id).Nodup := by
    rw [List.map_append, ← h.stocked.ids, hmap, ← List.map_append]
    exact hids
  have hcommitted : ∀ e ∈ new, e.committed = S.moment := committed_enqueued
  have hrow : ∀ e ∈ new, e.row ∈ rows.map Prod.fst := by
    intro e he
    rw [← hnew]
    exact List.mem_map_of_mem he
  have hold : ∀ e ∈ S.enqueued, e.inserted ≤ S.moment := fun e he =>
    (h.moments e he).1.trans (h.moments e he).2.le
  refine ⟨hnodup, fun e he => ?_, ⟨?_, fun r hr => ?_, fun e he hnot => ?_⟩, fun p hp => ?_,
    fun j pc hpc => (h.flushes j pc hpc).enqueue hold hcommitted hnodup⟩
  · rcases List.mem_append.1 he with he | he
    · exact ⟨(h.moments e he).1, Nat.lt_succ_of_lt (h.moments e he).2⟩
    · rw [hcommitted e he]
      exact ⟨(hready e he).1, Nat.lt_succ_self _⟩
  · show (S.relay.rows ++ rows.map Prod.fst).map OutboxRow.id =
      (S.enqueued ++ new).map fun e => e.row.id
    rw [List.map_append, List.map_append, h.stocked.ids, hmap]
  · rcases List.mem_append.1 hr with hr | hr
    · exact (h.stocked.known r hr).mono new
    · rw [← hnew] at hr
      obtain ⟨e, he, rfl⟩ := List.mem_map.1 hr
      exact ⟨e, List.mem_append_right _ he, rfl, rfl⟩
  · rcases List.mem_append.1 he with he | he
    · obtain ⟨hmem, hstatus, hle⟩ := h.stocked.fresh e he hnot
      exact ⟨List.mem_append_left _ hmem, hstatus, hle.trans hnow⟩
    · exact ⟨List.mem_append_right _ (hrow e he), hpending _ (hrow e he), (hready e he).2⟩
  · obtain ⟨e, he, hid⟩ := h.logged p hp
    exact ⟨e, List.mem_append_left _ he, hid⟩

/-- What an answer logs is about a row it holds. -/
theorem logged_of_effect {now : Date} {rows rows' : List OutboxRow} {pc pc' : FlushPc}
    {answer : FlushAnswer} {logged : PublishLog}
    (h : FlushPc.Effect batchSize now rows pc answer rows' logged pc') :
    (logged = [] ∧ ∀ ok, answer ≠ .published ok) ∨ ∃ event rest ok,
      pc = .publishing event rest ∧ answer = .published ok ∧ logged = [(event.id, ok)] := by
  cases h with
  | published event rest => exact Or.inr ⟨event, rest, true, rfl, rfl, rfl⟩
  | publishFailed event rest => exact Or.inr ⟨event, rest, false, rfl, rfl, rfl⟩
  | findFailed | found | saved | saveFailed | putOff | rejected =>
    exact Or.inl ⟨rfl, fun _ h => by cases h⟩

theorem Orderly.answer {now : Date} {j : ℕ} {answer : FlushAnswer} {pc pc' : FlushPc}
    {rows : List OutboxRow} {logged : PublishLog} (h : S.Orderly) (hnow : S.clock ≤ now)
    (hpc : (S.relay.workers 0).flushes j = some pc)
    (heff : FlushPc.Effect batchSize now S.relay.rows pc answer rows logged pc') :
    (S.after ⟨now, .answer j answer⟩ (({ S.relay with
      rows := rows
      log := S.relay.log ++ logged } : Relay).setWorker 0
        ((S.relay.workers 0).set j pc'))).Orderly := by
  obtain ⟨hstocked, hpc'⟩ := heff.orderly h.nodup h.stocked (h.flushes j pc hpc) hnow
  refine h.idle hnow rfl hstocked (fun p hp => ?_) fun k pc'' hk => ?_
  · rcases List.mem_append.1 hp with hp | hp
    · exact h.logged p hp
    · rcases logged_of_effect heff with ⟨rfl, -⟩ | ⟨event, rest, ok, rfl, -, rfl⟩
      · cases hp
      · obtain rfl := List.mem_singleton.1 hp
        obtain ⟨e, he, hid, -⟩ := (h.flushes j _ hpc).known event List.mem_cons_self
        exact ⟨e, he, hid⟩
  · by_cases hkj : k = j
    · subst hkj
      obtain rfl : pc' = pc'' := by simpa [Relay.setWorker, OutboxWorker.set] using hk
      exact hpc'
    · have hold := h.flushes k pc'' (by simpa [Relay.setWorker, OutboxWorker.set, hkj] using hk)
      exact hold.mono_log logged

theorem Orderly.flush {now : Date} {j : ℕ} (h : S.Orderly) (hnow : S.clock ≤ now) :
    (S.after ⟨now, .flush j⟩
      (S.relay.setWorker 0 ((S.relay.workers 0).flush j))).Orderly := by
  refine h.idle hnow rfl h.stocked h.logged fun k pc hk => ?_
  rw [show (S.relay.setWorker 0 ((S.relay.workers 0).flush j)).workers 0 =
    (S.relay.workers 0).flush j by simp [Relay.setWorker]] at hk
  unfold OutboxWorker.flush at hk
  by_cases hkj : k = j
  · subst hkj
    split at hk
    · obtain rfl : FlushPc.ended = pc := by simpa using hk
      exact FlushPc.orderly_ended
    · obtain rfl : FlushPc.finding = pc := by simpa using hk
      exact FlushPc.orderly_finding
  · split at hk
    · exact h.flushes k pc (by simpa [hkj] using hk)
    · exact h.flushes k pc (by simpa [hkj] using hk)

theorem Orderly.step (h : S.Orderly) (hs : (dispatchRelay batchSize).step S label = some S') :
    S'.Orderly := by
  obtain ⟨hnow, hready, relay, heff, rfl⟩ := step_effect hs
  obtain ⟨now, action⟩ := label
  cases action with
  | enqueue rows =>
    cases heff with
    | enqueue _ hpending hids => exact h.enqueue hnow hready hpending hids
  | flush j =>
    cases heff with
    | flush => exact h.flush hnow
  | answer j answer =>
    cases heff with
    | answer _ _ _ pc pc' rows logged hpc heff => exact h.answer hnow hpc heff
  | crash =>
    cases heff with
    | crash =>
      refine h.idle hnow rfl h.stocked h.logged fun k pc hk => ?_
      simp [Relay.setWorker, OutboxWorker.started] at hk

theorem orderly_of_run {ts : List DispatchRelayMove}
    (hrun : (dispatchRelay batchSize).Run ts S) : S.Orderly := by
  refine hrun.invariant ?_ fun S label S' h hs => h.step hs
  rintro S ⟨⟨hrows, hlog, hworkers⟩, henqueued⟩
  refine ⟨?_, ?_, ⟨?_, ?_, ?_⟩, ?_, fun j pc hpc => ?_⟩
  · simp [henqueued]
  · simp [henqueued]
  · simp [hrows, henqueued]
  · simp [hrows]
  · simp [henqueued]
  · simp [hlog]
  · rw [hworkers 0] at hpc
    cases hpc

/-- A row that was never tried is published before any later one that it is ahead of. -/
theorem Orderly.ahead (h : S.Orderly) {j : ℕ} {event : OutboxRow}
    {rest : List OutboxRow} (hpc : (S.relay.workers 0).flushes j = some (.publishing event rest))
    (hid : event.id = b.row.id) (ha : a ∈ S.enqueued) (hb : b ∈ S.enqueued) (hab : Earlier a b)
    (hlt : a.row.createdAt < b.row.createdAt) : Tried S.relay.log a.row.id := by
  have hflush := h.flushes j _ hpc
  by_contra hnot
  obtain ⟨y, hy, hya⟩ :=
    hflush.ahead a ha b hb ⟨event, List.mem_cons_self, hid⟩ hab.1 hnot hlt
  obtain ⟨e, he, heid, hecreated⟩ := hflush.known event List.mem_cons_self
  obtain rfl : e = b := List.inj_on_of_nodup_map h.nodup he hb (heid.trans hid)
  rcases List.mem_cons.1 hy with rfl | hy
  · obtain rfl : e = a := List.inj_on_of_nodup_map h.nodup hb ha (hid.symm.trans hya)
    exact absurd hlt (lt_irrefl _)
  · obtain ⟨e', he', heid', hecreated'⟩ := hflush.known y (List.mem_cons_of_mem _ hy)
    obtain rfl : e' = a := List.inj_on_of_nodup_map h.nodup he' ha (heid'.trans hya)
    have hbefore : event.createdAt ≤ y.createdAt := (List.pairwise_cons.1 hflush.sorted).1 y hy
    rw [← hecreated, ← hecreated'] at hbefore
    exact absurd hlt (not_lt.2 hbefore)

/-- A row that has been published is one of the old ones, and so are those before it. -/
theorem Orderly.old {new : List Enqueued} (h : S.Orderly)
    (hnew : ∀ e ∈ new, e.committed = S.moment)
    (hnodup : ((S.enqueued ++ new).map fun e => e.row.id).Nodup) (ha : a ∈ S.enqueued ++ new)
    (hb : b ∈ S.enqueued ++ new) (hab : Earlier a b)
    (hlogged : (b.row.id, true) ∈ S.relay.log) : a ∈ S.enqueued ∧ b ∈ S.enqueued := by
  obtain ⟨e, he, hid⟩ := h.logged _ hlogged
  obtain rfl : e = b := List.inj_on_of_nodup_map hnodup (List.mem_append_left _ he) hb hid
  refine ⟨(List.mem_append.1 ha).resolve_right fun ha => ?_, he⟩
  have hmoments := h.moments e he
  have hbefore := hab.1
  rw [hnew a ha] at hbefore
  omega

/-- What a step adds to the log: at most one call of `publish`. -/
theorem log_step (hs : (dispatchRelay batchSize).step S label = some S') :
    (S'.relay.log = S.relay.log ∧ ∀ j ok, label.action ≠ .answer j (.published ok)) ∨
    ∃ j event rest ok, label.action = .answer j (.published ok) ∧
      (S.relay.workers 0).flushes j = some (.publishing event rest) ∧
      S'.relay.log = S.relay.log ++ [(event.id, ok)] ∧ S'.enqueued = S.enqueued := by
  obtain ⟨-, -, relay, heff, rfl⟩ := step_effect hs
  obtain ⟨now, action⟩ := label
  cases action with
  | answer j answer =>
    cases heff with
    | answer _ _ _ pc pc' rows logged hpc heff =>
      rcases logged_of_effect heff with ⟨rfl, hnot⟩ | ⟨event, rest, ok, rfl, rfl, rfl⟩
      · exact Or.inl ⟨List.append_nil _, fun _ ok h => hnot ok (DispatchAction.answer.inj h).2⟩
      · exact Or.inr ⟨j, event, rest, ok, rfl, hpc, rfl, List.append_nil _⟩
  | enqueue | flush | crash =>
    cases heff
    exact Or.inl ⟨rfl, fun _ _ h => DispatchAction.noConfusion h⟩

/-- Log and committed rows only grow. -/
structure Grows (S S' : DispatchRelay) : Prop where
  log : S.relay.log <+: S'.relay.log
  enqueued : S.enqueued <+: S'.enqueued

theorem Grows.refl (S : DispatchRelay) : S.Grows S := ⟨List.prefix_refl _, List.prefix_refl _⟩

theorem Grows.trans {S S' S'' : DispatchRelay} (h : S.Grows S') (h' : S'.Grows S'') :
    S.Grows S'' := ⟨h.log.trans h'.log, h.enqueued.trans h'.enqueued⟩

theorem grows_step (hs : (dispatchRelay batchSize).step S label = some S') : S.Grows S' := by
  refine ⟨?_, ?_⟩
  · rcases log_step hs with ⟨hsame, -⟩ | ⟨j, event, rest, ok, -, -, hlog, -⟩
    · exact hsame ▸ List.prefix_refl _
    · exact hlog ▸ List.prefix_append _ _
  · obtain ⟨-, -, relay, -, rfl⟩ := step_effect hs
    exact List.prefix_append _ _

theorem inOrder_step (h : S.Orderly) (horder : InOrder S)
    (hs : (dispatchRelay batchSize).step S label = some S')
    (hretries : RetriesFirst ⟨S, label, S'⟩) : InOrder S' := by
  have hS' := h.step hs
  have henqueued : S'.enqueued = S.enqueued ++ label.action.enqueued S.moment := by
    obtain ⟨-, -, relay, -, rfl⟩ := step_effect hs
    rfl
  intro a ha b hb hab hlogged
  have hold (hlogged : (b.row.id, true) ∈ S.relay.log) : a ∈ S.enqueued ∧ b ∈ S.enqueued :=
    h.old committed_enqueued (henqueued ▸ hS'.nodup) (henqueued ▸ ha) (henqueued ▸ hb) hab hlogged
  rcases log_step hs with ⟨hsame, -⟩ | ⟨j, event, rest, ok, hlabel, hpc, hlog, hrows⟩
  · rw [hsame] at hlogged ⊢
    obtain ⟨ha, hb⟩ := hold hlogged
    exact horder a ha b hb hab hlogged
  · rw [hlog] at hlogged ⊢
    by_cases hbefore : (b.row.id, true) ∈ S.relay.log
    · obtain ⟨ha, hb⟩ := hold hbefore
      have hlt := horder a ha b hb hab hbefore
      have hmem : (a.row.id, true) ∈ S.relay.log :=
        List.idxOf_lt_length_iff.1 (hlt.trans_le List.idxOf_le_length)
      rwa [List.idxOf_append_of_mem hmem, List.idxOf_append_of_mem hbefore]
    · -- the first successful publish of `b`: `a` has had its own
      obtain ⟨hid, rfl⟩ : b.row.id = event.id ∧ true = ok := by
        simpa [hbefore] using hlogged
      rw [hrows] at ha hb
      have hpublishes : publishes ⟨S, label, S'⟩ = some b.row.id :=
        publishes_eq_some_iff.2 ⟨j, event, rest, hlabel, hpc, hid.symm⟩
      have hretried := hretries a ha b hb hab hpublishes
      have hmem : (a.row.id, true) ∈ S.relay.log := by
        by_cases hcreated : b.row.createdAt ≤ a.row.createdAt
        · exact hretried (Or.inr hcreated)
        · obtain ⟨ok, hok⟩ := h.ahead hpc hid.symm ha hb hab (not_le.1 hcreated)
          cases ok with
          | true => exact hok
          | false => exact hretried (Or.inl hok)
      rw [List.idxOf_append_of_mem hmem, List.idxOf_append_of_notMem hbefore]
      exact (List.idxOf_lt_length_of_mem hmem).trans_le (Nat.le_add_right _ _)

theorem inOrder_of_run {ts : List DispatchRelayMove} (hrun : (dispatchRelay batchSize).Run ts S)
    (hretries : ∀ t ∈ ts, RetriesFirst t) : InOrder S := by
  refine (hrun.invariant_of_steps (C := RetriesFirst)
    (I := fun S => S.Orderly ∧ InOrder S) ?_ ?_ hretries).2
  · intro S hinit
    refine ⟨orderly_of_run (.nil hinit), fun a ha => ?_⟩
    rw [hinit.2] at ha
    cases ha
  · rintro S label S' ⟨h, horder⟩ hs hretries
    exact ⟨h.step hs, inOrder_step h horder hs hretries⟩

end DispatchRelay

/-- The events of one dispatch leave in order, queue by queue, in exactly the runs in which no
row is published before an earlier one that waits for its retry or is not ahead of it by
`created_at`. -/
theorem inOrder_iff {batchSize : ℕ} {ts : List DispatchRelayMove} {S : DispatchRelay}
    (hrun : (dispatchRelay batchSize).Run ts S) : InOrder S ↔ ∀ t ∈ ts, RetriesFirst t := by
  constructor
  · rintro horder t ht a ha b hb hab hpublishes -
    obtain ⟨j, event, rest, hlabel, hpc, hid⟩ := publishes_eq_some_iff.1 hpublishes
    obtain ⟨l, r, hts⟩ := List.append_of_mem ht
    obtain ⟨-, hs⟩ := hrun.split hts
    have hgrows : t.post.Grows S := hrun.across (C := fun _ => True) DispatchRelay.Grows.refl
      (fun _ _ _ => DispatchRelay.Grows.trans)
      (fun _ _ _ hs _ => DispatchRelay.grows_step hs) (fun _ _ => trivial) hts
    have hpre := (DispatchRelay.grows_step hs).trans hgrows
    have hlog : t.post.relay.log = t.pre.relay.log ++ [(b.row.id, true)] := by
      rcases DispatchRelay.log_step hs with ⟨-, hnot⟩ | ⟨j', event', rest', ok, hlabel', hpc',
        hlog, -⟩
      · exact absurd hlabel (hnot j true)
      · obtain ⟨rfl, rfl⟩ : j = j' ∧ true = ok := by simpa [hlabel] using hlabel'
        obtain ⟨rfl, rfl⟩ : event = event' ∧ rest = rest' := by simpa [hpc] using hpc'
        rw [hlog, hid]
    have hb' : (b.row.id, true) ∈ t.post.relay.log := by simp [hlog]
    have hlt := horder a (hpre.enqueued.subset ha) b (hpre.enqueued.subset hb) hab
      (hgrows.log.subset hb')
    have hle := (hgrows.log.mem_iff_idxOf_lt_length _).1 hb'
    rw [hlog, List.length_append, List.length_singleton] at hle
    exact (hpre.log.mem_iff_idxOf_lt_length _).2 (by omega)
  · exact DispatchRelay.inOrder_of_run hrun

section Runs

def freshRelay : DispatchRelay := ⟨emptyRelay, 0, 0, []⟩

def searching : Dispatch := .start "dispatch-1" "order-1" "corr-1" 1000

def startedRow : OutboxRow := DispatchEvent.started searching "event-1" 1000

def assignedRow : OutboxRow := DispatchEvent.assigned searching "driver-1" "corr-1" "event-2" 4000

/-- The first event is retried and leaves before the second one is enqueued. -/
def retriedRun : List DispatchLabel :=
  [⟨1000, .enqueue [(startedRow, 0)]⟩, ⟨1500, .flush 0⟩,
    ⟨1500, .answer 0 (.found (some [startedRow]))⟩, ⟨1510, .answer 0 (.published false)⟩,
    ⟨1520, .answer 0 (.saved .stored)⟩, ⟨2600, .flush 1⟩,
    ⟨2600, .answer 1 (.found (some [startedRow.backOff 1510]))⟩,
    ⟨2610, .answer 1 (.published true)⟩, ⟨2620, .answer 1 (.saved .stored)⟩,
    ⟨4000, .enqueue [(assignedRow, 9)]⟩, ⟨4100, .flush 2⟩,
    ⟨4100, .answer 2 (.found (some [assignedRow]))⟩, ⟨4110, .answer 2 (.published true)⟩]

theorem inOrder_retriedRun : ∃ S, (dispatchRelay 25).replay freshRelay retriedRun = some S ∧
    S.relay.log = [("event-1", false), ("event-1", true), ("event-2", true)] ∧ InOrder S := by
  have hrun : (dispatchRelay 25).Run ((dispatchRelay 25).moves freshRelay retriedRun) _ :=
    .of_replay ⟨⟨rfl, rfl, fun _ => rfl⟩, rfl⟩ rfl
  exact ⟨_, rfl, rfl, (inOrder_iff hrun).2 (by decide)⟩

/-- Both events are in one batch; the first one cannot be published, and the second one can. -/
def overtakenRun : List DispatchLabel :=
  [⟨1000, .enqueue [(startedRow, 0)]⟩, ⟨4000, .enqueue [(assignedRow, 1)]⟩, ⟨4100, .flush 0⟩,
    ⟨4100, .answer 0 (.found (some [startedRow, assignedRow]))⟩,
    ⟨4110, .answer 0 (.published false)⟩, ⟨4120, .answer 0 (.saved .stored)⟩,
    ⟨4130, .answer 0 (.published true)⟩]

theorem not_inOrder : ¬ ∀ batchSize ts S, (dispatchRelay batchSize).Run ts S → InOrder S := by
  intro hlaw
  have hrun : (dispatchRelay 25).Run ((dispatchRelay 25).moves freshRelay overtakenRun) _ :=
    .of_replay ⟨⟨rfl, rfl, fun _ => rfl⟩, rfl⟩ rfl
  have hlt := hlaw _ _ _ hrun ⟨startedRow, 0, 0⟩ (by decide) ⟨assignedRow, 1, 1⟩ (by decide)
    (by decide) (by decide)
  exact absurd hlt (by decide)

end Runs

end RouteFast
