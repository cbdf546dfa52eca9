import RouteFast.Base.Proc
import RouteFast.Reliability.Event

/-! The consumer Inbox. `InboxService.process` is a sequence of separate statements
around the operation, so a call is kept as the statement it is about to execute, and
any number of calls interleave over one `inbox_events` table. -/

namespace RouteFast

open Transition

inductive InboxStatus where
  | processing
  | processed
  deriving DecidableEq, Repr

/-- A row of `inbox_events`. -/
structure InboxRow where
  eventId : Uuid
  eventType : EventType
  correlationId : String
  status : InboxStatus
  processedAt : Option Date
  deriving DecidableEq

abbrev Inbox := List InboxRow

structure ReliableIntegrationEvent where
  eventId : Uuid
  correlationId : String
  deriving DecidableEq

inductive ProcessResult where
  | processed
  | duplicate
  deriving DecidableEq, Repr

namespace Inbox

/-- `findOne({ where: { eventId } })` -/
def findOne (inbox : Inbox) (eventId : Uuid) : Option InboxRow :=
  Table.find InboxRow.eventId eventId inbox

/-- `update({ eventId }, { status: PROCESSED, processedAt })` -/
def markProcessed (inbox : Inbox) (eventId : Uuid) (now : Date) : Inbox :=
  Table.update InboxRow.eventId eventId
    (fun r => { r with status := .processed, processedAt := some now }) inbox

/-- `delete({ eventId })` -/
def delete (inbox : Inbox) (eventId : Uuid) : Inbox := Table.delete InboxRow.eventId eventId inbox

/-- The row of the event is there and marked. -/
def Processed (inbox : Inbox) (eventId : Uuid) : Prop :=
  (inbox.findOne eventId).map InboxRow.status = some .processed

instance (inbox : Inbox) (eventId : Uuid) : Decidable (inbox.Processed eventId) :=
  inferInstanceAs (Decidable (_ = _))

variable {inbox : Inbox} {e e' : Uuid}

theorem processed_append_processing {r : InboxRow} (hr : r.status = .processing)
    (hnone : inbox.findOne r.eventId = none) :
    Processed (inbox ++ [r]) e ↔ inbox.Processed e := by
  simp only [Processed, findOne, Table.find_append_singleton] at hnone ⊢
  by_cases he : r.eventId = e
  · subst he; simp [hnone, hr]
  · simp [he]

theorem processed_markProcessed (now : Date) :
    (inbox.markProcessed e now).Processed e' ↔
      if e' = e then inbox.findOne e ≠ none else inbox.Processed e' := by
  have h := Table.find_update (c := InboxRow.eventId) (k := e) (t := inbox)
    (f := fun r => { r with status := .processed, processedAt := some now }) (fun _ => rfl) e'
  by_cases he : e' = e
  · subst he
    cases hf : Table.find InboxRow.eventId e' inbox <;>
      simp [Processed, findOne, markProcessed, h, hf]
  · simp [Processed, findOne, markProcessed, h, he]

theorem processed_delete : (inbox.delete e).Processed e' ↔ e' ≠ e ∧ inbox.Processed e' := by
  by_cases he : e' = e
  · subst he; simp [Processed, findOne, delete, Table.find_delete_self]
  · simp [Processed, findOne, delete, Table.find_delete_ne he, he]

theorem Processed.findOne_ne_none (h : inbox.Processed e) : inbox.findOne e ≠ none := by
  intro hnone
  simp [Processed, hnone] at h

end Inbox

/-- A service's database: its inbox table and the rest. -/
structure Service (δ : Type*) where
  inbox : Inbox
  db : δ

/-- The statement of `process` a call is about to execute. The operation is whatever
the event's handler does, itself a sequence of steps on the service's database. -/
inductive Pc (δ ε : Type*) where
  | findExisting
  | insert
  /-- After the insert failed: `const raced = await findOne(..)`. -/
  | findRaced
  /-- Inside `await operation()`; once it is over, the update or the delete. -/
  | operation (rest : Proc δ ε Unit)
  | returned (result : ProcessResult)
  | thrown (error : ε)

structure Call (δ ε : Type*) where
  eventType : EventType
  event : ReliableIntegrationEvent
  operation : Proc δ ε Unit
  pc : Pc δ ε

namespace Call

variable {δ ε : Type*}

/-- `process(eventType, event, operation)` -/
def process (eventType : EventType) (event : ReliableIntegrationEvent)
    (operation : Proc δ ε Unit) : Call δ ε :=
  ⟨eventType, event, operation, .findExisting⟩

/-- The next statement of the call; `none` once it returned or threw. -/
def step (now : Date) (c : Call δ ε) (s : Service δ) : Option (Service δ × Call δ ε) :=
  let eventId := c.event.eventId
  match c.pc with
  | .findExisting =>
    match s.inbox.findOne eventId with
    | some existing =>
      if existing.status = .processed then some (s, { c with pc := .returned .duplicate })
      else some (s, { c with pc := .operation c.operation })
    | none => some (s, { c with pc := .insert })
  | .insert =>
    match s.inbox.findOne eventId with
    | none =>
      let row := ⟨eventId, c.eventType, c.event.correlationId, .processing, none⟩
      some ({ s with inbox := s.inbox ++ [row] }, { c with pc := .operation c.operation })
    -- the primary key is taken: the insert throws and is caught
    | some _ => some (s, { c with pc := .findRaced })
  | .findRaced =>
    match s.inbox.findOne eventId with
    | some raced =>
      if raced.status = .processed then some (s, { c with pc := .returned .duplicate })
      else some (s, { c with pc := .operation c.operation })
    | none => some (s, { c with pc := .operation c.operation })
  | .operation (.step effect next) =>
    some ({ s with db := effect s.db }, { c with pc := .operation (next s.db) })
  | .operation (.done _) =>
    some ({ s with inbox := s.inbox.markProcessed eventId now },
      { c with pc := .returned .processed })
  | .operation (.throw e) =>
    some ({ s with inbox := s.inbox.delete eventId }, { c with pc := .thrown e })
  | .returned _ => none
  | .thrown _ => none

/-- Before the operation has taken its first step. -/
def Waiting (c : Call δ ε) : Prop :=
  c.pc = .findExisting ∨ c.pc = .insert ∨ c.pc = .findRaced

theorem Waiting.pc_ne {c : Call δ ε} (h : c.Waiting) (rest : Proc δ ε Unit) :
    c.pc ≠ .operation rest := by
  rcases h with h | h | h <;> simp [h]

/-- Everything one statement of a call can do. -/
inductive Effect (now : Date) (c : Call δ ε) (s : Service δ) : Service δ → Call δ ε → Prop
  | duplicate : c.Waiting → s.inbox.Processed c.event.eventId →
      Effect now c s s { c with pc := .returned .duplicate }
  | absent : c.pc = .findExisting → s.inbox.findOne c.event.eventId = none →
      Effect now c s s { c with pc := .insert }
  | raced : c.pc = .insert → s.inbox.findOne c.event.eventId ≠ none →
      Effect now c s s { c with pc := .findRaced }
  | started : c.Waiting → ¬ s.inbox.Processed c.event.eventId →
      Effect now c s s { c with pc := .operation c.operation }
  | inserted : c.pc = .insert → s.inbox.findOne c.event.eventId = none →
      Effect now c s
        { s with inbox := s.inbox ++
          [⟨c.event.eventId, c.eventType, c.event.correlationId, .processing, none⟩] }
        { c with pc := .operation c.operation }
  | operated (effect : δ → δ) (next : δ → Proc δ ε Unit) :
      c.pc = .operation (.step effect next) →
      Effect now c s { s with db := effect s.db } { c with pc := .operation (next s.db) }
  | succeeded (u : Unit) : c.pc = .operation (.done u) →
      Effect now c s { s with inbox := s.inbox.markProcessed c.event.eventId now }
        { c with pc := .returned .processed }
  | failed (e : ε) : c.pc = .operation (.throw e) →
      Effect now c s { s with inbox := s.inbox.delete c.event.eventId } { c with pc := .thrown e }

theorem step_effect {now : Date} {c c' : Call δ ε} {s s' : Service δ}
    (h : c.step now s = some (s', c')) : Effect now c s s' c' := by
  obtain ⟨eventType, event, operation, pc⟩ := c
  have found {row : InboxRow} (hf : s.inbox.findOne event.eventId = some row) :
      s.inbox.Processed event.eventId ↔ row.status = .processed := by
    simp [Inbox.Processed, hf]
  cases pc with
  | findExisting =>
    cases hf : s.inbox.findOne event.eventId with
    | none =>
      obtain ⟨rfl, rfl⟩ : s = s' ∧ _ = c' := by simpa [step, hf] using h
      exact .absent rfl hf
    | some row =>
      by_cases hr : row.status = .processed
      · obtain ⟨rfl, rfl⟩ : s = s' ∧ _ = c' := by simpa [step, hf, hr] using h
        exact .duplicate (Or.inl rfl) ((found hf).2 hr)
      · obtain ⟨rfl, rfl⟩ : s = s' ∧ _ = c' := by simpa [step, hf, hr] using h
        exact .started (Or.inl rfl) (mt (found hf).1 hr)
  | insert =>
    cases hf : s.inbox.findOne event.eventId with
    | none =>
      obtain ⟨rfl, rfl⟩ : _ = s' ∧ _ = c' := by simpa [step, hf] using h
      exact .inserted rfl hf
    | some row =>
      obtain ⟨rfl, rfl⟩ : s = s' ∧ _ = c' := by simpa [step, hf] using h
      exact .raced rfl (by simp [hf])
  | findRaced =>
    cases hf : s.inbox.findOne event.eventId with
    | none =>
      obtain ⟨rfl, rfl⟩ : s = s' ∧ _ = c' := by simpa [step, hf] using h
      exact .started (Or.inr (Or.inr rfl)) (by simp [Inbox.Processed, hf])
    | some row =>
      by_cases hr : row.status = .processed
      · obtain ⟨rfl, rfl⟩ : s = s' ∧ _ = c' := by simpa [step, hf, hr] using h
        exact .duplicate (Or.inr (Or.inr rfl)) ((found hf).2 hr)
      · obtain ⟨rfl, rfl⟩ : s = s' ∧ _ = c' := by simpa [step, hf, hr] using h
        exact .started (Or.inr (Or.inr rfl)) (mt (found hf).1 hr)
  | operation rest =>
    cases rest with
    | step effect next =>
      obtain ⟨rfl, rfl⟩ : _ = s' ∧ _ = c' := by simpa [step] using h
      exact .operated effect next rfl
    | done u =>
      obtain ⟨rfl, rfl⟩ : _ = s' ∧ _ = c' := by simpa [step] using h
      exact .succeeded u rfl
    | throw e =>
      obtain ⟨rfl, rfl⟩ : _ = s' ∧ _ = c' := by simpa [step] using h
      exact .failed e rfl
  | returned r => simp [step] at h
  | thrown e => simp [step] at h

/-- A call never changes which event it is for. -/
theorem Effect.event_eq {now : Date} {c c' : Call δ ε} {s s' : Service δ}
    (h : Effect now c s s' c') : c'.event = c.event := by
  cases h <;> rfl

/-- An operation's steps leave the inbox alone: only the statements around it write there. -/
theorem Effect.processed_iff {now : Date} {c c' : Call δ ε} {s s' : Service δ}
    (h : Effect now c s s' c') (e : Uuid) :
    s'.inbox.Processed e ↔
      (s.inbox.Processed e ∧ ¬ (e = c.event.eventId ∧ ∃ err, c.pc = .operation (.throw err))) ∨
      (s.inbox.findOne e ≠ none ∧ e = c.event.eventId ∧ ∃ u, c.pc = .operation (.done u)) := by
  cases h with
  | duplicate hw hp => simp [hw.pc_ne]
  | absent hpc hnone => simp [hpc]
  | raced hpc hsome => simp [hpc]
  | started hw hp => simp [hw.pc_ne]
  | inserted hpc hnone =>
    have h := Inbox.processed_append_processing (e := e)
      (r := ⟨c.event.eventId, c.eventType, c.event.correlationId, .processing, none⟩) rfl hnone
    simp [h, hpc]
  | operated effect next hpc => simp [hpc]
  | succeeded u hpc =>
    rw [Inbox.processed_markProcessed]
    by_cases he : e = c.event.eventId
    · subst he
      have hof : s.inbox.Processed c.event.eventId → s.inbox.findOne c.event.eventId ≠ none :=
        Inbox.Processed.findOne_ne_none
      simpa [hpc] using hof
    · simp [hpc, he]
  | failed err hpc =>
    rw [Inbox.processed_delete]
    by_cases he : e = c.event.eventId <;> simp [hpc, he]

/-- A call that returned takes no further step. -/
theorem Effect.pc_ne_returned {now : Date} {c c' : Call δ ε} {s s' : Service δ}
    (h : Effect now c s s' c') (r : ProcessResult) : c.pc ≠ .returned r := by
  intro hr
  cases h with
  | duplicate hw | started hw => rcases hw with h | h | h <;> simp [hr] at h
  | absent h | raced h | inserted h | operated _ _ h | succeeded _ h | failed _ h =>
    simp [hr] at h

theorem Effect.returned_processed_iff {now : Date} {c c' : Call δ ε} {s s' : Service δ}
    (h : Effect now c s s' c') :
    c'.pc = .returned .processed ↔ ∃ u, c.pc = .operation (.done u) := by
  cases h with
  | succeeded u hpc => simp [hpc]
  | duplicate hw | started hw => simp [hw.pc_ne]
  | absent hpc | raced hpc | inserted hpc | operated _ _ hpc | failed _ hpc => simp [hpc]

/-- A lookup that finds the event marked ends the call. -/
theorem Effect.duplicate_of_processed {now : Date} {c c' : Call δ ε} {s s' : Service δ}
    (h : Effect now c s s' c') (hpc : c.pc = .findExisting ∨ c.pc = .returned .duplicate)
    (hp : s.inbox.Processed c.event.eventId) : c'.pc = .returned .duplicate := by
  have hfind : c.pc = .findExisting := hpc.resolve_right (h.pc_ne_returned _)
  cases h with
  | duplicate => rfl
  | absent _ hnone => exact absurd hnone hp.findOne_ne_none
  | started _ hnp => exact absurd hp hnp
  | raced h | inserted h | operated _ _ h | succeeded _ h | failed _ h => simp [hfind] at h

end Call

end RouteFast
