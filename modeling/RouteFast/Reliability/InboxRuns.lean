import RouteFast.Reliability.Inbox

/-! Any number of `process` calls over one inbox table: redeliveries, prefetched
messages and replicas alike. The law is that an event some call has answered with
'processed' stays PROCESSED and is never executed again; it holds in exactly the runs
where no failing call deletes a marked row and no succeeding call finds its row gone. -/

namespace RouteFast

open Transition

/-- One inbox table and every call ever made on it, those that returned included. -/
structure InboxPool (δ ε : Type*) where
  service : Service δ
  calls : ℕ → Option (Call δ ε)

inductive InboxLabel (δ ε : Type*) where
  | process (i : ℕ) (eventType : EventType) (event : ReliableIntegrationEvent)
      (operation : Proc δ ε Unit)
  | step (i : ℕ) (now : Date)

namespace InboxPool

variable {δ ε : Type*}

def set (P : InboxPool δ ε) (i : ℕ) (c : Call δ ε) : InboxPool δ ε :=
  { P with calls := Function.update P.calls i (some c) }

def system : System (InboxPool δ ε) (InboxLabel δ ε) where
  init P := P.service.inbox = [] ∧ ∀ i, P.calls i = none
  step P
    | .process i eventType event operation =>
      if (P.calls i).isNone then some (P.set i (.process eventType event operation)) else none
    | .step i now =>
      (P.calls i).bind fun c => (c.step now P.service).map fun (service, c') =>
        ({ P with service } : InboxPool δ ε).set i c'

/-- Some call for the event has returned 'processed'. -/
def ReturnedProcessed (P : InboxPool δ ε) (eventId : Uuid) : Prop :=
  ∃ i c, P.calls i = some c ∧ c.event.eventId = eventId ∧ c.pc = .returned .processed

/-- Call `i` is about to run the update that marks the event. -/
def Succeeds (P : InboxPool δ ε) (i : ℕ) (eventId : Uuid) : Prop :=
  ∃ c u, P.calls i = some c ∧ c.event.eventId = eventId ∧ c.pc = .operation (.done u)

/-- Call `i` is about to run the delete of its failure path. -/
def Fails (P : InboxPool δ ε) (i : ℕ) (eventId : Uuid) : Prop :=
  ∃ c err, P.calls i = some c ∧ c.event.eventId = eventId ∧ c.pc = .operation (.throw err)

theorem step_process {P P' : InboxPool δ ε} {i : ℕ} {eventType : EventType}
    {event : ReliableIntegrationEvent} {operation : Proc δ ε Unit}
    (h : system.step P (.process i eventType event operation) = some P') :
    P.calls i = none ∧ P' = P.set i (.process eventType event operation) := by
  simp only [system] at h
  split at h
  · next hn => exact ⟨by simpa using hn, by simpa using h.symm⟩
  · cases h

theorem step_step {P P' : InboxPool δ ε} {i : ℕ} {now : Date}
    (h : system.step P (.step i now) = some P') :
    ∃ c s c', P.calls i = some c ∧ Call.Effect now c P.service s c' ∧
      P' = ({ P with service := s } : InboxPool δ ε).set i c' := by
  simp only [system, Option.bind_eq_some_iff, Option.map_eq_some_iff] at h
  obtain ⟨c, hc, ⟨s, c'⟩, hs, rfl⟩ := h
  exact ⟨c, s, c', hc, Call.step_effect hs, rfl⟩

/-- What one step does to the marks: a successful update adds one where the row is
still there, a failure path takes one away. -/
theorem processed_step {P P' : InboxPool δ ε} {a : InboxLabel δ ε}
    (h : system.step P a = some P') (e : Uuid) :
    P'.service.inbox.Processed e ↔
      (P.service.inbox.Processed e ∧ ¬ ∃ i now, a = .step i now ∧ P.Fails i e) ∨
      (P.service.inbox.findOne e ≠ none ∧ ∃ i now, a = .step i now ∧ P.Succeeds i e) := by
  cases a with
  | process i eventType event operation =>
    obtain ⟨-, rfl⟩ := step_process h
    simp [set]
  | step i now =>
    obtain ⟨c, s, c', hc, heff, rfl⟩ := step_step h
    have hfails : (∃ j n, InboxLabel.step i now = InboxLabel.step (δ := δ) (ε := ε) j n ∧
        P.Fails j e) ↔ e = c.event.eventId ∧ ∃ err, c.pc = .operation (.throw err) := by
      simp [Fails, hc, eq_comm]
    have hsucceeds : (∃ j n, InboxLabel.step i now = InboxLabel.step (δ := δ) (ε := ε) j n ∧
        P.Succeeds j e) ↔ e = c.event.eventId ∧ ∃ u, c.pc = .operation (.done u) := by
      simp [Succeeds, hc, eq_comm]
    rw [hfails, hsucceeds]
    exact heff.processed_iff e

/-- What one step does to the calls that returned 'processed'. -/
theorem returnedProcessed_step {P P' : InboxPool δ ε} {a : InboxLabel δ ε}
    (h : system.step P a = some P') (e : Uuid) :
    P'.ReturnedProcessed e ↔
      P.ReturnedProcessed e ∨ ∃ i now, a = .step i now ∧ P.Succeeds i e := by
  cases a with
  | process i eventType event operation =>
    obtain ⟨hnone, rfl⟩ := step_process h
    constructor
    · rintro ⟨j, c, hj, he, hpc⟩
      by_cases hji : j = i
      · subst hji
        obtain rfl : _ = c := by simpa [set] using hj
        cases hpc
      · exact Or.inl ⟨j, c, by simpa [set, hji] using hj, he, hpc⟩
    · rintro (⟨j, c, hj, he, hpc⟩ | ⟨j, now, ha, -⟩)
      · have hji : j ≠ i := fun hji => by simp [hji, hnone] at hj
        exact ⟨j, c, by simpa [set, hji] using hj, he, hpc⟩
      · cases ha
  | step i now =>
    obtain ⟨c, s, c', hc, heff, rfl⟩ := step_step h
    constructor
    · rintro ⟨j, d, hj, he, hpc⟩
      by_cases hji : j = i
      · subst hji
        obtain rfl : c' = d := by simpa [set] using hj
        obtain ⟨u, hu⟩ := heff.returned_processed_iff.1 hpc
        exact Or.inr ⟨j, now, rfl, c, u, hc, heff.event_eq ▸ he, hu⟩
      · exact Or.inl ⟨j, d, by simpa [set, hji] using hj, he, hpc⟩
    · rintro (⟨j, d, hj, he, hpc⟩ | ⟨j, n, ha, d, u, hd, he, hpc⟩)
      · have hji : j ≠ i := by
          rintro rfl
          obtain rfl : c = d := by simpa [hc] using hj
          exact heff.pc_ne_returned _ hpc
        exact ⟨j, d, by simpa [set, hji] using hj, he, hpc⟩
      · obtain ⟨rfl, rfl⟩ : i = j ∧ now = n := by simpa using ha
        obtain rfl : c = d := by simpa [hc] using hd
        exact ⟨i, c', by simp [set], heff.event_eq ▸ he, heff.returned_processed_iff.2 ⟨u, hpc⟩⟩

/-- Once some call has returned 'processed', the row is there and marked in every later
state, and a call that begins afterwards goes from its first lookup to 'duplicate'. -/
structure ProcessedForGood (ts : List (Move (InboxPool δ ε) (InboxLabel δ ε))) : Prop where
  row : ∀ t ∈ ts, ∀ e, t.post.ReturnedProcessed e → t.post.service.inbox.Processed e
  begins : ∀ l t r, ts = l ++ t :: r → ∀ i eventType event operation,
    t.label = .process i eventType event operation → t.pre.ReturnedProcessed event.eventId →
    ∀ u ∈ t :: r, ∃ c, u.post.calls i = some c ∧
      (c.pc = .findExisting ∨ c.pc = .returned .duplicate)

/-- No failing call deletes a row marked PROCESSED, and no succeeding call's update
finds its row gone. -/
structure Undisturbed (t : Move (InboxPool δ ε) (InboxLabel δ ε)) : Prop where
  delete : ∀ i now e, t.label = .step i now → t.pre.Fails i e → ¬ t.pre.service.inbox.Processed e
  update : ∀ i now e, t.label = .step i now → t.pre.Succeeds i e →
    t.pre.service.inbox.findOne e ≠ none

/-- `Undisturbed`, computed from the statement the call is at. -/
def undisturbed (t : Move (InboxPool δ ε) (InboxLabel δ ε)) : Bool :=
  match t.label with
  | .process .. => true
  | .step i _ =>
    match t.pre.calls i with
    | some ⟨_, event, _, .operation (.throw _)⟩ =>
      decide (¬ t.pre.service.inbox.Processed event.eventId)
    | some ⟨_, event, _, .operation (.done _)⟩ =>
      (t.pre.service.inbox.findOne event.eventId).isSome
    | _ => true

theorem undisturbed_of_computed {t : Move (InboxPool δ ε) (InboxLabel δ ε)}
    (h : undisturbed t = true) : Undisturbed t := by
  refine ⟨?_, ?_⟩
  · rintro i now e hl ⟨⟨_, event, _, _⟩, err, hc, rfl, rfl⟩
    simpa [undisturbed, hl, hc] using h
  · rintro i now e hl ⟨⟨_, event, _, _⟩, u, hc, rfl, rfl⟩
    simpa [undisturbed, hl, hc, Option.isSome_iff_ne_none] using h

/-- A mark is the work of a call that returned 'processed'. -/
theorem returnedProcessed_of_processed {ts : List (Move (InboxPool δ ε) (InboxLabel δ ε))}
    {P : InboxPool δ ε} (hrun : system.Run ts P) :
    ∀ e, P.service.inbox.Processed e → P.ReturnedProcessed e := by
  refine hrun.invariant (I := fun P => ∀ e, P.service.inbox.Processed e →
    P.ReturnedProcessed e) ?_ ?_
  · rintro P ⟨hempty, -⟩ e he
    simp [Inbox.Processed, Inbox.findOne, hempty] at he
  · intro P a P' ih hs e he
    rw [returnedProcessed_step hs]
    rcases (processed_step hs e).1 he with ⟨h, -⟩ | ⟨-, h⟩
    · exact Or.inl (ih e h)
    · exact Or.inr h

theorem processed_of_returnedProcessed {ts : List (Move (InboxPool δ ε) (InboxLabel δ ε))}
    {P : InboxPool δ ε} (hrun : system.Run ts P) (hok : ∀ t ∈ ts, Undisturbed t) :
    ∀ e, P.ReturnedProcessed e → P.service.inbox.Processed e := by
  refine hrun.invariant_of_steps (C := Undisturbed) (I := fun P => ∀ e,
    P.ReturnedProcessed e → P.service.inbox.Processed e) ?_ ?_ hok
  · rintro P ⟨-, hnone⟩ e ⟨i, c, hc, -⟩
    simp [hnone i] at hc
  · intro P a P' ih hs hC e he
    rw [processed_step hs]
    rcases (returnedProcessed_step hs e).1 he with h | ⟨i, now, ha, h⟩
    · refine Or.inl ⟨ih e h, ?_⟩
      rintro ⟨i, now, ha, hf⟩
      exact hC.delete i now e ha hf (ih e h)
    · exact Or.inr ⟨hC.update i now e ha h, i, now, ha, h⟩

/-- A call begun after the event was answered 'processed', wherever the run ends. -/
theorem late_call {ts : List (Move (InboxPool δ ε) (InboxLabel δ ε))} {P : InboxPool δ ε}
    (hrun : system.Run ts P) (hok : ∀ t ∈ ts, Undisturbed t)
    {l r : List (Move (InboxPool δ ε) (InboxLabel δ ε))}
    {t : Move (InboxPool δ ε) (InboxLabel δ ε)} (hts : ts = l ++ t :: r) {i : ℕ}
    {eventType : EventType} {event : ReliableIntegrationEvent} {operation : Proc δ ε Unit}
    (hlabel : t.label = .process i eventType event operation)
    (hdone : t.pre.ReturnedProcessed event.eventId) :
    P.ReturnedProcessed event.eventId ∧ ∃ c, P.calls i = some c ∧ c.event = event ∧
      (c.pc = .findExisting ∨ c.pc = .returned .duplicate) := by
  induction hrun generalizing r with
  | nil => simp at hts
  | @snoc ts P P' a hrun hs ih =>
    rcases System.mem_snoc_split hts with ⟨-, rfl, -⟩ | ⟨r', hts'⟩
    · obtain rfl : a = _ := hlabel
      have hnew := step_process hs
      refine ⟨(returnedProcessed_step hs _).2 (Or.inl hdone), ?_⟩
      obtain ⟨-, rfl⟩ := hnew
      exact ⟨.process eventType event operation, by simp [set], rfl, Or.inl rfl⟩
    · have hok' : ∀ t ∈ ts, Undisturbed t := fun t ht => hok t (List.mem_append_left _ ht)
      obtain ⟨hret, c, hc, hev, hpc⟩ := ih hok' hts'
      refine ⟨(returnedProcessed_step hs _).2 (Or.inl hret), ?_⟩
      cases a with
      | process j =>
        obtain ⟨hnone, rfl⟩ := step_process hs
        have hij : i ≠ j := fun h => by simp [h, hnone] at hc
        exact ⟨c, by simpa [set, hij] using hc, hev, hpc⟩
      | step j now =>
        obtain ⟨d, s, d', hd, heff, rfl⟩ := step_step hs
        by_cases hij : i = j
        · subst hij
          obtain rfl : c = d := by simpa [hc] using hd
          have hmark := processed_of_returnedProcessed hrun hok' _ hret
          exact ⟨d', by simp [set], heff.event_eq.trans hev,
            Or.inr (heff.duplicate_of_processed hpc (hev ▸ hmark))⟩
        · exact ⟨c, by simpa [set, hij] using hc, hev, hpc⟩

/-- The law holds in exactly the undisturbed runs. -/
theorem processedForGood_iff {ts : List (Move (InboxPool δ ε) (InboxLabel δ ε))}
    {P : InboxPool δ ε} (hrun : system.Run ts P) :
    ProcessedForGood ts ↔ ∀ t ∈ ts, Undisturbed t := by
  constructor
  · intro hlaw t ht
    obtain ⟨l, -, hpre, hs⟩ := hrun.of_mem ht
    refine ⟨fun i now e hl hf hmark => ?_, fun i now e hl hsucc hnone => ?_⟩
    · have hret := returnedProcessed_of_processed hpre e hmark
      have hpost := hlaw.row t ht e ((returnedProcessed_step hs e).2 (Or.inl hret))
      rcases (processed_step hs e).1 hpost with ⟨-, hno⟩ | ⟨-, j, n, hl', c, u, hc, -, hpc⟩
      · exact hno ⟨i, now, hl, hf⟩
      · obtain ⟨rfl, rfl⟩ : i = j ∧ now = n := by simpa [hl] using hl'
        obtain ⟨d, err, hd, -, hpc'⟩ := hf
        obtain rfl : c = d := by simpa [hc] using hd
        simp [hpc] at hpc'
    · have hpost := hlaw.row t ht e ((returnedProcessed_step hs e).2 (Or.inr ⟨i, now, hl, hsucc⟩))
      rcases (processed_step hs e).1 hpost with ⟨h, -⟩ | ⟨h, -⟩
      · exact h.findOne_ne_none hnone
      · exact h hnone
  · intro hok
    refine ⟨fun t ht => ?_, fun l t r hts i eventType event operation hl hret u hu => ?_⟩
    · obtain ⟨l, r, hts⟩ := List.append_of_mem ht
      obtain ⟨r', hsub, hcut⟩ := hrun.cut hts List.mem_cons_self
      exact processed_of_returnedProcessed hcut fun v hv => hok v (hsub v hv)
    · obtain ⟨r', hsub, hcut⟩ := hrun.cut hts hu
      obtain ⟨-, c, hc, -, hpc⟩ := late_call hcut (fun v hv => hok v (hsub v hv)) rfl hl hret
      exact ⟨c, hc, hpc⟩

def emptyInbox : InboxPool Unit String := ⟨⟨[], ()⟩, fun _ => none⟩

def redelivered : ReliableIntegrationEvent := ⟨"5f0c2b1e-8a4d-4c57-9f6e-0d3b7a91c244", "corr-1"⟩

/-- One delivery runs from its lookup to its answer, then a redelivery is looked up. -/
def quietRun : List (InboxLabel Unit String) :=
  [.process 0 .driverReserved redelivered (.done ()), .step 0 10, .step 0 11, .step 0 12,
    .process 1 .driverReserved redelivered (.done ()), .step 1 13]

theorem processedForGood_quietRun : ProcessedForGood (system.moves emptyInbox quietRun) := by
  refine (processedForGood_iff (System.Run.of_replay ⟨rfl, fun _ => rfl⟩ rfl)).2 ?_
  exact fun t ht => undisturbed_of_computed (List.all_eq_true.1 (by decide) t ht)

/-- Two deliveries of one event overlap: the first succeeds and answers 'processed', then
the operation of the second throws and its failure path deletes the marked row. -/
def overlappingRun : List (InboxLabel Unit String) :=
  [.process 0 .driverReserved redelivered (.done ()), .step 0 10, .step 0 11,
    .process 1 .driverReserved redelivered (.throw "connection lost"), .step 1 12,
    .step 0 13, .step 1 14]

theorem not_processedForGood :
    ¬ ∀ ts (P : InboxPool Unit String), system.Run ts P → ProcessedForGood ts := by
  intro hlaw
  have hrun : system.Run (system.moves emptyInbox overlappingRun) _ :=
    .of_replay ⟨rfl, fun _ => rfl⟩ rfl
  obtain ⟨t, ht, hret, hgone⟩ : ∃ t ∈ system.moves emptyInbox overlappingRun,
      t.post.ReturnedProcessed redelivered.eventId ∧
      ¬ t.post.service.inbox.Processed redelivered.eventId :=
    ⟨(system.moves emptyInbox overlappingRun)[6], List.getElem_mem _,
      ⟨0, _, rfl, rfl, rfl⟩, by decide⟩
  exact hgone ((hlaw _ _ hrun).row t ht _ hret)

end InboxPool

end RouteFast
