import RouteFast.Tracking.Location
import Mathlib.Data.List.Chain

/-! The live position over time. The script compares a sample with the metadata of its
driver, which expires; `accepted` keeps what the metadata forgets. -/

namespace RouteFast

open Transition

/-- `a` was taken no later than `b`. -/
def DriverLocationView.NotAfter (a b : DriverLocationView) : Prop := a.recordedAt ≤ b.recordedAt

instance : DecidableRel DriverLocationView.NotAfter := fun _ _ => inferInstanceAs (Decidable (_ ≤ _))

instance : Trans DriverLocationView.NotAfter DriverLocationView.NotAfter
    DriverLocationView.NotAfter := ⟨fun hab hbc => Int.le_trans hab hbc⟩

namespace TrackingDb

variable {s : TrackingDb} {ttlSeconds : ℕ} {driverId : Uuid} {v : DriverLocationView}

/-- The driver's samples accepted as current, oldest first. -/
def acceptedOf (s : TrackingDb) (driverId : Uuid) : List DriverLocationView :=
  s.accepted.filter fun v => v.driverId = driverId

/-- What the driver's hash was last set to, expired or not. -/
def lastMeta (s : TrackingDb) (driverId : Uuid) : Option LocationMeta :=
  Table.find LocationMeta.driverId driverId s.live.metadata

/-- Each driver's accepted samples are in the order of their own times. -/
def NeverBack (s : TrackingDb) : Prop :=
  ∀ driverId, (s.acceptedOf driverId).Pairwise DriverLocationView.NotAfter

/-- The sample is not one from before its driver's expired metadata. -/
def InTime (s : TrackingDb) (v : DriverLocationView) : Prop :=
  ∀ m, s.lastMeta v.driverId = some m → m.expiresAt ≤ s.clock → m.recordedAtEpochMs ≤ v.recordedAt

instance : Decidable (s.InTime v) :=
  decidable_of_iff (∀ m ∈ s.lastMeta v.driverId, m.expiresAt ≤ s.clock →
    m.recordedAtEpochMs ≤ v.recordedAt) Iff.rfl

/-- The metadata, expired or not, is that of the last accepted sample. -/
structure Current (s : TrackingDb) : Prop where
  last : ∀ driverId, (s.lastMeta driverId).map LocationMeta.location =
    (s.acceptedOf driverId).getLast?
  epoch : ∀ driverId m, s.lastMeta driverId = some m →
    m.recordedAtEpochMs = m.location.recordedAt

theorem lookup_eq : s.live.lookup s.clock driverId =
    (s.lastMeta driverId).filter fun m => s.clock < m.expiresAt := rfl

/-- The guard, read against the metadata that may have expired. -/
theorem accepts_iff : s.live.accepts s.clock v = true ↔
    ∀ m, s.lastMeta v.driverId = some m → s.clock < m.expiresAt →
      m.recordedAtEpochMs ≤ v.recordedAt := by
  rw [LiveStore.accepts, lookup_eq]
  cases s.lastMeta v.driverId with
  | none => simp
  | some m =>
    by_cases hlive : s.clock < m.expiresAt
    · simp [Option.filter, hlive]
    · simp [Option.filter, hlive]

theorem acceptedOf_upsert : (s.upsert ttlSeconds v).acceptedOf driverId =
    s.acceptedOf driverId ++
      if s.live.accepts s.clock v ∧ v.driverId = driverId then [v] else [] := by
  by_cases hacc : s.live.accepts s.clock v = true
  · by_cases hid : v.driverId = driverId
    · simp [acceptedOf, upsert, hacc, hid]
    · simp [acceptedOf, upsert, hacc, hid]
  · simp [acceptedOf, upsert, hacc]

theorem lastMeta_upsert : (s.upsert ttlSeconds v).lastMeta driverId =
    if s.live.accepts s.clock v ∧ v.driverId = driverId then
      some ⟨v, v.recordedAt, s.clock + ttlSeconds * 1000⟩
    else s.lastMeta driverId := by
  by_cases hacc : s.live.accepts s.clock v = true
  · simp only [lastMeta, upsert, LiveStore.upsert, hacc, if_true, Table.find_save, true_and]
    rfl
  · simp [lastMeta, upsert, LiveStore.upsert, hacc]

theorem Current.upsert (h : s.Current) : (s.upsert ttlSeconds v).Current where
  last driverId := by
    rw [lastMeta_upsert, acceptedOf_upsert]
    split
    · simp
    · simpa using h.last driverId
  epoch driverId m hm := by
    rw [lastMeta_upsert] at hm
    split at hm
    · obtain rfl := Option.some.inj hm
      rfl
    · exact h.epoch driverId m hm

/-- Neither the queue nor the tables reach the live store. -/
theorem enqueue_live : (s.enqueue v).live = s.live ∧ (s.enqueue v).accepted = s.accepted := by
  unfold enqueue
  split <;> exact ⟨rfl, rfl⟩

theorem process_live {jobId : String} :
    (s.process jobId).live = s.live ∧ (s.process jobId).accepted = s.accepted := by
  unfold process
  split <;> exact ⟨rfl, rfl⟩

/-- In order so far, an upsert stays in order exactly if its sample is in time: the guard
sees to the metadata that is still there. -/
theorem neverBack_upsert (h : s.Current) :
    (s.upsert ttlSeconds v).NeverBack ↔ s.NeverBack ∧ s.InTime v := by
  have hlast : ∀ a, a ∈ (s.acceptedOf v.driverId).getLast? ↔
      ∃ m, s.lastMeta v.driverId = some m ∧ m.location = a := by
    intro a
    rw [← h.last, Option.mem_def, Option.map_eq_some_iff]
  constructor
  · intro hback
    have hbefore : s.NeverBack := by
      intro driverId
      have hd := hback driverId
      rw [acceptedOf_upsert] at hd
      exact (List.pairwise_append.1 hd).1
    refine ⟨hbefore, fun m hm hexp => ?_⟩
    -- an expired hash lets the sample through
    have hacc : s.live.accepts s.clock v = true := by
      rw [accepts_iff]
      intro m' hm' hlive
      obtain rfl : m = m' := by simpa [hm] using hm'
      exact absurd hexp (Nat.not_le.2 hlive)
    have hv := hback v.driverId
    rw [acceptedOf_upsert, if_pos ⟨hacc, rfl⟩, List.pairwise_append] at hv
    obtain ⟨-, -, hv⟩ := hv
    rw [h.epoch _ m hm]
    have hmem := List.mem_of_getLast? ((hlast m.location).2 ⟨m, hm, rfl⟩)
    exact hv m.location hmem v List.mem_cons_self
  · rintro ⟨hbefore, hin⟩ driverId
    rw [acceptedOf_upsert]
    split
    · next hacc =>
      obtain ⟨hacc, rfl⟩ := hacc
      rw [← List.isChain_iff_pairwise, List.isChain_append]
      refine ⟨(hbefore v.driverId).isChain, List.isChain_singleton v, ?_⟩
      intro a ha b hb
      obtain ⟨m, hm, rfl⟩ := (hlast a).1 ha
      obtain rfl : v = b := by simpa using hb
      rw [DriverLocationView.NotAfter, ← h.epoch _ m hm]
      by_cases hexp : m.expiresAt ≤ s.clock
      · exact hin m hm hexp
      · exact accepts_iff.1 hacc m hm (Nat.not_le.1 hexp)
    · simpa using hbefore driverId

end TrackingDb

inductive TrackingRequest where
  | update (input : UpdateDriverLocationInput) (now : Date)
  /-- A worker runs a queued job. -/
  | persist (jobId : String)
  | discard (jobId : String)
  /-- Redis' clock moves on. -/
  | tick (ms : ℕ)

def TrackingRequest.execute (ttlSeconds : ℕ) :
    TrackingRequest → Proc TrackingDb ServiceError Unit
  | .update input now => (updateDriverLocation ttlSeconds input now).within id fun s _ => s
  | .persist jobId => .write (TrackingDb.process jobId) (.done ())
  | .discard jobId => .write (TrackingDb.discard jobId) (.done ())
  | .tick ms => .write (fun s => { s with clock := s.clock + ms }) (.done ())

abbrev TrackingPool := Pool TrackingDb ServiceError Unit TrackingRequest

abbrev TrackingMove := Move TrackingPool (PoolLabel TrackingRequest)

namespace TrackingPool

/-- Any number of requests, from stores with nothing in them. -/
def system (ttlSeconds : ℕ) : System TrackingPool (PoolLabel TrackingRequest) :=
  Pool.system (fun s => ∃ clock, s = .empty clock) (TrackingRequest.execute ttlSeconds)

variable {ttlSeconds : ℕ}

/-- If the step is an upsert, its sample is in time. -/
def InTime (t : TrackingMove) : Prop :=
  ∀ i input now rest v, t.label = .advance i →
    t.pre.threads i = some ⟨.update input now, rest, none⟩ → input.view now = .ok v →
    t.pre.shared.InTime v

/-- `InTime`, computed from the thread that takes the step. -/
def inTime (t : TrackingMove) : Bool :=
  match t.label with
  | .spawn .. => true
  | .advance i =>
    match t.pre.threads i with
    | some ⟨.update input now, _, none⟩ =>
      match input.view now with
      | .ok v => t.pre.shared.InTime v
      | .error _ => true
    | _ => true

theorem inTime_of_computed {t : TrackingMove} (h : inTime t = true) : InTime t := by
  intro i input now rest v hl hi hv
  simpa [inTime, hl, hi, hv] using h

/-- What is left of a request: all of it, the enqueue of a sample, or nothing. -/
theorem residual_cases {p : TrackingRequest} {seen : Option TrackingDb}
    {rest : Proc TrackingDb ServiceError Unit}
    (h : Pool.Residual (TrackingRequest.execute ttlSeconds) p seen rest) :
    (seen = none ∧ rest = p.execute ttlSeconds) ∨ rest.finished = true ∨
    ∃ db input now v, seen = some db ∧ p = .update input now ∧ input.view now = .ok v ∧
      rest = .write (TrackingDb.enqueue v) (.done ()) := by
  induction h with
  | start => exact Or.inl ⟨rfl, rfl⟩
  | @next seen effect k db h ih =>
    right
    rcases ih with ⟨-, hrest⟩ | hfin | ⟨-, -, -, v, -, -, -, hrest⟩
    · cases p with
      | update input now =>
        cases hv : input.view now with
        | error e => simp [TrackingRequest.execute, updateDriverLocation, hv, Proc.within] at hrest
        | ok v =>
          simp only [TrackingRequest.execute, updateDriverLocation, hv, Proc.within, Proc.write]
            at hrest
          obtain ⟨-, rfl⟩ := Proc.step.inj hrest
          exact Or.inr ⟨db, input, now, v, rfl, rfl, hv, rfl⟩
      | persist jobId | discard jobId | tick ms =>
        obtain ⟨-, rfl⟩ := Proc.step.inj hrest
        exact Or.inl rfl
    · cases hfin
    · obtain ⟨-, rfl⟩ := Proc.step.inj hrest
      exact Or.inl rfl

/-- The steps that requests are made of, and what is left after each. -/
inductive Effect (ttlSeconds : ℕ) (p : TrackingRequest) (seen : Option TrackingDb) :
    (TrackingDb → TrackingDb) → (TrackingDb → Proc TrackingDb ServiceError Unit) → Prop
  | upsert {input : UpdateDriverLocationInput} {now : Date} {v : DriverLocationView} :
      p = .update input now → seen = none → input.view now = .ok v →
      Effect ttlSeconds p seen (TrackingDb.upsert ttlSeconds v)
        fun _ => .write (TrackingDb.enqueue v) (.done ())
  | enqueue {input : UpdateDriverLocationInput} {now : Date} {v : DriverLocationView}
      {db : TrackingDb} : p = .update input now → seen = some db → input.view now = .ok v →
      Effect ttlSeconds p seen (TrackingDb.enqueue v) fun _ => .done ()
  | persist {jobId : String} : p = .persist jobId →
      Effect ttlSeconds p seen (TrackingDb.process jobId) fun _ => .done ()
  | discard {jobId : String} : p = .discard jobId →
      Effect ttlSeconds p seen (TrackingDb.discard jobId) fun _ => .done ()
  | tick {ms : ℕ} : p = .tick ms →
      Effect ttlSeconds p seen (fun s => { s with clock := s.clock + ms }) fun _ => .done ()

theorem residual_step {p : TrackingRequest} {seen : Option TrackingDb}
    {effect : TrackingDb → TrackingDb} {next : TrackingDb → Proc TrackingDb ServiceError Unit}
    (h : Pool.Residual (TrackingRequest.execute ttlSeconds) p seen (.step effect next)) :
    Effect ttlSeconds p seen effect next := by
  rcases residual_cases h with ⟨rfl, hrest⟩ | hfin | ⟨db, input, now, v, rfl, rfl, hv, hrest⟩
  · cases p with
    | update input now =>
      cases hv : input.view now with
      | error e => simp [TrackingRequest.execute, updateDriverLocation, hv, Proc.within] at hrest
      | ok v =>
        simp only [TrackingRequest.execute, updateDriverLocation, hv, Proc.within] at hrest
        obtain ⟨rfl, rfl⟩ := Proc.step.inj hrest
        exact .upsert rfl rfl hv
    | persist jobId =>
      obtain ⟨rfl, rfl⟩ := Proc.step.inj hrest
      exact .persist rfl
    | discard jobId =>
      obtain ⟨rfl, rfl⟩ := Proc.step.inj hrest
      exact .discard rfl
    | tick ms =>
      obtain ⟨rfl, rfl⟩ := Proc.step.inj hrest
      exact .tick rfl
  · cases hfin
  · obtain ⟨rfl, rfl⟩ := Proc.step.inj hrest
    exact .enqueue rfl rfl hv

/-- A step is an upsert, or leaves the live store alone. -/
theorem Effect.upsert_or_same {p : TrackingRequest} {seen : Option TrackingDb}
    {effect : TrackingDb → TrackingDb} {next : TrackingDb → Proc TrackingDb ServiceError Unit}
    (h : Effect ttlSeconds p seen effect next) :
    (∃ input now v, p = .update input now ∧ seen = none ∧ input.view now = .ok v ∧
      effect = TrackingDb.upsert ttlSeconds v) ∨
    (∀ input now, p = .update input now → seen ≠ none) ∧
      ∀ s, (effect s).live = s.live ∧ (effect s).accepted = s.accepted := by
  cases h with
  | upsert hp hseen hv => exact Or.inl ⟨_, _, _, hp, hseen, hv, rfl⟩
  | enqueue hp hseen hv =>
    exact Or.inr ⟨fun _ _ _ => by simp [hseen], fun s => TrackingDb.enqueue_live⟩
  | persist hp => exact Or.inr ⟨by simp [hp], fun s => TrackingDb.process_live⟩
  | discard hp | tick hp => exact Or.inr ⟨by simp [hp], fun s => ⟨rfl, rfl⟩⟩

theorem acceptedOf_congr {s s' : TrackingDb} (h : s'.accepted = s.accepted) (driverId : Uuid) :
    s'.acceptedOf driverId = s.acceptedOf driverId := by
  rw [TrackingDb.acceptedOf, h, TrackingDb.acceptedOf]

theorem lastMeta_congr {s s' : TrackingDb} (h : s'.live = s.live) (driverId : Uuid) :
    s'.lastMeta driverId = s.lastMeta driverId := by
  rw [TrackingDb.lastMeta, h, TrackingDb.lastMeta]

theorem current_of_run {ts : List TrackingMove} {P : TrackingPool}
    (hrun : (system ttlSeconds).Run ts P) : P.shared.Current := by
  refine Pool.run_invariant ?_ ?_ hrun
  · rintro s ⟨clock, rfl⟩
    exact ⟨fun driverId => rfl, fun driverId m hm => by cases hm⟩
  · intro p seen effect next s hres h
    rcases (residual_step hres).upsert_or_same with ⟨_, _, v, -, -, -, rfl⟩ | ⟨-, hsame⟩
    · exact h.upsert
    · obtain ⟨hlive, hacc⟩ := hsame s
      refine ⟨fun driverId => ?_, fun driverId m hm => ?_⟩
      · rw [lastMeta_congr hlive, acceptedOf_congr hacc, h.last]
      · rw [lastMeta_congr hlive] at hm
        exact h.epoch driverId m hm

/-- A step keeps the order exactly if it upserts no late sample over expired metadata. -/
theorem neverBack_step {ts : List TrackingMove} {P P' : TrackingPool}
    {a : PoolLabel TrackingRequest} (hrun : (system ttlSeconds).Run ts P)
    (hs : (system ttlSeconds).step P a = some P') :
    P'.shared.NeverBack ↔ P.shared.NeverBack ∧ InTime ⟨P, a, P'⟩ := by
  have hres := Pool.run_residual hrun
  rcases Pool.step_cases hs with ⟨i, p, rfl, -, rfl⟩ | ⟨i, p, effect, next, seen, rfl, hi, rfl⟩
  · refine ⟨fun h => ⟨h, ?_⟩, And.left⟩
    intro j input now rest v hj
    cases hj
  rcases (residual_step (hres i _ hi)).upsert_or_same with
    ⟨input, now, v, rfl, rfl, hv, rfl⟩ | ⟨hnot, hsame⟩
  · refine (TrackingDb.neverBack_upsert (current_of_run hrun)).trans (and_congr_right fun _ => ?_)
    constructor
    · rintro hin j input' now' rest v' ⟨⟩ hj hv'
      obtain ⟨⟨rfl, rfl⟩, -⟩ : (input = input' ∧ now = now') ∧ _ = rest := by
        simpa [hi] using hj
      obtain rfl := Except.ok.inj (hv.symm.trans hv')
      exact hin
    · exact fun hin => hin i input now _ v rfl hi hv
  · have hback : TrackingDb.NeverBack (effect P.shared) ↔ P.shared.NeverBack :=
      forall_congr' fun driverId => by rw [acceptedOf_congr (hsame P.shared).2]
    refine hback.trans ⟨fun h => ⟨h, ?_⟩, And.left⟩
    rintro j input now rest v ⟨⟩ hj -
    obtain ⟨hp, -, hseen⟩ := (Thread.mk.injEq ..).mp (Option.some.inj (hi.symm.trans hj))
    exact absurd hseen (hnot input now hp)

/-- The accepted samples are in order at the end of exactly the runs in which no sample from
before a driver's expired metadata is upserted. -/
theorem neverBack_run_iff {ts : List TrackingMove} {P : TrackingPool}
    (hrun : (system ttlSeconds).Run ts P) : P.shared.NeverBack ↔ ∀ t ∈ ts, InTime t := by
  induction hrun with
  | @nil P h =>
    obtain ⟨⟨clock, hempty⟩, -⟩ := h
    rw [hempty]
    simp [TrackingDb.NeverBack, TrackingDb.acceptedOf, TrackingDb.empty]
  | @snoc ts P P' a hrun hs ih =>
    rw [neverBack_step hrun hs, ih]
    simp [or_imp, forall_and]

section Runs

/-- A sample taken at `recordedAt`, by a driver at the origin. -/
def sampleAt (recordedAt : ℤ) : UpdateDriverLocationInput :=
  ⟨"driver-1", 0, 0, none, none, some (some recordedAt)⟩

def emptyTracking : TrackingPool := ⟨.empty 0, fun _ => none⟩

/-- The late sample finds the metadata of the newer one. -/
def lateBeforeExpiry : List (PoolLabel TrackingRequest) :=
  [.spawn 0 (.update (sampleAt 100) 1000), .advance 0, .advance 0,
    .spawn 1 (.persist "driver-1-100"), .advance 1,
    .spawn 2 (.update (sampleAt 50) 1001), .advance 2, .advance 2]

theorem neverBack_lateBeforeExpiry : ∃ P,
    (system 120).replay emptyTracking lateBeforeExpiry = some P ∧ P.shared.accepted.length = 1 ∧
      P.shared.NeverBack := by
  have hrun : (system 120).Run ((system 120).moves emptyTracking lateBeforeExpiry) _ :=
    .of_replay ⟨⟨0, rfl⟩, fun _ => rfl⟩ rfl
  refine ⟨_, rfl, rfl, (neverBack_run_iff hrun).2 fun t ht => inTime_of_computed ?_⟩
  exact List.all_eq_true.1 (by decide) t ht

/-- Two minutes of silence, then the late sample. -/
def lateAfterExpiry : List (PoolLabel TrackingRequest) :=
  [.spawn 0 (.update (sampleAt 100) 1000), .advance 0, .advance 0,
    .spawn 1 (.tick 120000), .advance 1,
    .spawn 2 (.update (sampleAt 50) 121000), .advance 2, .advance 2]

/-- Both samples are accepted, the older one last. -/
theorem not_neverBack : ¬ ∀ ts P, (system 120).Run ts P → P.shared.NeverBack := by
  intro hlaw
  have hrun : (system 120).Run ((system 120).moves emptyTracking lateAfterExpiry) _ :=
    .of_replay ⟨⟨0, rfl⟩, fun _ => rfl⟩ rfl
  have hback := hlaw _ _ hrun "driver-1"
  revert hback
  decide

end Runs

end TrackingPool

end RouteFast
