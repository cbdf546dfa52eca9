import Mathlib
import RouteFast.Tracking.Live

/-! The hot sample against the durable ones. Four rules pick a winner: the script's guard,
the job id, the conflict clause of the history, and the guard of the latest row. They
agree on the most recent sample, unless several samples have its time. -/

namespace RouteFast

open Transition

variable {ttlSeconds : ℕ} {driverId : Uuid} {samples : List DriverLocationView}
  {v w : DriverLocationView} {s : TrackingDb}

/-- A most recent sample. -/
def Newest (samples : List DriverLocationView) (v : DriverLocationView) : Prop :=
  v ∈ samples ∧ ∀ w ∈ samples, w.NotAfter v

/-- The most recent samples are one and the same. -/
def Unambiguous (samples : List DriverLocationView) : Prop :=
  ∀ v w, Newest samples v → Newest samples w → v = w

theorem exists_newest (h : samples ≠ []) : ∃ v, Newest samples v := by
  obtain ⟨v, hv, hmax⟩ := samples.toFinset.exists_max_image DriverLocationView.recordedAt
    (List.toFinset_nonempty_iff samples |>.2 h)
  exact ⟨v, List.mem_toFinset.1 hv, fun w hw => hmax w (List.mem_toFinset.2 hw)⟩

/-- A sample as recent as a newest one is a newest one. -/
theorem Newest.of_le (h : Newest samples v) (hw : w ∈ samples) (hle : v.NotAfter w) :
    Newest samples w :=
  ⟨hw, fun x hx => le_trans (h.2 x hx) hle⟩

theorem Newest.snoc (h : Newest samples v) :
    Newest (samples ++ [w]) (if v.recordedAt ≤ w.recordedAt then w else v) := by
  split
  · next hle =>
    refine ⟨by simp, fun x hx => ?_⟩
    rcases List.mem_append.1 hx with hx | hx
    · exact le_trans (h.2 x hx) hle
    · exact le_of_eq (by rw [List.mem_singleton.1 hx])
  · next hlt =>
    refine ⟨List.mem_append_left _ h.1, fun x hx => ?_⟩
    rcases List.mem_append.1 hx with hx | hx
    · exact h.2 x hx
    · rw [List.mem_singleton.1 hx]
      exact le_of_lt (not_le.1 hlt)

/-- Samples of one driver share a job exactly if they share their time. -/
theorem jobId_inj (hv : v.driverId = w.driverId) : v.jobId = w.jobId ↔
    v.recordedAt = w.recordedAt := by
  unfold DriverLocationView.jobId
  rw [hv, String.append_right_inj]
  exact ⟨fun h => Int.repr_injective h, fun h => by rw [h]⟩

namespace TrackingDb

/-- The live sample, the latest row and the newest history row are all `newest`. -/
structure Agreed (s : TrackingDb) (driverId : Uuid) (newest : Option DriverLocationView) :
    Prop where
  live : s.live.get s.clock driverId = newest
  latest : s.getLatest driverId = newest
  history : ∀ limit, 0 < limit → (s.getHistory driverId limit).head? = newest

/-- The driver's metadata has not expired. -/
def Unexpired (s : TrackingDb) (driverId : Uuid) : Prop :=
  ∀ m, s.lastMeta driverId = some m → s.clock < m.expiresAt

/-- No driver's metadata has expired. -/
def Fresh (s : TrackingDb) : Prop := ∀ m ∈ s.live.metadata, s.clock < m.expiresAt

theorem Fresh.unexpired (h : s.Fresh) : s.Unexpired driverId :=
  fun m hm => h m (Table.mem_of_find hm)

theorem fresh_process {jobId : String} : (s.process jobId).Fresh ↔ s.Fresh := by
  unfold process
  split <;> rfl

theorem fresh_enqueue : (s.enqueue v).Fresh ↔ s.Fresh := by
  unfold enqueue
  split <;> rfl

theorem Fresh.upsert (h : s.Fresh) (httl : 0 < ttlSeconds) : (s.upsert ttlSeconds v).Fresh := by
  intro m hm
  simp only [TrackingDb.upsert, LiveStore.upsert] at hm ⊢
  split at hm
  · rcases Table.mem_of_mem_save hm with rfl | hm
    · exact Nat.lt_add_of_pos_right (Nat.mul_pos httl (by decide))
    · exact h m hm
  · exact h m hm

/-- What the stores hold of one driver's samples. `pending` are those on their way to the
queue. -/
structure Holds (driverId : Uuid) (samples : List DriverLocationView)
    (pending : DriverLocationView → Prop) (s : TrackingDb) : Prop where
  live : (samples = [] ∧ s.lastMeta driverId = none) ∨ ∃ m, s.lastMeta driverId = some m ∧
    Newest samples m.location ∧ m.recordedAtEpochMs = m.location.recordedAt
  jobs : ∀ job ∈ s.jobs, job.data ∈ samples ∧ job.jobId = job.data.jobId
  history : ∀ row ∈ s.history, row ∈ samples
  keys : (s.history.map historyKey).Nodup
  latest : ∀ row ∈ s.latest, row ∈ samples
  processed : ∀ job ∈ s.jobs, job.processed = true →
    ∃ row ∈ s.history, row.recordedAt = job.data.recordedAt
  kept : ∀ v ∈ samples, pending v ∨ (∃ job ∈ s.jobs, job.data.recordedAt = v.recordedAt) ∨
    ∃ row ∈ s.history, row.recordedAt = v.recordedAt
  upToDate : ∀ row ∈ s.history, ∃ l, s.getLatest driverId = some l ∧ row.NotAfter l

variable {pending pending' : DriverLocationView → Prop} {jobId : String}

theorem Holds.upsert (h : s.Holds driverId samples pending) (hv : v.driverId = driverId)
    (hexp : s.Unexpired driverId) (hpending : ∀ w, pending w ∨ w = v → pending' w) :
    (s.upsert ttlSeconds v).Holds driverId (samples ++ [v]) pending' where
  live := by
    right
    rw [lastMeta_upsert]
    rcases h.live with ⟨rfl, hnone⟩ | ⟨m, hm, hnew, hepoch⟩
    · have hacc : s.live.accepts s.clock v = true := by
        rw [accepts_iff, hv, hnone]
        simp
      exact ⟨_, if_pos ⟨hacc, hv⟩, ⟨by simp, by simp [DriverLocationView.NotAfter]⟩, rfl⟩
    · have hguard : s.live.accepts s.clock v = true ↔ m.location.recordedAt ≤ v.recordedAt := by
        rw [accepts_iff, hv, hm, ← hepoch]
        simp [hexp m hm]
      have hsnoc := hnew.snoc (w := v)
      by_cases hle : m.location.recordedAt ≤ v.recordedAt
      · rw [if_pos hle] at hsnoc
        exact ⟨_, if_pos ⟨hguard.2 hle, hv⟩, hsnoc, rfl⟩
      · rw [if_neg hle] at hsnoc
        exact ⟨m, by rw [if_neg fun hacc => hle (hguard.1 hacc.1), hm], hsnoc, hepoch⟩
  jobs job hjob := ⟨List.mem_append_left _ (h.jobs job hjob).1, (h.jobs job hjob).2⟩
  history row hrow := List.mem_append_left _ (h.history row hrow)
  keys := h.keys
  latest row hrow := List.mem_append_left _ (h.latest row hrow)
  processed := h.processed
  kept w hw := by
    rcases List.mem_append.1 hw with hw | hw
    · exact (h.kept w hw).imp_left fun hp => hpending w (Or.inl hp)
    · exact Or.inl (hpending w (Or.inr (List.mem_singleton.1 hw)))
  upToDate := h.upToDate

theorem Holds.enqueue (h : s.Holds driverId samples pending)
    (hdriver : ∀ w ∈ samples, w.driverId = driverId) (hv : v ∈ samples)
    (hpending : ∀ w, pending w → pending' w ∨ w = v) :
    (s.enqueue v).Holds driverId samples pending' := by
  unfold TrackingDb.enqueue
  cases hfind : Table.find PersistJob.jobId v.jobId s.jobs with
  | some job =>
    refine { h with kept := fun w hw => ?_ }
    rcases h.kept w hw with hp | hrest
    · rcases hpending w hp with hp | rfl
      · exact Or.inl hp
      · have hjob := Table.mem_of_find hfind
        have hid := (h.jobs job hjob).2.symm.trans (Table.key_of_find hfind)
        have hsame : job.data.driverId = w.driverId := by
          rw [hdriver _ (h.jobs job hjob).1, hdriver w hv]
        exact Or.inr (Or.inl ⟨job, hjob, (jobId_inj hsame).1 hid⟩)
    · exact Or.inr hrest
  | none =>
    refine
      { h with
        jobs := fun job hjob => ?_
        processed := fun job hjob hp => ?_
        kept := fun w hw => ?_ }
    · rcases List.mem_append.1 hjob with hjob | hjob
      · exact h.jobs job hjob
      · rw [List.mem_singleton.1 hjob]
        exact ⟨hv, rfl⟩
    · rcases List.mem_append.1 hjob with hjob | hjob
      · exact h.processed job hjob hp
      · rw [List.mem_singleton.1 hjob] at hp
        cases hp
    · rcases h.kept w hw with hp | ⟨job, hjob, htime⟩ | hrow
      · rcases hpending w hp with hp | rfl
        · exact Or.inl hp
        · exact Or.inr (Or.inl ⟨⟨w.jobId, w, false⟩, by simp, rfl⟩)
      · exact Or.inr (Or.inl ⟨job, List.mem_append_left _ hjob, htime⟩)
      · exact Or.inr (Or.inr hrow)

theorem mem_history_append (h : w ∈ s.history) : w ∈ (s.append v).history := by
  simp only [append]
  split
  · exact h
  · exact List.mem_append_left _ h

theorem of_mem_history_append (h : w ∈ (s.append v).history) : w ∈ s.history ∨ w = v := by
  simp only [append] at h
  split at h
  · exact Or.inl h
  · simpa using h

/-- After an append the sample's time is in the history. -/
theorem exists_history_append : ∃ row ∈ (s.append v).history, row.recordedAt = v.recordedAt := by
  simp only [append]
  split
  · next row hfind =>
    have hkey : historyKey row = historyKey v := Table.key_of_find hfind
    exact ⟨row, Table.mem_of_find hfind, (Prod.mk.inj hkey).2⟩
  · exact ⟨v, by simp, rfl⟩

theorem keys_append (h : (s.history.map historyKey).Nodup) :
    ((s.append v).history.map historyKey).Nodup := by
  simp only [append]
  split
  · exact h
  · next hfind => exact Table.nodup_append_of_find h hfind

theorem of_mem_latest_append (h : w ∈ (s.append v).latest) : w ∈ s.latest ∨ w = v := by
  simp only [append] at h
  split at h
  · split at h
    · exact (Table.mem_of_mem_save h).symm
    · exact Or.inl h
  · simpa using h

/-- The latest row after an append: the sample, unless the row was more recent. -/
theorem getLatest_append : (s.append v).getLatest v.driverId =
    some (match s.getLatest v.driverId with
      | some row => if row.recordedAt ≤ v.recordedAt then v else row
      | none => v) := by
  simp only [getLatest, append]
  cases hfind : Table.find DriverLocationView.driverId v.driverId s.latest with
  | none => simp [Table.find_append_singleton, hfind]
  | some row =>
    by_cases hle : row.recordedAt ≤ v.recordedAt
    · simp [hle]
    · simp [hle, hfind]

/-- An append only makes the latest row more recent. -/
theorem upToDate_append (h : ∀ row ∈ s.history, ∃ l, s.getLatest v.driverId = some l ∧
    row.NotAfter l) : ∀ row ∈ (s.append v).history,
      ∃ l, (s.append v).getLatest v.driverId = some l ∧ row.NotAfter l := by
  intro row hrow
  rw [getLatest_append]
  refine ⟨_, rfl, ?_⟩
  rcases of_mem_history_append hrow with hrow | rfl
  · obtain ⟨l, hl, hle⟩ := h row hrow
    rw [hl]
    dsimp only
    split
    · next hlv => exact le_trans hle hlv
    · exact hle
  · cases s.getLatest row.driverId with
    | none => exact le_refl row.recordedAt
    | some l =>
      dsimp only
      split
      · exact le_refl row.recordedAt
      · next hlt => exact le_of_lt (not_le.1 hlt)

theorem Holds.process (h : s.Holds driverId samples pending)
    (hdriver : ∀ w ∈ samples, w.driverId = driverId) :
    (s.process jobId).Holds driverId samples pending := by
  unfold TrackingDb.process
  cases hfind : Table.find PersistJob.jobId jobId s.jobs with
  | none => exact h
  | some job =>
    obtain ⟨hdata, hid⟩ := h.jobs job (Table.mem_of_find hfind)
    have hself : job.data.driverId = driverId := hdriver _ hdata
    have hjobs : ∀ j ∈ Table.update PersistJob.jobId jobId
        (fun job => { job with processed := true }) s.jobs, ∃ j₀ ∈ s.jobs, j.jobId = j₀.jobId ∧
          j.data = j₀.data ∧ (j.processed = true → j₀.processed = true ∨ j.jobId = jobId) := by
      intro j hj
      obtain ⟨j₀, hj₀, rfl⟩ := List.mem_map.1 hj
      refine ⟨j₀, hj₀, ?_⟩
      split
      · next heq => exact ⟨rfl, rfl, fun _ => Or.inr heq⟩
      · exact ⟨rfl, rfl, Or.inl⟩
    refine
      { live := h.live
        jobs := fun j hj => ?_
        history := fun row hrow => ?_
        keys := keys_append h.keys
        latest := fun row hrow => ?_
        processed := fun j hj hp => ?_
        kept := fun w hw => ?_
        upToDate := ?_ }
    · obtain ⟨j₀, hj₀, hjid, hjdata, -⟩ := hjobs j hj
      rw [hjid, hjdata]
      exact h.jobs j₀ hj₀
    · rcases of_mem_history_append hrow with hrow | rfl
      · exact h.history row hrow
      · exact hdata
    · rcases of_mem_latest_append hrow with hrow | rfl
      · exact h.latest row hrow
      · exact hdata
    · obtain ⟨j₀, hj₀, hjid, hjdata, hran⟩ := hjobs j hj
      rw [hjdata]
      rcases hran hp with hp₀ | heq
      · obtain ⟨row, hrow, htime⟩ := h.processed j₀ hj₀ hp₀
        exact ⟨row, mem_history_append hrow, htime⟩
      · -- a job with this id has the time of the one that ran
        obtain ⟨hdata₀, hid₀⟩ := h.jobs j₀ hj₀
        have hsame : j₀.data.jobId = job.data.jobId := by
          rw [← hid₀, ← hid, ← hjid, heq, Table.key_of_find hfind]
        have hdrivers : j₀.data.driverId = job.data.driverId := (hdriver _ hdata₀).trans hself.symm
        rw [(jobId_inj hdrivers).1 hsame]
        exact exists_history_append
    · rcases h.kept w hw with hp | ⟨j, hj, htime⟩ | ⟨row, hrow, htime⟩
      · exact Or.inl hp
      · refine Or.inr (Or.inl ⟨_, List.mem_map_of_mem hj, ?_⟩)
        split <;> exact htime
      · exact Or.inr (Or.inr ⟨row, mem_history_append hrow, htime⟩)
    · rw [← hself]
      exact upToDate_append (hself ▸ h.upToDate)

theorem Holds.discard (h : s.Holds driverId samples pending) :
    (s.discard jobId).Holds driverId samples pending := by
  refine
    { h with
      jobs := fun job hjob => ?_
      processed := fun job hjob => ?_
      kept := fun w hw => ?_ }
  · exact h.jobs job (List.mem_filter.1 hjob).1
  · exact h.processed job (List.mem_filter.1 hjob).1
  · rcases h.kept w hw with hp | ⟨job, hjob, htime⟩ | hrow
    · exact Or.inl hp
    · by_cases hgone : job.jobId = jobId ∧ job.processed
      · -- only a job that has run is forgotten
        obtain ⟨row, hrow, hrun⟩ := h.processed job hjob hgone.2
        exact Or.inr (Or.inr ⟨row, hrow, hrun.trans htime⟩)
      · refine Or.inr (Or.inl ⟨job, List.mem_filter.2 ⟨hjob, ?_⟩, htime⟩)
        simpa [imp_iff_not_or] using hgone
    · exact Or.inr (Or.inr hrow)

theorem Holds.tick (h : s.Holds driverId samples pending) {ms : ℕ} :
    ({ s with clock := s.clock + ms } : TrackingDb).Holds driverId samples pending :=
  ⟨h.live, h.jobs, h.history, h.keys, h.latest, h.processed, h.kept, h.upToDate⟩

theorem Holds.mono (h : s.Holds driverId samples pending)
    (hpending : ∀ w, pending w → pending' w) : s.Holds driverId samples pending' :=
  { h with kept := fun w hw => (h.kept w hw).imp_left (hpending w) }

/-- The newest history row comes first. -/
theorem head_getHistory {limit : ℕ} (hlimit : 0 < limit) (hself : v.driverId = driverId)
    (hv : v ∈ s.history) : ∃ first ∈ s.history, (s.getHistory driverId limit).head? = some first ∧
      v.NotAfter first := by
  let newer (a b : DriverLocationView) : Prop := b.recordedAt ≤ a.recordedAt
  have : Std.Total newer := ⟨fun a b => le_total b.recordedAt a.recordedAt⟩
  have : IsTrans _ newer := ⟨fun a b c hab hbc => le_trans hbc hab⟩
  let rows := (s.history.filter fun row => row.driverId = driverId).insertionSort newer
  have hmem : ∀ row, row ∈ rows ↔ row ∈ s.history ∧ row.driverId = driverId := by
    intro row
    rw [(List.perm_insertionSort newer _).mem_iff, List.mem_filter, decide_eq_true_eq]
  have hsorted : rows.Pairwise newer := List.pairwise_insertionSort newer _
  have hhead : (s.getHistory driverId limit).head? = rows.head? := by
    rw [getHistory, List.head?_take, if_neg hlimit.ne']
  rw [hhead]
  have hvrows := (hmem v).2 ⟨hv, hself⟩
  revert hvrows hsorted
  cases hrows : rows with
  | nil => simp
  | cons first rest =>
    intro hsorted hvrows
    refine ⟨first, ((hmem first).1 (by simp [hrows])).1, rfl, ?_⟩
    rcases List.mem_cons.1 hvrows with rfl | hrest
    · exact le_refl v.recordedAt
    · exact (List.pairwise_cons.1 hsorted).1 v hrest

/-- With all jobs run, the three places hold a most recent sample each. -/
theorem Holds.newest (h : s.Holds driverId samples pending)
    (hdriver : ∀ w ∈ samples, w.driverId = driverId) (hexp : s.Unexpired driverId)
    (hsent : ∀ w, ¬ pending w) (hjobs : ∀ job ∈ s.jobs, job.processed = true)
    (hne : samples ≠ []) :
    (∃ v, s.live.get s.clock driverId = some v ∧ Newest samples v) ∧
    (∃ v, s.getLatest driverId = some v ∧ Newest samples v) ∧
    ∀ limit, 0 < limit → ∃ v, (s.getHistory driverId limit).head? = some v ∧ v ∈ s.history ∧
      Newest samples v := by
  obtain ⟨m, hm, hnew, -⟩ := h.live.resolve_left fun hnil => hne hnil.1
  -- the time of the most recent sample has reached the history
  obtain ⟨row, hrow, htime⟩ : ∃ row ∈ s.history, row.recordedAt = m.location.recordedAt := by
    rcases h.kept _ hnew.1 with hp | ⟨job, hjob, htime⟩ | hrow
    · exact absurd hp (hsent _)
    · obtain ⟨row, hrow, hrun⟩ := h.processed job hjob (hjobs job hjob)
      exact ⟨row, hrow, hrun.trans htime⟩
    · exact hrow
  have hrownew : Newest samples row := hnew.of_le (h.history row hrow) (le_of_eq htime.symm)
  refine ⟨⟨m.location, ?_, hnew⟩, ?_, fun limit hlimit => ?_⟩
  · simp [LiveStore.get, lookup_eq, hm, Option.filter, hexp m hm]
  · obtain ⟨l, hl, hle⟩ := h.upToDate row hrow
    exact ⟨l, hl, hrownew.of_le (h.latest l (Table.mem_of_find hl)) hle⟩
  · obtain ⟨first, hfirst, hhead, hle⟩ := head_getHistory hlimit (hdriver row hrownew.1) hrow
    exact ⟨first, hhead, hfirst, hrownew.of_le (h.history first hfirst) hle⟩

theorem Holds.agreed (h : s.Holds driverId samples pending)
    (hdriver : ∀ w ∈ samples, w.driverId = driverId) (hexp : s.Unexpired driverId)
    (hsent : ∀ w, ¬ pending w) (hjobs : ∀ job ∈ s.jobs, job.processed = true)
    (hone : Unambiguous samples) (hv : Newest samples v) : s.Agreed driverId (some v) := by
  obtain ⟨⟨a, ha, hanew⟩, ⟨b, hb, hbnew⟩, hhistory⟩ :=
    h.newest hdriver hexp hsent hjobs (List.ne_nil_of_mem hv.1)
  refine ⟨by rw [ha, hone a v hanew hv], by rw [hb, hone b v hbnew hv], fun limit hlimit => ?_⟩
  obtain ⟨c, hc, -, hcnew⟩ := hhistory limit hlimit
  rw [hc, hone c v hcnew hv]

theorem Holds.agreed_nil (h : s.Holds driverId [] pending) : s.Agreed driverId none := by
  have hlatest : s.latest = [] := List.eq_nil_iff_forall_not_mem.2 fun row hrow => by
    simpa using h.latest row hrow
  have hhistory : s.history = [] := List.eq_nil_iff_forall_not_mem.2 fun row hrow => by
    simpa using h.history row hrow
  have hmeta : s.lastMeta driverId = none := by
    rcases h.live with ⟨-, hnone⟩ | ⟨m, -, hnew, -⟩
    · exact hnone
    · cases hnew.1
  exact ⟨by simp [LiveStore.get, lookup_eq, hmeta], by simp [getLatest, hlatest],
    fun limit _ => by simp [getHistory, hhistory]⟩

end TrackingDb

namespace TrackingPool

variable {P : TrackingPool} {ts : List TrackingMove}

abbrev TrackingThread := Thread TrackingDb ServiceError Unit TrackingRequest

/-- The sample that the thread's next step hands to the live store. -/
def upserts (t : TrackingThread) : Option DriverLocationView :=
  match t.request, t.seen with
  | .update input now, none => (input.view now).toOption
  | _, _ => none

def upserted (t : TrackingMove) : Option DriverLocationView :=
  match t.label with
  | .spawn .. => none
  | .advance i => (t.pre.threads i).bind upserts

/-- The execution has upserted the sample. -/
def Sent (t : TrackingThread) (v : DriverLocationView) : Prop :=
  ∃ input now, t.request = .update input now ∧ t.seen.isSome ∧ input.view now = .ok v

/-- Some execution has upserted the sample, and has yet to enqueue it. -/
def Pending (P : TrackingPool) (v : DriverLocationView) : Prop :=
  ∃ i t, P.threads i = some t ∧ Sent t v ∧ t.rest.finished = false

/-- What executions have upserted is among `samples`. -/
def Recorded (P : TrackingPool) (samples : List DriverLocationView) : Prop :=
  ∀ i t v, P.threads i = some t → Sent t v → v ∈ samples

/-- A step of thread `i` loses no pending sample but its own. -/
theorem Pending.set {i : ℕ} {t : TrackingThread} {Q : DriverLocationView → Prop}
    (hi : ∀ t₀ w, P.threads i = some t₀ → Sent t₀ w → t₀.rest.finished = false → Q w)
    (h : Pending P w) : Pending (({ P with shared := s } : TrackingPool).set i t) w ∨ Q w := by
  obtain ⟨j, t₀, hj, hsent, hrest⟩ := h
  by_cases hji : j = i
  · subst hji
    exact Or.inr (hi t₀ w hj hsent hrest)
  · exact Or.inl ⟨j, t₀, by rwa [Pool.set_threads_ne _ _ hji], hsent, hrest⟩

theorem Recorded.set {i : ℕ} {t : TrackingThread} {samples' : List DriverLocationView}
    (h : Recorded P samples) (ht : ∀ v, Sent t v → v ∈ samples') (hsub : samples ⊆ samples') :
    Recorded (({ P with shared := s } : TrackingPool).set i t) samples' := by
  intro j t₀ v hj hsent
  by_cases hji : j = i
  · subst hji
    obtain rfl : t = t₀ := by simpa using hj
    exact ht v hsent
  · rw [Pool.set_threads_ne _ _ hji] at hj
    exact hsub (h j t₀ v hj hsent)

/-- Where the pool stands with one driver's samples. -/
structure Tracks (driverId : Uuid) (samples : List DriverLocationView) (P : TrackingPool) :
    Prop where
  holds : P.shared.Holds driverId samples (Pending P)
  recorded : Recorded P samples

/-- Nothing is pending on a step that is no driver's request. -/
theorem Tracks.quiet (h : Tracks driverId samples P) {i : ℕ} {p : TrackingRequest}
    {effect : TrackingDb → TrackingDb} {next : TrackingDb → Proc TrackingDb ServiceError Unit}
    {seen : Option TrackingDb} (hi : P.threads i = some ⟨p, .step effect next, seen⟩)
    (hp : ∀ input now, p ≠ .update input now)
    (hholds : (effect P.shared).Holds driverId samples (Pending P)) :
    Tracks driverId (samples ++ (upserts ⟨p, .step effect next, seen⟩).toList)
      (({ P with shared := effect P.shared } : TrackingPool).set i
        ⟨p, next P.shared, some P.shared⟩) := by
  have hups : upserts ⟨p, .step effect next, seen⟩ = none := by
    cases p with
    | update input now => exact absurd rfl (hp input now)
    | persist | discard | tick => rfl
  have hlost : ∀ t₀ w, P.threads i = some t₀ → Sent t₀ w → t₀.rest.finished = false → False := by
    rintro t₀ w hi₀ ⟨input, now, hreq, -⟩
    obtain rfl := Option.some.inj (hi.symm.trans hi₀)
    exact absurd hreq (hp input now)
  have hnew : ∀ v, Sent ⟨p, next P.shared, some P.shared⟩ v → v ∈ samples := by
    rintro v ⟨input, now, hreq, -⟩
    exact absurd hreq (hp input now)
  rw [hups, Option.toList_none, List.append_nil]
  exact ⟨hholds.mono fun w hw => (hw.set hlost).resolve_right id,
    h.recorded.set hnew (List.Subset.refl _)⟩

theorem Tracks.advance (h : Tracks driverId samples P) {i : ℕ} {p : TrackingRequest}
    {effect : TrackingDb → TrackingDb} {next : TrackingDb → Proc TrackingDb ServiceError Unit}
    {seen : Option TrackingDb} (hi : P.threads i = some ⟨p, .step effect next, seen⟩)
    (heffect : Effect ttlSeconds p seen effect next) (hexp : P.shared.Unexpired driverId)
    (hdriver : ∀ v ∈ samples ++ (upserts ⟨p, .step effect next, seen⟩).toList,
      v.driverId = driverId) :
    Tracks driverId (samples ++ (upserts ⟨p, .step effect next, seen⟩).toList)
      (({ P with shared := effect P.shared } : TrackingPool).set i
        ⟨p, next P.shared, some P.shared⟩) := by
  cases heffect with
  | @upsert input now v hp hseen hv =>
    subst hp hseen
    have hups : upserts ⟨.update input now, .step (TrackingDb.upsert ttlSeconds v)
        (fun _ => .write (TrackingDb.enqueue v) (.done ())), none⟩ = some v := by
      simp [upserts, hv, Except.toOption]
    rw [hups] at hdriver ⊢
    have hlost : ∀ t₀ w, P.threads i = some t₀ → Sent t₀ w → t₀.rest.finished = false →
        False := by
      rintro t₀ w hi₀ ⟨_, _, -, hseen, -⟩
      obtain rfl := Option.some.inj (hi.symm.trans hi₀)
      cases hseen
    refine ⟨h.holds.upsert (hdriver v (by simp)) hexp ?_, h.recorded.set ?_ (by simp)⟩
    · rintro w (hw | rfl)
      · exact (hw.set hlost).resolve_right id
      · exact ⟨i, _, Pool.set_threads_self _ _ _, ⟨input, now, rfl, rfl, hv⟩, rfl⟩
    · rintro w ⟨_, _, ⟨⟩, -, hw⟩
      obtain rfl := Except.ok.inj (hv.symm.trans hw)
      simp
  | @enqueue input now v db hp hseen hv =>
    subst hp hseen
    have hups : upserts ⟨.update input now, .step (TrackingDb.enqueue v) (fun _ => .done ()),
        some db⟩ = none := rfl
    rw [hups, Option.toList_none, List.append_nil] at hdriver ⊢
    have hmem : ∀ w, input.view now = .ok w → w ∈ samples := fun w hw =>
      h.recorded i _ w hi ⟨input, now, rfl, rfl, hw⟩
    have hown : ∀ t₀ w, P.threads i = some t₀ → Sent t₀ w → t₀.rest.finished = false →
        w = v := by
      rintro t₀ w hi₀ ⟨_, _, hreq, -, hw⟩ -
      obtain rfl := Option.some.inj (hi.symm.trans hi₀)
      cases hreq
      exact Except.ok.inj (hw.symm.trans hv)
    refine ⟨h.holds.enqueue hdriver (hmem v hv) fun w hw => hw.set hown, h.recorded.set ?_ ?_⟩
    · rintro w ⟨_, _, ⟨⟩, -, hw⟩
      exact hmem w hw
    · exact List.Subset.refl _
  | persist hp =>
    subst hp
    refine h.quiet hi (by simp) (h.holds.process fun v hv => ?_)
    exact hdriver v (List.mem_append_left _ hv)
  | discard hp =>
    subst hp
    exact h.quiet hi (by simp) h.holds.discard
  | tick hp =>
    subst hp
    exact h.quiet hi (by simp) h.holds.tick

theorem tracks_of_run (hrun : (system ttlSeconds).Run ts P)
    (hdriver : ∀ v ∈ ts.filterMap upserted, v.driverId = driverId)
    (hexp : ∀ t ∈ ts, t.pre.shared.Unexpired driverId) :
    Tracks driverId (ts.filterMap upserted) P := by
  induction hrun with
  | @nil P h =>
    obtain ⟨⟨clock, hempty⟩, hnone⟩ := h
    refine ⟨?_, fun i t v hi => by simp [hnone i] at hi⟩
    rw [hempty]
    refine ⟨Or.inl ⟨rfl, rfl⟩, ?_, ?_, ?_, ?_, ?_, ?_, ?_⟩ <;> simp [TrackingDb.empty]
  | @snoc ts P P' a hrun hs ih =>
    rw [List.filterMap_append] at hdriver ⊢
    have h := ih (fun v hv => hdriver v (List.mem_append_left _ hv))
      fun t ht => hexp t (List.mem_append_left _ ht)
    rcases Pool.step_cases hs with ⟨i, p, rfl, hfree, rfl⟩ | ⟨i, p, effect, next, seen, rfl, hi, rfl⟩
    · have hlost : ∀ t₀ w, P.threads i = some t₀ → Sent t₀ w → t₀.rest.finished = false →
          False := by simp [hfree]
      have hnew : ∀ v, Sent ⟨p, p.execute ttlSeconds, none⟩ v → v ∈ ts.filterMap upserted := by
        rintro v ⟨input, now, -, hseen, -⟩
        cases hseen
      simp only [List.filterMap_cons, upserted, List.filterMap_nil, List.append_nil]
      exact ⟨h.holds.mono fun w hw => (hw.set hlost).resolve_right id,
        h.recorded.set hnew (List.Subset.refl _)⟩
    · have hups : ∀ P', [(⟨P, .advance i, P'⟩ : TrackingMove)].filterMap upserted =
          (upserts ⟨p, .step effect next, seen⟩).toList := by
        intro P'
        rw [List.filterMap_cons]
        simp only [upserted, hi, Option.bind_some]
        cases upserts ⟨p, .step effect next, seen⟩ <;> rfl
      rw [hups] at hdriver ⊢
      have hexpP := hexp _ (List.mem_append_right _ List.mem_cons_self)
      exact h.advance hi (residual_step (Pool.run_residual hrun i _ hi)) hexpP hdriver

/-- A run that has come to rest: its executions have ended and every queued job has run,
while the driver's metadata was there. -/
structure Completed (ttlSeconds : ℕ) (driverId : Uuid) (samples : List DriverLocationView)
    (ts : List TrackingMove) (P : TrackingPool) : Prop where
  run : (system ttlSeconds).Run ts P
  samples : ts.filterMap upserted = samples
  finished : ∀ i t, P.threads i = some t → t.rest.finished = true
  unexpired : ∀ t ∈ ts, t.pre.shared.Unexpired driverId
  still : P.shared.Unexpired driverId
  processed : ∀ job ∈ P.shared.jobs, job.processed = true

/-- One request after another leads here, each in a thread of its own and `n` the next of
these, and no metadata expires meanwhile. -/
structure Leads (ttlSeconds : ℕ) (samples : List DriverLocationView) (ts : List TrackingMove)
    (P : TrackingPool) (n : ℕ) : Prop where
  run : (system ttlSeconds).Run ts P
  samples : ts.filterMap upserted = samples
  finished : ∀ i t, i < n → P.threads i = some t → t.rest.finished = true
  free : ∀ i, n < i → P.threads i = none
  unexpired : ∀ t ∈ ts, t.pre.shared.Fresh
  still : P.shared.Fresh

theorem Leads.spawn {n : ℕ} (h : Leads ttlSeconds samples ts P n) (hn : P.threads n = none)
    (p : TrackingRequest) :
    ∃ ts', Leads ttlSeconds samples ts' (P.set n ⟨p, p.execute ttlSeconds, none⟩) n := by
  have hs : (system ttlSeconds).step P (.spawn n p) =
      some (P.set n ⟨p, p.execute ttlSeconds, none⟩) := by
    simp [system, Pool.system, hn]
  refine ⟨_, h.run.snoc hs, by simp [h.samples, upserted], ?_, ?_, ?_, h.still⟩
  · intro i t hi
    rw [Pool.set_threads_ne _ _ hi.ne]
    exact h.finished i t hi
  · intro i hi
    rw [Pool.set_threads_ne _ _ hi.ne']
    exact h.free i hi
  · intro t ht
    rcases List.mem_append.1 ht with ht | ht
    · exact h.unexpired t ht
    · rw [List.mem_singleton.1 ht]
      exact h.still

theorem Leads.advance {n : ℕ} (h : Leads ttlSeconds samples ts P n) {p : TrackingRequest}
    {effect : TrackingDb → TrackingDb} {next : TrackingDb → Proc TrackingDb ServiceError Unit}
    {seen : Option TrackingDb} (hn : P.threads n = some ⟨p, .step effect next, seen⟩)
    (hfresh : (effect P.shared).Fresh) :
    ∃ ts', Leads ttlSeconds (samples ++ (upserts ⟨p, .step effect next, seen⟩).toList) ts'
      (({ P with shared := effect P.shared } : TrackingPool).set n
        ⟨p, next P.shared, some P.shared⟩) n := by
  have hs : (system ttlSeconds).step P (.advance n) =
      some (({ P with shared := effect P.shared } : TrackingPool).set n
        ⟨p, next P.shared, some P.shared⟩) := by
    simp [system, Pool.system, hn]
  refine ⟨_, h.run.snoc hs, ?_, ?_, ?_, ?_, hfresh⟩
  · rw [List.filterMap_append, h.samples, List.filterMap_cons]
    simp only [upserted, hn, Option.bind_some]
    cases upserts ⟨p, .step effect next, seen⟩ <;> rfl
  · intro i t hi
    rw [Pool.set_threads_ne _ _ hi.ne]
    exact h.finished i t hi
  · intro i hi
    rw [Pool.set_threads_ne _ _ hi.ne']
    exact h.free i hi
  · intro t ht
    rcases List.mem_append.1 ht with ht | ht
    · exact h.unexpired t ht
    · rw [List.mem_singleton.1 ht]
      exact h.still

def Reaches (ttlSeconds : ℕ) (samples : List DriverLocationView) (s : TrackingDb) : Prop :=
  ∃ ts P n, Leads ttlSeconds samples ts P n ∧ P.threads n = none ∧ P.shared = s

/-- The thread whose request has ended is left behind. -/
theorem Leads.reaches {n : ℕ} (h : Leads ttlSeconds samples ts P n) {t : TrackingThread}
    (hn : P.threads n = some t) (hfin : t.rest.finished = true) :
    Reaches ttlSeconds samples P.shared := by
  refine ⟨ts, P, n + 1, ?_, h.free _ (Nat.lt_succ_self n), rfl⟩
  refine ⟨h.run, h.samples, fun i u hi hu => ?_, fun i hi => h.free i (by omega), h.unexpired,
    h.still⟩
  rcases Nat.lt_succ_iff_lt_or_eq.1 hi with hi | rfl
  · exact h.finished i u hi hu
  · obtain rfl := Option.some.inj (hn.symm.trans hu)
    exact hfin

theorem Reaches.empty (ttlSeconds : ℕ) : Reaches ttlSeconds [] (.empty 0) := by
  refine ⟨[], ⟨.empty 0, fun _ => none⟩, 0, ?_, rfl, rfl⟩
  refine ⟨.nil ⟨⟨0, rfl⟩, fun _ => rfl⟩, rfl, ?_, fun _ _ => rfl, ?_, ?_⟩
  · simp
  · simp
  · simp [TrackingDb.Fresh, TrackingDb.empty]

theorem Reaches.fresh (h : Reaches ttlSeconds samples s) : s.Fresh := by
  obtain ⟨ts, P, n, h, -, rfl⟩ := h
  exact h.still

/-- A request of one step, other than an update. -/
theorem Reaches.request (h : Reaches ttlSeconds samples s) {p : TrackingRequest}
    {f : TrackingDb → TrackingDb} (hp : p.execute ttlSeconds = .write f (.done ()))
    (hnot : ∀ rest, upserts ⟨p, rest, none⟩ = none) (hfresh : (f s).Fresh) :
    Reaches ttlSeconds samples (f s) := by
  obtain ⟨ts, P, n, h, hn, rfl⟩ := h
  obtain ⟨ts₁, h₁⟩ := h.spawn hn p
  obtain ⟨ts₂, h₂⟩ := h₁.advance (by rw [Pool.set_threads_self, hp]; rfl) hfresh
  rw [hnot, Option.toList_none, List.append_nil] at h₂
  exact h₂.reaches (Pool.set_threads_self _ _ _) rfl

theorem Reaches.persist (h : Reaches ttlSeconds samples s) (jobId : String) :
    Reaches ttlSeconds samples (s.process jobId) :=
  h.request (p := .persist jobId) rfl (fun _ => rfl) (TrackingDb.fresh_process.2 h.fresh)

theorem Reaches.discard (h : Reaches ttlSeconds samples s) (jobId : String) :
    Reaches ttlSeconds samples (s.discard jobId) :=
  h.request (p := .discard jobId) rfl (fun _ => rfl) h.fresh

theorem Reaches.update (h : Reaches ttlSeconds samples s) (httl : 0 < ttlSeconds)
    {input : UpdateDriverLocationInput} {now : Date} (hv : input.view now = .ok v) :
    Reaches ttlSeconds (samples ++ [v]) ((s.upsert ttlSeconds v).enqueue v) := by
  have hups := h.fresh.upsert httl (v := v)
  obtain ⟨ts, P, n, h, hn, rfl⟩ := h
  have hexec : (TrackingRequest.update input now).execute ttlSeconds =
      .step (TrackingDb.upsert ttlSeconds v)
        fun _ => .write (TrackingDb.enqueue v) (.done ()) := by
    simp only [TrackingRequest.execute, updateDriverLocation, hv, Proc.within, Proc.write]
    rfl
  obtain ⟨ts₁, h₁⟩ := h.spawn hn (.update input now)
  obtain ⟨ts₂, h₂⟩ := h₁.advance (by rw [Pool.set_threads_self, hexec]) hups
  obtain ⟨ts₃, h₃⟩ := h₂.advance (Pool.set_threads_self _ _ _) (TrackingDb.fresh_enqueue.2 hups)
  have hsample : (upserts ⟨.update input now, .step (TrackingDb.upsert ttlSeconds v)
      fun _ => .write (TrackingDb.enqueue v) (.done ()), none⟩).toList = [v] := by
    simp [upserts, hv, Except.toOption]
  rw [hsample] at h₃
  have hend := h₃.reaches (Pool.set_threads_self _ _ _) rfl
  simpa [upserts] using hend

theorem Reaches.tracks (h : Reaches ttlSeconds samples s)
    (hdriver : ∀ v ∈ samples, v.driverId = driverId) :
    s.Holds driverId samples fun _ => False := by
  obtain ⟨ts, P, n, h, hn, rfl⟩ := h
  have hholds := (tracks_of_run h.run (h.samples ▸ hdriver)
    fun t ht => (h.unexpired t ht).unexpired).holds
  rw [h.samples] at hholds
  refine hholds.mono ?_
  rintro w ⟨i, t, hi, -, hrest⟩
  rcases Nat.lt_trichotomy i n with hlt | rfl | hgt
  · simp [h.finished i t hlt hi] at hrest
  · simp [hn] at hi
  · simp [h.free i hgt] at hi

theorem Reaches.completed (h : Reaches ttlSeconds samples s) (driverId : Uuid)
    (hjobs : ∀ job ∈ s.jobs, job.processed = true) :
    ∃ ts P, Completed ttlSeconds driverId samples ts P ∧ P.shared = s := by
  obtain ⟨ts, P, n, h, hn, rfl⟩ := h
  refine ⟨ts, P, ⟨h.run, h.samples, fun i t hi => ?_, fun t ht => (h.unexpired t ht).unexpired,
    h.still.unexpired, hjobs⟩, rfl⟩
  rcases Nat.lt_trichotomy i n with hlt | rfl | hgt
  · exact h.finished i t hlt hi
  · simp [hn] at hi
  · simp [h.free i hgt] at hi

/-- A sample that some execution for the driver builds. -/
def SampleOf (driverId : Uuid) (v : DriverLocationView) : Prop :=
  v.driverId = driverId ∧ ∃ input now, UpdateDriverLocationInput.view input now = .ok v

/-- A sample stored and its job forgotten at once. -/
theorem Reaches.stored (h : Reaches ttlSeconds samples s) (httl : 0 < ttlSeconds)
    (hempty : s.jobs = []) (hv : SampleOf driverId v) :
    ∃ s', Reaches ttlSeconds (samples ++ [v]) s' ∧ s'.jobs = [] ∧
      s'.history = (s.append v).history ∧ s'.latest = (s.append v).latest := by
  obtain ⟨-, input, now, hv⟩ := hv
  refine ⟨_, ((h.update httl hv).persist v.jobId).discard v.jobId, ?_⟩
  have henq : (s.upsert ttlSeconds v).enqueue v =
      { s.upsert ttlSeconds v with jobs := [⟨v.jobId, v, false⟩] } := by
    simp [TrackingDb.enqueue, TrackingDb.upsert, hempty]
  rw [henq]
  refine ⟨?_, ?_, ?_⟩
  · simp [TrackingDb.discard, TrackingDb.process, Table.find_cons, Table.update]
  · simp [TrackingDb.discard, TrackingDb.process, Table.find_cons, TrackingDb.append,
      TrackingDb.upsert]
  · simp [TrackingDb.discard, TrackingDb.process, Table.find_cons, TrackingDb.append,
      TrackingDb.upsert]

/-- Stored one by one, later samples push no row out of the history. -/
theorem Reaches.stored_all (h : Reaches ttlSeconds samples s) (httl : 0 < ttlSeconds)
    (hempty : s.jobs = []) (more : List DriverLocationView)
    (hmore : ∀ v ∈ more, SampleOf driverId v) :
    ∃ s', Reaches ttlSeconds (samples ++ more) s' ∧ s'.jobs = [] ∧
      ∀ row ∈ s.history, row ∈ s'.history := by
  induction more generalizing samples s with
  | nil => exact ⟨s, by simpa using h, hempty, fun _ => id⟩
  | cons v more ih =>
    obtain ⟨s₁, h₁, hempty₁, hhist, -⟩ := h.stored httl hempty (hmore v List.mem_cons_self)
    obtain ⟨s₂, h₂, hempty₂, hkept⟩ :=
      ih h₁ hempty₁ fun w hw => hmore w (List.mem_cons_of_mem _ hw)
    rw [List.append_assoc, List.singleton_append] at h₂
    refine ⟨s₂, h₂, hempty₂, fun row hrow => hkept row ?_⟩
    rw [hhist]
    exact TrackingDb.mem_history_append hrow

/-- The job of the latest row's sample is retained, and every job has run. -/
structure Retained (driverId : Uuid) (v : DriverLocationView) (s : TrackingDb) : Prop where
  latest : s.getLatest driverId = some v
  job : (Table.find PersistJob.jobId v.jobId s.jobs).isSome
  processed : ∀ job ∈ s.jobs, job.processed = true

/-- A sample run at once, its job not forgotten. -/
theorem Reaches.retained (h : Reaches ttlSeconds samples s) (httl : 0 < ttlSeconds)
    (hempty : s.jobs = []) (hv : SampleOf driverId v)
    (hlatest : ∀ row, s.getLatest driverId = some row → row.NotAfter v) :
    ∃ s', Reaches ttlSeconds (samples ++ [v]) s' ∧ Retained driverId v s' ∧
      ∀ row ∈ s.history, row ∈ s'.history := by
  obtain ⟨hself, input, now, hv⟩ := hv
  refine ⟨_, (h.update httl hv).persist v.jobId, ?_⟩
  have henq : (s.upsert ttlSeconds v).enqueue v =
      { s.upsert ttlSeconds v with jobs := [⟨v.jobId, v, false⟩] } := by
    simp [TrackingDb.enqueue, TrackingDb.upsert, hempty]
  rw [henq]
  refine ⟨⟨?_, ?_, ?_⟩, fun row hrow => ?_⟩
  · have happend := TrackingDb.getLatest_append (s := s) (v := v)
    have hsome : (match s.getLatest v.driverId with
        | some row => if row.recordedAt ≤ v.recordedAt then v else row
        | none => v) = v := by
      cases hrow : s.getLatest v.driverId with
      | none => rfl
      | some row => exact if_pos (hlatest row (hself ▸ hrow))
    rw [hsome] at happend
    rw [← hself, ← happend]
    simp [TrackingDb.process, Table.find_cons, TrackingDb.append, TrackingDb.upsert,
      TrackingDb.getLatest]
  · simp [TrackingDb.process, Table.find_cons, Table.update]
  · simp [TrackingDb.process, Table.find_cons, Table.update]
  · have hmem := TrackingDb.mem_history_append (v := v) hrow
    simpa [TrackingDb.process, Table.find_cons, TrackingDb.append, TrackingDb.upsert] using hmem

/-- No later sample replaces the latest row while its job is retained. -/
theorem Reaches.retained_snoc (h : Reaches ttlSeconds samples s) (httl : 0 < ttlSeconds)
    (hret : Retained driverId v s) (hself : v.driverId = driverId) (hw : SampleOf driverId w)
    (hle : w.NotAfter v) :
    ∃ s', Reaches ttlSeconds (samples ++ [w]) s' ∧ Retained driverId v s' ∧
      ∀ row ∈ s.history, row ∈ s'.history := by
  obtain ⟨hselfw, input, now, hview⟩ := hw
  have hupdate := h.update httl hview
  cases hfind : Table.find PersistJob.jobId w.jobId s.jobs with
  | some job =>
    have henq : (s.upsert ttlSeconds w).enqueue w = s.upsert ttlSeconds w := by
      simp [TrackingDb.enqueue, TrackingDb.upsert, hfind]
    rw [henq] at hupdate
    exact ⟨_, hupdate, ⟨hret.latest, hret.job, hret.processed⟩, fun _ => id⟩
  | none =>
    have hlt : ¬ v.recordedAt ≤ w.recordedAt := by
      intro hge
      have hsame : w.jobId = v.jobId := (jobId_inj (hselfw.trans hself.symm)).2 (le_antisymm hle hge)
      have hjob := hret.job
      rw [← hsame, hfind] at hjob
      cases hjob
    have henq : (s.upsert ttlSeconds w).enqueue w =
        { s.upsert ttlSeconds w with jobs := s.jobs ++ [⟨w.jobId, w, false⟩] } := by
      simp [TrackingDb.enqueue, TrackingDb.upsert, hfind]
    have hnew : Table.find PersistJob.jobId w.jobId (s.jobs ++ [⟨w.jobId, w, false⟩]) =
        some ⟨w.jobId, w, false⟩ := by
      simp [Table.find_append_singleton, hfind]
    refine ⟨_, hupdate.persist w.jobId, ?_⟩
    rw [henq]
    refine ⟨⟨?_, ?_, ?_⟩, fun row hrow => ?_⟩
    · have happend := TrackingDb.getLatest_append (s := s) (v := w)
      rw [hselfw, hret.latest] at happend
      simp only [hlt, if_false] at happend
      rw [← happend]
      simp [TrackingDb.process, hnew, TrackingDb.append, TrackingDb.upsert, TrackingDb.getLatest]
    · have hjob : (Table.find PersistJob.jobId v.jobId (s.jobs ++ [⟨w.jobId, w, false⟩])).isSome := by
        rw [Table.find_append_singleton, Option.isSome_or, hret.job, Bool.true_or]
      simp only [TrackingDb.process, hnew]
      rw [Table.find_update (f := fun job : PersistJob => { job with processed := true })
        fun _ => rfl]
      split
      · next heq => simpa [← heq] using hjob
      · exact hjob
    · simp only [TrackingDb.process, hnew]
      intro job hjob
      obtain ⟨j, hj, rfl⟩ := List.mem_map.1 hjob
      split
      · rfl
      · next hne =>
        rcases List.mem_append.1 hj with hj | hj
        · exact hret.processed j hj
        · exact absurd (by rw [List.mem_singleton.1 hj]) hne
    · have hmem := TrackingDb.mem_history_append (v := w) hrow
      simpa [TrackingDb.process, hnew, TrackingDb.append, TrackingDb.upsert] using hmem

theorem Reaches.retained_all (h : Reaches ttlSeconds samples s) (httl : 0 < ttlSeconds)
    (hret : Retained driverId v s) (hself : v.driverId = driverId)
    (more : List DriverLocationView) (hmore : ∀ w ∈ more, SampleOf driverId w ∧ w.NotAfter v) :
    ∃ s', Reaches ttlSeconds (samples ++ more) s' ∧ Retained driverId v s' ∧
      ∀ row ∈ s.history, row ∈ s'.history := by
  induction more generalizing samples s with
  | nil => exact ⟨s, by simpa using h, hret, fun _ => id⟩
  | cons w more ih =>
    obtain ⟨hw, hle⟩ := hmore w List.mem_cons_self
    obtain ⟨s₁, h₁, hret₁, hkept₁⟩ := h.retained_snoc httl hret hself hw hle
    obtain ⟨s₂, h₂, hret₂, hkept₂⟩ := ih h₁ hret₁ fun x hx => hmore x (List.mem_cons_of_mem _ hx)
    rw [List.append_assoc, List.singleton_append] at h₂
    exact ⟨s₂, h₂, hret₂, fun row hrow => hkept₂ row (hkept₁ row hrow)⟩

/-- Of several most recent samples, the history has the first, and the latest row can have
another. -/
theorem exists_split (httl : 0 < ttlSeconds) (hsample : ∀ v ∈ samples, SampleOf driverId v)
    (hv : Newest samples v) (hw : Newest samples w) (hne : v ≠ w) :
    ∃ first last ts P, Completed ttlSeconds driverId samples ts P ∧ first ≠ last ∧
      first.recordedAt = last.recordedAt ∧ first ∈ P.shared.history ∧
      P.shared.getLatest driverId = some last := by
  obtain ⟨f, hf⟩ : ∃ f, samples.find? (fun x => x.recordedAt = v.recordedAt) = some f :=
    Option.isSome_iff_exists.1 (List.find?_isSome.2 ⟨v, hv.1, by simp⟩)
  obtain ⟨hftime, before, after, hsplit, hbefore⟩ := List.find?_eq_some_iff_append.1 hf
  simp only [decide_eq_true_eq, Bool.not_eq_true', decide_eq_false_iff_not] at hftime hbefore
  have htime : w.recordedAt = v.recordedAt := le_antisymm (hv.2 w hw.1) (hw.2 v hv.1)
  -- one of the two is not the first
  obtain ⟨l, hl, hlne⟩ : ∃ l, Newest samples l ∧ l ≠ f := by
    by_cases hvf : v = f
    · exact ⟨w, hw, fun hwf => hne (hvf.trans hwf.symm)⟩
    · exact ⟨v, hv, hvf⟩
  have hltime : l.recordedAt = v.recordedAt := le_antisymm (hv.2 l hl.1) (hl.2 v hv.1)
  have hlafter : l ∈ after := by
    have hmem := hl.1
    rw [hsplit, List.mem_append, List.mem_cons] at hmem
    rcases hmem with hmem | hmem | hmem
    · exact absurd hltime (hbefore l hmem)
    · exact absurd hmem hlne
    · exact hmem
  obtain ⟨middle, rest, rfl⟩ := List.append_of_mem hlafter
  subst hsplit
  have hinit : ∀ {l₁ : List DriverLocationView}, l₁ <+: before ++ f :: (middle ++ l :: rest) →
      ∀ x ∈ l₁, x.driverId = driverId := fun hpre x hx => (hsample x (hpre.subset hx)).1
  obtain ⟨s₁, h₁, hempty₁, -⟩ := (Reaches.empty ttlSeconds).stored_all httl rfl before
    fun x hx => hsample x (by simp [hx])
  rw [List.nil_append] at h₁
  have hfresh : Table.find TrackingDb.historyKey (TrackingDb.historyKey f) s₁.history = none := by
    rw [Table.find_eq_none_iff]
    intro row hrow hkey
    have hmem := (h₁.tracks (hinit ⟨_, rfl⟩)).history row hrow
    exact hbefore row hmem ((Prod.mk.inj hkey).2.trans hftime)
  obtain ⟨s₂, h₂, hempty₂, hhist₂, -⟩ := h₁.stored httl hempty₁ (hsample f (by simp))
  have hf₂ : f ∈ s₂.history := by
    rw [hhist₂]
    simp [TrackingDb.append, hfresh]
  obtain ⟨s₃, h₃, hempty₃, hkept₃⟩ := h₂.stored_all httl hempty₂ middle
    fun x hx => hsample x (by simp [hx])
  have hlatest : ∀ row, s₃.getLatest driverId = some row → row.NotAfter l := by
    intro row hrow
    have hpre : before ++ [f] ++ middle <+: before ++ f :: (middle ++ l :: rest) :=
      ⟨l :: rest, by simp⟩
    have hmem := (h₃.tracks (hinit hpre)).latest row (Table.mem_of_find hrow)
    exact hl.2 row (hpre.subset hmem)
  obtain ⟨s₄, h₄, hret₄, hkept₄⟩ := h₃.retained httl hempty₃ (hsample l (by simp)) hlatest
  obtain ⟨s₅, h₅, hret₅, hkept₅⟩ := h₄.retained_all httl hret₄ (hsample l (by simp)).1 rest
    fun x hx => ⟨hsample x (by simp [hx]), hl.2 x (by simp [hx])⟩
  obtain ⟨ts, P, hdone, rfl⟩ := h₅.completed driverId hret₅.processed
  refine ⟨f, l, ts, P, by simpa using hdone, hlne.symm, hftime.trans hltime.symm, ?_, hret₅.latest⟩
  exact hkept₅ f (hkept₄ f (hkept₃ f hf₂))

/-- The three places agree, on a sample that the jobs' order has no say in, for exactly the
executions whose most recent samples are one and the same. -/
theorem agreed_iff (httl : 0 < ttlSeconds) (hsample : ∀ v ∈ samples, SampleOf driverId v) :
    (∃ newest, ∀ ts P, Completed ttlSeconds driverId samples ts P →
      P.shared.Agreed driverId newest) ↔ Unambiguous samples := by
  have hdriver : ∀ v ∈ samples, v.driverId = driverId := fun v hv => (hsample v hv).1
  have hholds {ts : List TrackingMove} {P : TrackingPool}
      (h : Completed ttlSeconds driverId samples ts P) :
      P.shared.Holds driverId samples fun _ => False := by
    have htracks := tracks_of_run h.run (h.samples ▸ hdriver) h.unexpired
    rw [h.samples] at htracks
    refine htracks.holds.mono ?_
    rintro v ⟨i, t, hi, -, hrest⟩
    simp [h.finished i t hi] at hrest
  constructor
  · rintro ⟨newest, hlaw⟩ v w hv hw
    by_contra hne
    obtain ⟨f, l, ts, P, hdone, hfl, htime, hf, hlatest⟩ := exists_split httl hsample hv hw hne
    have hagreed := hlaw ts P hdone
    obtain ⟨-, -, hhistory⟩ := (hholds hdone).newest hdriver hdone.still (fun _ => id)
      hdone.processed (List.ne_nil_of_mem hv.1)
    obtain ⟨c, hc, hcmem, -⟩ := hhistory 1 Nat.one_pos
    have hcl : some c = some l :=
      (hc.symm.trans (hagreed.history 1 Nat.one_pos)).trans (hagreed.latest.symm.trans hlatest)
    obtain rfl := Option.some.inj hcl
    -- the history has one row for a time
    have hdrivers : f.driverId = c.driverId := by
      rw [hdriver f ((hholds hdone).history f hf), hdriver c ((hholds hdone).history c hcmem)]
    have hkey : TrackingDb.historyKey f = TrackingDb.historyKey c := by
      rw [TrackingDb.historyKey, hdrivers, htime, TrackingDb.historyKey]
    have hfound := Table.find_of_mem (hholds hdone).keys hf
    rw [hkey, Table.find_of_mem (hholds hdone).keys hcmem] at hfound
    exact hfl (Option.some.inj hfound).symm
  · intro hone
    by_cases hnil : samples = []
    · subst hnil
      exact ⟨none, fun ts P h => (hholds h).agreed_nil⟩
    · obtain ⟨v, hv⟩ := exists_newest hnil
      exact ⟨some v, fun ts P h => (hholds h).agreed hdriver h.still (fun _ => id) h.processed
        hone hv⟩

section Runs

/-- What an execution builds of `sampleAt`, `latitude` degrees north. -/
def viewAt (latitude : ℚ) (recordedAt : ℤ) (now : Date) : DriverLocationView :=
  ⟨"driver-1", latitude, 0, none, none, recordedAt, now⟩

/-- A sample, and a late one. -/
theorem agreed_lateSample : ∃ newest, ∀ ts P,
    Completed 120 "driver-1" [viewAt 0 100 1000, viewAt 1 50 1001] ts P →
      P.shared.Agreed "driver-1" newest := by
  refine (agreed_iff (by decide) ?_).2 ?_
  · intro v hv
    rcases List.mem_pair.1 hv with rfl | rfl
    · exact ⟨rfl, sampleAt 100, 1000, rfl⟩
    · exact ⟨rfl, { sampleAt 50 with latitude := 1 }, 1001, rfl⟩
  · have hnew : ∀ v, Newest [viewAt 0 100 1000, viewAt 1 50 1001] v → v = viewAt 0 100 1000 := by
      rintro v ⟨hv, hmax⟩
      rcases List.mem_pair.1 hv with rfl | rfl
      · rfl
      · exact absurd (hmax (viewAt 0 100 1000) (by simp)) (by decide)
    exact fun v w hv hw => (hnew v hv).trans (hnew w hw).symm

/-- Two samples of one time: the live store takes the second, the queue keeps the first. -/
theorem not_agreed : ¬ ∀ ttlSeconds driverId samples, 0 < ttlSeconds →
    (∀ v ∈ samples, SampleOf driverId v) → ∃ newest, ∀ ts P,
      Completed ttlSeconds driverId samples ts P → P.shared.Agreed driverId newest := by
  intro hlaw
  have ha : (sampleAt 100).view 1000 = .ok (viewAt 0 100 1000) := rfl
  have hb : ({ sampleAt 100 with latitude := 1 } : UpdateDriverLocationInput).view 1001 =
      .ok (viewAt 1 100 1001) := rfl
  obtain ⟨newest, hagreed⟩ := hlaw 120 "driver-1" [viewAt 0 100 1000, viewAt 1 100 1001]
    (by decide) fun v hv => by
      rcases List.mem_pair.1 hv with rfl | rfl
      · exact ⟨rfl, _, _, ha⟩
      · exact ⟨rfl, _, _, hb⟩
  have hrun := (((Reaches.empty 120).update (by decide) ha).update (by decide) hb)
    |>.persist "driver-1-100"
  obtain ⟨ts, P, hdone, hP⟩ := hrun.completed "driver-1" (by decide)
  have h := hagreed ts P hdone
  have hsame := h.live.trans h.latest.symm
  rw [hP] at hsame
  revert hsame
  decide

end Runs

end TrackingPool

end RouteFast
