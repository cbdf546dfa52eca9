import RouteFast.Base.Js
import RouteFast.Tracking.Durable

/-! The questions asked of the tracking service about one driver. `GET .../latest` looks into
Redis and then, in a second query, into PostGIS; the ETA is computed from Redis alone. What
they answer is told here from the updates of the run and not from the stores. -/

namespace RouteFast

open Transition

structure EtaView where
  driverId : Uuid
  distanceKm : ℚ
  estimatedMinutes : ℤ
  averageSpeedKph : ℚ
  roadFactor : ℚ
  locationAgeSeconds : ℕ
  deriving DecidableEq

/-- `GetLatestLocationUseCase.execute`: `s` is what the first query finds, `s'` what the second
does, if there is need of one. -/
def getLatestLocation (s s' : TrackingDb) (driverId : Uuid) : Option DriverLocationView :=
  (s.live.get s.clock driverId).or (s'.getLatest driverId)

section Eta

variable (haversineDistanceKm : ℚ × ℚ → ℚ × ℚ → ℚ) (averageSpeedKph roadFactor : ℚ)

/-- The view that `EstimateEtaUseCase` makes of a live position. -/
def etaView (driverId : Uuid) (target : ℚ × ℚ) (now : Date) (current : DriverLocationView) :
    EtaView :=
  let distanceKm := haversineDistanceKm (current.latitude, current.longitude) target * roadFactor
  { driverId
    distanceKm := Js.toFixed 3 distanceKm
    estimatedMinutes := max 1 ⌈distanceKm / averageSpeedKph * 60⌉
    averageSpeedKph
    roadFactor
    locationAgeSeconds := (now - current.receivedAt) / 1000 }

/-- `EstimateEtaUseCase.execute` -/
def estimateEta (driverId : Uuid) (latitude longitude : ℚ) (now : Date) (s : TrackingDb) :
    Except ServiceError (Option EtaView) := do
  checkCoordinates latitude longitude
  .ok ((s.live.get s.clock driverId).map
    (etaView haversineDistanceKm averageSpeedKph roadFactor driverId (latitude, longitude) now))

end Eta

/-- What the step has accepted as the driver's position, and Redis' clock then. -/
def acceptedIn (driverId : Uuid) (t : TrackingMove) : Option (DriverLocationView × Date) :=
  ((t.post.shared.acceptedOf driverId).drop (t.pre.shared.acceptedOf driverId).length).getLast?.map
    fun v => (v, t.pre.shared.clock)

/-- The driver's position accepted last in the run. -/
def lastFix (driverId : Uuid) (ts : List TrackingMove) : Option (DriverLocationView × Date) :=
  (ts.filterMap (acceptedIn driverId)).getLast?

/-- The position the run leaves live: the last one accepted, for the time to live of its
metadata. -/
def liveFix (ttlSeconds : ℕ) (driverId : Uuid) (ts : List TrackingMove) (clock : Date) :
    Option DriverLocationView :=
  ((lastFix driverId ts).filter fun x => clock < x.2 + ttlSeconds * 1000).map Prod.fst

/-- An update of the run sent the sample. -/
def SentIn (ts : List TrackingMove) (v : DriverLocationView) : Prop :=
  ∃ t ∈ ts, ∃ i input now, t.label = .spawn i (.update input now) ∧ input.view now = .ok v

theorem SentIn.snoc {ts : List TrackingMove} {v : DriverLocationView} (h : SentIn ts v)
    (t : TrackingMove) : SentIn (ts ++ [t]) v := by
  obtain ⟨u, hu, hsent⟩ := h
  exact ⟨u, List.mem_append_left _ hu, hsent⟩

namespace TrackingDb

variable {s : TrackingDb} {v l : DriverLocationView}

theorem getLatest_append_ne {driverId : Uuid} (h : v.driverId ≠ driverId) :
    (s.append v).getLatest driverId = s.getLatest driverId := by
  simp only [getLatest, append]
  split
  · split
    · exact Table.find_save_ne h
    · rfl
  · rw [Table.find_append_singleton, if_neg h, Option.or_none]

/-- The latest row is no older than the sample, nor than the row before. -/
theorem notAfter_latest_append (h : (s.append v).getLatest v.driverId = some l) :
    v.NotAfter l ∧ ∀ l₀, s.getLatest v.driverId = some l₀ → l₀.NotAfter l := by
  rw [getLatest_append] at h
  cases hrow : s.getLatest v.driverId with
  | none =>
    obtain rfl : v = l := by simpa [hrow] using h
    exact ⟨le_refl v.recordedAt, by simp⟩
  | some row =>
    rw [hrow] at h
    by_cases hle : row.recordedAt ≤ v.recordedAt
    · obtain rfl : v = l := by simpa [hle] using h
      refine ⟨le_refl v.recordedAt, fun l₀ hl₀ => ?_⟩
      obtain rfl := Option.some.inj hl₀
      exact hle
    · obtain rfl : row = l := by simpa [hle] using h
      refine ⟨le_of_lt (not_le.1 hle), fun l₀ hl₀ => ?_⟩
      obtain rfl := Option.some.inj hl₀
      exact le_refl row.recordedAt

end TrackingDb

namespace TrackingPool

variable {ttlSeconds : ℕ} {ts : List TrackingMove} {P P' : TrackingPool} {driverId : Uuid}
  {v : DriverLocationView}

theorem lastFix_snoc (t : TrackingMove) :
    lastFix driverId (ts ++ [t]) = (acceptedIn driverId t).or (lastFix driverId ts) := by
  rw [lastFix, List.filterMap_append, List.getLast?_append]
  cases h : acceptedIn driverId t <;> simp [h, lastFix]

theorem acceptedIn_of_same {t : TrackingMove}
    (h : t.post.shared.accepted = t.pre.shared.accepted) : acceptedIn driverId t = none := by
  rw [acceptedIn, acceptedOf_congr h]
  simp

/-- The metadata of a driver, expired or not, is what the last accepted sample has set. -/
theorem lastMeta_of_run (hrun : (system ttlSeconds).Run ts P) : P.shared.lastMeta driverId =
    (lastFix driverId ts).map fun x => ⟨x.1, x.1.recordedAt, x.2 + ttlSeconds * 1000⟩ := by
  induction hrun with
  | nil hinit =>
    obtain ⟨⟨clock, hempty⟩, -⟩ := hinit
    rw [hempty]
    rfl
  | @snoc ts P P' a hrun hs ih =>
    rw [lastFix_snoc]
    rcases Pool.step_cases hs with ⟨i, p, rfl, -, rfl⟩ | ⟨i, p, effect, next, seen, rfl, hi, rfl⟩
    · rw [acceptedIn_of_same rfl, Option.none_or, ← ih]
      rfl
    rcases (residual_step (Pool.run_residual hrun i _ hi)).upsert_or_same with
      ⟨input, now, v, rfl, rfl, hv, rfl⟩ | ⟨-, hsame⟩
    · have hpost : (P.shared.upsert ttlSeconds v).acceptedOf driverId = _ :=
        TrackingDb.acceptedOf_upsert
      show (P.shared.upsert ttlSeconds v).lastMeta driverId = _
      rw [TrackingDb.lastMeta_upsert, acceptedIn]
      simp only [Pool.set_shared, hpost]
      split
      · simp
      · simpa using ih
    · obtain ⟨hlive, hacc⟩ := hsame P.shared
      rw [acceptedIn_of_same hacc, Option.none_or, ← ih]
      exact lastMeta_congr hlive driverId

/-- What Redis answers about a driver, from the updates alone. -/
theorem get_of_run (hrun : (system ttlSeconds).Run ts P) :
    P.shared.live.get P.shared.clock driverId = liveFix ttlSeconds driverId ts P.shared.clock := by
  rw [LiveStore.get, TrackingDb.lookup_eq, lastMeta_of_run hrun, liveFix]
  cases lastFix driverId ts with
  | none => rfl
  | some x =>
    by_cases hlive : P.shared.clock < x.2 + ttlSeconds * 1000
    · simp [Option.filter, hlive]
    · simp [Option.filter, hlive]

/-- Every sample that is kept anywhere was sent, and no row of the history is more recent than
its driver's latest row. -/
structure Sourced (ts : List TrackingMove) (s : TrackingDb) : Prop where
  accepted : ∀ v ∈ s.accepted, SentIn ts v
  jobs : ∀ job ∈ s.jobs, SentIn ts job.data
  latest : ∀ row ∈ s.latest, SentIn ts row
  upToDate : ∀ row ∈ s.history, ∃ l, s.getLatest row.driverId = some l ∧ row.NotAfter l

namespace Sourced

variable {s : TrackingDb}

theorem snoc (h : Sourced ts s) (t : TrackingMove) : Sourced (ts ++ [t]) s :=
  ⟨fun v hv => (h.accepted v hv).snoc t, fun job hjob => (h.jobs job hjob).snoc t,
    fun row hrow => (h.latest row hrow).snoc t, h.upToDate⟩

theorem upsert (h : Sourced ts s) (hv : SentIn ts v) : Sourced ts (s.upsert ttlSeconds v) := by
  refine ⟨fun w hw => ?_, h.jobs, h.latest, h.upToDate⟩
  simp only [TrackingDb.upsert] at hw
  rcases List.mem_append.1 hw with hw | hw
  · exact h.accepted w hw
  · split at hw
    · exact List.mem_singleton.1 hw ▸ hv
    · cases hw

theorem enqueue (h : Sourced ts s) (hv : SentIn ts v) : Sourced ts (s.enqueue v) := by
  unfold TrackingDb.enqueue
  split
  · exact h
  · refine ⟨h.accepted, fun job hjob => ?_, h.latest, h.upToDate⟩
    rcases List.mem_append.1 hjob with hjob | hjob
    · exact h.jobs job hjob
    · exact List.mem_singleton.1 hjob ▸ hv

theorem append (h : Sourced ts s) (hv : SentIn ts v) : Sourced ts (s.append v) := by
  refine ⟨h.accepted, h.jobs, fun row hrow => ?_, fun row hrow => ?_⟩
  · rcases TrackingDb.of_mem_latest_append hrow with hrow | rfl
    · exact h.latest row hrow
    · exact hv
  · by_cases hdriver : v.driverId = row.driverId
    · obtain ⟨l, hl⟩ : ∃ l, (s.append v).getLatest v.driverId = some l :=
        ⟨_, TrackingDb.getLatest_append⟩
      obtain ⟨hself, hbefore⟩ := TrackingDb.notAfter_latest_append hl
      refine ⟨l, hdriver ▸ hl, ?_⟩
      rcases TrackingDb.of_mem_history_append hrow with hrow | rfl
      · obtain ⟨l₀, hl₀, hle⟩ := h.upToDate row hrow
        exact le_trans hle (hbefore l₀ (hdriver ▸ hl₀))
      · exact hself
    · rcases TrackingDb.of_mem_history_append hrow with hrow | rfl
      · rw [TrackingDb.getLatest_append_ne hdriver]
        exact h.upToDate row hrow
      · exact absurd rfl hdriver

theorem process (h : Sourced ts s) (jobId : String) : Sourced ts (s.process jobId) := by
  unfold TrackingDb.process
  cases hfind : Table.find PersistJob.jobId jobId s.jobs with
  | none => exact h
  | some job =>
    have happend := h.append (h.jobs job (Table.mem_of_find hfind))
    refine ⟨happend.accepted, fun j hj => ?_, happend.latest, happend.upToDate⟩
    obtain ⟨j₀, hj₀, rfl⟩ := List.mem_map.1 hj
    have hdata := h.jobs j₀ hj₀
    split <;> exact hdata

theorem discard (h : Sourced ts s) (jobId : String) : Sourced ts (s.discard jobId) :=
  ⟨h.accepted, fun job hjob => h.jobs job (List.mem_of_mem_filter hjob), h.latest, h.upToDate⟩

theorem tick (h : Sourced ts s) (ms : ℕ) : Sourced ts { s with clock := s.clock + ms } :=
  ⟨h.accepted, h.jobs, h.latest, h.upToDate⟩

end Sourced

theorem sourced_of_run (hrun : (system ttlSeconds).Run ts P) : Sourced ts P.shared := by
  induction hrun with
  | nil hinit =>
    obtain ⟨⟨clock, hempty⟩, -⟩ := hinit
    rw [hempty]
    exact ⟨by simp [TrackingDb.empty], by simp [TrackingDb.empty], by simp [TrackingDb.empty],
      by simp [TrackingDb.empty]⟩
  | @snoc ts P P' a hrun hs ih =>
    rcases Pool.step_cases hs with ⟨i, p, rfl, -, rfl⟩ | ⟨i, p, effect, next, seen, rfl, hi, rfl⟩
    · exact ih.snoc _
    have hsent {input : UpdateDriverLocationInput} {now : Date} {v : DriverLocationView}
        (hp : p = .update input now) (hv : input.view now = .ok v) : SentIn ts v := by
      obtain ⟨u, hu, hlabel⟩ := Pool.spawned_of_run hrun hi
      exact ⟨u, hu, i, input, now, hp ▸ hlabel, hv⟩
    cases residual_step (Pool.run_residual hrun i _ hi) with
    | upsert hp _ hv => exact (ih.upsert (hsent hp hv)).snoc _
    | enqueue hp _ hv => exact (ih.enqueue (hsent hp hv)).snoc _
    | persist => exact (ih.process _).snoc _
    | discard => exact (ih.discard _).snoc _
    | tick => exact (ih.tick _).snoc _

theorem driverId_of_getLatest {s : TrackingDb} (h : s.getLatest driverId = some v) :
    v.driverId = driverId := Table.key_of_find h

theorem driverId_of_liveFix (hrun : (system ttlSeconds).Run ts P)
    (h : liveFix ttlSeconds driverId ts P.shared.clock = some v) :
    v.driverId = driverId ∧ SentIn ts v := by
  rw [← get_of_run hrun, LiveStore.get, TrackingDb.lookup_eq] at h
  obtain ⟨m, hm, rfl⟩ := Option.map_eq_some_iff.1 h
  have hmeta := (Option.filter_eq_some_iff.1 hm).1
  have hlast := (current_of_run hrun).last driverId
  rw [hmeta] at hlast
  obtain ⟨hmem, hdriver⟩ := List.mem_filter.1 (List.mem_of_getLast? hlast.symm)
  exact ⟨by simpa using hdriver, (sourced_of_run hrun).accepted _ hmem⟩

/-- The answers about a driver. While its last accepted position is live, that is the answer
to both questions; afterwards there is no ETA, and the latest position is the most recent one
persisted, if there is any. Nothing is answered that the driver has not sent. -/
theorem answers_of_run (hrun : (system ttlSeconds).Run ts P)
    {as : List (PoolLabel TrackingRequest)} (has : (system ttlSeconds).replay P as = some P')
    (driverId : Uuid) :
    let live := liveFix ttlSeconds driverId ts P.shared.clock
    let latest := getLatestLocation P.shared P'.shared driverId
    (∀ v, live = some v → latest = some v) ∧
    (live = none → ∀ row ∈ P'.shared.history, row.driverId = driverId →
      ∃ v, latest = some v ∧ row.NotAfter v) ∧
    (∀ v, latest = some v →
      v.driverId = driverId ∧ SentIn (ts ++ (system ttlSeconds).moves P as) v) ∧
    ∀ haversineDistanceKm averageSpeedKph roadFactor latitude longitude now,
      estimateEta haversineDistanceKm averageSpeedKph roadFactor driverId latitude longitude now
        P.shared = (checkCoordinates latitude longitude).map fun _ => live.map (etaView
          haversineDistanceKm averageSpeedKph roadFactor driverId (latitude, longitude) now) := by
  have hrun' := hrun.replay_append has
  have hsourced := sourced_of_run hrun'
  intro live latest
  have hlatest : latest = live.or (P'.shared.getLatest driverId) := by
    simp only [latest, live, getLatestLocation, get_of_run hrun]
  refine ⟨fun v hv => ?_, fun hnone row hrow hdriver => ?_, fun v hv => ?_, ?_⟩
  · rw [hlatest, hv, Option.some_or]
  · obtain ⟨l, hl, hle⟩ := hsourced.upToDate row hrow
    exact ⟨l, by rw [hlatest, hnone, Option.none_or, ← hdriver, hl], hle⟩
  · rw [hlatest] at hv
    cases hlive : live with
    | some w =>
      obtain rfl : w = v := by simpa [hlive] using hv
      obtain ⟨hdriver, u, hu, hsent⟩ := driverId_of_liveFix hrun hlive
      exact ⟨hdriver, u, List.mem_append_left _ hu, hsent⟩
    | none =>
      rw [hlive, Option.none_or] at hv
      exact ⟨driverId_of_getLatest hv, hsourced.latest v (Table.mem_of_find hv)⟩
  · intro haversineDistanceKm averageSpeedKph roadFactor latitude longitude now
    unfold estimateEta
    rw [get_of_run hrun]
    cases checkCoordinates latitude longitude <;> rfl

/-- A sample is persisted before its metadata expires. -/
def persistedThenExpired : List (PoolLabel TrackingRequest) :=
  [.spawn 0 (.update (sampleAt 100) 1000), .advance 0, .advance 0,
    .spawn 1 (.persist "driver-1-100"), .advance 1, .spawn 2 (.tick 120000), .advance 2]

theorem answers_persisted : ∃ P, (system 120).replay emptyTracking persistedThenExpired = some P ∧
    liveFix 120 "driver-1" ((system 120).moves emptyTracking persistedThenExpired)
      P.shared.clock = none ∧
    ∃ v, getLatestLocation P.shared P.shared "driver-1" = some v ∧ 100 ≤ v.recordedAt := by
  obtain ⟨P, hP, hlive, row, hrow, hdriver, hrecorded⟩ :
      ∃ P, (system 120).replay emptyTracking persistedThenExpired = some P ∧
      liveFix 120 "driver-1" ((system 120).moves emptyTracking persistedThenExpired)
        P.shared.clock = none ∧
      ∃ row ∈ P.shared.history, row.driverId = "driver-1" ∧ row.recordedAt = 100 :=
    ⟨_, rfl, by decide, _, List.mem_cons_self, by decide, rfl⟩
  have hrun : (system 120).Run _ P := .of_replay ⟨⟨0, rfl⟩, fun _ => rfl⟩ hP
  obtain ⟨v, hv, hle⟩ := (answers_of_run hrun (show (system 120).replay P [] = some P from rfl) "driver-1").2.1 hlive row hrow hdriver
  exact ⟨P, hP, hlive, v, hv, hrecorded ▸ hle⟩

end TrackingPool

end RouteFast
