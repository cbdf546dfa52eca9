import RouteFast.System.Candidates
import Mathlib.Data.String.Basic

/-! The ranking of `DriverScoringService`: what decides between two drivers, that no location of
an eligible driver is lost, and that the result does not depend on the order of the answers. -/

namespace RouteFast

/-- What a sort asks of `localeCompare`. Strings that differ may compare equal. -/
structure LocalePreorder (localeCompare : Uuid → Uuid → ℤ) : Prop where
  swap : ∀ a b, localeCompare a b < 0 ↔ 0 < localeCompare b a
  trans : ∀ a b c, localeCompare a b ≤ 0 → localeCompare b c ≤ 0 → localeCompare a c ≤ 0

structure LocaleOrder (localeCompare : Uuid → Uuid → ℤ) : Prop
    extends LocalePreorder localeCompare where
  eq_of_zero : ∀ a b, localeCompare a b = 0 → a = b

structure PositiveConfig (config : DriverScoringConfig) : Prop where
  distanceWeight : 0 ≤ config.distanceWeight
  capacityWeight : 0 ≤ config.capacityWeight
  loadWeight : 0 ≤ config.loadWeight
  freshnessWeight : 0 ≤ config.freshnessWeight
  maxLocationAgeSeconds : 0 < config.maxLocationAgeSeconds
  averageSpeedKph : 0 < config.averageSpeedKph
  roadFactor : 0 < config.roadFactor

/-- The sum of the weights. -/
def DriverScoringConfig.weight (config : DriverScoringConfig) : ℚ :=
  config.distanceWeight + config.capacityWeight + config.loadWeight + config.freshnessWeight

/-- HEALTHY, then AT_RISK, then BREACH. -/
def SlaRisk.level : SlaRisk → ℕ
  | .healthy => 0
  | .atRisk => 1
  | .breach => 2

/-- The first driver is no farther, no staler, has no smaller a share of its capacity left and
no larger a load ratio. The two shares are compared without dividing. -/
structure Dominates (a b : DriverCapacityCandidate) (atA atB : DriverGeoCandidate) : Prop where
  distanceKm : atA.distanceKm ≤ atB.distanceKm
  ageSeconds : atA.ageSeconds ≤ atB.ageSeconds
  remaining : b.remainingCapacity * a.capacity ≤ a.remainingCapacity * b.capacity
  loadRatio : a.loadRatio ≤ b.loadRatio

namespace DriverScoring

/-- `b.score - a.score || a.distanceKm - b.distanceKm || a.driverId.localeCompare(b.driverId)` -/
def compareCandidates (localeCompare : Uuid → Uuid → ℤ) (a b : ScoredDriverCandidate) : ℚ :=
  if b.score - a.score ≠ 0 then b.score - a.score
  else if a.distanceKm - b.distanceKm ≠ 0 then a.distanceKm - b.distanceKm
  else localeCompare a.driverId b.driverId

variable (localeCompare : Uuid → Uuid → ℤ) (config : DriverScoringConfig)
  (drivers : List DriverCapacityCandidate) (radiusKm : ℚ) (priority : String)

/-- `rank`, with the order of the ids that `localeCompare` gives. -/
def rankWith (locations : List DriverGeoCandidate) : List ScoredDriverCandidate :=
  (locations.filterMap (scored config drivers radiusKm priority)).insertionSort
    fun a b => compareCandidates localeCompare a b ≤ 0

/-- The score before `toFixed`. -/
def rawScore (driver : DriverCapacityCandidate) (location : DriverGeoCandidate) : ℚ :=
  100 * (clamp01 (1 - location.distanceKm / radiusKm) * config.distanceWeight +
    clamp01 (driver.remainingCapacity / max (driver.capacity : ℚ) 1) * config.capacityWeight +
    clamp01 (1 - driver.loadRatio) * config.loadWeight +
    clamp01 (1 - location.ageSeconds / config.maxLocationAgeSeconds) * config.freshnessWeight)

/-- The estimate before the SLA is looked at. -/
def pickupMinutes (location : DriverGeoCandidate) : ℚ :=
  max 1 ⌈location.distanceKm * config.roadFactor / config.averageSpeedKph * 60⌉

def slaRisk (minutes : ℚ) : SlaRisk :=
  if slaMinutes priority < minutes then .breach
  else if slaMinutes priority * (4 / 5) ≤ minutes then .atRisk
  else .healthy

/-- The order of code points, for the ranking of the other modules. -/
def codePointCompare (a b : Uuid) : ℤ := if a < b then -1 else if a = b then 0 else 1

section Compare

variable {localeCompare} {a b c : ScoredDriverCandidate}

theorem compareCandidates_nonpos_iff : compareCandidates localeCompare a b ≤ 0 ↔
    b.score < a.score ∨ a.score = b.score ∧
      (a.distanceKm < b.distanceKm ∨ a.distanceKm = b.distanceKm ∧
        localeCompare a.driverId b.driverId ≤ 0) := by
  unfold compareCandidates
  by_cases hs : a.score = b.score
  · by_cases hd : a.distanceKm = b.distanceKm
    · simp [hs, hd]
    · have hne : a.distanceKm - b.distanceKm ≠ 0 := sub_ne_zero.2 hd
      simp [hs, hne, hd, le_iff_lt_or_eq]
  · have hne : b.score - a.score ≠ 0 := sub_ne_zero.2 (Ne.symm hs)
    simp [hne, hs, le_iff_lt_or_eq]

theorem total_compareCandidates (h : LocalePreorder localeCompare) :
    compareCandidates localeCompare a b ≤ 0 ∨ compareCandidates localeCompare b a ≤ 0 := by
  rw [compareCandidates_nonpos_iff, compareCandidates_nonpos_iff]
  have hid : localeCompare a.driverId b.driverId ≤ 0 ∨ localeCompare b.driverId a.driverId ≤ 0 := by
    have := h.swap a.driverId b.driverId
    omega
  rcases lt_trichotomy a.score b.score with hs | hs | hs
  · exact Or.inr (Or.inl hs)
  · rcases lt_trichotomy a.distanceKm b.distanceKm with hd | hd | hd
    · exact Or.inl (Or.inr ⟨hs, Or.inl hd⟩)
    · rcases hid with hid | hid
      · exact Or.inl (Or.inr ⟨hs, Or.inr ⟨hd, hid⟩⟩)
      · exact Or.inr (Or.inr ⟨hs.symm, Or.inr ⟨hd.symm, hid⟩⟩)
    · exact Or.inr (Or.inr ⟨hs.symm, Or.inl hd⟩)
  · exact Or.inl (Or.inl hs)

theorem trans_compareCandidates (h : LocalePreorder localeCompare)
    (hab : compareCandidates localeCompare a b ≤ 0)
    (hbc : compareCandidates localeCompare b c ≤ 0) : compareCandidates localeCompare a c ≤ 0 := by
  rw [compareCandidates_nonpos_iff] at hab hbc ⊢
  have hid := h.trans a.driverId b.driverId c.driverId
  grind

theorem antisymm_compareCandidates (h : LocalePreorder localeCompare)
    (hab : compareCandidates localeCompare a b ≤ 0)
    (hba : compareCandidates localeCompare b a ≤ 0) :
    localeCompare a.driverId b.driverId = 0 := by
  rw [compareCandidates_nonpos_iff] at hab hba
  have hswap := h.swap a.driverId b.driverId
  grind

end Compare

section Components

theorem clamp01_mono {x y : ℚ} (h : x ≤ y) : clamp01 x ≤ clamp01 y :=
  max_le_max_left 0 (min_le_min_left 1 h)

theorem clamp01_mem (x : ℚ) : 0 ≤ clamp01 x ∧ clamp01 x ≤ 1 :=
  ⟨le_max_left _ _, max_le zero_le_one (min_le_left _ _)⟩

/-- What is left of a capacity, with a capacity of zero counted as one. -/
theorem capacity_mono {a b : DriverCapacityCandidate} (ha : 1 ≤ a.remainingCapacity)
    (hb : 1 ≤ b.remainingCapacity)
    (h : b.remainingCapacity * a.capacity ≤ a.remainingCapacity * b.capacity) :
    clamp01 (b.remainingCapacity / max (b.capacity : ℚ) 1) ≤
      clamp01 (a.remainingCapacity / max (a.capacity : ℚ) 1) := by
  have ha' : (1 : ℚ) ≤ a.remainingCapacity := by exact_mod_cast ha
  rcases Nat.eq_zero_or_pos a.capacity with hzero | hpos
  · have hfull : clamp01 (a.remainingCapacity / max (a.capacity : ℚ) 1) = 1 := by
      simp [hzero, clamp01, ha']
    rw [hfull]
    exact (clamp01_mem _).2
  · have hpos' : 0 < b.capacity := by
      by_contra hnot
      obtain hzero : b.capacity = 0 := by omega
      rw [hzero] at h
      have := mul_pos (show 0 < b.remainingCapacity by omega) (Int.natCast_pos.2 hpos)
      simp at h
      omega
    have hone : (1 : ℚ) ≤ a.capacity := by exact_mod_cast hpos
    have hone' : (1 : ℚ) ≤ b.capacity := by exact_mod_cast hpos'
    rw [max_eq_left hone, max_eq_left hone']
    refine clamp01_mono ((div_le_div_iff₀ (by linarith) (by linarith)).2 ?_)
    exact_mod_cast h

variable {config radiusKm priority} {a b : DriverCapacityCandidate} {atA atB : DriverGeoCandidate}

theorem rawScore_mono (hconfig : PositiveConfig config) (hradius : 0 < radiusKm)
    (ha : 1 ≤ a.remainingCapacity) (hb : 1 ≤ b.remainingCapacity)
    (h : Dominates a b atA atB) :
    rawScore config radiusKm b atB ≤ rawScore config radiusKm a atA := by
  have hdistance : clamp01 (1 - atB.distanceKm / radiusKm) ≤
      clamp01 (1 - atA.distanceKm / radiusKm) :=
    clamp01_mono (sub_le_sub_left (div_le_div_of_nonneg_right h.distanceKm hradius.le) 1)
  have hcapacity := capacity_mono ha hb h.remaining
  have hload : clamp01 (1 - b.loadRatio) ≤ clamp01 (1 - a.loadRatio) :=
    clamp01_mono (sub_le_sub_left h.loadRatio 1)
  have hfreshness : clamp01 (1 - atB.ageSeconds / config.maxLocationAgeSeconds) ≤
      clamp01 (1 - atA.ageSeconds / config.maxLocationAgeSeconds) := by
    refine clamp01_mono (sub_le_sub_left ?_ 1)
    exact div_le_div_of_nonneg_right (by exact_mod_cast h.ageSeconds)
      hconfig.maxLocationAgeSeconds.le
  have hdw := mul_le_mul_of_nonneg_right hdistance hconfig.distanceWeight
  have hcw := mul_le_mul_of_nonneg_right hcapacity hconfig.capacityWeight
  have hlw := mul_le_mul_of_nonneg_right hload hconfig.loadWeight
  have hfw := mul_le_mul_of_nonneg_right hfreshness hconfig.freshnessWeight
  unfold rawScore
  linarith

theorem rawScore_mem (hconfig : PositiveConfig config) (a : DriverCapacityCandidate)
    (atA : DriverGeoCandidate) :
    0 ≤ rawScore config radiusKm a atA ∧ rawScore config radiusKm a atA ≤ 100 * config.weight := by
  have hweigh : ∀ x w : ℚ, 0 ≤ w → 0 ≤ clamp01 x * w ∧ clamp01 x * w ≤ w := fun x w hw =>
    ⟨mul_nonneg (clamp01_mem x).1 hw, mul_le_of_le_one_left hw (clamp01_mem x).2⟩
  have hd := hweigh (1 - atA.distanceKm / radiusKm) _ hconfig.distanceWeight
  have hc := hweigh (a.remainingCapacity / max (a.capacity : ℚ) 1) _ hconfig.capacityWeight
  have hl := hweigh (1 - a.loadRatio) _ hconfig.loadWeight
  have hf := hweigh (1 - atA.ageSeconds / config.maxLocationAgeSeconds) _ hconfig.freshnessWeight
  unfold rawScore DriverScoringConfig.weight
  constructor <;> linarith [hd.1, hd.2, hc.1, hc.2, hl.1, hl.2, hf.1, hf.2]

theorem pickupMinutes_mono (hconfig : PositiveConfig config)
    (h : atA.distanceKm ≤ atB.distanceKm) :
    pickupMinutes config atA ≤ pickupMinutes config atB := by
  refine max_le_max_left 1 (Int.cast_le.2 (Int.ceil_mono ?_))
  have hroute := mul_le_mul_of_nonneg_right h hconfig.roadFactor.le
  have hhours := div_le_div_of_nonneg_right hroute hconfig.averageSpeedKph.le
  linarith

theorem slaRisk_mono {minutes minutes' : ℚ} (h : minutes ≤ minutes') :
    (slaRisk priority minutes).level ≤ (slaRisk priority minutes').level := by
  unfold slaRisk
  split_ifs <;> simp only [SlaRisk.level] <;> first | omega | linarith

end Components

section Rank

variable {localeCompare config drivers radiusKm priority} {locations : List DriverGeoCandidate}

theorem pairwise_rankWith (h : LocalePreorder localeCompare) :
    (rankWith localeCompare config drivers radiusKm priority locations).Pairwise
      fun a b => compareCandidates localeCompare a b ≤ 0 := by
  have htotal : Std.Total fun a b => compareCandidates localeCompare a b ≤ 0 :=
    ⟨fun a b => total_compareCandidates h⟩
  have htrans : IsTrans ScoredDriverCandidate fun a b => compareCandidates localeCompare a b ≤ 0 :=
    ⟨fun a b c => trans_compareCandidates h⟩
  exact List.pairwise_insertionSort _ _

theorem perm_rankWith : (rankWith localeCompare config drivers radiusKm priority locations).Perm
    (locations.filterMap (scored config drivers radiusKm priority)) :=
  List.perm_insertionSort _ _

/-- The map's entry for the id, among drivers with distinct ids. -/
theorem find_reverse_iff (hids : (drivers.map DriverCapacityCandidate.id).Nodup)
    {driver : DriverCapacityCandidate} {driverId : Uuid} :
    Table.find DriverCapacityCandidate.id driverId drivers.reverse = some driver ↔
      driver ∈ drivers ∧ driver.id = driverId := by
  constructor
  · intro h
    exact ⟨List.mem_reverse.1 (Table.mem_of_find h), Table.key_of_find h⟩
  · rintro ⟨hmem, rfl⟩
    refine Table.find_of_mem ?_ (List.mem_reverse.2 hmem)
    rwa [List.map_reverse, List.nodup_reverse]

/-- The candidate made of a location and its driver. -/
def candidateOf (config : DriverScoringConfig) (radiusKm : ℚ) (priority : String)
    (driver : DriverCapacityCandidate) (location : DriverGeoCandidate) :
    ScoredDriverCandidate where
  driverId := driver.id
  score := Js.toFixed 2 (rawScore config radiusKm driver location)
  distanceKm := location.distanceKm
  locationAgeSeconds := location.ageSeconds
  remainingCapacity := driver.remainingCapacity
  loadRatio := driver.loadRatio
  estimatedPickupMinutes := pickupMinutes config location
  slaRisk := slaRisk priority (pickupMinutes config location)
  components :=
    { distance := Js.toFixed 4 (clamp01 (1 - location.distanceKm / radiusKm))
      capacity :=
        Js.toFixed 4 (clamp01 (driver.remainingCapacity / max (driver.capacity : ℚ) 1))
      load := Js.toFixed 4 (clamp01 (1 - driver.loadRatio))
      freshness :=
        Js.toFixed 4 (clamp01 (1 - location.ageSeconds / config.maxLocationAgeSeconds)) }

theorem scored_eq_some_iff (hids : (drivers.map DriverCapacityCandidate.id).Nodup)
    {location : DriverGeoCandidate} {c : ScoredDriverCandidate} :
    scored config drivers radiusKm priority location = some c ↔ ∃ driver ∈ drivers,
      driver.id = location.driverId ∧ 1 ≤ driver.remainingCapacity ∧
        c = candidateOf config radiusKm priority driver location := by
  constructor
  · intro h
    cases hfind : Table.find DriverCapacityCandidate.id location.driverId drivers.reverse with
    | none => simp [scored, hfind] at h
    | some driver =>
      obtain ⟨hmem, hid⟩ := (find_reverse_iff hids).1 hfind
      by_cases hleft : driver.remainingCapacity < 1
      · simp [scored, hfind, hleft] at h
      · simp only [scored, hfind, if_neg hleft, Option.some.injEq] at h
        exact ⟨driver, hmem, hid, by omega, h.symm⟩
  · rintro ⟨driver, hmem, hid, hleft, rfl⟩
    have hfind := (find_reverse_iff hids).2 ⟨hmem, hid⟩
    have hnot : ¬ driver.remainingCapacity < 1 := by omega
    simp only [scored, hfind, if_neg hnot]
    rfl

theorem mem_rankWith_iff (hids : (drivers.map DriverCapacityCandidate.id).Nodup)
    {c : ScoredDriverCandidate} :
    c ∈ rankWith localeCompare config drivers radiusKm priority locations ↔
      ∃ location ∈ locations, ∃ driver ∈ drivers, driver.id = location.driverId ∧
        1 ≤ driver.remainingCapacity ∧ c = candidateOf config radiusKm priority driver location := by
  rw [perm_rankWith.mem_iff, List.mem_filterMap]
  simp only [scored_eq_some_iff hids]

/-- The join keeps one candidate for each location of an eligible driver. -/
theorem map_driverId_filterMap (hids : (drivers.map DriverCapacityCandidate.id).Nodup) :
    (locations.filterMap (scored config drivers radiusKm priority)).map
        ScoredDriverCandidate.driverId =
      (locations.filter fun location => ∃ driver ∈ drivers, driver.id = location.driverId ∧
        1 ≤ driver.remainingCapacity).map DriverGeoCandidate.driverId := by
  induction locations with
  | nil => rfl
  | cons location locations ih =>
    cases hscored : scored config drivers radiusKm priority location with
    | none =>
      have hnone : ¬ ∃ driver ∈ drivers, driver.id = location.driverId ∧
          1 ≤ driver.remainingCapacity := by
        rintro ⟨driver, hmem, hid, hleft⟩
        have hsome : scored config drivers radiusKm priority location = some _ :=
          (scored_eq_some_iff hids).2 ⟨driver, hmem, hid, hleft, rfl⟩
        simp [hscored] at hsome
      rw [List.filterMap_cons_none hscored, List.filter_cons_of_neg (by simpa using hnone), ih]
    | some c =>
      obtain ⟨driver, hmem, hid, hleft, rfl⟩ := (scored_eq_some_iff hids).1 hscored
      have heligible : ∃ driver ∈ drivers, driver.id = location.driverId ∧
          1 ≤ driver.remainingCapacity := ⟨driver, hmem, hid, hleft⟩
      rw [List.filterMap_cons_some hscored, List.filter_cons_of_pos (by simpa using heligible),
        List.map_cons, List.map_cons, ih]
      exact congrArg (· :: _) hid

theorem nodup_rankWith (hids : (drivers.map DriverCapacityCandidate.id).Nodup)
    (hlocations : (locations.map DriverGeoCandidate.driverId).Nodup) :
    ((rankWith localeCompare config drivers radiusKm priority locations).map
      ScoredDriverCandidate.driverId).Nodup := by
  rw [(perm_rankWith.map _).nodup_iff, map_driverId_filterMap hids]
  exact hlocations.sublist (List.filter_sublist.map _)

theorem scored_perm {drivers' : List DriverCapacityCandidate} (hperm : drivers'.Perm drivers)
    (hids : (drivers.map DriverCapacityCandidate.id).Nodup) :
    scored config drivers' radiusKm priority = scored config drivers radiusKm priority := by
  have hids' : (drivers'.map DriverCapacityCandidate.id).Nodup :=
    (hperm.map _).nodup_iff.2 hids
  funext location
  ext c
  simp only [scored_eq_some_iff hids, scored_eq_some_iff hids', hperm.mem_iff]

end Rank

/-- In a sorted list, what may not come second comes first. -/
theorem pair_sublist {α : Type*} {r : α → α → Prop} {l : List α} {a b : α} (hl : l.Pairwise r)
    (ha : a ∈ l) (hb : b ∈ l) (hne : a ≠ b) (hnot : ¬ r b a) : [a, b].Sublist l := by
  induction l with
  | nil => simp at ha
  | cons x l ih =>
    obtain ⟨hx, hl⟩ := List.pairwise_cons.1 hl
    rcases List.mem_cons.1 ha with rfl | ha'
    · have hmem := (List.mem_cons.1 hb).resolve_left hne.symm
      exact (List.singleton_sublist.2 hmem).cons_cons _
    · rcases List.mem_cons.1 hb with rfl | hb'
      · exact absurd (hx a ha') hnot
      · exact (ih hl ha' hb').cons x

end DriverScoring

open DriverScoring

theorem codePointCompare_nonpos_iff {a b : Uuid} : codePointCompare a b ≤ 0 ↔ a ≤ b := by
  rcases lt_trichotomy a b with h | rfl | h
  · simp [codePointCompare, h, h.le]
  · simp [codePointCompare]
  · simp [codePointCompare, h.ne', h.not_gt, h]

theorem localeOrder_codePointCompare : LocaleOrder codePointCompare where
  swap a b := by
    rcases lt_trichotomy a b with h | rfl | h
    · simp [codePointCompare, h, h.ne', h.not_gt]
    · simp [codePointCompare]
    · simp [codePointCompare, h, h.ne', h.not_gt]
  trans a b c := by
    simp only [codePointCompare_nonpos_iff]
    exact le_trans
  eq_of_zero a b h := by
    unfold codePointCompare at h
    split_ifs at h with hlt heq
    · exact heq
    · omega

/-- The ranking the other modules use. -/
theorem rank_eq_rankWith (config : DriverScoringConfig) (drivers : List DriverCapacityCandidate)
    (radiusKm : ℚ) (priority : String) (locations : List DriverGeoCandidate) :
    rank config drivers radiusKm priority locations =
      rankWith codePointCompare config drivers radiusKm priority locations := by
  have hrel : RankedBefore = fun a b => compareCandidates codePointCompare a b ≤ 0 := by
    funext a b
    simp only [eq_iff_iff, compareCandidates_nonpos_iff, codePointCompare_nonpos_iff]
    rfl
  simp only [rank, rankWith, hrel]

section Results

variable {localeCompare : Uuid → Uuid → ℤ} {config : DriverScoringConfig}
  {drivers : List DriverCapacityCandidate} {radiusKm : ℚ} {priority : String}
  {locations : List DriverGeoCandidate}

/-- The ranking loses nobody, is sorted, and does not depend on the order of the two lists. -/
theorem rank_complete (horder : LocaleOrder localeCompare)
    (hdrivers : (drivers.map DriverCapacityCandidate.id).Nodup)
    (hlocations : (locations.map DriverGeoCandidate.driverId).Nodup) :
    let ranked := rankWith localeCompare config drivers radiusKm priority locations
    (ranked.map ScoredDriverCandidate.driverId).Perm
      ((locations.filter fun location => ∃ driver ∈ drivers, driver.id = location.driverId ∧
        1 ≤ driver.remainingCapacity).map DriverGeoCandidate.driverId) ∧
    (∀ c ∈ ranked, ∃ location ∈ locations, ∃ driver ∈ drivers,
      driver.id = location.driverId ∧ 1 ≤ driver.remainingCapacity ∧
        c = candidateOf config radiusKm priority driver location) ∧
    (ranked.Pairwise fun a b => b.score < a.score ∨ a.score = b.score ∧
      (a.distanceKm < b.distanceKm ∨ a.distanceKm = b.distanceKm ∧
        localeCompare a.driverId b.driverId < 0)) ∧
    ∀ drivers' locations', drivers'.Perm drivers → locations'.Perm locations →
      rankWith localeCompare config drivers' radiusKm priority locations' = ranked := by
  have hpre := horder.toLocalePreorder
  intro ranked
  have hnodup : (ranked.map ScoredDriverCandidate.driverId).Nodup :=
    nodup_rankWith hdrivers hlocations
  refine ⟨?_, fun c hc => (mem_rankWith_iff hdrivers).1 hc, ?_, ?_⟩
  · rw [← map_driverId_filterMap hdrivers]
    exact perm_rankWith.map _
  · have hne : ranked.Pairwise fun a b => a.driverId ≠ b.driverId := List.pairwise_map.1 hnodup
    refine (pairwise_rankWith hpre).imp₂ (fun a b hle hid => ?_) hne
    have hzero := fun h => hid (horder.eq_of_zero a.driverId b.driverId h)
    rw [compareCandidates_nonpos_iff] at hle
    have hlt : localeCompare a.driverId b.driverId ≤ 0 → localeCompare a.driverId b.driverId < 0 :=
      fun h => lt_of_le_of_ne h hzero
    tauto
  · intro drivers' locations' hd hl
    have hperm : (rankWith localeCompare config drivers' radiusKm priority locations').Perm
        ranked := by
      refine perm_rankWith.trans (List.Perm.trans ?_ perm_rankWith.symm)
      rw [scored_perm hd hdrivers]
      exact hl.filterMap _
    refine hperm.eq_of_pairwise (fun a b ha hb hab hba => ?_) (pairwise_rankWith hpre)
      (pairwise_rankWith hpre)
    refine List.inj_on_of_nodup_map hnodup (hperm.mem_iff.1 ha) hb ?_
    exact horder.eq_of_zero _ _ (antisymm_compareCandidates hpre hab hba)

/-- A driver that another does not beat in anything comes first, with no worse an estimate, and
all scores stay within the weights, up to their rounding. -/
theorem rank_dominance (hpre : LocalePreorder localeCompare) (hconfig : PositiveConfig config)
    (hradius : 0 < radiusKm) (hdrivers : (drivers.map DriverCapacityCandidate.id).Nodup) :
    let ranked := rankWith localeCompare config drivers radiusKm priority locations
    (∀ a ∈ drivers, ∀ b ∈ drivers, ∀ atA ∈ locations, ∀ atB ∈ locations,
      a.id = atA.driverId → b.id = atB.driverId →
      1 ≤ a.remainingCapacity → 1 ≤ b.remainingCapacity → Dominates a b atA atB →
      let first := candidateOf config radiusKm priority a atA
      let second := candidateOf config radiusKm priority b atB
      first ∈ ranked ∧ second ∈ ranked ∧
        (first.score ≠ second.score ∨ first.distanceKm ≠ second.distanceKm ∨
          localeCompare a.id b.id < 0 → [first, second].Sublist ranked) ∧
        (first.score = second.score → first.distanceKm = second.distanceKm →
          localeCompare b.id a.id < 0 → [second, first].Sublist ranked) ∧
        first.estimatedPickupMinutes ≤ second.estimatedPickupMinutes ∧
        first.slaRisk.level ≤ second.slaRisk.level) ∧
    (∀ driver location, 0 ≤ rawScore config radiusKm driver location ∧
      rawScore config radiusKm driver location ≤ 100 * config.weight) ∧
    ∀ c ∈ ranked, 0 ≤ c.score ∧ c.score ≤ Js.toFixed 2 (100 * config.weight) := by
  intro ranked
  have hbounds : ∀ driver location, 0 ≤ rawScore config radiusKm driver location ∧
      rawScore config radiusKm driver location ≤ 100 * config.weight := rawScore_mem hconfig
  refine ⟨?_, hbounds, ?_⟩
  · intro a ha b hb atA hatA atB hatB hida hidb hlefta hleftb hdom first second
    have hfirst : first ∈ ranked :=
      (mem_rankWith_iff hdrivers).2 ⟨atA, hatA, a, ha, hida, hlefta, rfl⟩
    have hsecond : second ∈ ranked :=
      (mem_rankWith_iff hdrivers).2 ⟨atB, hatB, b, hb, hidb, hleftb, rfl⟩
    have hscore : second.score ≤ first.score :=
      Js.toFixed_mono 2 (rawScore_mono hconfig hradius hlefta hleftb hdom)
    have hdistance : first.distanceKm ≤ second.distanceKm := hdom.distanceKm
    have hminutes := pickupMinutes_mono hconfig hdom.distanceKm
    have hself : ¬ localeCompare a.id a.id < 0 := by
      have := hpre.swap a.id a.id
      omega
    have hswap : localeCompare a.id b.id < 0 → ¬ localeCompare b.id a.id ≤ 0 := by
      have := hpre.swap a.id b.id
      omega
    refine ⟨hfirst, hsecond, fun hdiffer => ?_, fun hsame hsame' hid => ?_, hminutes,
      slaRisk_mono hminutes⟩
    · have hne : first ≠ second := by
        intro heq
        have hid : a.id = b.id := congrArg ScoredDriverCandidate.driverId heq
        rw [heq, ← hid] at hdiffer
        simp [hself] at hdiffer
      refine pair_sublist (pairwise_rankWith hpre) hfirst hsecond hne ?_
      rw [compareCandidates_nonpos_iff]
      rintro (hlt | ⟨hsame, hlt | ⟨hsame', hid⟩⟩)
      · exact absurd hscore (not_le.2 hlt)
      · exact absurd hdistance (not_le.2 hlt)
      · rcases hdiffer with hdiffer | hdiffer | hdiffer
        · exact hdiffer hsame.symm
        · exact hdiffer hsame'.symm
        · exact hswap hdiffer hid
    -- full ties: only the ids are left to decide
    · have hne : second ≠ first := by
        intro heq
        have hids : b.id = a.id := congrArg ScoredDriverCandidate.driverId heq
        exact hself (hids ▸ hid)
      refine pair_sublist (pairwise_rankWith hpre) hsecond hfirst hne ?_
      rw [compareCandidates_nonpos_iff]
      have hafter : ¬ localeCompare a.id b.id ≤ 0 := by
        have := hpre.swap b.id a.id
        omega
      rintro (hlt | ⟨-, hlt | ⟨-, hle⟩⟩)
      · exact absurd hlt (hsame ▸ lt_irrefl _)
      · exact absurd hlt (hsame' ▸ lt_irrefl _)
      · exact hafter hle
  · intro c hc
    obtain ⟨location, -, driver, -, -, -, rfl⟩ := (mem_rankWith_iff hdrivers).1 hc
    exact ⟨Js.toFixed_nonneg (hbounds driver location).1,
      Js.toFixed_mono 2 (hbounds driver location).2⟩

end Results

/-- The weights of the service's defaults. -/
def defaultScoring : DriverScoringConfig := ⟨55 / 100, 20 / 100, 15 / 100, 10 / 100, 90, 30, 12 / 10⟩

theorem positive_defaultScoring : PositiveConfig defaultScoring := by
  constructor <;> norm_num [defaultScoring]

def twoDrivers : List DriverCapacityCandidate := [⟨"a", "A", 2, 0, 2, 0⟩, ⟨"b", "B", 2, 0, 2, 0⟩]

def twoLocations : List DriverGeoCandidate := [⟨"a", 1, 3, 0, 0⟩, ⟨"b", 6, 3, 0, 0⟩]

theorem rank_dominance_closer :
    [candidateOf defaultScoring 10 "STANDARD" ⟨"a", "A", 2, 0, 2, 0⟩ ⟨"a", 1, 3, 0, 0⟩,
      candidateOf defaultScoring 10 "STANDARD" ⟨"b", "B", 2, 0, 2, 0⟩ ⟨"b", 6, 3, 0, 0⟩].Sublist
      (rankWith codePointCompare defaultScoring twoDrivers 10 "STANDARD" twoLocations) :=
  ((rank_dominance localeOrder_codePointCompare.toLocalePreorder positive_defaultScoring
    (by norm_num) (by decide)).1 _ (by decide) _ (by decide) _ (by decide) _ (by decide) rfl rfl
    (by decide) (by decide) ⟨by decide, by decide, by decide, by decide⟩).2.2.1
    (Or.inr (Or.inl (by decide)))

theorem rank_complete_reversed :
    rankWith codePointCompare defaultScoring twoDrivers.reverse 10 "STANDARD" twoLocations.reverse =
      rankWith codePointCompare defaultScoring twoDrivers 10 "STANDARD" twoLocations :=
  (rank_complete localeOrder_codePointCompare (by decide) (by decide)).2.2.2 _ _
    (List.reverse_perm _) (List.reverse_perm _)

/-- With a single weight of 1/20000, a score of 0.005 is reported as 0.01. -/
theorem not_score_le : ¬ ∀ (localeCompare : Uuid → Uuid → ℤ) (config : DriverScoringConfig)
    (drivers : List DriverCapacityCandidate) (radiusKm : ℚ) (priority : String)
    (locations : List DriverGeoCandidate), LocaleOrder localeCompare → PositiveConfig config →
    0 < radiusKm → (drivers.map DriverCapacityCandidate.id).Nodup →
    (locations.map DriverGeoCandidate.driverId).Nodup →
    ∀ c ∈ rankWith localeCompare config drivers radiusKm priority locations,
      0 ≤ c.score ∧ c.score ≤ 100 * config.weight := by
  intro h
  let config : DriverScoringConfig := ⟨1 / 20000, 0, 0, 0, 90, 30, 12 / 10⟩
  have hpositive : PositiveConfig config := by
    constructor <;> norm_num [config]
  have hmem : candidateOf config 10 "STANDARD" ⟨"a", "A", 2, 0, 2, 0⟩ ⟨"a", 0, 3, 0, 0⟩ ∈
      rankWith codePointCompare config [⟨"a", "A", 2, 0, 2, 0⟩] 10 "STANDARD"
        [⟨"a", 0, 3, 0, 0⟩] :=
    (mem_rankWith_iff (by decide)).2 ⟨_, List.mem_singleton_self _, _, List.mem_singleton_self _,
      rfl, by decide, rfl⟩
  have hle := (h codePointCompare config _ 10 "STANDARD" _ localeOrder_codePointCompare hpositive
    (by norm_num) (by decide) (by decide) _ hmem).2
  have hscore : ¬ (candidateOf config 10 "STANDARD" ⟨"a", "A", 2, 0, 2, 0⟩
      ⟨"a", 0, 3, 0, 0⟩).score ≤ 100 * config.weight := by
    decide +kernel
  exact hscore hle

end RouteFast
