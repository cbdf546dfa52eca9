import RouteFast.System.Services
import RouteFast.Tracking.Nearby
import Mathlib.Data.Prod.Lex

/-! The candidate search: Driver lists the least loaded drivers with spare capacity,
Tracking finds which of these are near the pickup, and Dispatch scores what comes back. Each
of the two lists is cut at the candidate limit, the first before anyone asks where the
drivers are. -/

namespace RouteFast

/-- What Driver's `GET /drivers/candidates` answers with, and Dispatch reads. -/
structure DriverCapacityCandidate where
  id : Uuid
  displayName : String
  capacity : ℕ
  currentLoad : ℕ
  remainingCapacity : ℤ
  loadRatio : ℚ
  deriving DecidableEq

namespace Driver

def loadRatio (d : Driver) : ℚ := d.reservedOrderIds.length / d.capacity

/-- `ORDER BY` load ratio, `capacity DESC`, `created_at ASC` -/
def ListedBefore (a b : Driver) : Prop :=
  a.loadRatio < b.loadRatio ∨ a.loadRatio = b.loadRatio ∧
    (b.capacity < a.capacity ∨ a.capacity = b.capacity ∧ a.createdAt ≤ b.createdAt)

instance : DecidableRel ListedBefore := fun _ _ => inferInstanceAs (Decidable (_ ∨ _))

/-- The order of the load ratio first, then of the other two columns. -/
theorem listedBefore_iff {a b : Driver} : a.ListedBefore b ↔
    toLex (a.loadRatio, toLex (OrderDual.toDual a.capacity, a.createdAt)) ≤
      toLex (b.loadRatio, toLex (OrderDual.toDual b.capacity, b.createdAt)) := by
  simp [ListedBefore, Prod.Lex.toLex_le_toLex]

instance : Std.Total ListedBefore :=
  ⟨fun a b => by simpa only [listedBefore_iff] using le_total _ _⟩

instance : IsTrans Driver ListedBefore :=
  ⟨fun a b c => by simpa only [listedBefore_iff] using le_trans⟩

def candidate (driver : Driver) : DriverCapacityCandidate where
  id := driver.id
  displayName := driver.displayName
  capacity := driver.capacity
  currentLoad := driver.reservedOrderIds.length
  remainingCapacity := driver.capacity - driver.reservedOrderIds.length
  loadRatio := Js.toFixed 4 driver.loadRatio

end Driver

/-- `findAvailableCandidates`: any `limit` rows that the query may answer with. -/
def AvailableCandidates (rows : List Driver) (limit : ℕ) (drivers : List Driver) : Prop :=
  Least Driver.ListedBefore limit (rows.filter fun d => d.Eligible) drivers

/-- `ListDriverCandidatesUseCase.execute` -/
def listDriverCandidates (findAvailableCandidates : ℕ → List Driver) (limit : ℕ) :
    List DriverCapacityCandidate :=
  let safeLimit := min (max limit 1) 100
  (findAvailableCandidates safeLimit).map Driver.candidate

structure DriverGeoCandidate where
  driverId : Uuid
  distanceKm : ℚ
  ageSeconds : ℕ
  latitude : ℚ
  longitude : ℚ
  deriving DecidableEq

def NearbyDriverView.geoCandidate (v : NearbyDriverView) : DriverGeoCandidate where
  driverId := v.location.driverId
  distanceKm := v.distanceKm
  ageSeconds := v.ageSeconds
  latitude := v.location.latitude
  longitude := v.location.longitude

structure DriverScoringConfig where
  distanceWeight : ℚ
  capacityWeight : ℚ
  loadWeight : ℚ
  freshnessWeight : ℚ
  maxLocationAgeSeconds : ℚ
  averageSpeedKph : ℚ
  roadFactor : ℚ

def clamp01 (value : ℚ) : ℚ := max 0 (min 1 value)

namespace DriverScoring

variable (config : DriverScoringConfig) (drivers : List DriverCapacityCandidate) (radiusKm : ℚ)
  (priority : String)

def slaMinutes : ℚ :=
  if priority = "EXPRESS" then 8 else if priority = "SCHEDULED" then 25 else 15

/-- The score of a location, with the driver that the map has for its id: the last one given. -/
def scored (location : DriverGeoCandidate) : Option ScoredDriverCandidate :=
  match Table.find DriverCapacityCandidate.id location.driverId drivers.reverse with
  | none => none
  | some driver =>
    if driver.remainingCapacity < 1 then none
    else
      let distance := clamp01 (1 - location.distanceKm / radiusKm)
      let capacity := clamp01 (driver.remainingCapacity / max (driver.capacity : ℚ) 1)
      let load := clamp01 (1 - driver.loadRatio)
      let freshness := clamp01 (1 - location.ageSeconds / config.maxLocationAgeSeconds)
      let score := 100 * (distance * config.distanceWeight + capacity * config.capacityWeight +
        load * config.loadWeight + freshness * config.freshnessWeight)
      let routeDistanceKm := location.distanceKm * config.roadFactor
      let estimatedPickupMinutes : ℚ := max 1 ⌈routeDistanceKm / config.averageSpeedKph * 60⌉
      let slaMinutes := slaMinutes priority
      some
        { driverId := driver.id
          score := Js.toFixed 2 score
          distanceKm := location.distanceKm
          locationAgeSeconds := location.ageSeconds
          remainingCapacity := driver.remainingCapacity
          loadRatio := driver.loadRatio
          estimatedPickupMinutes
          slaRisk :=
            if slaMinutes < estimatedPickupMinutes then .breach
            else if slaMinutes * (4 / 5) ≤ estimatedPickupMinutes then .atRisk
            else .healthy
          components :=
            { distance := Js.toFixed 4 distance
              capacity := Js.toFixed 4 capacity
              load := Js.toFixed 4 load
              freshness := Js.toFixed 4 freshness } }

/-- The comparison of the sort: score, then distance, then id. -/
def RankedBefore (a b : ScoredDriverCandidate) : Prop :=
  b.score < a.score ∨ a.score = b.score ∧
    (a.distanceKm < b.distanceKm ∨ a.distanceKm = b.distanceKm ∧ a.driverId ≤ b.driverId)

instance : DecidableRel RankedBefore := fun _ _ => inferInstanceAs (Decidable (_ ∨ _))

/-- `DriverScoringService.rank` -/
def rank (locations : List DriverGeoCandidate) : List ScoredDriverCandidate :=
  (locations.filterMap (scored config drivers radiusKm priority)).insertionSort RankedBefore

variable {config drivers radiusKm priority}

/-- Ranking drops only the locations without a score. -/
theorem mem_rank {locations : List DriverGeoCandidate} {c : ScoredDriverCandidate} :
    c ∈ rank config drivers radiusKm priority locations ↔
      ∃ location ∈ locations, scored config drivers radiusKm priority location = some c := by
  rw [rank, (List.perm_insertionSort _ _).mem_iff, List.mem_filterMap]

/-- A location is scored if its driver was listed, and all of that name had capacity left. -/
theorem exists_scored {location : DriverGeoCandidate}
    (hlisted : ∃ d ∈ drivers, d.id = location.driverId)
    (hcap : ∀ d ∈ drivers, 1 ≤ d.remainingCapacity) :
    ∃ c, scored config drivers radiusKm priority location = some c := by
  obtain ⟨d, hd, hid⟩ := hlisted
  cases hfind : Table.find DriverCapacityCandidate.id location.driverId drivers.reverse with
  | none => exact absurd hid (Table.find_eq_none_iff.1 hfind d (List.mem_reverse.2 hd))
  | some driver =>
    have hmem := hcap driver (List.mem_reverse.1 (Table.mem_of_find hfind))
    have hnot : ¬ driver.remainingCapacity < 1 := by omega
    exact ⟨_, by simp only [scored, hfind, if_neg hnot]; rfl⟩

end DriverScoring

/-- The configuration `StartDispatchHandler` reads. -/
structure DispatchConfig where
  candidateLimit : ℕ
  searchRadiusKm : ℚ
  maxAgeSeconds : ℕ
  scoring : DriverScoringConfig

section Handler

variable (config : DispatchConfig) (listCandidates : ℕ → List DriverCapacityCandidate)
  (findNearby : NearbySearchInput → List DriverGeoCandidate) (priority : String)
  (pickup : ℚ × ℚ)

/-- What Dispatch asks Tracking. -/
def nearbyInput (candidateDriverIds : List Uuid) : NearbySearchInput where
  latitude := pickup.1
  longitude := pickup.2
  radiusKm := searchRadiusKm config.searchRadiusKm priority
  limit := config.candidateLimit
  candidateDriverIds := some candidateDriverIds
  maxAgeSeconds := some config.maxAgeSeconds

/-- The `rankedCandidates` that `StartDispatchHandler.execute` hands to `workflow.start`, from
what the other two services answer. -/
def rankedCandidates : List ScoredDriverCandidate :=
  let capacityCandidates := listCandidates config.candidateLimit
  let geoCandidates := match capacityCandidates with
    | [] => []
    | _ => findNearby (nearbyInput config priority pickup
        (capacityCandidates.map DriverCapacityCandidate.id))
  DriverScoring.rank config.scoring capacityCandidates
    (searchRadiusKm config.searchRadiusKm priority) priority geoCandidates

end Handler

section Search

variable (distance : GeoMember → ℚ × ℚ → ℚ) (store : LiveStore) (ttlSeconds : ℕ) (clock now : Date)

/-- The driver has a live, fresh location within the radius. -/
def LiveStore.WithinReach (input : NearbySearchInput) (driverId : Uuid) : Bool :=
  (store.hits distance input).any fun hit => hit.driverId = driverId ∧
    store.Eligible ttlSeconds clock now { input with candidateDriverIds := none } hit

/-- The answers of the other two services: Driver's as its query gives them, and Tracking's
exactly the nearest fresh candidates. -/
structure Answers (rows : List Driver) (findAvailableCandidates : ℕ → List Driver)
    (findNearby : NearbySearchInput → List NearbyDriverView) : Prop where
  available : ∀ limit, AvailableCandidates rows limit (findAvailableCandidates limit)
  nearby : ∀ input, 0 < input.limit →
    store.Exact distance ttlSeconds clock now input (findNearby input)

variable {distance store ttlSeconds clock now} {input : NearbySearchInput} {hit : GeoHit}
  {view : NearbyDriverView} {rows : List Driver} {findAvailableCandidates : ℕ → List Driver}
  {findNearby : NearbySearchInput → List NearbyDriverView} {config : DispatchConfig}
  {priority : String} {pickup : ℚ × ℚ}

theorem eligible_candidates (ids : List Uuid) :
    store.Eligible ttlSeconds clock now { input with candidateDriverIds := some ids } hit ↔
      hit.driverId ∈ ids ∧
        store.Eligible ttlSeconds clock now { input with candidateDriverIds := none } hit := by
  by_cases hid : hit.driverId ∈ ids
  · simp [LiveStore.Eligible, LiveStore.nearbyView, hid]
  · simp [LiveStore.Eligible, LiveStore.nearbyView, hid]

theorem driverId_nearbyView (h : store.nearbyView ttlSeconds clock now input hit = some view) :
    view.location.driverId = hit.driverId := by
  simp only [LiveStore.nearbyView] at h
  split at h
  · cases h
  · split at h
    · cases h
    · next location hget =>
      split at h
      · cases h
      · obtain rfl := Option.some.inj h
        exact LiveStore.driverId_of_get hget

/-- A search for candidates finds some if and only if one of them is within reach. -/
theorem findNearby_ne_nil (h : Answers distance store ttlSeconds clock now rows
    findAvailableCandidates findNearby) (input : NearbySearchInput) (hlimit : 0 < input.limit)
    (ids : List Uuid) :
    findNearby { input with candidateDriverIds := some ids } ≠ [] ↔
      ∃ driverId ∈ ids, store.WithinReach distance ttlSeconds clock now input driverId := by
  obtain ⟨chosen, hleast, hviews⟩ := h.nearby { input with candidateDriverIds := some ids } hlimit
  have hlen := LiveStore.length_filterMap_view fun hit hmem =>
    (List.mem_filter.1 (hleast.mem hmem)).2
  rw [← hviews, hleast.length] at hlen
  rw [← List.length_pos_iff, hlen, Nat.lt_min, List.length_pos_iff_exists_mem]
  constructor
  · rintro ⟨-, hit, hmem⟩
    obtain ⟨hhit, heligible⟩ := List.mem_filter.1 hmem
    obtain ⟨hid, hfresh⟩ := (eligible_candidates ids).1 heligible
    refine ⟨hit.driverId, hid, List.any_eq_true.2 ⟨hit, hhit, ?_⟩⟩
    simpa using hfresh
  · rintro ⟨driverId, hid, hreach⟩
    obtain ⟨hit, hhit, hfresh⟩ := List.any_eq_true.1 hreach
    obtain ⟨rfl, hlive⟩ := of_decide_eq_true hfresh
    exact ⟨hlimit, hit, List.mem_filter.2 ⟨hhit, (eligible_candidates ids).2 ⟨hid, hlive⟩⟩⟩

theorem driverId_findNearby (h : Answers distance store ttlSeconds clock now rows
    findAvailableCandidates findNearby) (input : NearbySearchInput) (hlimit : 0 < input.limit)
    (ids : List Uuid) (view : NearbyDriverView)
    (hview : view ∈ findNearby { input with candidateDriverIds := some ids }) :
    view.location.driverId ∈ ids := by
  obtain ⟨chosen, hleast, hviews⟩ := h.nearby { input with candidateDriverIds := some ids } hlimit
  rw [hviews] at hview
  obtain ⟨hit, hmem, hhit⟩ := List.mem_filterMap.1 hview
  rw [driverId_nearbyView hhit]
  exact ((eligible_candidates ids).1 (List.mem_filter.1 (hleast.mem hmem)).2).1

/-- Every location of a listed driver is ranked. -/
theorem rank_ne_nil (scoring : DriverScoringConfig) (radiusKm : ℚ) (priority : String)
    {drivers : List Driver} {views : List NearbyDriverView} (heligible : ∀ d ∈ drivers, d.Eligible)
    (hlisted : ∀ view ∈ views, view.location.driverId ∈ drivers.map Driver.id) :
    DriverScoring.rank scoring (drivers.map Driver.candidate) radiusKm priority
      (views.map NearbyDriverView.geoCandidate) ≠ [] ↔ views ≠ [] := by
  constructor
  · rintro hrank rfl
    exact hrank rfl
  · intro hviews
    obtain ⟨view, hview⟩ := List.exists_mem_of_ne_nil views hviews
    obtain ⟨d, hd, hid⟩ := List.mem_map.1 (hlisted view hview)
    have hcap : ∀ c ∈ drivers.map Driver.candidate, 1 ≤ c.remainingCapacity := by
      intro c hc
      obtain ⟨e, he, rfl⟩ := List.mem_map.1 hc
      have hless := (heligible e he).2
      simp only [Driver.candidate]
      omega
    obtain ⟨c, hc⟩ : ∃ c, DriverScoring.scored scoring (drivers.map Driver.candidate) radiusKm
        priority view.geoCandidate = some c :=
      DriverScoring.exists_scored ⟨d.candidate, List.mem_map_of_mem hd, hid⟩ hcap
    exact List.ne_nil_of_mem
      (DriverScoring.mem_rank.2 ⟨_, List.mem_map_of_mem hview, hc⟩)

/-- The ranking has someone if and only if one of the drivers that Driver listed is within
reach of the pickup. -/
theorem rankedCandidates_ne_nil (h : Answers distance store ttlSeconds clock now rows
    findAvailableCandidates findNearby) (hlimit : 0 < config.candidateLimit) :
    rankedCandidates config (listDriverCandidates findAvailableCandidates)
      (fun input => (findNearby input).map NearbyDriverView.geoCandidate) priority pickup ≠ [] ↔
    ∃ d ∈ findAvailableCandidates (min config.candidateLimit 100),
      store.WithinReach distance ttlSeconds clock now (nearbyInput config priority pickup [])
        d.id := by
  have hsafe : min (max config.candidateLimit 1) 100 = min config.candidateLimit 100 := by
    rw [max_eq_left hlimit]
  have hlisted := h.available (min config.candidateLimit 100)
  have heligible : ∀ d ∈ findAvailableCandidates (min config.candidateLimit 100), d.Eligible :=
    fun d hd => by simpa using (List.mem_filter.1 (hlisted.mem hd)).2
  simp only [rankedCandidates, listDriverCandidates, hsafe]
  generalize findAvailableCandidates (min config.candidateLimit 100) = drivers at heligible ⊢
  cases drivers with
  | nil => simp [DriverScoring.rank]
  | cons d rest =>
    let input := nearbyInput config priority pickup []
    have hids : ((d :: rest).map Driver.candidate).map DriverCapacityCandidate.id =
        (d :: rest).map Driver.id := by
      rw [List.map_map]
      rfl
    have hfound := findNearby_ne_nil h input hlimit ((d :: rest).map Driver.id)
    have hrank := rank_ne_nil config.scoring (searchRadiusKm config.searchRadiusKm priority) priority
      heligible (driverId_findNearby h input hlimit ((d :: rest).map Driver.id))
    refine (Iff.trans ?_ (hrank.trans hfound)).trans (by simp [input])
    rw [← hids]
    rfl

variable (distance store ttlSeconds clock now rows)

/-- Both services have an answer, whichever of its own the query of Driver gives. -/
theorem exists_answers (limit : ℕ) {drivers : List Driver}
    (hdrivers : AvailableCandidates rows limit drivers) :
    ∃ findAvailableCandidates findNearby, Answers distance store ttlSeconds clock now rows
      findAvailableCandidates findNearby ∧ findAvailableCandidates limit = drivers := by
  have hrows : ∀ n, ∃ answer, AvailableCandidates rows n answer := fun n => exists_least n _
  choose available havailable using hrows
  have hsearch : ∀ input, ∃ views, store.Exact distance ttlSeconds clock now input views := by
    intro input
    obtain ⟨chosen, hchosen⟩ := exists_least (r := GeoHit.Nearer) input.limit
      ((store.hits distance input).filter (store.Eligible ttlSeconds clock now input))
    exact ⟨_, chosen, hchosen, rfl⟩
  choose nearby hnearby using hsearch
  refine ⟨Function.update available limit drivers, nearby, ⟨fun n => ?_, fun input _ =>
    hnearby input⟩, Function.update_self ..⟩
  by_cases hn : n = limit
  · subst hn
    rwa [Function.update_self]
  · rw [Function.update_of_ne hn]
    exact havailable n

variable (config priority pickup)

/-- A driver that could take the order: available, with spare capacity, and within reach. -/
def Suits (d : Driver) : Prop :=
  d.Eligible ∧ store.WithinReach distance ttlSeconds clock now
    (nearbyInput config priority pickup []) d.id

instance (d : Driver) :
    Decidable (Suits distance store ttlSeconds clock now config priority pickup d) :=
  inferInstanceAs (Decidable (_ ∧ _))

/-- If some driver could take the order, the ranking is not empty. -/
def NotMissed : Prop :=
  (∃ d ∈ rows, Suits distance store ttlSeconds clock now config priority pickup d) →
    ∀ findAvailableCandidates findNearby, Answers distance store ttlSeconds clock now rows
      findAvailableCandidates findNearby →
    rankedCandidates config (listDriverCandidates findAvailableCandidates)
      (fun input => (findNearby input).map NearbyDriverView.geoCandidate) priority pickup ≠ []

/-- Fewer eligible drivers out of reach are listed before `d` than the list has places. -/
def HasPlace (d : Driver) : Prop :=
  (rows.filter fun e => e.Eligible ∧ ¬ store.WithinReach distance ttlSeconds clock now
    (nearbyInput config priority pickup []) e.id ∧ e.ListedBefore d).length <
      min config.candidateLimit 100

instance (d : Driver) :
    Decidable (HasPlace distance store ttlSeconds clock now rows config priority pickup d) :=
  inferInstanceAs (Decidable (_ < _))

variable {distance store ttlSeconds clock now rows config priority pickup}

/-- Nobody is missed if and only if one of the drivers that could take the order has a place
on Driver's list, whatever the list does with ties. -/
theorem notMissed_iff (hlimit : 0 < config.candidateLimit) :
    NotMissed distance store ttlSeconds clock now rows config priority pickup ↔
      ((∃ d ∈ rows, Suits distance store ttlSeconds clock now config priority pickup d) →
        ∃ d ∈ rows, Suits distance store ttlSeconds clock now config priority pickup d ∧
          HasPlace distance store ttlSeconds clock now rows config priority pickup d) := by
  refine imp_congr_right fun _ => ?_
  let reach (d : Driver) : Bool := store.WithinReach distance ttlSeconds clock now
    (nearbyInput config priority pickup []) d.id
  have hleast := least_exists_iff (r := Driver.ListedBefore) (p := reach)
    (n := min config.candidateLimit 100) (s := rows.filter fun d => d.Eligible)
  have hcondition : (∃ d ∈ rows.filter fun d => d.Eligible, reach d ∧
      ((rows.filter fun d => d.Eligible).filter fun e => !reach e && decide (e.ListedBefore d)).length
        < min config.candidateLimit 100) ↔
      ∃ d ∈ rows, Suits distance store ttlSeconds clock now config priority pickup d ∧
        HasPlace distance store ttlSeconds clock now rows config priority pickup d := by
    simp only [List.mem_filter, List.filter_filter, decide_eq_true_eq, HasPlace, Suits, reach,
      and_assoc]
    refine exists_congr fun d => and_congr_right fun _ => and_congr_right fun _ =>
      and_congr_right fun _ => ?_
    have hsame : ∀ e : Driver, ((!store.WithinReach distance ttlSeconds clock now
        (nearbyInput config priority pickup []) e.id && decide (e.ListedBefore d)) &&
        decide e.Eligible) = decide (e.Eligible ∧ ¬ store.WithinReach distance ttlSeconds clock now
          (nearbyInput config priority pickup []) e.id = true ∧ e.ListedBefore d) := by
      intro e
      rw [Bool.and_comm]
      simp
    simp only [hsame]
  rw [← hcondition, ← hleast]
  constructor
  · intro hlaw drivers hdrivers
    obtain ⟨available, nearby, hanswers, rfl⟩ :=
      exists_answers distance store ttlSeconds clock now rows _ hdrivers
    exact (rankedCandidates_ne_nil hanswers hlimit).1 (hlaw available nearby hanswers)
  · intro hkept available nearby hanswers
    exact (rankedCandidates_ne_nil hanswers hlimit).2 (hkept _ (hanswers.available _))

section Runs

/-- An idle driver without a location, and one near the pickup with an order already. -/
def idleAndNear : List Driver :=
  [⟨"driver-1", "Ana", 2, [], .available, 1, 1⟩, ⟨"driver-2", "Luis", 2, ["order-1"], .available, 2, 2⟩]

def oneLocated : LiveStore := ⟨[memberAt "driver-2" 1], [liveMember "driver-2" 1]⟩

def dispatchConfig (candidateLimit : ℕ) : DispatchConfig :=
  ⟨candidateLimit, 8, 90, ⟨11 / 20, 1 / 5, 3 / 20, 1 / 10, 90, 28, 5 / 4⟩⟩

theorem suits_near (candidateLimit : ℕ) : Suits originDistance oneLocated 120 2000 2000
    (dispatchConfig candidateLimit) "STANDARD" (0, 0) idleAndNear[1] :=
  ⟨by decide, by
    show oneLocated.WithinReach originDistance 120 2000 2000
      (nearbyInput (dispatchConfig 1) "STANDARD" (0, 0) []) "driver-2" = true
    decide⟩

/-- With two places on the list, the near driver is on it. -/
theorem notMissed_near : NotMissed originDistance oneLocated 120 2000 2000 idleAndNear
    (dispatchConfig 2) "STANDARD" (0, 0) := by
  refine (notMissed_iff (by decide)).2 fun _ => ⟨idleAndNear[1], by decide, suits_near 2, ?_⟩
  have hnear := (suits_near 2).2
  simp only [HasPlace, idleAndNear, List.getElem_cons_succ, List.getElem_cons_zero] at hnear ⊢
  rw [List.filter_cons, List.filter_cons, List.filter_nil]
  simp only [hnear, not_true_eq_false, false_and, and_false, decide_false, Bool.false_eq_true,
    if_false]
  split <;> decide

/-- With one place, the idle driver takes it, and nobody is found. -/
theorem not_notMissed : ¬ ∀ distance store ttlSeconds clock now rows (config : DispatchConfig)
    priority pickup, 0 < config.candidateLimit →
    NotMissed distance store ttlSeconds clock now rows config priority pickup := by
  intro hlaw
  have hsorted : (idleAndNear.filter fun d => d.Eligible).Pairwise Driver.ListedBefore := by
    have hall : (idleAndNear.filter fun d => d.Eligible) = idleAndNear := by decide
    rw [hall]
    simp [idleAndNear, Driver.ListedBefore, Driver.loadRatio]
  have hlist : AvailableCandidates idleAndNear 1 [idleAndNear[0]] := least_take hsorted 1
  obtain ⟨available, nearby, hanswers, hone⟩ :=
    exists_answers originDistance oneLocated 120 2000 2000 idleAndNear 1 hlist
  have hranked := hlaw originDistance oneLocated 120 2000 2000 idleAndNear (dispatchConfig 1)
    "STANDARD" (0, 0) (by decide) ⟨idleAndNear[1], by decide, suits_near 1⟩ available nearby hanswers
  obtain ⟨d, hd, hreach⟩ := (rankedCandidates_ne_nil hanswers (by decide)).1 hranked
  have hd' : d ∈ available 1 := hd
  rw [hone, List.mem_singleton] at hd'
  subst hd'
  revert hreach
  decide

end Runs

end Search

end RouteFast
