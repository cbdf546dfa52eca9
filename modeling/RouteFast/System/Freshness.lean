import RouteFast.System.Candidates
import RouteFast.Tracking.Live

/-! How old a ranked position can be. A sample carries two times: the guard of the hot store
compares when it was recorded, the nearby search looks at when it was received. -/

namespace RouteFast

open Transition

namespace TrackingDb

variable (s : TrackingDb)

/-- The driver has a current position, recorded less than `maxAge + 1` seconds before `now`. -/
def FreshAt (now : Date) (maxAge : ℕ) (driverId : Uuid) : Prop :=
  ∃ location, s.live.get s.clock driverId = some location ∧
    (now : ℤ) - location.recordedAt < (maxAge + 1) * 1000

/-- The metadata of the driver has not expired. -/
def Live (driverId : Uuid) : Prop :=
  ∃ m, s.lastMeta driverId = some m ∧ s.clock < m.expiresAt

/-- Each driver's last accepted sample, until it expires, was recorded within the age limit if it
was received within it. -/
def Prompt (now : Date) (maxAge : ℕ) : Prop :=
  ∀ driverId sample, (s.acceptedOf driverId).getLast? = some sample → s.Live driverId →
    (now : ℤ) - sample.receivedAt < (maxAge + 1) * 1000 →
    (now : ℤ) - sample.recordedAt < (maxAge + 1) * 1000

/-- A driver with metadata is a member of the geo set, at coordinates that a search accepts. -/
def Located : Prop :=
  ∀ driverId m, s.lastMeta driverId = some m → ∃ g ∈ s.live.geo, g.driverId = driverId ∧
    checkCoordinates g.latitude g.longitude = .ok ()

/-- Each driver that a nearby search returns, and each that a ranking of what it returns scores,
has a fresh position. -/
structure RanksFresh (distance : GeoMember → ℚ × ℚ → ℚ) (ttlSeconds : ℕ) (now : Date)
    (maxAge : ℕ) : Prop where
  found : ∀ input geosearch result, input.maxAgeSeconds.getD ttlSeconds = maxAge →
    (∀ n, Least GeoHit.Nearer n (s.live.hits distance input) (geosearch n)) →
    findNearbyDrivers s.live ttlSeconds s.clock now geosearch input = .ok result →
    ∀ view ∈ result, s.FreshAt now maxAge view.location.driverId
  ranked : ∀ input geosearch result, input.maxAgeSeconds.getD ttlSeconds = maxAge →
    (∀ n, Least GeoHit.Nearer n (s.live.hits distance input) (geosearch n)) →
    findNearbyDrivers s.live ttlSeconds s.clock now geosearch input = .ok result →
    ∀ config drivers radiusKm priority, ∀ c ∈ DriverScoring.rank config drivers radiusKm priority
      (result.map NearbyDriverView.geoCandidate), s.FreshAt now maxAge c.driverId

variable {s} {ttlSeconds maxAge : ℕ} {now : Date} {driverId : Uuid} {v : DriverLocationView}

/-- The position that the store answers with is the last accepted sample, until it expires. -/
theorem get_eq_some_iff (h : s.Current) {location : DriverLocationView} :
    s.live.get s.clock driverId = some location ↔
      (s.acceptedOf driverId).getLast? = some location ∧ s.Live driverId := by
  rw [LiveStore.get, lookup_eq, ← h.last, Live]
  cases s.lastMeta driverId with
  | none => simp
  | some m =>
    by_cases hlive : s.clock < m.expiresAt
    · simp [Option.filter, hlive]
    · simp [Option.filter, hlive]

theorem Located.upsert (h : s.Located)
    (hv : checkCoordinates v.latitude v.longitude = .ok ()) : (s.upsert ttlSeconds v).Located := by
  intro driverId m hm
  rw [lastMeta_upsert] at hm
  have hgeo : (s.upsert ttlSeconds v).live.geo = if s.live.accepts s.clock v then
      Table.save GeoMember.driverId ⟨v.driverId, v.latitude, v.longitude⟩ s.live.geo
      else s.live.geo := by
    simp only [TrackingDb.upsert, LiveStore.upsert]
    split <;> rfl
  rw [hgeo]
  by_cases hacc : s.live.accepts s.clock v = true
  · rw [if_pos hacc]
    by_cases hid : v.driverId = driverId
    · exact ⟨_, Table.mem_save_self, hid, hv⟩
    · obtain ⟨g, hg, hgid, hcoord⟩ := h driverId m (by simpa [hid] using hm)
      have hne : g.driverId ≠ v.driverId := fun he => hid (he.symm.trans hgid)
      exact ⟨g, Table.mem_save_of_ne hg hne, hgid, hcoord⟩
  · rw [if_neg hacc]
    exact h driverId m (by simpa [hacc] using hm)

end TrackingDb

theorem checkCoordinates_of_view {input : UpdateDriverLocationInput} {now : Date}
    {v : DriverLocationView} (h : input.view now = .ok v) :
    checkCoordinates v.latitude v.longitude = .ok () := by
  cases hc : checkCoordinates input.latitude input.longitude with
  | error e =>
    simp only [UpdateDriverLocationInput.view, hc, bind, Except.bind] at h
    split at h <;> cases h
  | ok u =>
    simp only [UpdateDriverLocationInput.view, hc, bind, Except.bind] at h
    -- every check that remains throws, or lets the same view through
    repeat' split at h
    all_goals
      cases h
      try exact hc

/-- The age in whole seconds, against the age itself. -/
theorem ageSeconds_le_iff {now receivedAt maxAge : ℕ} :
    (now - receivedAt) / 1000 ≤ maxAge ↔ (now : ℤ) - receivedAt < (maxAge + 1) * 1000 := by
  omega

/-- What a search returns it has looked up, and found young enough by the time of its receipt. -/
theorem LiveStore.of_mem_findNearby {store : LiveStore} {ttlSeconds : ℕ} {clock now : Date}
    {input : NearbySearchInput} {raw : List GeoHit} {view : NearbyDriverView}
    (hlimit : 0 < input.limit) (h : view ∈ store.findNearby ttlSeconds clock now input raw) :
    store.get clock view.location.driverId = some view.location ∧
      (now - view.location.receivedAt) / 1000 ≤ input.maxAgeSeconds.getD ttlSeconds := by
  rw [findNearby_eq _ hlimit] at h
  obtain ⟨hit, -, hview⟩ := List.mem_filterMap.1 h
  have hid := driverId_nearbyView hview
  simp only [nearbyView] at hview
  split at hview
  · cases hview
  · split at hview
    · cases hview
    · next location hget =>
      split at hview
      · cases hview
      · next hage =>
        obtain rfl := Option.some.inj hview
        exact ⟨hid ▸ hget, not_lt.1 hage⟩

/-- A candidate carries the id of the location it was scored for. -/
theorem DriverScoring.driverId_of_scored {config : DriverScoringConfig}
    {drivers : List DriverCapacityCandidate} {radiusKm : ℚ} {priority : String}
    {location : DriverGeoCandidate} {c : ScoredDriverCandidate}
    (h : scored config drivers radiusKm priority location = some c) :
    c.driverId = location.driverId := by
  simp only [scored] at h
  split at h
  · cases h
  · next driver hfind =>
    split at h
    · cases h
    · have hid : driver.id = location.driverId := Table.key_of_find hfind
      rw [← Option.some.inj h]
      exact hid

namespace TrackingDb

variable {s : TrackingDb} {distance : GeoMember → ℚ × ℚ → ℚ} {ttlSeconds maxAge : ℕ} {now : Date}
  {driverId : Uuid}

/-- Redis keeps each member at a point, and measures distances from there. -/
structure Measures (distance : GeoMember → ℚ × ℚ → ℚ) : Prop where
  nonneg : ∀ m p, 0 ≤ distance m p
  kept : ∀ m : GeoMember, checkCoordinates m.latitude m.longitude = .ok () →
    ∃ p : ℚ × ℚ, checkCoordinates p.1 p.2 = .ok () ∧ distance m p = 0

/-- A search for one driver around a point. -/
def searchFor (driverId : Uuid) (p : ℚ × ℚ) (maxAge : ℕ) : NearbySearchInput where
  latitude := p.1
  longitude := p.2
  radiusKm := 1
  limit := 1
  candidateDriverIds := some [driverId]
  maxAgeSeconds := some maxAge

/-- Around where a driver is kept it returns the driver, if the position is young enough by the
time of its receipt. -/
theorem exists_found (ttlSeconds : ℕ) {g : GeoMember} {p : ℚ × ℚ} {sample : DriverLocationView}
    (hmeasures : Measures distance) (hg : g ∈ s.live.geo)
    (hcoord : checkCoordinates p.1 p.2 = .ok ()) (hkept : distance g p = 0)
    (hget : s.live.get s.clock g.driverId = some sample)
    (hage : (now - sample.receivedAt) / 1000 ≤ maxAge) :
    ∃ geosearch result,
      (∀ n, Least GeoHit.Nearer n (s.live.hits distance (searchFor g.driverId p maxAge))
        (geosearch n)) ∧
      findNearbyDrivers s.live ttlSeconds s.clock now geosearch (searchFor g.driverId p maxAge) =
        .ok result ∧
      ∃ view ∈ result, view.location = sample := by
  let hit : GeoHit := ⟨g.driverId, 0⟩
  have hhit : hit ∈ s.live.hits distance (searchFor g.driverId p maxAge) := by
    refine List.mem_filter.2 ⟨List.mem_map.2 ⟨g, hg, ?_⟩, by simp [hit, searchFor]⟩
    simp only [hit, searchFor, Prod.mk.eta, hkept]
  have hfirst : ∀ y ∈ s.live.hits distance (searchFor g.driverId p maxAge),
      GeoHit.Nearer hit y := by
    intro y hy
    obtain ⟨m, -, rfl⟩ := List.mem_map.1 (List.mem_filter.1 hy).1
    exact hmeasures.nonneg m _
  obtain ⟨rest, hleast⟩ := exists_least_cons hhit hfirst
  let view : NearbyDriverView := ⟨sample, Js.toFixed 3 0, (now - sample.receivedAt) / 1000⟩
  have hview : s.live.nearbyView ttlSeconds s.clock now (searchFor g.driverId p maxAge) hit =
      some view := by
    simp [LiveStore.nearbyView, searchFor, hit, view, hget, hage]
  have hresult : s.live.findNearby ttlSeconds s.clock now (searchFor g.driverId p maxAge)
      (hit :: rest.take 2) = [view] := by
    simp only [LiveStore.findNearby, LiveStore.collect, hview]
    rfl
  refine ⟨fun n => (hit :: rest).take n, [view], hleast, ?_, view, List.mem_cons_self, rfl⟩
  rw [← hresult]
  have hradius : ¬ (1 : ℚ) ≤ 0 := by decide
  simp [findNearbyDrivers, hcoord, hradius, searchFor, LiveStore.prefetch, bind, Except.bind]

/-- Rankings add nothing to the searches they rank. -/
theorem ranksFresh_of_found (h : ∀ input geosearch result,
      input.maxAgeSeconds.getD ttlSeconds = maxAge →
      (∀ n, Least GeoHit.Nearer n (s.live.hits distance input) (geosearch n)) →
      findNearbyDrivers s.live ttlSeconds s.clock now geosearch input = .ok result →
      ∀ view ∈ result, s.FreshAt now maxAge view.location.driverId) :
    s.RanksFresh distance ttlSeconds now maxAge := by
  refine ⟨h, fun input geosearch result hmax hleast hok config drivers radiusKm priority c hc => ?_⟩
  obtain ⟨location, hmem, hscored⟩ := DriverScoring.mem_rank.1 hc
  obtain ⟨view, hview, rfl⟩ := List.mem_map.1 hmem
  have hid : c.driverId = view.location.driverId := DriverScoring.driverId_of_scored hscored
  rw [hid]
  exact h input geosearch result hmax hleast hok view hview

/-- In one state of the store: only fresh positions are ranked exactly when the last samples were
as prompt as the age limit asks. -/
theorem ranksFresh_iff (hcurrent : s.Current) (hlocated : s.Located)
    (hmeasures : Measures distance) :
    s.RanksFresh distance ttlSeconds now maxAge ↔ s.Prompt now maxAge := by
  constructor
  · intro h driverId sample hlast hlive hreceived
    have hget : s.live.get s.clock driverId = some sample :=
      (get_eq_some_iff hcurrent).2 ⟨hlast, hlive⟩
    obtain ⟨m, hm, -⟩ := hlive
    obtain ⟨g, hg, rfl, hvalid⟩ := hlocated driverId m hm
    obtain ⟨p, hcoord, hkept⟩ := hmeasures.kept g hvalid
    obtain ⟨geosearch, result, hleast, hok, view, hview, rfl⟩ :=
      exists_found ttlSeconds hmeasures hg hcoord hkept hget (ageSeconds_le_iff.2 hreceived)
    obtain ⟨location, hlocation, hfresh⟩ :=
      h.found (searchFor g.driverId p maxAge) geosearch result rfl hleast hok view hview
    rw [LiveStore.driverId_of_get hget, hget] at hlocation
    obtain rfl := Option.some.inj hlocation
    exact hfresh
  · intro h
    refine ranksFresh_of_found fun input geosearch result hmax _ hok view hview => ?_
    obtain ⟨hlimit, rfl⟩ := of_findNearbyDrivers hok
    obtain ⟨hget, hage⟩ := LiveStore.of_mem_findNearby hlimit hview
    obtain ⟨hlast, hlive⟩ := (get_eq_some_iff hcurrent).1 hget
    exact ⟨_, hget, h _ _ hlast hlive (ageSeconds_le_iff.1 (hmax ▸ hage))⟩

end TrackingDb

namespace TrackingPool

variable {ttlSeconds : ℕ}

theorem located_of_run {ts : List TrackingMove} {P : TrackingPool}
    (hrun : (system ttlSeconds).Run ts P) : P.shared.Located := by
  refine Pool.run_invariant ?_ ?_ hrun
  · rintro s ⟨clock, rfl⟩ driverId m hm
    cases hm
  · intro p seen effect next s hres h
    rcases (residual_step hres).upsert_or_same with ⟨_, _, v, -, -, hv, rfl⟩ | ⟨-, hsame⟩
    · exact h.upsert (checkCoordinates_of_view hv)
    · obtain ⟨hlive, -⟩ := hsame s
      intro driverId m hm
      rw [lastMeta_congr hlive] at hm
      rw [hlive]
      exact h driverId m hm

/-- After any history of updates, for any search time and age limit: only fresh positions are
ranked exactly when the last samples were as prompt as the age limit asks. -/
theorem ranksFresh_run_iff {ts : List TrackingMove} {P : TrackingPool}
    (hrun : (system ttlSeconds).Run ts P) {distance : GeoMember → ℚ × ℚ → ℚ}
    (hmeasures : TrackingDb.Measures distance) (now : Date) (maxAge : ℕ) :
    P.shared.RanksFresh distance ttlSeconds now maxAge ↔ P.shared.Prompt now maxAge :=
  TrackingDb.ranksFresh_iff (current_of_run hrun) (located_of_run hrun) hmeasures

section Runs

/-- About the kilometres along the meridian and the parallel. -/
def gridDistance (m : GeoMember) (p : ℚ × ℚ) : ℚ :=
  111 * (|m.latitude - p.1| + |m.longitude - p.2|)

theorem measures_gridDistance : TrackingDb.Measures gridDistance where
  nonneg m p := by
    unfold gridDistance
    positivity
  kept m hcoord := ⟨(m.latitude, m.longitude), hcoord, by simp [gridDistance]⟩

/-- A driver at the origin sends a sample taken at `recordedAt`, which arrives at `now`. -/
def delivered (recordedAt : ℤ) (now : Date) : List (PoolLabel TrackingRequest) :=
  [.spawn 0 (.update (sampleAt recordedAt) now), .advance 0, .advance 0]

/-- A sample on its way for ten seconds is fresh for eighty more. -/
theorem ranksFresh_delivered : ∃ P,
    (system 120).replay emptyTracking (delivered 1000 11000) = some P ∧
      P.shared.accepted.length = 1 ∧ P.shared.RanksFresh gridDistance 120 91000 90 := by
  have hrun : (system 120).Run ((system 120).moves emptyTracking (delivered 1000 11000)) _ :=
    .of_replay ⟨⟨0, rfl⟩, fun _ => rfl⟩ rfl
  refine ⟨_, rfl, rfl, (ranksFresh_run_iff hrun measures_gridDistance 91000 90).2 ?_⟩
  intro driverId sample hlast _ _
  have hmem := (List.mem_filter.1 (List.mem_of_getLast? hlast)).1
  obtain rfl : sample = ⟨"driver-1", 0, 0, none, none, 1000, 11000⟩ := List.mem_singleton.1 hmem
  decide

/-- A sample that was buffered for ten minutes is of age zero when it arrives. -/
theorem not_ranksFresh : ∃ ts P, (system 120).Run ts P ∧
    (∀ v ∈ P.shared.accepted, v.recordedAt ≤ v.receivedAt) ∧
    findNearbyDrivers P.shared.live 120 P.shared.clock 600000
      (P.shared.live.hits gridDistance (nearOrigin 1)).take (nearOrigin 1) =
        .ok [⟨⟨"driver-1", 0, 0, none, none, 0, 600000⟩, 0, 0⟩] ∧
    ¬ P.shared.RanksFresh gridDistance 120 600000 90 := by
  have hrun : (system 120).Run ((system 120).moves emptyTracking (delivered 0 600000)) _ :=
    .of_replay ⟨⟨0, rfl⟩, fun _ => rfl⟩ rfl
  refine ⟨_, _, hrun, ?_, ?_, fun h => ?_⟩
  · intro v hv
    obtain rfl := List.mem_singleton.1 hv
    decide
  · decide +kernel
  · have hprompt := (TrackingDb.ranksFresh_iff (current_of_run hrun) (located_of_run hrun)
      measures_gridDistance).1 h
    have hfresh := hprompt "driver-1" ⟨"driver-1", 0, 0, none, none, 0, 600000⟩ rfl
      ⟨_, rfl, by decide⟩ (by decide)
    revert hfresh
    decide

end Runs

end TrackingPool

end RouteFast
