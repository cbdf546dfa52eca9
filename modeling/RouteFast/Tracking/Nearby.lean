import RouteFast.Base.Least
import RouteFast.Tracking.Location

/-! The nearby search. Redis answers with the nearest members of the geo set, whatever
became of their metadata; candidates, metadata and age are looked at only afterwards, over
the `3 * limit` members that came. -/

namespace RouteFast

structure NearbySearchInput where
  latitude : ℚ
  longitude : ℚ
  radiusKm : ℚ
  limit : ℕ
  candidateDriverIds : Option (List Uuid)
  maxAgeSeconds : Option ℕ
  deriving DecidableEq

structure NearbyDriverView where
  location : DriverLocationView
  distanceKm : ℚ
  ageSeconds : ℕ
  deriving DecidableEq

/-- A member with its distance, as `GEOSEARCH .. WITHDIST` answers. -/
structure GeoHit where
  driverId : Uuid
  distanceKm : ℚ
  deriving DecidableEq

def GeoHit.Nearer (a b : GeoHit) : Prop := a.distanceKm ≤ b.distanceKm

instance : DecidableRel GeoHit.Nearer := fun _ _ => inferInstanceAs (Decidable (_ ≤ _))

instance : Std.Total GeoHit.Nearer := ⟨fun a b => le_total a.distanceKm b.distanceKm⟩

instance : IsTrans GeoHit GeoHit.Nearer := ⟨fun _ _ _ hab hbc => le_trans hab hbc⟩

namespace LiveStore

section Search

variable (distance : GeoMember → ℚ × ℚ → ℚ) (store : LiveStore) (ttlSeconds : ℕ) (clock now : Date)
  (input : NearbySearchInput)

/-- The members within the radius. `distance` is Redis' distance from the point. -/
def hits : List GeoHit :=
  (store.geo.map fun m => ⟨m.driverId, distance m (input.latitude, input.longitude)⟩).filter
    fun hit => hit.distanceKm ≤ input.radiusKm

/-- `COUNT`, as the search asks for it. -/
def prefetch : ℕ := max (input.limit * 3) input.limit

/-- The view of a hit that no `continue` skips. -/
def nearbyView (hit : GeoHit) : Option NearbyDriverView :=
  let allowed := input.candidateDriverIds.all fun ids => hit.driverId ∈ ids
  let maxAge := input.maxAgeSeconds.getD ttlSeconds
  if ¬ allowed then none
  else
    match store.get clock hit.driverId with
    | none => none
    | some location =>
      let ageSeconds := (now - location.receivedAt) / 1000
      if ageSeconds > maxAge then none
      else some ⟨location, Js.toFixed 3 hit.distanceKm, ageSeconds⟩

/-- The loop, with the results so far. -/
def collect : List GeoHit → List NearbyDriverView → List NearbyDriverView
  | [], results => results
  | item :: raw, results =>
    match store.nearbyView ttlSeconds clock now input item with
    | none => collect raw results
    | some view =>
      if (results ++ [view]).length ≥ input.limit then results ++ [view]
      else collect raw (results ++ [view])

/-- `findNearby`, over what `GEOSEARCH` answered. -/
def findNearby (raw : List GeoHit) : List NearbyDriverView :=
  store.collect ttlSeconds clock now input raw []

/-- A hit the search is about: allowed, with live metadata, and fresh. -/
def Eligible (hit : GeoHit) : Bool := (store.nearbyView ttlSeconds clock now input hit).isSome

/-- The result lists the nearest eligible members, in order, up to the limit. -/
def Exact (result : List NearbyDriverView) : Prop :=
  ∃ chosen, Least GeoHit.Nearer input.limit
      ((store.hits distance input).filter (store.Eligible ttlSeconds clock now input)) chosen ∧
    result = chosen.filterMap (store.nearbyView ttlSeconds clock now input)

end Search

variable {distance : GeoMember → ℚ × ℚ → ℚ} {store : LiveStore} {ttlSeconds : ℕ} {clock now : Date}
  {input : NearbySearchInput}

/-- Metadata is found under its own driver. -/
theorem driverId_of_get {driverId : Uuid} {location : DriverLocationView}
    (h : store.get clock driverId = some location) : location.driverId = driverId := by
  obtain ⟨m, hm, rfl⟩ := Option.map_eq_some_iff.1 h
  have hkey : LocationMeta.driverId m = driverId :=
    Table.key_of_find (Option.filter_eq_some_iff.1 hm).1
  exact hkey

theorem collect_eq (raw : List GeoHit) {results : List NearbyDriverView}
    (h : results.length < input.limit) : store.collect ttlSeconds clock now input raw results =
      results ++ (raw.filterMap (store.nearbyView ttlSeconds clock now input)).take
        (input.limit - results.length) := by
  induction raw generalizing results with
  | nil => simp [collect]
  | cons item raw ih =>
    cases hview : store.nearbyView ttlSeconds clock now input item with
    | none => simp only [collect, hview, ih h, List.filterMap_cons_none hview]
    | some view =>
      have hlen : (results ++ [view]).length = results.length + 1 := by simp
      obtain ⟨left, hleft⟩ : ∃ left, input.limit - results.length = left + 1 :=
        ⟨input.limit - results.length - 1, by omega⟩
      rw [List.filterMap_cons_some hview, hleft, List.take_succ_cons]
      simp only [collect, hview]
      split
      · next hfull =>
        obtain rfl : left = 0 := by omega
        simp
      · next hmore =>
        have hrest : input.limit - (results ++ [view]).length = left := by omega
        rw [ih (by omega), hrest, List.append_assoc, List.singleton_append]

/-- What the loop leaves is the front of the eligible hits that came. -/
theorem findNearby_eq (raw : List GeoHit) (hlimit : 0 < input.limit) :
    store.findNearby ttlSeconds clock now input raw =
      ((raw.filter (store.Eligible ttlSeconds clock now input)).take input.limit).filterMap
        (store.nearbyView ttlSeconds clock now input) := by
  have hempty : ([] : List NearbyDriverView).length < input.limit := hlimit
  rw [findNearby, collect_eq raw hempty, List.nil_append, List.length_nil, Nat.sub_zero]
  generalize input.limit = limit
  induction raw generalizing limit with
  | nil => simp
  | cons item raw ih =>
    cases hview : store.nearbyView ttlSeconds clock now input item with
    | none => simp [Eligible, hview, ← ih]
    | some view =>
      cases limit with
      | zero => simp
      | succ limit => simp [Eligible, hview, ← ih]

/-- Every eligible hit has its view. -/
theorem length_filterMap_view {chosen : List GeoHit}
    (h : ∀ hit ∈ chosen, store.Eligible ttlSeconds clock now input hit = true) :
    (chosen.filterMap (store.nearbyView ttlSeconds clock now input)).length = chosen.length := by
  induction chosen with
  | nil => rfl
  | cons hit chosen ih =>
    obtain ⟨view, hview⟩ := Option.isSome_iff_exists.1 (h hit List.mem_cons_self)
    rw [List.filterMap_cons_some hview, List.length_cons, List.length_cons,
      ih fun hit' hmem => h hit' (List.mem_cons_of_mem _ hmem)]

end LiveStore

/-- `FindNearbyDriversUseCase.execute`, with Redis' answer to `GEOSEARCH .. ASC COUNT n`. -/
def findNearbyDrivers (store : LiveStore) (ttlSeconds : ℕ) (clock now : Date)
    (geosearch : ℕ → List GeoHit) (input : NearbySearchInput) :
    Except ServiceError (List NearbyDriverView) := do
  checkCoordinates input.latitude input.longitude
  if input.radiusKm ≤ 0 ∨ 100 < input.radiusKm then
    .error (.error "radiusKm must be greater than 0 and <= 100")
  if input.limit < 1 ∨ 100 < input.limit then
    .error (.error "limit must be between 1 and 100")
  .ok (store.findNearby ttlSeconds clock now input (geosearch (LiveStore.prefetch input)))

section Law

variable {distance : GeoMember → ℚ × ℚ → ℚ} {store : LiveStore} {ttlSeconds : ℕ} {clock now : Date}
  {geosearch : ℕ → List GeoHit} {input : NearbySearchInput} {result : List NearbyDriverView}

theorem of_findNearbyDrivers
    (h : findNearbyDrivers store ttlSeconds clock now geosearch input = .ok result) :
    0 < input.limit ∧
      result = store.findNearby ttlSeconds clock now input (geosearch (LiveStore.prefetch input)) := by
  cases hc : checkCoordinates input.latitude input.longitude with
  | error e => simp [findNearbyDrivers, hc, bind, Except.bind] at h
  | ok =>
    by_cases hr : input.radiusKm ≤ 0 ∨ 100 < input.radiusKm
    · simp [findNearbyDrivers, hc, hr, bind, Except.bind] at h
    · by_cases hl : input.limit < 1 ∨ 100 < input.limit
      · simp only [findNearbyDrivers, hc, if_neg hr, if_pos hl, bind, Except.bind] at h
        cases h
      · simp only [findNearbyDrivers, hc, if_neg hr, if_neg hl, bind, Except.bind] at h
        exact ⟨by omega, (Except.ok.inj h).symm⟩

/-- The search is exact if and only if enough of the members prefetched are eligible. -/
theorem exact_iff (hsearch : ∀ n, Least GeoHit.Nearer n (store.hits distance input) (geosearch n))
    (h : findNearbyDrivers store ttlSeconds clock now geosearch input = .ok result) :
    store.Exact distance ttlSeconds clock now input result ↔
      min input.limit
          ((store.hits distance input).filter (store.Eligible ttlSeconds clock now input)).length ≤
        ((geosearch (input.limit * 3)).filter
          (store.Eligible ttlSeconds clock now input)).length := by
  obtain ⟨hlimit, rfl⟩ := of_findNearbyDrivers h
  have hprefetch : LiveStore.prefetch input = input.limit * 3 := by
    simp only [LiveStore.prefetch]
    omega
  rw [hprefetch, LiveStore.findNearby_eq _ hlimit, ← (hsearch (input.limit * 3)).filter_take_iff]
  constructor
  · rintro ⟨chosen, hchosen, heq⟩
    have hlen := congrArg List.length heq
    rw [LiveStore.length_filterMap_view fun hit hmem =>
        (List.mem_filter.1 (List.mem_of_mem_take hmem)).2,
      LiveStore.length_filterMap_view fun hit hmem => (List.mem_filter.1 (hchosen.mem hmem)).2,
      hchosen.length, List.length_take] at hlen
    rw [(hsearch (input.limit * 3)).filter_take_iff]
    omega
  · exact fun hleast => ⟨_, hleast, rfl⟩

/-- A driver `km` away from the origin; the latitude stands in for the distance. -/
def memberAt (driverId : Uuid) (km : ℚ) : GeoMember := ⟨driverId, km, 0⟩

def liveMember (driverId : Uuid) (km : ℚ) : LocationMeta :=
  ⟨⟨driverId, km, 0, none, none, 1000, 1000⟩, 1000, 121000⟩

/-- Three members whose metadata has expired, and one with fresh metadata behind them. -/
def expiredInFront : LiveStore :=
  ⟨[memberAt "driver-1" 1, memberAt "driver-2" 2, memberAt "driver-3" 3, memberAt "driver-4" 4],
    [liveMember "driver-4" 4]⟩

def nearOrigin (limit : ℕ) : NearbySearchInput := ⟨0, 0, 5, limit, none, some 90⟩

def originDistance (m : GeoMember) (_ : ℚ × ℚ) : ℚ := m.latitude

theorem geosearch_expiredInFront (limit n : ℕ) :
    Least GeoHit.Nearer n (expiredInFront.hits originDistance (nearOrigin limit))
      ((expiredInFront.hits originDistance (nearOrigin limit)).take n) := by
  have hsorted : ∀ limit : ℕ,
      (expiredInFront.hits originDistance (nearOrigin limit)).Pairwise GeoHit.Nearer := by
    intro limit
    show (expiredInFront.hits originDistance (nearOrigin 1)).Pairwise GeoHit.Nearer
    decide
  exact least_take (hsorted limit) n

/-- With a limit of two, six members are prefetched, and the fresh one is found. -/
theorem exact_nearOrigin : ∃ result,
    findNearbyDrivers expiredInFront 120 2000 2000
      (fun n => (expiredInFront.hits originDistance (nearOrigin 2)).take n) (nearOrigin 2) =
        .ok result ∧
    result.length = 1 ∧
    expiredInFront.Exact originDistance 120 2000 2000 (nearOrigin 2) result :=
  ⟨_, rfl, rfl, (exact_iff (geosearch_expiredInFront 2) rfl).2 (by decide)⟩

/-- With a limit of one, only the three expired ones are looked at. -/
theorem not_exact : ¬ ∀ (distance : GeoMember → ℚ × ℚ → ℚ) store ttlSeconds clock now geosearch
    input result, (∀ n, Least GeoHit.Nearer n (store.hits distance input) (geosearch n)) →
    findNearbyDrivers store ttlSeconds clock now geosearch input = .ok result →
    store.Exact distance ttlSeconds clock now input result := by
  intro hlaw
  obtain ⟨chosen, hchosen, hnil⟩ : expiredInFront.Exact originDistance 120 2000 2000
      (nearOrigin 1) [] := hlaw _ _ _ _ _ _ _ _ (geosearch_expiredInFront 1) rfl
  have hone : chosen.length = 1 := by
    rw [hchosen.length]
    decide
  have hlen := LiveStore.length_filterMap_view fun hit hmem =>
    (List.mem_filter.1 (hchosen.mem hmem)).2
  rw [← hnil, hone] at hlen
  cases hlen

end Law

end RouteFast
