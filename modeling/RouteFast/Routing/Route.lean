import RouteFast.Routing.Planner
import Mathlib.Algebra.Order.Ring.Rat
import Mathlib.Tactic.Linarith

/-! Routes: what the vehicle carries along one, which orders it serves, and what the scan of
`isCapacityFeasible` says of it. -/

namespace RouteFast

/-- What the stop adds to the load. -/
def InternalStop.change (stop : InternalStop) : ℚ :=
  match stop.type with
  | .pickup => stop.demand
  | .dropoff => -stop.demand

/-- Demands picked up minus demands dropped. -/
def loadOf (stops : List InternalStop) : ℚ := (stops.map InternalStop.change).sum

@[simp] theorem loadOf_nil : loadOf [] = 0 := rfl

@[simp] theorem loadOf_cons (stop : InternalStop) (stops : List InternalStop) :
    loadOf (stop :: stops) = stop.change + loadOf stops := by simp [loadOf]

@[simp] theorem loadOf_append (l r : List InternalStop) :
    loadOf (l ++ r) = loadOf l + loadOf r := by simp [loadOf]

@[simp] theorem RoutePlanOrder.change_pickupStop (order : RoutePlanOrder) :
    order.pickupStop.change = order.demand := rfl

@[simp] theorem RoutePlanOrder.change_dropoffStop (order : RoutePlanOrder) :
    order.dropoffStop.change = -order.demand := rfl

@[simp] theorem RoutePlanOrder.orderId_pickupStop (order : RoutePlanOrder) :
    order.pickupStop.orderId = order.orderId := rfl

@[simp] theorem RoutePlanOrder.orderId_dropoffStop (order : RoutePlanOrder) :
    order.dropoffStop.orderId = order.orderId := rfl

/-- The stops of the order are its pickup and, after it, its dropoff. -/
def Served (order : RoutePlanOrder) (stops : List InternalStop) : Prop :=
  stops.filter (fun stop => stop.orderId = order.orderId) = [order.pickupStop, order.dropoffStop]

/-- No stop is the order's. -/
def Fresh (order : RoutePlanOrder) (stops : List InternalStop) : Prop :=
  ∀ stop ∈ stops, stop.orderId ≠ order.orderId

/-- The load after every part of the way. -/
def WithinCapacity (capacity : ℚ) (stops : List InternalStop) : Prop :=
  ∀ before, before <+: stops → loadOf before ≤ capacity

/-- A route that serves the orders accepted, and nobody else, with a load that is never below
zero nor above the capacity and is zero at the end. -/
structure ValidRoute (capacity : ℚ) (accepted : List RoutePlanOrder)
    (route : List InternalStop) : Prop where
  served : ∀ order ∈ accepted, Served order route
  owned : ∀ stop ∈ route, ∃ order ∈ accepted, stop.orderId = order.orderId
  nonneg : ∀ before, before <+: route → 0 ≤ loadOf before
  within : WithinCapacity capacity route
  total : loadOf route = 0

/-- The two tests on ids that the scan makes. -/
def Paired (picked : List String) : List InternalStop → Prop
  | [] => True
  | stop :: stops =>
    match stop.type with
    | .pickup => stop.orderId ∉ picked ∧ Paired (stop.orderId :: picked) stops
    | .dropoff => stop.orderId ∈ picked ∧ Paired picked stops

open RoutePlanner

theorem forall_prefix_cons {P : List InternalStop → Prop} {stop : InternalStop}
    {stops : List InternalStop} : (∀ before, before <+: stop :: stops → P before) ↔
      P [] ∧ ∀ before, before <+: stops → P (stop :: before) := by
  constructor
  · intro h
    exact ⟨h [] List.nil_prefix, fun before hb => h _ ((List.prefix_cons_inj stop).2 hb)⟩
  · rintro ⟨hnil, hcons⟩ before hb
    rcases List.prefix_cons_iff.1 hb with rfl | ⟨t, rfl, ht⟩
    · exact hnil
    · exact hcons t ht

section Scan

variable {capacity load : ℚ} {picked : List String} {stop : InternalStop}
  {stops : List InternalStop}

theorem feasibleFrom_pickup (h : stop.type = .pickup) :
    feasibleFrom capacity load picked (stop :: stops) = true ↔ stop.orderId ∉ picked ∧
      (0 ≤ load + stop.change ∧ load + stop.change ≤ capacity) ∧
      feasibleFrom capacity (load + stop.change) (stop.orderId :: picked) stops = true := by
  have hchange : stop.change = stop.demand := by simp [InternalStop.change, h]
  rw [hchange, ← not_lt, ← not_lt, ← not_or]
  simp only [feasibleFrom, h]
  split_ifs <;> simp_all

theorem feasibleFrom_dropoff (h : stop.type = .dropoff) :
    feasibleFrom capacity load picked (stop :: stops) = true ↔ stop.orderId ∈ picked ∧
      (0 ≤ load + stop.change ∧ load + stop.change ≤ capacity) ∧
      feasibleFrom capacity (load + stop.change) picked stops = true := by
  have hchange : stop.change = -stop.demand := by simp [InternalStop.change, h]
  rw [hchange, ← sub_eq_add_neg, ← not_lt, ← not_lt, ← not_or]
  simp only [feasibleFrom, h]
  split_ifs <;> simp_all

/-- What the scan accepts, from any load within the capacity. -/
theorem feasibleFrom_iff (hload : 0 ≤ load ∧ load ≤ capacity) :
    feasibleFrom capacity load picked stops = true ↔ Paired picked stops ∧
      (∀ before, before <+: stops → 0 ≤ load + loadOf before ∧ load + loadOf before ≤ capacity) ∧
      load + loadOf stops = 0 := by
  induction stops generalizing load picked with
  | nil => simp [feasibleFrom, Paired, hload]
  | cons stop stops ih =>
    simp only [forall_prefix_cons, loadOf_cons, loadOf_nil, add_zero, ← add_assoc, hload,
      and_self, true_and]
    -- the load after this stop is that of the empty prefix of the rest
    have hnext : (∀ before, before <+: stops → 0 ≤ load + stop.change + loadOf before ∧
        load + stop.change + loadOf before ≤ capacity) →
        0 ≤ load + stop.change ∧ load + stop.change ≤ capacity := fun hall => by
      simpa using hall [] List.nil_prefix
    have hrest (picked' : List String) (before : Prop) :
        (before ∧ (0 ≤ load + stop.change ∧ load + stop.change ≤ capacity) ∧
          feasibleFrom capacity (load + stop.change) picked' stops = true) ↔
        (before ∧ Paired picked' stops) ∧
          (∀ before, before <+: stops → 0 ≤ load + stop.change + loadOf before ∧
            load + stop.change + loadOf before ≤ capacity) ∧
          load + stop.change + loadOf stops = 0 := by
      constructor
      · rintro ⟨hbefore, hin, hrest⟩
        obtain ⟨hpaired, hall⟩ := (ih hin).1 hrest
        exact ⟨⟨hbefore, hpaired⟩, hall⟩
      · rintro ⟨⟨hbefore, hpaired⟩, hall⟩
        exact ⟨hbefore, hnext hall.1, (ih (hnext hall.1)).2 ⟨hpaired, hall⟩⟩
    cases htype : stop.type with
    | pickup =>
      rw [feasibleFrom_pickup htype, Paired, htype]
      exact hrest _ _
    | dropoff =>
      rw [feasibleFrom_dropoff htype, Paired, htype]
      exact hrest _ _

end Scan

/-- Every stop belongs to an order that the list serves. -/
def AllServed (stops : List InternalStop) : Prop :=
  ∀ stop ∈ stops, ∃ order : RoutePlanOrder, stop.orderId = order.orderId ∧ Served order stops

/-- The pickup of a served order is its first stop, and the dropoff is the other one. -/
theorem Served.split {order : RoutePlanOrder} {l r : List InternalStop} {stop : InternalStop}
    (h : Served order (l ++ stop :: r)) (hid : stop.orderId = order.orderId) :
    (stop = order.pickupStop ∧ Fresh order l) ∨
      (stop = order.dropoffStop ∧ order.pickupStop ∈ l) := by
  rw [Served, List.filter_append, List.filter_cons_of_pos (by simpa using hid)] at h
  cases hl : l.filter (fun stop => stop.orderId = order.orderId) with
  | nil =>
    rw [hl] at h
    left
    refine ⟨(List.cons.inj h).1, fun x hx hxid => ?_⟩
    have hmem : x ∈ l.filter (fun stop => stop.orderId = order.orderId) :=
      List.mem_filter.2 ⟨hx, by simpa using hxid⟩
    simp [hl] at hmem
  | cons x xs =>
    rw [hl] at h
    obtain ⟨rfl, htail⟩ := List.cons.inj h
    have hmem : order.pickupStop ∈ l.filter (fun stop => stop.orderId = order.orderId) := by
      rw [hl]
      exact List.mem_cons_self
    right
    cases xs with
    | nil => exact ⟨(List.cons.inj htail).1, (List.mem_filter.1 hmem).1⟩
    | cons y ys => simp at htail

/-- The scan's set of ids is that of the pickups passed; then every test it makes holds. -/
theorem AllServed.paired {l r : List InternalStop} {picked : List String}
    (h : AllServed (l ++ r))
    (hpicked : ∀ id, id ∈ picked ↔ ∃ stop ∈ l, stop.type = .pickup ∧ stop.orderId = id) :
    Paired picked r := by
  induction r generalizing l picked with
  | nil => trivial
  | cons stop r ih =>
    obtain ⟨order, hid, hserved⟩ := h stop (by simp)
    have hrest : AllServed ((l ++ [stop]) ++ r) := by simpa using h
    rcases hserved.split hid with ⟨hstop, hfresh⟩ | ⟨hstop, hbefore⟩
    · have htype : stop.type = .pickup := by simp [hstop, RoutePlanOrder.pickupStop]
      rw [Paired, htype]
      refine ⟨fun hmem => ?_, ih hrest fun id => ?_⟩
      · obtain ⟨x, hx, -, hxid⟩ := (hpicked _).1 hmem
        exact hfresh x hx (hxid.trans hid)
      · simp only [List.mem_cons, hpicked, List.mem_append, List.not_mem_nil, or_false]
        constructor
        · rintro (rfl | ⟨x, hx, hxt, hxid⟩)
          · exact ⟨stop, Or.inr rfl, htype, rfl⟩
          · exact ⟨x, Or.inl hx, hxt, hxid⟩
        · rintro ⟨x, hx | rfl, hxt, hxid⟩
          · exact Or.inr ⟨x, hx, hxt, hxid⟩
          · exact Or.inl hxid.symm
    · have htype : stop.type = .dropoff := by simp [hstop, RoutePlanOrder.dropoffStop]
      rw [Paired, htype]
      refine ⟨(hpicked _).2 ⟨_, hbefore, rfl, hid.symm⟩, ih hrest fun id => ?_⟩
      simp only [hpicked, List.mem_append, List.mem_singleton]
      constructor
      · rintro ⟨x, hx, hxt, hxid⟩
        exact ⟨x, Or.inl hx, hxt, hxid⟩
      · rintro ⟨x, hx | rfl, hxt, hxid⟩
        · exact ⟨x, hx, hxt, hxid⟩
        · simp [htype] at hxt

section Insertion

variable {order : RoutePlanOrder} {route stops : List InternalStop} {i j : ℕ}

theorem Fresh.served (hfresh : Fresh order route)
    (h : PairInserted order.pickupStop order.dropoffStop route i j stops) : Served order stops := by
  obtain ⟨a, b, c, rfl, rfl, -, -⟩ := h
  have hnone : ∀ l : List InternalStop, (∀ stop ∈ l, stop ∈ a ++ b ++ c) →
      l.filter (fun stop => stop.orderId = order.orderId) = [] := by
    intro l hl
    rw [List.filter_eq_nil_iff]
    intro stop hstop
    simpa using hfresh stop (hl stop hstop)
  simp [Served, List.filter_append, hnone a (by simp +contextual),
    hnone b (by simp +contextual), hnone c (by simp +contextual)]

theorem Served.insert {other : RoutePlanOrder} (hserved : Served other route)
    (hne : other.orderId ≠ order.orderId)
    (h : PairInserted order.pickupStop order.dropoffStop route i j stops) : Served other stops := by
  obtain ⟨a, b, c, rfl, rfl, -, -⟩ := h
  simpa [Served, List.filter_append, hne.symm] using hserved

theorem mem_of_pairInserted {stop : InternalStop}
    (h : PairInserted order.pickupStop order.dropoffStop route i j stops) (hstop : stop ∈ stops) :
    stop ∈ route ∨ stop.orderId = order.orderId := by
  obtain ⟨a, b, c, rfl, rfl, -, -⟩ := h
  simp only [List.mem_append, List.mem_cons] at hstop ⊢
  rcases hstop with (hstop | rfl | hstop) | rfl | hstop
  · exact Or.inl (Or.inl (Or.inl hstop))
  · exact Or.inr rfl
  · exact Or.inl (Or.inl (Or.inr hstop))
  · exact Or.inr rfl
  · exact Or.inl (Or.inr hstop)

theorem loadOf_pairInserted
    (h : PairInserted order.pickupStop order.dropoffStop route i j stops) :
    loadOf stops = loadOf route := by
  obtain ⟨a, b, c, rfl, rfl, -, -⟩ := h
  simp only [loadOf_append, loadOf_cons, RoutePlanOrder.change_pickupStop,
    RoutePlanOrder.change_dropoffStop]
  ring

/-- Along the new route, the load is that of some part of the old one, with or without the
order's demand. -/
theorem load_pairInserted
    (h : PairInserted order.pickupStop order.dropoffStop route i j stops)
    {before : List InternalStop} (hbefore : before <+: stops) :
    ∃ old, old <+: route ∧
      (loadOf before = loadOf old ∨ loadOf before = loadOf old + order.demand) := by
  obtain ⟨a, b, c, rfl, rfl, -, -⟩ := h
  rcases prefix_append_cons_iff.1 hbefore with hab | ⟨c', ⟨c'', rfl⟩, rfl⟩
  · rcases prefix_append_cons_iff.1 hab with ⟨a', rfl⟩ | ⟨b', ⟨b'', rfl⟩, rfl⟩
    · exact ⟨before, ⟨a' ++ b ++ c, by simp⟩, Or.inl rfl⟩
    · refine ⟨a ++ b', ⟨b'' ++ c, by simp⟩, Or.inr ?_⟩
      simp only [loadOf_append, loadOf_cons, RoutePlanOrder.change_pickupStop]
      ring
  · refine ⟨a ++ b ++ c', ⟨c'', by simp⟩, Or.inl ?_⟩
    simp only [loadOf_append, loadOf_cons, RoutePlanOrder.change_pickupStop,
      RoutePlanOrder.change_dropoffStop]
    ring

end Insertion

namespace ValidRoute

variable {capacity : ℚ} {accepted : List RoutePlanOrder} {order : RoutePlanOrder}
  {route stops : List InternalStop} {i j : ℕ}

theorem nil (hcapacity : 0 ≤ capacity) : ValidRoute capacity [] [] where
  served := by simp
  owned := by simp
  nonneg before h := by simp [List.prefix_nil.1 h]
  within before h := by simpa [List.prefix_nil.1 h] using hcapacity
  total := rfl

theorem capacity_nonneg (h : ValidRoute capacity accepted route) : 0 ≤ capacity := by
  simpa using h.within [] List.nil_prefix

theorem allServed (h : ValidRoute capacity accepted route) : AllServed route := by
  intro stop hstop
  obtain ⟨order, horder, hid⟩ := h.owned stop hstop
  exact ⟨order, hid, h.served order horder⟩

theorem fresh (h : ValidRoute capacity accepted route)
    (hnew : ∀ other ∈ accepted, other.orderId ≠ order.orderId) : Fresh order route := by
  intro stop hstop
  obtain ⟨other, hother, hid⟩ := h.owned stop hstop
  rw [hid]
  exact hnew other hother

theorem insert (h : ValidRoute capacity accepted route)
    (hnew : ∀ other ∈ accepted, other.orderId ≠ order.orderId) (hdemand : 0 ≤ order.demand)
    (hins : PairInserted order.pickupStop order.dropoffStop route i j stops)
    (hwithin : WithinCapacity capacity stops) : ValidRoute capacity (accepted ++ [order]) stops where
  served other hother := by
    rcases List.mem_append.1 hother with hother | hother
    · exact (h.served other hother).insert (hnew other hother) hins
    · obtain rfl : other = order := by simpa using hother
      exact (h.fresh hnew).served hins
  owned stop hstop := by
    rcases mem_of_pairInserted hins hstop with hold | hid
    · obtain ⟨other, hother, hid⟩ := h.owned stop hold
      exact ⟨other, List.mem_append_left _ hother, hid⟩
    · exact ⟨order, by simp, hid⟩
  nonneg before hbefore := by
    obtain ⟨old, hold, hload⟩ := load_pairInserted hins hbefore
    have hnonneg := h.nonneg old hold
    rcases hload with hload | hload <;> rw [hload]
    · exact hnonneg
    · exact add_nonneg hnonneg hdemand
  within := hwithin
  total := (loadOf_pairInserted hins).trans h.total

theorem feasible (h : ValidRoute capacity accepted route) :
    isCapacityFeasible route capacity = true := by
  rw [isCapacityFeasible, feasibleFrom_iff ⟨le_refl 0, h.capacity_nonneg⟩]
  refine ⟨AllServed.paired (l := []) h.allServed (by simp), fun before hbefore => ?_, ?_⟩
  · rw [zero_add]
    exact ⟨h.nonneg before hbefore, h.within before hbefore⟩
  · rw [zero_add, h.total]

/-- On the candidates of an insertion, the scan is the test of the load alone. -/
theorem feasible_iff (h : ValidRoute capacity accepted route)
    (hnew : ∀ other ∈ accepted, other.orderId ≠ order.orderId) (hdemand : 0 ≤ order.demand)
    (hins : PairInserted order.pickupStop order.dropoffStop route i j stops) :
    isCapacityFeasible stops capacity = true ↔ WithinCapacity capacity stops := by
  constructor
  · intro hok before hbefore
    rw [isCapacityFeasible, feasibleFrom_iff ⟨le_refl 0, h.capacity_nonneg⟩] at hok
    simpa using (hok.2.1 before hbefore).2
  · intro hwithin
    exact (h.insert hnew hdemand hins hwithin).feasible

/-- The pair can always be appended. -/
theorem append (h : ValidRoute capacity accepted route) (hdemand : order.demand ≤ capacity) :
    WithinCapacity capacity (route ++ [order.pickupStop, order.dropoffStop]) := by
  intro before hbefore
  rcases prefix_append_cons_iff.1 hbefore with hold | ⟨r, hr, rfl⟩
  · exact h.within before hold
  · rcases List.prefix_cons_iff.1 hr with rfl | ⟨t, rfl, ht⟩
    · simpa [h.total] using hdemand
    · obtain rfl : t = [] := List.prefix_nil.1 ht
      simpa [h.total] using h.capacity_nonneg

end ValidRoute

theorem pairInserted_append (route : List InternalStop) (order : RoutePlanOrder) :
    PairInserted order.pickupStop order.dropoffStop route route.length (route.length + 1)
      (route ++ [order.pickupStop, order.dropoffStop]) :=
  ⟨route, [], [], by simp, by simp, rfl, rfl⟩

end RouteFast
