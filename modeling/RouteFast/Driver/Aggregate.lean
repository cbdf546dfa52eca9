import RouteFast.Common
import Mathlib.Algebra.Order.Ring.Unbundled.Rat
import Mathlib.Data.List.Nodup

/-! The Driver aggregate: a capacity and the orders reserved against it. -/

namespace RouteFast

inductive DriverStatus where
  | available
  | reserved
  | offline
  deriving DecidableEq, Repr

/-- The aggregate's properties, which are also the columns of its row in `drivers`:
`DriverMapper` copies them one by one in both directions. -/
structure Driver where
  id : Uuid
  displayName : String
  capacity : ℕ
  reservedOrderIds : List Uuid
  status : DriverStatus
  createdAt : Date
  updatedAt : Date
  deriving DecidableEq

namespace Driver

def create (id : Uuid) (displayName : String) (capacity : ℚ) (now : Date) :
    Except ServiceError Driver :=
  let displayName := Js.trim displayName
  if displayName = "" then .error (.error "displayName is required")
  else if ¬ capacity.isInt ∨ capacity < 1 then
    .error (.error "capacity must be a positive integer")
  else .ok
    { id, displayName
      capacity := capacity.num.toNat
      reservedOrderIds := []
      status := .available
      createdAt := now
      updatedAt := now }

def reserve (d : Driver) (orderId : Uuid) (now : Date) : Except ServiceError Driver :=
  if d.status = .offline then .error (.driverUnavailable s!"Driver {d.id} is offline")
  else if orderId ∈ d.reservedOrderIds then .ok d
  else if d.capacity ≤ d.reservedOrderIds.length then
    .error (.driverUnavailable s!"Driver {d.id} has no remaining capacity")
  else
    let reservedOrderIds := d.reservedOrderIds ++ [orderId]
    .ok { d with
      reservedOrderIds
      status := if d.capacity ≤ reservedOrderIds.length then .reserved else .available
      updatedAt := now }

def release (d : Driver) (orderId : Uuid) (now : Date) : Driver :=
  if orderId ∉ d.reservedOrderIds then d
  else
    { d with
      reservedOrderIds := d.reservedOrderIds.erase orderId
      status := .available
      updatedAt := now }

def setOffline (d : Driver) (now : Date) : Except ServiceError Driver :=
  if 0 < d.reservedOrderIds.length then
    .error (.driverUnavailable "Driver with active reservations cannot be set offline")
  else .ok { d with status := .offline, updatedAt := now }

def setAvailable (d : Driver) (now : Date) : Except ServiceError Driver :=
  if 0 < d.reservedOrderIds.length then
    .error (.driverUnavailable "Driver with active reservations cannot be manually changed")
  else .ok { d with status := .available, updatedAt := now }

/-- `driver.status = AVAILABLE AND jsonb_array_length(reserved_order_ids) < capacity` -/
def Eligible (d : Driver) : Prop :=
  d.status = .available ∧ d.reservedOrderIds.length < d.capacity

instance (d : Driver) : Decidable d.Eligible := inferInstanceAs (Decidable (_ ∧ _))

/-- What the row of a driver that is never set offline satisfies. -/
structure WithinCapacity (d : Driver) : Prop where
  nodup : d.reservedOrderIds.Nodup
  length_le : d.reservedOrderIds.length ≤ d.capacity
  capacity_pos : 0 < d.capacity
  status_eq : d.status = if d.reservedOrderIds.length = d.capacity then .reserved else .available

variable {d d' : Driver} {orderId : Uuid} {now : Date}

theorem withinCapacity_create {id : Uuid} {displayName : String} {capacity : ℚ}
    (h : create id displayName capacity now = .ok d) : d.WithinCapacity := by
  simp only [create] at h
  split_ifs at h with hname hcap
  obtain rfl := Except.ok.inj h
  obtain ⟨hint, hone⟩ : capacity.isInt ∧ 1 ≤ capacity := by simpa using hcap
  have hnum : 0 < capacity.num := Rat.num_pos.2 (lt_of_lt_of_le (by decide) hone)
  have hpos : 0 < capacity.num.toNat := by omega
  exact ⟨List.nodup_nil, Nat.zero_le _, hpos, by simp [hpos.ne]⟩

theorem reservedOrderIds_create {id : Uuid} {displayName : String} {capacity : ℚ}
    (h : create id displayName capacity now = .ok d) : d.reservedOrderIds = [] := by
  simp only [create] at h
  split_ifs at h
  rw [← Except.ok.inj h]

/-- An eligible driver that does not hold the order yet takes it on. -/
theorem reserve_eq (h : d.Eligible) (hnot : orderId ∉ d.reservedOrderIds) :
    d.reserve orderId now = .ok { d with
      reservedOrderIds := d.reservedOrderIds ++ [orderId]
      status := if d.capacity ≤ (d.reservedOrderIds ++ [orderId]).length then .reserved
        else .available
      updatedAt := now } := by
  obtain ⟨hs, hlen⟩ := h
  simp [reserve, hs, hnot, hlen]

theorem exists_reserve (h : d.Eligible) (orderId : Uuid) (now : Date) :
    ∃ d', d.reserve orderId now = .ok d' := by
  by_cases hin : orderId ∈ d.reservedOrderIds
  · exact ⟨d, by simp [reserve, h.1, hin]⟩
  · exact ⟨_, reserve_eq h hin⟩

theorem id_of_reserve (hr : d.reserve orderId now = .ok d') : d'.id = d.id := by
  unfold reserve at hr
  split_ifs at hr <;> rw [← Except.ok.inj hr]

theorem WithinCapacity.reserve (h : d.WithinCapacity) (he : d.Eligible)
    (hr : d.reserve orderId now = .ok d') : d'.WithinCapacity := by
  by_cases hin : orderId ∈ d.reservedOrderIds
  · simp only [Driver.reserve, hin, he.1] at hr
    obtain rfl : d = d' := by simpa using hr
    exact h
  · obtain rfl := Except.ok.inj ((reserve_eq he hin).symm.trans hr)
    have hlen : (d.reservedOrderIds ++ [orderId]).length ≤ d.capacity := by
      simpa [Nat.succ_le_iff] using he.2
    refine ⟨?_, hlen, h.capacity_pos, ?_⟩
    · rw [← List.concat_eq_append]
      exact List.Nodup.concat hin h.nodup
    · have hfull : d.capacity ≤ (d.reservedOrderIds ++ [orderId]).length ↔
          (d.reservedOrderIds ++ [orderId]).length = d.capacity := by omega
      simp only [hfull]

theorem WithinCapacity.release (h : d.WithinCapacity) : (d.release orderId now).WithinCapacity := by
  unfold Driver.release
  split
  · exact h
  · next hin =>
    have hmem : orderId ∈ d.reservedOrderIds := by simpa using hin
    have hlen : (d.reservedOrderIds.erase orderId).length < d.capacity := by
      have := List.length_erase_of_mem hmem
      have := List.length_pos_of_mem hmem
      have := h.length_le
      omega
    exact ⟨h.nodup.erase _, hlen.le, h.capacity_pos, by simp [hlen.ne]⟩

end Driver

end RouteFast
