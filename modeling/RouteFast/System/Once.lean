import RouteFast.System.Assignment

/-! At-least-once delivery, effects at most once: however often messages are delivered and
handlers run, an order takes capacity of one driver once and gives it back once. -/

namespace RouteFast

open Transition

/-- The step puts the order into a driver's list. -/
def Takes (orderId : Uuid) (t : FleetMove) : Prop :=
  ∃ id d d', t.pre.world.driver.driver id = some d ∧ orderId ∉ d.reservedOrderIds ∧
    t.post.world.driver.driver id = some d' ∧ orderId ∈ d'.reservedOrderIds

/-- The step takes the order out of a driver's list. -/
def GivesBack (orderId : Uuid) (t : FleetMove) : Prop :=
  ∃ id d d', t.pre.world.driver.driver id = some d ∧ orderId ∈ d.reservedOrderIds ∧
    t.post.world.driver.driver id = some d' ∧ orderId ∉ d'.reservedOrderIds

namespace Databases

/-- How far the order's reservation has come: 0 before it, 1 while it is active, 2 after. -/
def phase (w : Databases) (orderId : Uuid) : ℕ :=
  match (w.driver.reservation orderId).map DriverReservation.status with
  | none => 0
  | some .active => 1
  | some .released => 2

variable {w w' : Databases} {orderId id : Uuid} {d : Driver}

theorem phase_of_row {r : DriverReservation} (hr : w.driver.reservation orderId = some r) :
    w.phase orderId = if r.status = .active then 1 else 2 := by
  cases hs : r.status <;> simp [phase, hr, hs]

/-- While a driver has the order, its reservation is active and names the driver. -/
theorem phase_of_held (hlinked : w.driver.Linked) (hd : w.driver.driver id = some d)
    (ho : orderId ∈ d.reservedOrderIds) : w.phase orderId = 1 ∧ w.Reserves orderId id := by
  obtain ⟨r, hr, hact, hid⟩ := hlinked.held id d orderId hd ho
  exact ⟨by rw [phase_of_row hr, if_pos hact], r, hr, hid⟩

/-- While the reservation is active, the driver it names has the order. -/
theorem held_of_phase (hlinked : w.driver.Linked) (hres : w.Reserves orderId id)
    (hphase : w.phase orderId = 1) (hd : w.driver.driver id = some d) :
    orderId ∈ d.reservedOrderIds := by
  obtain ⟨r, hr, rfl⟩ := hres
  rw [phase_of_row hr] at hphase
  have hact : r.status = .active := by
    by_contra hne
    simp [hne] at hphase
  obtain ⟨e, he, ho⟩ := hlinked.active orderId r hr hact
  rw [hd] at he
  rwa [Option.some.inj he]

theorem reserves_unique {x y : Uuid} (hx : w.Reserves orderId x) (hy : w.Reserves orderId y) :
    x = y := by
  obtain ⟨r, hr, rfl⟩ := hx
  obtain ⟨r', hr', rfl⟩ := hy
  rw [hr] at hr'
  rw [Option.some.inj hr']

theorem reserves_of_phase (h : w.phase orderId ≠ 0) : ∃ x, w.Reserves orderId x := by
  cases hr : w.driver.reservation orderId with
  | none => simp [phase, hr] at h
  | some r => exact ⟨r.driverId, r, hr, rfl⟩

end Databases

section Runs

variable {settings : Settings} {S S' : Fleet} {a : FleetLabel} {ts : List FleetMove}
  {orderId : Uuid} {w w' : Databases} {R : Request → Prop} {P : Queue → Message → Prop}

/-- A reservation never goes back to an earlier phase. -/
theorem Advance.phase_le (hadv : Advance settings R P w w') (hlinked : w.driver.Linked) :
    w.phase orderId ≤ w'.phase orderId := by
  cases hr : w.driver.reservation orderId with
  | none => simp [Databases.phase, hr]
  | some r =>
    obtain ⟨r', hr', hkeep⟩ : ∃ r', w'.driver.reservation orderId = some r' ∧
        (r.status = .released → r' = r) := by
      cases hadv with
      | idle | saved | created | started | operated => exact ⟨r, hr, fun _ => rfl⟩
      | createdDriver id displayName capacity now db hrun =>
        obtain ⟨d, -, -, rfl⟩ := created_of_run hrun
        exact ⟨r, hr, fun _ => rfl⟩
      | reserved m input reservationId eventId now locked db _ _ _ hrun =>
        exact ⟨r, (reserved_of_run hlinked hrun).reservation_eq hlinked hr, fun _ => rfl⟩
      | released m input eventId now locked db _ _ _ hrun =>
        obtain ⟨r', hr', -, -, hsame⟩ :=
          (released_of_commit hlinked hrun).reservation_eq hlinked hr
        exact ⟨r', hr', fun hs => hsame (Or.inr hs)⟩
    rw [Databases.phase_of_row hr, Databases.phase_of_row hr']
    by_cases hs : r.status = .released
    · obtain rfl := hkeep hs
      rfl
    · have hact : r.status = .active := by
        cases hr : r.status with
        | active => rfl
        | released => exact absurd hr hs
      rw [if_pos hact]
      split_ifs <;> omega

theorem phase_le_of_happens (ho : S.Orderly (wiring settings)) (hlinked : S.world.driver.Linked)
    (hs : (wiring settings).Happens S a S') : S.world.phase orderId ≤ S'.world.phase orderId := by
  rcases advance_of_happens ho hs with ⟨id, now, hw⟩ | hadv
  · rw [hw]
    rfl
  · exact hadv.phase_le hlinked

/-- The order is taken from no phase but the first, -/
theorem phase_of_takes (hrun : (fleet settings).Run ts S) {t : FleetMove} (ht : t ∈ ts)
    (h : Takes orderId t) : t.pre.world.phase orderId = 0 ∧ t.post.world.phase orderId = 1 := by
  obtain ⟨id, d, d', hd, hnot, hd', hin⟩ := h
  obtain ⟨⟨ho, hc⟩, ⟨-, hc'⟩, hs⟩ := coherent_of_mem hrun ht
  obtain ⟨hpost, hres'⟩ := Databases.phase_of_held hc'.linked hd' hin
  refine ⟨?_, hpost⟩
  have hle : t.pre.world.phase orderId ≤ t.post.world.phase orderId :=
    phase_le_of_happens ho hc.linked hs
  by_contra hne
  obtain ⟨x, hres⟩ := Databases.reserves_of_phase hne
  obtain rfl := Databases.reserves_unique (reserves_of_happens ho hc.linked hs hres) hres'
  exact hnot (Databases.held_of_phase hc.linked hres (by omega) hd)

/-- and given back from the second one only. -/
theorem phase_of_givesBack (hrun : (fleet settings).Run ts S) {t : FleetMove} (ht : t ∈ ts)
    (h : GivesBack orderId t) :
    t.pre.world.phase orderId = 1 ∧ t.post.world.phase orderId = 2 := by
  obtain ⟨id, d, d', hd, hin, hd', hnot⟩ := h
  obtain ⟨⟨ho, hc⟩, ⟨-, hc'⟩, hs⟩ := coherent_of_mem hrun ht
  obtain ⟨hpre, hres⟩ := Databases.phase_of_held hc.linked hd hin
  refine ⟨hpre, ?_⟩
  have hle : t.pre.world.phase orderId ≤ t.post.world.phase orderId :=
    phase_le_of_happens ho hc.linked hs
  have hres' := reserves_of_happens ho hc.linked hs hres
  have hne : t.post.world.phase orderId ≠ 1 :=
    fun hone => hnot (Databases.held_of_phase hc'.linked hres' hone hd')
  obtain ⟨r, hr, -⟩ := hres'
  rw [Databases.phase_of_row hr] at hne hle ⊢
  split_ifs at hne ⊢ <;> omega

/-- In a whole run an order is put into a driver's list at most once and taken out of one at
most once, and it is not put into a list again after it was taken out. -/
theorem once_of_run (hrun : (fleet settings).Run ts S) (orderId : Uuid) :
    ts.Pairwise fun t u => ¬ (Takes orderId t ∧ Takes orderId u) ∧
      ¬ (GivesBack orderId t ∧ GivesBack orderId u) ∧
      ¬ (GivesBack orderId t ∧ Takes orderId u) := by
  have hle : ts.Pairwise fun t u => t.post.world.phase orderId ≤ u.pre.world.phase orderId := by
    refine hrun.pairwise (C := fun t => t.pre.Orderly (wiring settings) ∧
      t.pre.world.driver.Linked) (R := fun S S' => S.world.phase orderId ≤ S'.world.phase orderId)
      (fun _ => le_rfl) (fun _ _ _ => le_trans) ?_ fun t ht => ?_
    · intro S a S' hs ⟨ho, hlinked⟩
      exact phase_le_of_happens ho hlinked (Wiring.happens_of_step hs)
    · obtain ⟨⟨ho, hc⟩, -, -⟩ := coherent_of_mem hrun ht
      exact ⟨ho, hc.linked⟩
  refine hle.imp_of_mem fun {t u} ht hu hle => ⟨?_, ?_, ?_⟩
  · rintro ⟨h, h'⟩
    have := phase_of_takes hrun ht h
    have := phase_of_takes hrun hu h'
    omega
  · rintro ⟨h, h'⟩
    have := phase_of_givesBack hrun ht h
    have := phase_of_givesBack hrun hu h'
    omega
  · rintro ⟨h, h'⟩
    have := phase_of_givesBack hrun ht h
    have := phase_of_takes hrun hu h'
    omega

end Runs

section Samples

/-- The dispatch of the assigned order is cancelled, and the driver released. -/
def givenBackLabels : List FleetLabel :=
  assignedLabels ++ [.request 2 (.cancelDispatch "dispatch-1" "reason" "corr-1" "release-1" 3),
    .work 2] ++ deliver "release-1" (sampleDraw ["released-1"]) 4

theorem once_givenBack : ∃ S, (fleet sampleSettings).replay emptyFleet givenBackLabels = some S ∧
    S.world.phase "order-1" = 2 ∧
    ((fleet sampleSettings).moves emptyFleet givenBackLabels).Pairwise fun t u =>
      ¬ (Takes "order-1" t ∧ Takes "order-1" u) ∧
      ¬ (GivesBack "order-1" t ∧ GivesBack "order-1" u) ∧
      ¬ (GivesBack "order-1" t ∧ Takes "order-1" u) := by
  obtain ⟨S, hS, hphase⟩ : ∃ S, (fleet sampleSettings).replay emptyFleet givenBackLabels = some S ∧
    S.world.phase "order-1" = 2 := ⟨_, rfl, rfl⟩
  exact ⟨S, hS, hphase, once_of_run (.of_replay init_emptyFleet hS) "order-1"⟩

end Samples

end RouteFast
