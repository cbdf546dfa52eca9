import RouteFast.Driver.Reservation

/-! A driver's `reservedOrderIds` and the rows of `driver_reservations` say the same; what
a reservation, a release and a change of an empty row do to that. -/

namespace RouteFast

namespace DriverDb

/-- The two representations of who holds what agree. -/
structure Linked (db : DriverDb) : Prop where
  driverIds : (db.drivers.map Driver.id).Nodup
  ids : (db.reservations.map DriverReservation.id).Nodup
  orders : (db.reservations.map DriverReservation.orderId).Nodup
  nodup : ∀ id d, db.driver id = some d → d.reservedOrderIds.Nodup
  held : ∀ id d o, db.driver id = some d → o ∈ d.reservedOrderIds →
    ∃ r, db.reservation o = some r ∧ r.status = .active ∧ r.driverId = id
  active : ∀ o r, db.reservation o = some r → r.status = .active →
    ∃ d, db.driver r.driverId = some d ∧ o ∈ d.reservedOrderIds

variable {db : DriverDb} {d d' : Driver} {r x : DriverReservation} {o : Uuid} {now : Date}

theorem driver_saveDriver (db : DriverDb) (d : Driver) (id : Uuid) :
    (db.saveDriver d).driver id = if d.id = id then some d else db.driver id :=
  Table.find_save (c := Driver.id)

@[simp] theorem driver_saveReservation (id : Uuid) :
    (db.saveReservation r).driver id = db.driver id := rfl

theorem reservationById_saveReservation (db : DriverDb) (r : DriverReservation) (id : Uuid) :
    (db.saveReservation r).reservationById id =
      if r.id = id then some r else db.reservationById id :=
  Table.find_save (c := DriverReservation.id)

theorem id_of_driver {id : Uuid} (h : db.driver id = some d) : d.id = id := Table.key_of_find h

theorem order_of_reservation (h : db.reservation o = some r) : r.orderId = o := Table.key_of_find h

/-- A new row, or the row with this id again for the same order. -/
def Fits (db : DriverDb) (r : DriverReservation) : Prop :=
  (db.reservationById r.id = none ∧ db.reservation r.orderId = none) ∨
    ∃ x, db.reservationById r.id = some x ∧ x.orderId = r.orderId

theorem Linked.reservation_save (h : db.Linked) (hr : db.Fits r) (o : Uuid) :
    (db.saveReservation r).reservation o =
      if r.orderId = o then some r else db.reservation o := by
  rcases hr with ⟨hid, horder⟩ | ⟨x, hx, hsame⟩
  · have hsave : Table.save DriverReservation.id r db.reservations = db.reservations ++ [r] :=
      Table.save_eq_append hid
    have hold : Table.find DriverReservation.orderId r.orderId db.reservations = none := horder
    simp only [reservation, saveReservation, hsave, Table.find_append_singleton]
    by_cases ho : r.orderId = o
    · subst ho; simp [hold]
    · simp [ho]
  · exact Table.find_save_other h.ids h.orders hx hsame

theorem Linked.orders_save (h : db.Linked) (hr : db.Fits r) :
    ((db.saveReservation r).reservations.map DriverReservation.orderId).Nodup := by
  rcases hr with ⟨hid, horder⟩ | ⟨x, hx, hsame⟩
  · have hsave : Table.save DriverReservation.id r db.reservations = db.reservations ++ [r] :=
      Table.save_eq_append hid
    simp only [saveReservation, hsave]
    exact Table.nodup_append_of_find h.orders horder
  · exact Table.nodup_save_other h.orders hx hsame

theorem Linked.reservationById_of (h : db.Linked) (hr : db.reservation o = some r) :
    db.reservationById r.id = some r :=
  Table.find_of_mem h.ids (Table.mem_of_find hr)

theorem of_rejects_eq_none (h : db.rejects r = none) :
    db.reservationById r.id = none ∧ db.reservation r.orderId = none := by
  simp only [rejects] at h
  split_ifs at h with hid horder
  exact ⟨by simpa using hid, by simpa using horder⟩

/-- An order no active row names is in no driver's list. -/
theorem Linked.not_held (h : db.Linked)
    (hnot : ∀ r, db.reservation o = some r → r.status ≠ .active) {id : Uuid}
    (hd : db.driver id = some d) : o ∉ d.reservedOrderIds := by
  intro ho
  obtain ⟨r, hr, hact, -⟩ := h.held id d o hd ho
  exact hnot r hr hact

/-- A driver takes on an order that has no reservation row yet. -/
theorem Linked.grant (h : db.Linked) (hd : db.driver d.id = some d) (hid : d'.id = d.id)
    (hlist : d'.reservedOrderIds = d.reservedOrderIds ++ [o])
    (hr : r.orderId = o ∧ r.driverId = d.id ∧ r.status = .active)
    (hfree : db.reservationById r.id = none ∧ db.reservation o = none) :
    ((db.saveDriver d').saveReservation r).Linked := by
  obtain ⟨rfl, hrd, hact⟩ := hr
  have hfits : db.Fits r := Or.inl hfree
  have hres (o : Uuid) : ((db.saveDriver d').saveReservation r).reservation o =
      if r.orderId = o then some r else db.reservation o := h.reservation_save hfits o
  have hnot : r.orderId ∉ d.reservedOrderIds :=
    h.not_held (fun x hx => by simp [hfree.2] at hx) hd
  have hdrv (id : Uuid) : ((db.saveDriver d').saveReservation r).driver id =
      if d.id = id then some d' else db.driver id := by
    rw [driver_saveReservation, driver_saveDriver, hid]
  refine ⟨Table.nodup_save h.driverIds, Table.nodup_save h.ids, h.orders_save hfits, ?_, ?_, ?_⟩
  · intro id e he
    rw [hdrv] at he
    split at he
    · obtain rfl := Option.some.inj he
      rw [hlist, ← List.concat_eq_append]
      exact List.Nodup.concat hnot (h.nodup _ _ hd)
    · exact h.nodup id e he
  · intro id e o he ho
    rw [hdrv] at he
    rw [hres]
    split at he
    · next hdid =>
      obtain rfl := Option.some.inj he
      rw [hlist, List.mem_append, List.mem_singleton] at ho
      rcases ho with ho | rfl
      · have hne : r.orderId ≠ o := by rintro rfl; exact hnot ho
        rw [if_neg hne]
        exact hdid ▸ h.held d.id d o hd ho
      · exact ⟨r, if_pos rfl, hact, hrd.trans hdid⟩
    · have hne : r.orderId ≠ o := by
        rintro rfl
        obtain ⟨y, hy, -⟩ := h.held id e _ he ho
        simp [hfree.2] at hy
      rw [if_neg hne]
      exact h.held id e o he ho
  · intro o y hy hyact
    rw [hres] at hy
    split at hy
    · next ho =>
      obtain rfl := Option.some.inj hy
      refine ⟨d', by rw [hdrv, if_pos hrd.symm], ?_⟩
      rw [hlist, ho]
      simp
    · obtain ⟨e, he, hoe⟩ := h.active o y hy hyact
      rw [hdrv]
      by_cases hdid : d.id = y.driverId
      · rw [← hdid, hd] at he
        obtain rfl := Option.some.inj he
        exact ⟨d', if_pos hdid, by rw [hlist]; exact List.mem_append_left _ hoe⟩
      · exact ⟨e, by rw [if_neg hdid, he], hoe⟩

theorem mem_release (now : Date) {o' : Uuid} (hnodup : d.reservedOrderIds.Nodup) :
    o' ∈ (d.release o now).reservedOrderIds ↔ o' ∈ d.reservedOrderIds ∧ o' ≠ o := by
  unfold Driver.release
  split
  · next hnot =>
    constructor
    · intro h
      exact ⟨h, by rintro rfl; exact hnot h⟩
    · exact And.left
  · rw [hnodup.mem_erase_iff, and_comm]

theorem id_release : (d.release o now).id = d.id := by
  unfold Driver.release
  split <;> rfl

/-- A driver gives up an order, and its row is marked. -/
theorem Linked.release (h : db.Linked) (now : Date) (hr : db.reservation o = some r)
    (hd : db.driver r.driverId = some d) :
    ((db.saveDriver (d.release o now)).saveReservation
      { r with status := .released, releasedAt := some now }).Linked := by
  have hro : r.orderId = o := order_of_reservation hr
  have hdid : d.id = r.driverId := id_of_driver hd
  have hfits : db.Fits { r with status := .released, releasedAt := some now } :=
    Or.inr ⟨r, h.reservationById_of hr, rfl⟩
  have hres (o' : Uuid) : ((db.saveDriver (d.release o now)).saveReservation
      { r with status := .released, releasedAt := some now }).reservation o' =
      if o = o' then some { r with status := .released, releasedAt := some now }
      else db.reservation o' := by
    rw [← hro]
    exact h.reservation_save hfits o'
  have hdrv (id : Uuid) : ((db.saveDriver (d.release o now)).saveReservation
      { r with status := .released, releasedAt := some now }).driver id =
      if r.driverId = id then some (d.release o now) else db.driver id := by
    rw [driver_saveReservation, driver_saveDriver, id_release, hdid]
  have hmem {o' : Uuid} : o' ∈ (d.release o now).reservedOrderIds ↔
      o' ∈ d.reservedOrderIds ∧ o' ≠ o := mem_release now (h.nodup _ d hd)
  refine ⟨Table.nodup_save h.driverIds, Table.nodup_save h.ids, h.orders_save hfits, ?_, ?_, ?_⟩
  · intro id e he
    rw [hdrv] at he
    split at he
    · obtain rfl := Option.some.inj he
      unfold Driver.release
      split
      · exact h.nodup _ d hd
      · exact (h.nodup _ d hd).erase o
    · exact h.nodup id e he
  · intro id e o' he ho'
    rw [hdrv] at he
    rw [hres]
    split at he
    · next hid =>
      obtain rfl := Option.some.inj he
      obtain ⟨hin, hne⟩ := hmem.1 ho'
      rw [if_neg hne.symm]
      exact hid ▸ h.held _ d o' hd hin
    · next hid =>
      obtain ⟨y, hy, hyact, hyid⟩ := h.held id e o' he ho'
      have hne : o ≠ o' := by
        rintro rfl
        obtain rfl : r = y := by simpa [hr] using hy
        exact hid hyid
      rw [if_neg hne]
      exact ⟨y, hy, hyact, hyid⟩
  · intro o' y hy hyact
    rw [hres] at hy
    split at hy
    · obtain rfl := Option.some.inj hy
      cases hyact
    · next hne =>
      obtain ⟨e, he, hoe⟩ := h.active o' y hy hyact
      rw [hdrv]
      by_cases hid : r.driverId = y.driverId
      · rw [← hid, hd] at he
        obtain rfl := Option.some.inj he
        exact ⟨d.release o now, if_pos hid, hmem.2 ⟨hoe, fun h => hne h.symm⟩⟩
      · exact ⟨e, by rw [if_neg hid, he], hoe⟩

/-- A row that holds nothing, saved where nothing was held. -/
theorem Linked.saveEmpty (h : db.Linked)
    (hold : ∀ e, db.driver d.id = some e → e.reservedOrderIds = [])
    (hempty : d.reservedOrderIds = []) : (db.saveDriver d).Linked := by
  refine ⟨Table.nodup_save h.driverIds, h.ids, h.orders, ?_, ?_, ?_⟩
  · intro id e he
    rw [driver_saveDriver] at he
    split at he
    · obtain rfl := Option.some.inj he
      simp [hempty]
    · exact h.nodup id e he
  · intro id e o he ho
    rw [driver_saveDriver] at he
    split at he
    · obtain rfl := Option.some.inj he
      simp [hempty] at ho
    · exact h.held id e o he ho
  · intro o r hr hact
    obtain ⟨e, he, ho⟩ := h.active o r hr hact
    have hne : d.id ≠ r.driverId := by
      intro hid
      simp [hold e (hid ▸ he)] at ho
    exact ⟨e, by rw [driver_saveDriver, if_neg hne, he], ho⟩

/-- An event touches neither table. -/
theorem Linked.insertOutbox (h : db.Linked) (e : OutboxRow) : (db.insertOutbox e).Linked :=
  ⟨h.driverIds, h.ids, h.orders, h.nodup, h.held, h.active⟩

end DriverDb

end RouteFast
