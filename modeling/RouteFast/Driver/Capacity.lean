import RouteFast.Driver.Linked

/-! Driver creations, reservations and releases as interleaved transactions. A driver's
`reservedOrderIds` and the `driver_reservations` table are kept in step under two
different locks: one per order, one per driver row. -/

namespace RouteFast

open Transition ReadCommitted DriverReservations

inductive DriverCall where
  | create (id : Uuid) (displayName : String) (capacity : ℚ) (now : Date)
  | reserve (input : ReserveDriverInput) (reservationId eventId : Uuid) (now : Date)
  | release (input : ReleaseDriverInput) (eventId : Uuid) (now : Date)

def DriverCall.body (hashtext : String → ℤ) : DriverCall → DriverTx
  | .create id displayName capacity now => createDriver id displayName capacity now
  | .reserve input reservationId eventId now =>
    DriverReservations.reserve hashtext input reservationId eventId now
  | .release input eventId now => DriverReservations.release hashtext input eventId now

abbrev DriverStore := Store DriverDb DriverLock ServiceError Unit DriverCall

/-- The driver service's database from its first day. -/
def driverSystem (hashtext : String → ℤ) : System DriverStore (Label DriverCall) :=
  system (fun db => db.drivers = [] ∧ db.reservations = []) (DriverCall.body hashtext)

namespace DriverDb

variable {db : DriverDb} {d : Driver}

/-- The driver rows are within capacity too. -/
structure Consistent (db : DriverDb) : Prop extends Linked db where
  within : ∀ id d, db.driver id = some d → d.WithinCapacity

theorem within_saveDriver (h : ∀ id d, db.driver id = some d → d.WithinCapacity)
    (hd : d.WithinCapacity) : ∀ id e, (db.saveDriver d).driver id = some e → e.WithinCapacity := by
  intro id e he
  rw [driver_saveDriver] at he
  split at he
  · obtain rfl := Option.some.inj he
    exact hd
  · exact h id e he

end DriverDb

/-- What the transactions promise each other. The advisory lock of an order covers its
reservation row, a driver's row lock the whole row. -/
def driverDiscipline (hashtext : String → ℤ) : Discipline DriverDb DriverLock Unit DriverCall where
  Inv _ := DriverDb.Consistent
  Keeps
    | .advisory h, db, db' => ∀ o, hashtext o = h → db'.reservation o = db.reservation o
    | .driver id, db, db' => db'.driver id = db.driver id
    | .reservation id, db, db' => db'.reservationById id = none ↔ db.reservationById id = none
    | .order _, _, _ => True
  Evolves _ _ := True
  keeps_refl k db := by cases k <;> simp
  keeps_trans k a b c h h' := by
    cases k with
    | advisory hash => exact fun o ho => (h' o ho).trans (h o ho)
    | driver id => exact Eq.trans h' h
    | reservation id => exact Iff.trans h' h
    | order => trivial
  evolves_refl _ := trivial
  evolves_trans _ _ _ _ _ := trivial

section Bodies

variable {hashtext : String → ℤ} {p : DriverCall} {held : DriverLock → Prop} {db : DriverDb}

open Discipline

/-- No more is owed than the discipline itself. -/
abbrev DriverOk (hashtext : String → ℤ) (p : DriverCall) (tx : DriverTx)
    (log : List (DriverDb → DriverDb)) (held : DriverLock → Prop) (db : DriverDb) : Prop :=
  (driverDiscipline hashtext).Ok p (fun _ _ _ => True) (fun _ => True) tx log held db

theorem keeps_insertOutbox (k : DriverLock) (r : OutboxRow) :
    (driverDiscipline hashtext).Keeps k db (db.insertOutbox r) := by
  cases k with
  | advisory => exact fun _ _ => rfl
  | driver => exact rfl
  | reservation => exact Iff.rfl
  | order => trivial

/-- An event alone touches no table the discipline is about. -/
theorem ok_enqueue (r : OutboxRow) : DriverOk hashtext p (enqueue r) [] held db := by
  intro db₁ _ h db₂ hInv _
  exact ⟨⟨hInv.toLinked.insertOutbox r, hInv.within⟩, trivial, fun k _ => keeps_insertOutbox k r,
    trivial⟩

/-- Saving a driver and a reservation touches nothing but what their locks cover. -/
theorem keeps_saves (h : db.Linked) {d : Driver} {r : DriverReservation} (hfits : db.Fits r)
    (e : OutboxRow) {k : DriverLock} (hd : k ≠ .driver d.id) (hr : k ≠ .reservation r.id)
    (ho : k ≠ .advisory (hashtext r.orderId)) :
    (driverDiscipline hashtext).Keeps k db
      (((db.saveDriver d).saveReservation r).insertOutbox e) := by
  cases k with
  | advisory hash =>
    intro o hash_o
    have hne : r.orderId ≠ o := by rintro rfl; exact ho (by rw [hash_o])
    exact (h.reservation_save hfits o).trans (if_neg hne)
  | driver id =>
    have hne : d.id ≠ id := by rintro rfl; exact hd rfl
    exact (DriverDb.driver_saveDriver db d id).trans (if_neg hne)
  | reservation id =>
    have hne : r.id ≠ id := by rintro rfl; exact hr rfl
    have hsame := (DriverDb.reservationById_saveReservation db r id).trans (if_neg hne)
    exact iff_of_eq (congrArg (· = none) hsame)
  | order => trivial

/-- A driver's row that this session has locked, and that can take the order on. -/
def Locked (held : DriverLock → Prop) (db : DriverDb) : Option Driver → Prop
  | none => True
  | some d => held (.driver d.id) ∧ db.driver d.id = some d ∧ d.Eligible

/-- The rest of a reservation, for an order that no active row names. -/
theorem ok_grant {input : ReserveDriverInput} {reservationId eventId : Uuid} {now : Date}
    {found : Option Driver} (hadv : held (.advisory (hashtext input.orderId)))
    (hnot : ∀ r, db.reservation input.orderId = some r → r.status ≠ .active)
    (hcons : db.Consistent) (hlocked : Locked held db found) :
    DriverOk hashtext p (grant input reservationId eventId now found) [] held db := by
  cases found with
  | none => exact ok_enqueue _
  | some d =>
    obtain ⟨hheld, hd, helig⟩ := hlocked
    have hfree := hcons.toLinked.not_held hnot hd
    cases hres : d.reserve input.orderId now with
    | error e => simp only [grant, hres]; exact trivial
    | ok d' =>
      simp only [grant, hres]
      have hd' := Except.ok.inj ((Driver.reserve_eq helig hfree).symm.trans hres)
      have hid := Driver.id_of_reserve hres
      set r : DriverReservation := ⟨reservationId, input.orderId, input.dispatchId, d'.id, .active,
        now, none⟩ with hr
      refine Ok.overwrite (fun k hk => by rwa [List.mem_singleton.1 hk, hid]) ?_
      intro db₂ hl₂
      cases hrej : (view db₂ ([] ++ [fun db : DriverDb => db.saveDriver d'])).rejects r with
      | some e => simp only [hrej]
      | none =>
      simp only [hrej]
      refine Ok.insert ?_
      intro h db₃ hInv hr₃
      -- the locks carry what was read and checked to the commit
      have hrow : db₃.driver d.id = some d := by
        have h₂ := hl₂.2.keeps (.driver d.id) hheld
        have h₃ := hr₃.keeps (.driver d.id) (Or.inr hheld)
        exact h₃.trans (h₂.trans hd)
      have hfits : db₃.reservationById r.id = none ∧ db₃.reservation r.orderId = none := by
        obtain ⟨hid₂, ho₂⟩ : db₂.reservationById reservationId = none ∧
            db₂.reservation input.orderId = none := DriverDb.of_rejects_eq_none hrej
        have h₃ := hr₃.keeps (.reservation reservationId) (by simp)
        have ho₃ := hr₃.keeps _ (Or.inr hadv) input.orderId rfl
        exact ⟨h₃.2 hid₂, ho₃.trans ho₂⟩
      have hgrant := hInv.toLinked.grant (o := input.orderId) (r := r) hrow hid (by rw [← hd'])
        ⟨rfl, hid, rfl⟩ hfits
      refine ⟨⟨hgrant.insertOutbox _, ?_⟩, trivial, fun k hk => ?_, trivial⟩
      · exact DriverDb.within_saveDriver hInv.within ((hcons.within _ _ hd).reserve helig hres)
      · refine keeps_saves hInv.toLinked (Or.inl hfits) _ ?_ ?_ ?_ <;> rintro rfl
        · exact hk (Or.inr (hid ▸ hheld))
        · exact hk (Or.inl (by simp [hr]))
        · exact hk (Or.inr hadv)

/-- A reservation's rest, from the state its driver was selected in. -/
theorem ok_grant_later {input : ReserveDriverInput} {reservationId eventId : Uuid} {now : Date}
    {found : Option Driver} {db' : DriverDb} {held' : DriverLock → Prop}
    (hadv : held (.advisory (hashtext input.orderId)))
    (hnot : ∀ r, db.reservation input.orderId = some r → r.status ≠ .active)
    (hl : (driverDiscipline hashtext).Later held db db') (hsub : ∀ k, held k → held' k)
    (hlocked : db'.Consistent → Locked held' db' found) :
    DriverOk hashtext p (grant input reservationId eventId now found) [] held' db' := by
  obtain ⟨⟨_, hcons⟩, hr⟩ := hl
  refine ok_grant (hsub _ hadv) (fun r hr' => hnot r ?_) hcons (hlocked hcons)
  rw [← hr', hr.keeps _ hadv input.orderId rfl]

theorem ok_selectCandidate {input : ReserveDriverInput} {reservationId eventId : Uuid}
    {now : Date} (candidates : List Uuid) (hadv : held (.advisory (hashtext input.orderId)))
    (hnot : ∀ r, db.reservation input.orderId = some r → r.status ≠ .active)
    (hcons : db.Consistent) :
    DriverOk hashtext p (selectCandidate (grant input reservationId eventId now) candidates) []
      held db := by
  induction candidates generalizing held db with
  | nil => exact ok_grant hadv hnot hcons trivial
  | cons candidate rest ih =>
    intro db' hl got hsub
    simp only [view_nil] at hsub ⊢
    cases hd : lockedDriver db' got.head? with
    | none =>
      obtain ⟨⟨_, hcons'⟩, hr⟩ := hl
      refine ih (Or.inr hadv) (fun r hr' => hnot r ?_) hcons'
      rw [← hr', hr.keeps _ hadv input.orderId rfl]
    | some d =>
      obtain ⟨hgot, hrows, hrow⟩ := lockedDriver_head hsub hd
      exact ok_grant_later hadv hnot hl (fun k hk => Or.inr hk) fun _ =>
        ⟨Or.inl hgot, hrow, eligible_of_candidate hrows hrow⟩

theorem ok_selectLeastLoaded {input : ReserveDriverInput} {reservationId eventId : Uuid}
    {now : Date} (hadv : held (.advisory (hashtext input.orderId)))
    (hnot : ∀ r, db.reservation input.orderId = some r → r.status ≠ .active) :
    DriverOk hashtext p (selectLeastLoaded (grant input reservationId eventId now)) [] held db := by
  intro db' hl got hsub
  simp only [view_nil] at hsub ⊢
  refine ok_grant_later hadv hnot hl (fun k hk => Or.inr hk) fun hcons => ?_
  cases hd : lockedDriver db' got.head? with
  | none => trivial
  | some d =>
    obtain ⟨hgot, hrows, hrow⟩ := lockedDriver_head hsub hd
    exact ⟨Or.inl hgot, hrow, eligible_of_eligible hcons.driverIds hrows hrow⟩

theorem ok_reserve (input : ReserveDriverInput) (reservationId eventId : Uuid) (now : Date) :
    DriverOk hashtext p (DriverReservations.reserve hashtext input reservationId eventId now) []
      held db := by
  intro db₁ _ db₂ hl₂
  obtain ⟨⟨_, hcons⟩, -⟩ := hl₂
  simp only [view_nil]
  cases hact : (db₂.reservation input.orderId).filter fun r => r.status = .active with
  | some existing => exact ok_enqueue _
  | none =>
    have hnot : ∀ r, db₂.reservation input.orderId = some r → r.status ≠ .active := by
      intro r hr hs
      simp [hr, hs] at hact
    cases hcand : input.candidateDriverIds with
    | none => exact ok_selectLeastLoaded (Or.inl rfl) hnot
    | some candidates =>
      cases candidates with
      | nil => exact ok_enqueue _
      | cons candidate rest => exact ok_selectCandidate _ (Or.inl rfl) hnot hcons

theorem ok_release (input : ReleaseDriverInput) (eventId : Uuid) (now : Date) :
    DriverOk hashtext p (DriverReservations.release hashtext input eventId now) [] held db := by
  intro db₁ _ db₂ hl₂
  obtain ⟨⟨_, hcons⟩, -⟩ := hl₂
  simp only [view_nil]
  cases hres : db₂.reservation input.orderId with
  | none => exact ok_enqueue _
  | some r =>
    by_cases hs : r.status = .released
    · simp only [hs, if_true]
      exact ok_enqueue _
    · simp only [hs, if_false]
      have hact : r.status = .active := by cases h : r.status <;> simp_all
      intro db₃ hl₃
      obtain ⟨⟨_, hcons₃⟩, hr₃⟩ := hl₃
      have hres₃ : db₃.reservation input.orderId = some r :=
        (hr₃.keeps _ (Or.inl rfl) input.orderId rfl).trans hres
      obtain ⟨d, hd, -⟩ := hcons₃.active _ r hres₃ hact
      simp only [view_nil, hd]
      have hdid : d.id = r.driverId := DriverDb.id_of_driver hd
      have hid : (d.release input.orderId now).id = d.id := DriverDb.id_release
      refine Ok.overwrite (fun k hk => Or.inl (by simpa [hid] using hk)) ?_
      intro db₄ hl₄
      refine Ok.insert ?_
      intro h db₅ hInv hr₅
      -- the row lock carries the driver, the advisory lock the reservation
      have hrow : db₅.driver r.driverId = some d := by
        have h₄ := hl₄.2.keeps (.driver r.driverId) (Or.inl (by simp [hdid]))
        have h₅ := hr₅.keeps (.driver r.driverId) (Or.inr (Or.inl (by simp [hdid])))
        exact h₅.trans (h₄.trans hd)
      have hres₅ : db₅.reservation input.orderId = some r := by
        have h₄ := hl₄.2.keeps (.advisory _) (Or.inr (Or.inl rfl)) input.orderId rfl
        have h₅ := hr₅.keeps (.advisory _) (Or.inr (Or.inr (Or.inl rfl))) input.orderId rfl
        exact h₅.trans (h₄.trans hres₃)
      have horder : r.orderId = input.orderId := DriverDb.order_of_reservation hres₅
      have hrel := hInv.toLinked.release now hres₅ hrow
      have hfits : db₅.Fits { r with status := .released, releasedAt := some now } :=
        Or.inr ⟨r, hInv.toLinked.reservationById_of hres₅, rfl⟩
      refine ⟨⟨hrel.insertOutbox _, ?_⟩, trivial, fun k hk => ?_, trivial⟩
      · exact DriverDb.within_saveDriver hInv.within (hInv.within _ _ hrow).release
      · refine keeps_saves hInv.toLinked hfits _ ?_ ?_ ?_ <;> rintro rfl
        · exact hk (Or.inr (Or.inl (by simp [hid])))
        · exact hk (Or.inl (by simp))
        · exact hk (Or.inr (Or.inr (Or.inl (by rw [← horder]))))

theorem ok_createDriver (id : Uuid) (displayName : String) (capacity : ℚ) (now : Date) :
    DriverOk hashtext p (createDriver id displayName capacity now) [] held db := by
  cases hc : Driver.create id displayName capacity now with
  | error e => simp only [createDriver, hc]; exact trivial
  | ok d =>
    simp only [createDriver, hc]
    intro db₁ _
    by_cases hnew : db₁.driver d.id = none
    · simp only [view_nil, hnew, Option.isSome_none, Bool.false_eq_true, if_false]
      intro h db₂ hInv hr₂
      have hnew₂ : db₂.driver d.id = none := (hr₂.keeps (.driver d.id) (Or.inl (by simp))).trans hnew
      have hempty : d.reservedOrderIds = [] := Driver.reservedOrderIds_create hc
      refine ⟨⟨hInv.toLinked.saveEmpty (by simp [hnew₂]) hempty, ?_⟩, trivial, fun k hk => ?_, trivial⟩
      · exact DriverDb.within_saveDriver hInv.within (Driver.withinCapacity_create hc)
      · cases k with
        | advisory => exact fun _ _ => rfl
        | driver id =>
          have hne : d.id ≠ id := by rintro rfl; exact hk (Or.inl (by simp))
          exact (DriverDb.driver_saveDriver db₂ d id).trans (if_neg hne)
        | reservation => exact Iff.rfl
        | order => trivial
    · have hsome : (db₁.driver d.id).isSome = true := by
        simpa [Option.isSome_iff_ne_none] using hnew
      simp only [view_nil, hsome, if_true]

end Bodies

/-- Capacity and ownership, as every committed state has them. -/
structure Capacity (db : DriverDb) : Prop where
  within : ∀ d ∈ db.drivers, d.reservedOrderIds.Nodup ∧ d.reservedOrderIds.length ≤ d.capacity
  status : ∀ d ∈ db.drivers, (d.reservedOrderIds.length = d.capacity → d.status = .reserved) ∧
    (d.reservedOrderIds.length ≠ d.capacity → d.status = .available)
  one_driver : ∀ d ∈ db.drivers, ∀ d' ∈ db.drivers, ∀ o, o ∈ d.reservedOrderIds →
    o ∈ d'.reservedOrderIds → d = d'
  one_row : ∀ o, (db.reservations.filter fun r => r.orderId = o).length ≤ 1
  held_iff : ∀ d ∈ db.drivers, ∀ o, o ∈ d.reservedOrderIds ↔
    ∃ r ∈ db.reservations, r.orderId = o ∧ r.status = .active ∧ r.driverId = d.id

theorem DriverDb.Consistent.capacity {db : DriverDb} (h : db.Consistent) : Capacity db := by
  have hrow {d : Driver} (hd : d ∈ db.drivers) : db.driver d.id = some d :=
    Table.find_of_mem h.driverIds hd
  refine ⟨fun d hd => ?_, fun d hd => ?_, fun d hd d' hd' o ho ho' => ?_, fun o => ?_,
    fun d hd o => ⟨fun ho => ?_, ?_⟩⟩
  · have hw := h.within _ d (hrow hd)
    exact ⟨hw.nodup, hw.length_le⟩
  · have hw := h.within _ d (hrow hd)
    exact ⟨fun heq => by rw [hw.status_eq, if_pos heq], fun hne => by rw [hw.status_eq, if_neg hne]⟩
  · obtain ⟨r, hr, -, hrd⟩ := h.held _ d o (hrow hd) ho
    obtain ⟨r', hr', -, hrd'⟩ := h.held _ d' o (hrow hd') ho'
    obtain rfl : r = r' := by simpa [hr] using hr'
    have hsame := hrow hd
    rw [← hrd, hrd', hrow hd'] at hsame
    exact (Option.some.inj hsame).symm
  · exact Table.length_filter_key_le_one h.orders o
  · obtain ⟨r, hr, hact, hrd⟩ := h.held _ d o (hrow hd) ho
    exact ⟨r, Table.mem_of_find hr, DriverDb.order_of_reservation hr, hact, hrd⟩
  · rintro ⟨r, hr, rfl, hact, hrd⟩
    obtain ⟨e, he, ho⟩ := h.active _ r (Table.find_of_mem h.orders hr) hact
    rw [hrd, hrow hd] at he
    obtain rfl := Option.some.inj he
    exact ho

theorem consistent_of_reachable {hashtext : String → ℤ} {S : DriverStore}
    (hreach : (driverSystem hashtext).Reachable S) : S.committed.Consistent := by
  obtain ⟨ts, hrun⟩ := hreach
  have hsound := Discipline.run_sound (D := driverDiscipline hashtext)
    (Q := fun _ _ _ _ _ => True) (E := fun _ _ _ => True) ?_ ?_ hrun
  · exact hsound.inv
  · rintro db ⟨hdrivers, hres⟩
    refine ⟨⟨?_, ?_, ?_, ?_, ?_, ?_⟩, ?_⟩ <;>
      simp [DriverDb.driver, DriverDb.reservation, hdrivers, hres]
  · intro p h db hInv
    cases p with
    | create id displayName capacity now => exact ok_createDriver id displayName capacity now
    | reserve input reservationId eventId now => exact ok_reserve input reservationId eventId now
    | release input eventId now => exact ok_release input eventId now

/-- Every committed state of every run, however the transactions interleave. -/
theorem capacity_of_reachable {hashtext : String → ℤ} {S : DriverStore}
    (hreach : (driverSystem hashtext).Reachable S) : Capacity S.committed :=
  (consistent_of_reachable hreach).capacity

def requestFor (orderId : Uuid) : ReserveDriverInput :=
  ⟨[(.orderId, .string orderId)], orderId, "dispatch-1", "corr-1", none⟩

/-- One driver with room for one order, and two reservations that race for it. -/
def racingReservations : List (Label DriverCall) :=
  [.begin 0 (.create "driver-1" "Ana" 1 1), .advance 0, .advance 0,
    .begin 1 (.reserve (requestFor "order-1") "reservation-1" "id-1" 2),
    .begin 2 (.reserve (requestFor "order-10") "reservation-2" "id-2" 3),
    .advance 1, .advance 2, .advance 1, .advance 2, .advance 1, .advance 2, .advance 2,
    .advance 1, .advance 1, .advance 2, .advance 1, .advance 1]

theorem capacity_racingReservations : ∃ S : DriverStore,
    S.history.length = 3 ∧ S.committed.reservations.length = 1 ∧ Capacity S.committed := by
  have hrun := System.Run.of_replay (M := driverSystem fun o => o.length)
    (s := ⟨⟨[], [], []⟩, [], fun _ => none, fun _ => none⟩)
    ⟨⟨rfl, rfl⟩, rfl, fun _ => rfl, fun _ => rfl⟩
    (rfl : System.replay _ _ racingReservations = some _)
  exact ⟨_, rfl, rfl, capacity_of_reachable ⟨_, hrun⟩⟩

end RouteFast
