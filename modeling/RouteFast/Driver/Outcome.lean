import RouteFast.Driver.Linked

/-! What a reservation or a release leaves committed when it runs alone, whatever driver
rows other transactions hold meanwhile. -/

namespace RouteFast

open ReadCommitted DriverReservations

/-- No active row names the order. -/
def DriverDb.Unreserved (db : DriverDb) (orderId : Uuid) : Prop :=
  ∀ r, db.reservation orderId = some r → r.status ≠ .active

/-- The row a reservation inserts. -/
def ReserveDriverInput.row (input : ReserveDriverInput) (reservationId driverId : Uuid)
    (now : Date) : DriverReservation :=
  ⟨reservationId, input.orderId, input.dispatchId, driverId, .active, now, none⟩

/-- The tables a committed reservation leaves. -/
inductive Reserved (input : ReserveDriverInput) (reservationId eventId : Uuid) (now : Date)
    (db : DriverDb) : DriverDb → Prop
  | again {r : DriverReservation} : db.reservation input.orderId = some r → r.status = .active →
      Reserved input reservationId eventId now db
        (db.insertOutbox (DriverEvent.reserved input r.driverId eventId now))
  | failed (reason : String) : db.Unreserved input.orderId →
      Reserved input reservationId eventId now db
        (db.insertOutbox (DriverEvent.reservationFailed input reason eventId now))
  | granted {d d' : Driver} : db.Unreserved input.orderId → db.driver d.id = some d →
      d.Eligible → d.reserve input.orderId now = .ok d' →
      db.reservationById reservationId = none → db.reservation input.orderId = none →
      Reserved input reservationId eventId now db
        (((db.saveDriver d').saveReservation (input.row reservationId d'.id now)).insertOutbox
          (DriverEvent.reserved input d'.id eventId now))

/-- The tables a committed release leaves. -/
inductive Released (input : ReleaseDriverInput) (eventId : Uuid) (now : Date) (db : DriverDb) :
    DriverDb → Prop
  | unknown : db.reservation input.orderId = none →
      Released input eventId now db
        (db.insertOutbox (DriverEvent.released input input.driverId eventId now))
  | again {r : DriverReservation} : db.reservation input.orderId = some r → r.status = .released →
      Released input eventId now db
        (db.insertOutbox (DriverEvent.released input r.driverId eventId now))
  | freed {r : DriverReservation} {d : Driver} : db.reservation input.orderId = some r →
      r.status = .active → db.driver r.driverId = some d →
      Released input eventId now db
        (((db.saveDriver (d.release input.orderId now)).saveReservation
          { r with status := .released, releasedAt := some now }).insertOutbox
          (DriverEvent.released input r.driverId eventId now))

section Runs

variable {hashtext : String → ℤ} {locked : ℕ → DriverLock → Bool} {db db' : DriverDb}
  {input : ReserveDriverInput} {reservationId eventId : Uuid} {now : Date} {u : Unit}

/-- A driver that can be granted, if one was found. -/
def Grantable (db : DriverDb) : Option Driver → Prop
  | none => True
  | some d => db.driver d.id = some d ∧ d.Eligible

theorem reserved_of_grant {found : Option Driver} (hnot : db.Unreserved input.orderId)
    (hfound : Grantable db found)
    (hrun : (grant input reservationId eventId now found).run locked db = .ok (u, db')) :
    Reserved input reservationId eventId now db db' := by
  cases found with
  | none =>
    obtain rfl := (Prod.mk.inj (Except.ok.inj hrun)).2
    exact .failed _ hnot
  | some d =>
    obtain ⟨hd, helig⟩ := hfound
    cases hres : d.reserve input.orderId now with
    | error e => simp [grant, hres, Tx.run] at hrun
    | ok d' =>
      simp only [grant, hres, Tx.run] at hrun
      split at hrun
      · cases hrun
      · next hrej =>
        obtain ⟨hid, horder⟩ := DriverDb.of_rejects_eq_none hrej
        obtain rfl := (Prod.mk.inj (Except.ok.inj hrun)).2
        exact .granted hnot hd helig hres hid horder

/-- Whatever is locked elsewhere, the loop goes on with a driver that can be granted. -/
theorem run_selectCandidate (locked : ℕ → DriverLock → Bool) (db : DriverDb)
    (next : Option Driver → DriverTx) (candidates : List Uuid) :
    ∃ found locked', Grantable db found ∧
      (selectCandidate next candidates).run locked db = (next found).run locked' db := by
  induction candidates generalizing locked with
  | nil => exact ⟨none, locked, trivial, rfl⟩
  | cons candidate rest ih =>
    simp only [selectCandidate, Tx.run]
    set got := (candidateLocks candidate db).filter fun k => !locked 0 k with hgot
    cases hd : lockedDriver db got.head? with
    | none => exact ih _
    | some d =>
      obtain ⟨-, hrows, hrow⟩ := lockedDriver_head (hgot ▸ List.filter_sublist) hd
      exact ⟨some d, _, ⟨hrow, eligible_of_candidate hrows hrow⟩, rfl⟩

theorem run_selectLeastLoaded (locked : ℕ → DriverLock → Bool) (h : db.Linked)
    (next : Option Driver → DriverTx) :
    ∃ found locked', Grantable db found ∧
      (selectLeastLoaded next).run locked db = (next found).run locked' db := by
  simp only [selectLeastLoaded, Tx.run]
  set got := (eligibleLocks db).filter fun k => !locked 0 k with hgot
  refine ⟨_, _, ?_, rfl⟩
  cases hd : lockedDriver db got.head? with
  | none => trivial
  | some d =>
    obtain ⟨-, hrows, hrow⟩ := lockedDriver_head (hgot ▸ List.filter_sublist) hd
    exact ⟨hrow, eligible_of_eligible h.driverIds hrows hrow⟩

theorem reserved_of_run (h : db.Linked)
    (hrun : (DriverReservations.reserve hashtext input reservationId eventId now).run locked db =
      .ok (u, db')) : Reserved input reservationId eventId now db db' := by
  simp only [DriverReservations.reserve, Tx.run] at hrun
  cases hact : (db.reservation input.orderId).filter fun r => r.status = .active with
  | some r =>
    obtain ⟨hr, hs⟩ : db.reservation input.orderId = some r ∧ r.status = .active := by
      simpa [Option.filter_eq_some_iff] using hact
    rw [hact] at hrun
    obtain rfl := (Prod.mk.inj (Except.ok.inj hrun)).2
    exact .again hr hs
  | none =>
    have hnot : db.Unreserved input.orderId := by
      intro r hr hs
      simp [hr, hs] at hact
    rw [hact] at hrun
    simp only at hrun
    split at hrun
    · obtain rfl := (Prod.mk.inj (Except.ok.inj hrun)).2
      exact .failed _ hnot
    · obtain ⟨found, locked', hfound, heq⟩ := run_selectCandidate locked db
        (grant input reservationId eventId now) _
      exact reserved_of_grant hnot hfound (heq ▸ hrun)
    · obtain ⟨found, locked', hfound, heq⟩ := run_selectLeastLoaded locked h
        (grant input reservationId eventId now)
      exact reserved_of_grant hnot hfound (heq ▸ hrun)

/-- A release run alone always commits. -/
theorem released_of_run (hashtext : String → ℤ) (locked : ℕ → DriverLock → Bool)
    (input : ReleaseDriverInput) (eventId : Uuid) (now : Date) (h : db.Linked) :
    ∃ db', (DriverReservations.release hashtext input eventId now).run locked db =
      .ok ((), db') ∧ Released input eventId now db db' := by
  simp only [DriverReservations.release, Tx.run]
  cases hr : db.reservation input.orderId with
  | none => exact ⟨_, rfl, .unknown hr⟩
  | some r =>
    cases hs : r.status with
    | released =>
      simp only [hs, if_true]
      exact ⟨_, rfl, .again hr hs⟩
    | active =>
      obtain ⟨d, hd, -⟩ := h.active _ r hr hs
      simp only [hs, reduceCtorEq, if_false, Tx.run, hd]
      exact ⟨_, rfl, .freed hr hs hd⟩

/-- A committed creation saves a new driver. -/
theorem created_of_run {id : Uuid} {displayName : String} {capacity : ℚ}
    (hrun : (createDriver id displayName capacity now).run locked db = .ok (u, db')) :
    ∃ d, Driver.create id displayName capacity now = .ok d ∧ db.driver d.id = none ∧
      db' = db.saveDriver d := by
  simp only [createDriver] at hrun
  split at hrun
  · cases hrun
  · next d hd =>
    simp only [Tx.run] at hrun
    split at hrun
    · cases hrun
    · next hnew =>
      exact ⟨d, hd, by simpa using hnew, (Prod.mk.inj (Except.ok.inj hrun)).2.symm⟩

/-- The only outcome of a release run alone. -/
theorem released_of_commit {input : ReleaseDriverInput} (h : db.Linked)
    (hrun : (DriverReservations.release hashtext input eventId now).run locked db =
      .ok (u, db')) : Released input eventId now db db' := by
  obtain ⟨db'', hrun', hrel⟩ := released_of_run hashtext locked input eventId now h
  obtain rfl : db'' = db' := (Prod.mk.inj (Except.ok.inj (hrun'.symm.trans hrun))).2
  exact hrel

/-- Driver's events go to Dispatch. -/
theorem Reserved.queue (hr : Reserved input reservationId eventId now db db') :
    ∀ r ∈ db'.outbox, r ∈ db.outbox ∨ r.targetQueue = .dispatchEvents := by
  cases hr <;> exact fun r hr => (List.mem_append.1 hr).imp_right fun h => by
    rw [List.mem_singleton.1 h]; rfl

theorem Released.queue {input : ReleaseDriverInput} (hr : Released input eventId now db db') :
    ∀ r ∈ db'.outbox, r ∈ db.outbox ∨ r.targetQueue = .dispatchEvents := by
  cases hr <;> exact fun r hr => (List.mem_append.1 hr).imp_right fun h => by
    rw [List.mem_singleton.1 h]; rfl

/-- What a committed reservation or release leaves is linked again. -/
theorem Reserved.linked (h : db.Linked) (hr : Reserved input reservationId eventId now db db') :
    db'.Linked := by
  cases hr with
  | again => exact h.insertOutbox _
  | failed => exact h.insertOutbox _
  | @granted d d' hnot hd helig hres hid horder =>
    have hfree := h.not_held hnot hd
    have hd' := Except.ok.inj ((Driver.reserve_eq helig hfree).symm.trans hres)
    have hsame := Driver.id_of_reserve hres
    exact (h.grant (o := input.orderId) hd hsame (by rw [← hd']) ⟨rfl, hsame, rfl⟩
      ⟨hid, horder⟩).insertOutbox _

theorem Released.linked {input : ReleaseDriverInput} (h : db.Linked)
    (hr : Released input eventId now db db') : db'.Linked := by
  cases hr with
  | unknown => exact h.insertOutbox _
  | again => exact h.insertOutbox _
  | freed hr _ hd => exact (h.release now hr hd).insertOutbox _

/-- A reservation leaves the rows there are. -/
theorem Reserved.reservation_eq (h : db.Linked)
    (hr : Reserved input reservationId eventId now db db') {o : Uuid} {r : DriverReservation}
    (hrow : db.reservation o = some r) : db'.reservation o = some r := by
  cases hr with
  | again | failed => exact hrow
  | @granted d d' hnot hd helig hres hid hnone =>
    refine (h.reservation_save (r := input.row reservationId d'.id now)
      (Or.inl ⟨hid, hnone⟩) o).trans ((if_neg ?_).trans hrow)
    rintro rfl
    exact absurd hrow (hnone ▸ nofun)

/-- A release marks the row of its order, if there is one, and leaves the others. -/
theorem Released.reservation_eq {input : ReleaseDriverInput} (h : db.Linked)
    (hr : Released input eventId now db db') {o : Uuid} {r : DriverReservation}
    (hrow : db.reservation o = some r) : ∃ r', db'.reservation o = some r' ∧
      r'.driverId = r.driverId ∧ (input.orderId = o → r'.status = .released) ∧
      (input.orderId ≠ o ∨ r.status = .released → r' = r) := by
  cases hr with
  | unknown hnone =>
    refine ⟨r, hrow, rfl, fun ho => ?_, fun _ => rfl⟩
    exact absurd hrow (ho ▸ hnone ▸ nofun)
  | @again x hx hs =>
    refine ⟨r, hrow, rfl, fun ho => ?_, fun _ => rfl⟩
    obtain rfl : x = r := Option.some.inj (hx.symm.trans (ho ▸ hrow))
    exact hs
  | @freed x d hx hact hd =>
    have hfind (o : Uuid) : (db.saveReservation { x with
        status := .released, releasedAt := some now }).reservation o =
        if input.orderId = o then some { x with status := .released, releasedAt := some now }
        else db.reservation o := by
      rw [← DriverDb.order_of_reservation hx]
      exact h.reservation_save (r := { x with status := .released, releasedAt := some now })
        (Or.inr ⟨x, h.reservationById_of hx, rfl⟩) o
    by_cases ho : input.orderId = o
    · subst ho
      obtain rfl : x = r := Option.some.inj (hx.symm.trans hrow)
      refine ⟨_, (hfind _).trans (if_pos rfl), rfl, fun _ => rfl, fun hcase => ?_⟩
      rcases hcase with hne | hs
      · exact absurd rfl hne
      · rw [hact] at hs
        cases hs
    · exact ⟨r, (hfind o).trans ((if_neg ho).trans hrow), rfl, fun h => absurd h ho, fun _ => rfl⟩

end Runs

end RouteFast
