import RouteFast.System.Ranking

/-! The answer to a reservation request. The lookup of the order's reservation, the locks on
drivers and the unique index on `order_id` have to agree on every state for there to be one. -/

namespace RouteFast

open Transition ReadCommitted DriverReservations

/-- One event answers the request: `driver.reserved` with the driver of the order's active row
where there is one, or else `driver.reservation_failed` with nothing changed. -/
def Settled (input : ReserveDriverInput) (db db' : DriverDb) : Prop :=
  ∃ e : OutboxRow, db'.outbox = db.outbox ++ [e] ∧
    (e.eventType = .driverReserved ∨ e.eventType = .driverReservationFailed) ∧
    (∀ driverId, e.eventType = .driverReserved ∧ e.payload.string .driverId = some driverId ↔
      ∃ r, db'.reservation input.orderId = some r ∧ r.status = .active ∧ r.driverId = driverId) ∧
    (e.eventType = .driverReservationFailed →
      db'.drivers = db.drivers ∧ db'.reservations = db.reservations)

/-- A driver can be locked for the request: a candidate that is eligible and free when it is
tried, or without candidates any driver. -/
def CanTake (locked : ℕ → DriverLock → Bool) (input : ReserveDriverInput) (db : DriverDb) : Prop :=
  match input.candidateDriverIds with
  | some candidates => ∃ k d, FreeAt (fun _ => db) locked candidates k d
  | none => ∃ d ∈ db.drivers, d.Eligible ∧ locked 0 (.driver d.id) = false

/-- The order's reservation has been released. -/
def ReleasedRow (orderId : Uuid) (db : DriverDb) : Prop :=
  ∃ r, db.reservation orderId = some r ∧ r.status = .released

section Runs

variable {hashtext : String → ℤ} {locked : ℕ → DriverLock → Bool} {db db' : DriverDb}
  {input : ReserveDriverInput} {reservationId eventId : Uuid} {now : Date}

theorem string_reserved (driverId : Uuid) :
    (DriverEvent.reserved input driverId eventId now).payload.string .driverId = some driverId :=
  string_driverEvent _ _ _ _ _ (Payload.string_spread_self _ _ _)

/-- Whatever the reservation commits settles the request. -/
theorem Reserved.settled (h : db.Linked) (hr : Reserved input reservationId eventId now db db') :
    Settled input db db' := by
  cases hr with
  | @again r hrow hact =>
    refine ⟨_, rfl, Or.inl rfl, fun driverId => ?_, fun hfailed => by cases hfailed⟩
    rw [string_reserved]
    constructor
    · rintro ⟨-, hid⟩
      exact ⟨r, hrow, hact, Option.some.inj hid⟩
    · rintro ⟨x, hx, -, rfl⟩
      obtain rfl : r = x := Option.some.inj (hrow.symm.trans hx)
      exact ⟨rfl, rfl⟩
  | failed reason hnot =>
    refine ⟨_, rfl, Or.inr rfl, fun driverId => ?_, fun _ => ⟨rfl, rfl⟩⟩
    constructor
    · rintro ⟨htype, -⟩
      cases htype
    · rintro ⟨x, hx, hact, -⟩
      exact absurd hact (hnot x hx)
  | @granted d d' hnot hd helig hres hid horder =>
    refine ⟨_, rfl, Or.inl rfl, fun driverId => ?_, fun hfailed => by cases hfailed⟩
    have hrow : (db.saveReservation (input.row reservationId d'.id now)).reservation
        input.orderId = some (input.row reservationId d'.id now) :=
      (h.reservation_save (r := input.row reservationId d'.id now) (Or.inl ⟨hid, horder⟩)
        input.orderId).trans (if_pos rfl)
    rw [string_reserved]
    constructor
    · rintro ⟨-, hdriver⟩
      exact ⟨_, hrow, rfl, Option.some.inj hdriver⟩
    · rintro ⟨x, hx, -, rfl⟩
      obtain rfl := Option.some.inj (hrow.symm.trans hx)
      exact ⟨rfl, rfl⟩

/-- The loop goes on with a free candidate, or with nobody if there is none. -/
theorem run_selectCandidate_free (next : Option Driver → DriverTx) (candidates : List Uuid)
    (locked : ℕ → DriverLock → Bool) (db : DriverDb) :
    ∃ found locked', (selectCandidate next candidates).run locked db =
        (next found).run locked' db ∧
      match found with
      | none => ∀ k d, ¬ FreeAt (fun _ => db) locked candidates k d
      | some d => ∃ k, FreeAt (fun _ => db) locked candidates k d := by
  induction candidates generalizing locked with
  | nil => exact ⟨none, locked, rfl, fun k d h => by simpa using h.candidate⟩
  | cons c rest ih =>
    simp only [selectCandidate, Tx.run]
    cases hd : lockedDriver db ((candidateLocks c db).filter fun k => !locked 0 k).head? with
    | some d =>
      obtain ⟨rfl, hrow, helig, hfree⟩ := lockedDriver_candidate.1 hd
      exact ⟨some d, _, rfl, 0, rfl, hrow, helig, by simpa using hfree⟩
    | none =>
      obtain ⟨found, locked', hrun, hfound⟩ := ih fun n => locked (n + 1)
      refine ⟨found, locked', hrun, ?_⟩
      cases found with
      | none =>
        intro k d h
        cases k with
        | zero =>
          obtain ⟨hc, hrow, helig, hfree⟩ := h
          have hsome : lockedDriver db ((candidateLocks c db).filter
              fun k => !locked 0 k).head? = some d :=
            lockedDriver_candidate.2 ⟨Option.some.inj hc, hrow, helig, by simp [hfree]⟩
          rw [hd] at hsome
          cases hsome
        | succ k => exact hfound k d (freeAt_succ.1 h)
      | some d =>
        obtain ⟨k, hfree⟩ := hfound
        exact ⟨k + 1, freeAt_succ.2 hfree⟩

/-- Without a ranking, somebody is locked if anybody is free. -/
theorem run_selectLeastLoaded_free (next : Option Driver → DriverTx) (h : db.Linked)
    (locked : ℕ → DriverLock → Bool) :
    ∃ found locked', (selectLeastLoaded next).run locked db = (next found).run locked' db ∧
      match found with
      | none => ∀ d ∈ db.drivers, ¬ (d.Eligible ∧ locked 0 (.driver d.id) = false)
      | some d => d ∈ db.drivers ∧ d.Eligible ∧ locked 0 (.driver d.id) = false := by
  refine ⟨_, _, rfl, ?_⟩
  have hlock : ∀ k, k ∈ (eligibleLocks db).filter (fun k => !locked 0 k) ↔
      ∃ d ∈ db.drivers, d.Eligible ∧ locked 0 (.driver d.id) = false ∧ k = .driver d.id := by
    intro k
    simp only [eligibleLocks, DriverDb.eligible, List.mem_filter, List.mem_map,
      List.mem_insertionSort, decide_eq_true_eq, Bool.not_eq_true']
    constructor
    · rintro ⟨⟨d, ⟨hd, helig⟩, rfl⟩, hfree⟩
      exact ⟨d, hd, helig, hfree, rfl⟩
    · rintro ⟨d, hd, helig, hfree, rfl⟩
      exact ⟨⟨d, ⟨hd, helig⟩, rfl⟩, hfree⟩
  cases hgot : (eligibleLocks db).filter fun k => !locked 0 k with
  | nil =>
    rintro d hd ⟨helig, hfree⟩
    have hmem := (hlock (.driver d.id)).2 ⟨d, hd, helig, hfree, rfl⟩
    simp [hgot] at hmem
  | cons k got =>
    obtain ⟨d, hd, helig, hfree, rfl⟩ := (hlock k).1 (by simp [hgot])
    have hrow : db.driver d.id = some d := Table.find_of_mem h.driverIds hd
    simp only [List.head?_cons, lockedDriver, hrow]
    exact ⟨hd, helig, hfree⟩

/-- With a driver locked, only the unique index can still stop the reservation. -/
theorem run_grant {d : Driver} (helig : d.Eligible)
    (hfresh : db.reservationById reservationId = none) :
    (∃ db', (grant input reservationId eventId now (some d)).run locked db = .ok ((), db')) ↔
      db.reservation input.orderId = none := by
  obtain ⟨d', hres⟩ := Driver.exists_reserve helig input.orderId now
  have hid : (db.saveDriver d').reservationById reservationId = none := hfresh
  have horder : (db.saveDriver d').reservation input.orderId = db.reservation input.orderId := rfl
  cases hrow : db.reservation input.orderId with
  | none => simp [grant, hres, Tx.run, DriverDb.rejects, hid, horder, hrow, enqueue]
  | some r => simp [grant, hres, Tx.run, DriverDb.rejects, hid, horder, hrow]

/-- The rest of a reservation, when no active row names the order and `taken` says whether a
driver was locked. -/
theorem run_grant_iff {found : Option Driver} {taken : Prop} (hnot : db.Unreserved input.orderId)
    (hfresh : db.reservationById reservationId = none)
    (hfound : match found with
      | none => ¬ taken
      | some d => taken ∧ d.Eligible) :
    (∃ db', (grant input reservationId eventId now found).run locked db = .ok ((), db')) ↔
      ¬ (ReleasedRow input.orderId db ∧ taken) := by
  have hreleased : ¬ ReleasedRow input.orderId db ↔ db.reservation input.orderId = none := by
    cases hrow : db.reservation input.orderId with
    | none => simp [ReleasedRow, hrow]
    | some r =>
      have hstatus : r.status = .released := by
        cases hs : r.status with
        | active => exact absurd hs (hnot r hrow)
        | released => rfl
      simp [ReleasedRow, hrow, hstatus]
  cases found with
  | none => exact iff_of_true ⟨_, rfl⟩ fun h => hfound h.2
  | some d => rw [run_grant hfound.2 hfresh, ← hreleased, and_iff_left hfound.1]

/-- A reservation run alone commits unless it has to insert a second row for the order. -/
theorem run_reserve_iff (h : db.Linked) (hfresh : db.reservationById reservationId = none) :
    (∃ db', (DriverReservations.reserve hashtext input reservationId eventId now).run locked db =
      .ok ((), db')) ↔ ¬ (ReleasedRow input.orderId db ∧ CanTake locked input db) := by
  simp only [DriverReservations.reserve, Tx.run]
  cases hact : (db.reservation input.orderId).filter fun r => r.status = .active with
  | some r =>
    obtain ⟨hrow, hs⟩ : db.reservation input.orderId = some r ∧ r.status = .active := by
      simpa [Option.filter_eq_some_iff] using hact
    refine iff_of_true ⟨_, rfl⟩ ?_
    rintro ⟨⟨x, hx, hreleased⟩, -⟩
    obtain rfl : r = x := Option.some.inj (hrow.symm.trans hx)
    rw [hs] at hreleased
    cases hreleased
  | none =>
    have hnot : db.Unreserved input.orderId := by
      intro r hrow hs
      simp [hrow, hs] at hact
    unfold CanTake
    cases input.candidateDriverIds with
    | none =>
      obtain ⟨found, locked', hrun, hfound⟩ := run_selectLeastLoaded_free
        (grant input reservationId eventId now) h locked
      simp only [hrun]
      refine run_grant_iff hnot hfresh ?_
      cases found with
      | none =>
        intro htaken
        obtain ⟨d, hd, htake⟩ := htaken
        exact hfound d hd htake
      | some d => exact ⟨⟨d, hfound⟩, hfound.2.1⟩
    | some candidates =>
      cases candidates with
      | nil =>
        refine iff_of_true ⟨_, rfl⟩ ?_
        rintro ⟨-, k, d, hfree⟩
        simpa using hfree.candidate
      | cons c rest =>
        obtain ⟨found, locked', hrun, hfound⟩ := run_selectCandidate_free
          (grant input reservationId eventId now) (c :: rest) locked db
        simp only [hrun]
        refine run_grant_iff hnot hfresh ?_
        cases found with
        | none =>
          intro htaken
          obtain ⟨k, d, hfree⟩ := htaken
          exact hfound k d hfree
        | some d =>
          obtain ⟨k, hfree⟩ := hfound
          exact ⟨⟨k, d, hfree⟩, hfree.eligible⟩

end Runs

/-- In every reachable state, a request is answered unless its order's reservation has been
released and there is a driver to take it again. -/
theorem reserve_settles_iff {hashtext : String → ℤ} {S : DriverStore}
    (hreach : (driverSystem hashtext).Reachable S) (locked : ℕ → DriverLock → Bool)
    (input : ReserveDriverInput) (reservationId eventId : Uuid) (now : Date)
    (hfresh : S.committed.reservationById reservationId = none) :
    (∃ db', (DriverReservations.reserve hashtext input reservationId eventId now).run locked
        S.committed = .ok ((), db') ∧ Settled input S.committed db') ↔
      ¬ (ReleasedRow input.orderId S.committed ∧ CanTake locked input S.committed) := by
  have hlinked := (consistent_of_reachable hreach).toLinked
  rw [← run_reserve_iff hlinked hfresh]
  constructor
  · rintro ⟨db', hrun, -⟩
    exact ⟨db', hrun⟩
  · rintro ⟨db', hrun⟩
    exact ⟨db', hrun, (reserved_of_run hlinked hrun).settled hlinked⟩

/-- One driver, and an order that it was reserved for and released from. -/
def releasedLabels : List (Label DriverCall) :=
  [.begin 0 (.create "driver-1" "Ana" 1 1), .advance 0, .advance 0,
    .begin 1 (.reserve (requestFor "order-1") "reservation-1" "id-1" 2),
    .advance 1, .advance 1, .advance 1, .advance 1, .advance 1, .advance 1, .advance 1,
    .begin 2 (.release { requestFor "order-1" with driverId := "driver-1" } "id-2" 3),
    .advance 2, .advance 2, .advance 2, .advance 2, .advance 2, .advance 2, .advance 2]

def emptyStore : DriverStore := ⟨⟨[], [], []⟩, [], fun _ => none, fun _ => none⟩

theorem reserve_settles_otherOrder : ∃ S : DriverStore, S.committed.reservations.length = 1 ∧
    ∃ db', (DriverReservations.reserve (fun o => o.length) (requestFor "order-2") "reservation-2"
      "id-3" 4).run (fun _ _ => false) S.committed = .ok ((), db') ∧
      Settled (requestFor "order-2") S.committed db' := by
  have hrun := System.Run.of_replay (M := driverSystem fun o => o.length) (s := emptyStore)
    ⟨⟨rfl, rfl⟩, rfl, fun _ => rfl, fun _ => rfl⟩
    (rfl : System.replay _ _ releasedLabels = some _)
  refine ⟨_, rfl, (reserve_settles_iff ⟨_, hrun⟩ (fun _ _ => false) (requestFor "order-2")
    "reservation-2" "id-3" 4 rfl).2 ?_⟩
  rintro ⟨⟨r, hrow, -⟩, -⟩
  cases (show (none : Option DriverReservation) = some r from hrow)

/-- The request for the same order again: the insert meets the released row, at every retry. -/
theorem not_reserve_settles : ¬ ∀ (hashtext : String → ℤ) (S : DriverStore)
    (locked : ℕ → DriverLock → Bool) (input : ReserveDriverInput) (reservationId eventId : Uuid)
    (now : Date), (driverSystem hashtext).Reachable S →
    S.committed.reservationById reservationId = none →
    ∃ db', (DriverReservations.reserve hashtext input reservationId eventId now).run locked
      S.committed = .ok ((), db') ∧ Settled input S.committed db' := by
  intro h
  have hrun := System.Run.of_replay (M := driverSystem fun o => o.length) (s := emptyStore)
    ⟨⟨rfl, rfl⟩, rfl, fun _ => rfl, fun _ => rfl⟩
    (rfl : System.replay _ _ releasedLabels = some _)
  obtain ⟨db', hok, -⟩ := h _ _ (fun _ _ => false) (requestFor "order-1") "reservation-2" "id-3" 4
    ⟨_, hrun⟩ rfl
  have herror := hok.symm.trans (show _ = .error (.database "driver_reservations_order_id") from rfl)
  cases herror

end RouteFast
