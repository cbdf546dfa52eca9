import RouteFast.Driver.Capacity
import RouteFast.System.Steps

/-! From the ranking to the reserved driver: the candidate list of `workflow.start`, as an
outbox payload, as JSON, and as the input of `reserve`, which tries one candidate after the other
while other transactions lock and change the driver rows. -/

namespace RouteFast

open Transition Pool ReadCommitted DriverReservations

section Tries

variable (tables : ℕ → DriverDb) (locked : ℕ → DriverLock → Bool) (candidates : List Uuid)

/-- When the candidate with this number is tried, its row is that of an available driver with
spare capacity that nobody else holds. -/
structure FreeAt (k : ℕ) (d : Driver) : Prop where
  candidate : candidates[k]? = some d.id
  row : (tables k).driver d.id = some d
  eligible : d.Eligible
  free : locked k (.driver d.id) = false

/-- The first candidate of the ranking that is free when it is tried. -/
structure FirstFree (k : ℕ) (d : Driver) : Prop where
  free : FreeAt tables locked candidates k d
  first : ∀ j < k, ∀ e, ¬ FreeAt tables locked candidates j e

variable {tables locked candidates}

theorem FirstFree.unique {j k : ℕ} {d e : Driver} (h : FirstFree tables locked candidates j d)
    (h' : FirstFree tables locked candidates k e) : d = e := by
  obtain rfl : j = k := by
    rcases lt_trichotomy j k with hlt | heq | hlt
    · exact absurd h.free (h'.first j hlt d)
    · exact heq
    · exact absurd h'.free (h.first k hlt e)
  have hid : d.id = e.id := Option.some.inj (h.free.candidate.symm.trans h'.free.candidate)
  exact Option.some.inj (h.free.row.symm.trans (hid ▸ h'.free.row))

theorem freeAt_succ {c : Uuid} {k : ℕ} {d : Driver} :
    FreeAt tables locked (c :: candidates) (k + 1) d ↔
      FreeAt (fun n => tables (n + 1)) (fun n => locked (n + 1)) candidates k d :=
  ⟨fun ⟨hc, hrow, he, hfree⟩ => ⟨hc, hrow, he, hfree⟩,
    fun ⟨hc, hrow, he, hfree⟩ => ⟨hc, hrow, he, hfree⟩⟩

/-- The statement of one try locks the candidate's row, if it is free. -/
theorem lockedDriver_candidate {db : DriverDb} {free : DriverLock → Bool} {c : Uuid} {d : Driver} :
    lockedDriver db ((candidateLocks c db).filter free).head? = some d ↔
      c = d.id ∧ db.driver d.id = some d ∧ d.Eligible ∧ free (.driver d.id) = true := by
  cases hrow : db.driver c with
  | none =>
    refine iff_of_false (by simp [candidateLocks, hrow, lockedDriver]) ?_
    rintro ⟨rfl, hd, -⟩
    simp [hrow] at hd
  | some e =>
    obtain rfl : e.id = c := Table.key_of_find hrow
    by_cases hfree : e.Eligible ∧ free (.driver e.id) = true
    · have hlocks : (candidateLocks e.id db).filter free = [.driver e.id] := by
        simp [candidateLocks, hrow, Option.filter, hfree.1, hfree.2]
      simp only [hlocks, List.head?_cons, lockedDriver, hrow]
      constructor
      · intro h
        obtain rfl := Option.some.inj h
        exact ⟨rfl, hrow, hfree.1, hfree.2⟩
      · rintro ⟨hid, hd, -, -⟩
        rw [← hid, hrow] at hd
        exact hd
    · have hlocks : (candidateLocks e.id db).filter free = [] := by
        by_cases he : e.Eligible
        · have hheld : free (.driver e.id) = false := by simpa [he] using hfree
          simp [candidateLocks, hrow, Option.filter, he, hheld]
        · simp [candidateLocks, hrow, Option.filter, he]
      refine iff_of_false (by simp [hlocks, lockedDriver]) ?_
      rintro ⟨hid, hd, heligible, hfree'⟩
      rw [← hid, hrow] at hd
      obtain rfl := Option.some.inj hd
      exact hfree ⟨heligible, hfree'⟩

/-- The loop goes on with the first free candidate, or with nobody if there is none. -/
theorem among_selectCandidate (next : Option Driver → DriverTx) (candidates : List Uuid)
    (tables : ℕ → DriverDb) (locked : ℕ → DriverLock → Bool) :
    ∃ found n, (selectCandidate next candidates).among tables locked [] =
        (next found).among (fun k => tables (k + n)) (fun k => locked (k + n)) [] ∧
      match found with
      | none => ∀ k d, ¬ FreeAt tables locked candidates k d
      | some d => ∃ k, FirstFree tables locked candidates k d := by
  induction candidates generalizing tables locked with
  | nil => exact ⟨none, 0, rfl, fun k d h => by simpa using h.candidate⟩
  | cons c rest ih =>
    have hfirst (d : Driver) : FreeAt tables locked (c :: rest) 0 d ↔
        lockedDriver (tables 0) ((candidateLocks c (tables 0)).filter
          fun k => !locked 0 k).head? = some d := by
      rw [lockedDriver_candidate]
      constructor
      · rintro ⟨hc, hrow, he, hfree⟩
        exact ⟨Option.some.inj hc, hrow, he, by simp [hfree]⟩
      · rintro ⟨rfl, hrow, he, hfree⟩
        exact ⟨rfl, hrow, he, by simpa using hfree⟩
    simp only [selectCandidate, Tx.among, view_nil]
    cases hd : lockedDriver (tables 0) ((candidateLocks c (tables 0)).filter
        fun k => !locked 0 k).head? with
    | some d =>
      exact ⟨some d, 1, rfl, 0, (hfirst d).2 hd, fun j hj => absurd hj (Nat.not_lt_zero j)⟩
    | none =>
      have hnot (d : Driver) : ¬ FreeAt tables locked (c :: rest) 0 d := by
        intro h
        cases hd.symm.trans ((hfirst d).1 h)
      obtain ⟨found, n, hrun, hfound⟩ := ih (fun n => tables (n + 1)) (fun n => locked (n + 1))
      refine ⟨found, n + 1, hrun, ?_⟩
      cases found with
      | none =>
        intro k d h
        cases k with
        | zero => exact hnot d h
        | succ k => exact hfound k d (freeAt_succ.1 h)
      | some d =>
        obtain ⟨k, hfree, hbefore⟩ := hfound
        refine ⟨k + 1, freeAt_succ.2 hfree, fun j hj e h => ?_⟩
        cases j with
        | zero => exact hnot e h
        | succ j => exact hbefore j (Nat.lt_of_succ_lt_succ hj) e (freeAt_succ.1 h)

end Tries

section Outcome

variable (tables : ℕ → DriverDb) (locked : ℕ → DriverLock → Bool) (candidates : List Uuid)
  (input : ReserveDriverInput) (reservationId eventId : Uuid) (now : Date)

/-- What `reserve` writes for a ranking: the first free candidate gets the order, and the
reservation fails if there is none. -/
structure FollowsRanking (writes : List (DriverDb → DriverDb)) : Prop where
  reserved : ∀ k d, FirstFree tables locked candidates k d →
    ∃ d', d.reserve input.orderId now = .ok d' ∧ ∀ db, view db writes =
      ((db.saveDriver d').saveReservation (input.row reservationId d.id now)).insertOutbox
        (DriverEvent.reserved input d.id eventId now)
  failed : (∀ k d, ¬ FreeAt tables locked candidates k d) → ∀ db, view db writes =
    db.insertOutbox (DriverEvent.reservationFailed input
      (if candidates = [] then "NO_GEO_ELIGIBLE_DRIVER" else "NO_AVAILABLE_DRIVER") eventId now)
  failed_iff : ∀ db, (∃ r, (view db writes).outbox = db.outbox ++ [r] ∧
    r.eventType = .driverReservationFailed) ↔ ∀ k d, ¬ FreeAt tables locked candidates k d
  changed : ∀ db id, (view db writes).driver id ≠ db.driver id →
    ∃ k d, FirstFree tables locked candidates k d ∧ d.id = id
  ranked : ∀ db, ∀ r ∈ (view db writes).reservations, r ∈ db.reservations ∨
    r.driverId ∈ candidates

variable {tables locked candidates input reservationId eventId now}

theorem followsRanking_reserved {k : ℕ} {d d' : Driver} (h : FirstFree tables locked candidates k d)
    (hres : d.reserve input.orderId now = .ok d') :
    FollowsRanking tables locked candidates input reservationId eventId now
      [fun db => db.saveDriver d', fun db => db.saveReservation (input.row reservationId d.id now),
        fun db => db.insertOutbox (DriverEvent.reserved input d.id eventId now)] where
  reserved l e he := by
    obtain rfl := h.unique he
    exact ⟨d', hres, fun db => rfl⟩
  failed hnone := absurd h.free (hnone k d)
  failed_iff db := by
    refine iff_of_false ?_ fun hnone => hnone k d h.free
    rintro ⟨r, hrows, hty⟩
    obtain rfl : DriverEvent.reserved input d.id eventId now = r := by
      simpa using List.append_cancel_left hrows
    cases hty
  changed db id hne := by
    refine ⟨k, d, h, ?_⟩
    by_contra hdid
    refine hne ((DriverDb.driver_saveDriver db d' id).trans (if_neg ?_))
    rwa [Driver.id_of_reserve hres]
  ranked db r hr := by
    rcases Table.mem_of_mem_save hr with rfl | hr
    · exact Or.inr (List.mem_of_getElem? h.free.candidate)
    · exact Or.inl hr

theorem followsRanking_failed {reason : String}
    (h : ∀ k d, ¬ FreeAt tables locked candidates k d)
    (hreason : reason =
      if candidates = [] then "NO_GEO_ELIGIBLE_DRIVER" else "NO_AVAILABLE_DRIVER") :
    FollowsRanking tables locked candidates input reservationId eventId now
      [fun db => db.insertOutbox (DriverEvent.reservationFailed input reason eventId now)] where
  reserved k d hfirst := absurd hfirst.free (h k d)
  failed _ db := by
    subst hreason
    rfl
  failed_iff db := iff_of_true ⟨_, rfl, rfl⟩ h
  changed db id hne := absurd rfl hne
  ranked db r hr := Or.inl hr

/-- An order with no reservation can only be refused the id of the new one. -/
theorem rejects_row {db : DriverDb} {d : Driver} {driverId : Uuid}
    (hnone : db.reservation input.orderId = none) :
    (view db [fun db => db.saveDriver d]).rejects (input.row reservationId driverId now) =
      if (db.reservationById reservationId).isSome then
        some (.database "driver_reservations_pkey") else none := by
  have hsame : (view db [fun db => db.saveDriver d]).reservation input.orderId = none := hnone
  simp only [DriverDb.rejects, ReserveDriverInput.row, hsame]
  rfl

/-- The id of the new reservation turned out to be taken, and nothing is committed. -/
def IdTaken (tables : ℕ → DriverDb) (reservationId : Uuid)
    (result : Except ServiceError (Unit × List (DriverDb → DriverDb))) : Prop :=
  (∃ n, (tables n).reservationById reservationId ≠ none) ∧
    result = .error (.database "driver_reservations_pkey")

/-- `reserve` follows the ranking it is given; its first two statements are the order's lock
and the lookup of its reservation. -/
theorem among_reserve (hashtext : String → ℤ)
    (hcandidates : input.candidateDriverIds = some candidates)
    (hnone : ∀ n, (tables n).reservation input.orderId = none) :
    (∃ writes, (DriverReservations.reserve hashtext input reservationId eventId now).among tables
        locked [] = .ok ((), writes) ∧
      FollowsRanking (fun n => tables (n + 2)) (fun n => locked (n + 2)) candidates input
        reservationId eventId now writes) ∨
    IdTaken tables reservationId
      ((DriverReservations.reserve hashtext input reservationId eventId now).among tables locked
        []) := by
  simp only [DriverReservations.reserve, Tx.among, view_nil, hnone, Option.filter_none, hcandidates]
  cases candidates with
  | nil =>
    refine Or.inl ⟨_, rfl, followsRanking_failed (fun k d h => ?_) rfl⟩
    simpa using h.candidate
  | cons c rest =>
    obtain ⟨found, n, hrun, hfound⟩ := among_selectCandidate
      (grant input reservationId eventId now) (c :: rest) (fun n => tables (n + 2))
      (fun n => locked (n + 2))
    cases found with
    | none => exact Or.inl ⟨_, hrun, followsRanking_failed hfound rfl⟩
    | some d =>
      obtain ⟨k, hfirst⟩ := hfound
      obtain ⟨d', hres⟩ := Driver.exists_reserve hfirst.free.eligible input.orderId now
      have hid := Driver.id_of_reserve hres
      have hinsert : (view (tables (0 + 1 + n + 2)) [fun db => db.saveDriver d']).rejects
          (input.row reservationId d.id now) = _ := rejects_row (hnone _)
      simp only [ReserveDriverInput.row] at hinsert
      simp only [hrun, grant, hres, hid, Tx.among, List.nil_append, hinsert]
      -- the insert is the one statement that can be refused
      cases hrow : (tables (0 + 1 + n + 2)).reservationById reservationId with
      | none => exact Or.inl ⟨_, rfl, followsRanking_reserved hfirst hres⟩
      | some r => exact Or.inr ⟨⟨0 + 1 + n + 2, by simp [hrow]⟩, by simp⟩

end Outcome

section Requested

variable {db : DispatchDb} {d : Dispatch} {plan : Option DispatchStartPlan}
  {decisionId startedId requestedId : Uuid} {now : Date} {r : OutboxRow}

/-- What `workflow.start` asks of the Driver service. -/
theorem requested_of_start (hr : r ∈ (db.exec (DispatchWorkflow.start d plan decisionId startedId
      requestedId now)).outbox) (hnew : r ∉ db.outbox)
    (hty : r.eventType = .driverReservationRequested) :
    r = DispatchEvent.reservationRequested d plan requestedId now := by
  rcases db.exec_start_cases d plan decisionId startedId requestedId now with
    hsame | ⟨-, -, hstart⟩
  · rw [hsame] at hr
    exact absurd hr hnew
  · rw [hstart] at hr
    rcases List.mem_append.1 hr with hr | hr
    · exact absurd hr hnew
    · rcases List.mem_pair.1 hr with rfl | rfl
      · cases hty
      · rfl

/-- The input of `reserve`, out of the payload as JSON. -/
def requestedInput (d : Dispatch) (plan : Option DispatchStartPlan) (requestedId : Uuid)
    (now : Date) : ReserveDriverInput where
  event := (DispatchEvent.reservationRequested d plan requestedId now).payload
  orderId := d.orderId
  dispatchId := d.id
  correlationId := d.correlationId
  candidateDriverIds := plan.map fun p => p.rankedCandidates.map ScoredDriverCandidate.driverId

/-- No list, an empty one and a ranking stay three different things. -/
theorem reserveDriverInput_requested :
    (DispatchEvent.reservationRequested d plan requestedId now).message.reserveDriverInput =
      some (requestedInput d plan requestedId now) := by
  cases plan <;> rfl

end Requested

/-- A session of `reserve` about to commit has followed its ranking, among the very states its
statements found. -/
theorem followsRanking_of_run {hashtext : String → ℤ}
    {ts : List (Move DriverStore (Label DriverCall))} {S : DriverStore}
    (hrun : (driverSystem hashtext).Run ts S) {i : ℕ}
    {x : Session DriverDb DriverLock ServiceError Unit DriverCall} {input : ReserveDriverInput}
    {candidates : List Uuid} {reservationId eventId : Uuid} {now : Date}
    (hx : S.sessions i = some x) (hrequest : x.request = .reserve input reservationId eventId now)
    (hcode : x.code = .commit ()) (hcandidates : input.candidateDriverIds = some candidates)
    (hnone : ∀ t ∈ ts, t.pre.committed.reservation input.orderId = none)
    (hlast : S.committed.reservation input.orderId = none) :
    ∃ past : List DriverStore, (∀ P ∈ past, ∃ t ∈ ts, t.pre = P ∧ t.label = .advance i) ∧
      FollowsRanking (fun n => found past (fun _ => S.committed) (n + 2))
        (fun n => heldByOthers i past (fun _ k => !S.free i k) (n + 2)) candidates input
        reservationId eventId now x.log := by
  obtain ⟨past, hpast, hsame⟩ := traces_of_run hrun i x hx
  refine ⟨past, hpast, ?_⟩
  have hcommit := hsame (fun _ => S.committed) (fun _ k => !S.free i k)
  simp only [hrequest, hcode, Tx.among] at hcommit
  have hfound (n : ℕ) : (found past (fun _ => S.committed) n).reservation input.orderId = none := by
    rcases found_cases past (fun _ => S.committed) n with ⟨P, hP, heq⟩ | ⟨k, heq⟩
    · obtain ⟨t, ht, rfl, -⟩ := hpast P hP
      rw [heq]
      exact hnone t ht
    · rw [heq]
      exact hlast
  rcases among_reserve hashtext hcandidates hfound with ⟨writes, hrun', hfollows⟩ | ⟨-, htaken⟩
  · obtain rfl := (Prod.mk.inj (Except.ok.inj (hrun'.symm.trans hcommit))).2
    exact hfollows
  · cases htaken.symm.trans hcommit

/-- From an order-ready event to the reserved driver: the Driver service runs `reserve` with the
ranking as its candidate list, or with no list if the event had no pickup, and `reserve` follows
the ranking, whatever it finds committed and locked at each of its statements. -/
theorem reserve_follows_ranking {settings : Settings} {m : Message} {draw : Draw}
    {operation : Proc Databases ServiceError Unit} {seen : Option Databases}
    {effect : Databases → Databases} {next : Databases → Proc Databases ServiceError Unit}
    {w : Databases} {r : OutboxRow} (hm : m.eventType = .orderReadyForDispatch)
    (hop : handleDispatchEvent settings m draw = some operation)
    (hstep : Rest operation seen (.step effect next)) (hr : r ∈ (effect w).dispatch.outbox)
    (hnew : r ∉ w.dispatch.outbox) (hty : r.eventType = .driverReservationRequested) :
    ∃ input, m.string .orderId = some input.orderId ∧
      (∀ draw', handleDriverEvent settings r.message draw' = some (onDriver (driverTransaction
        draw'.locked (DriverReservations.reserve settings.hashtext input (draw'.uuid 0)
          (draw'.uuid 1) draw'.now)))) ∧
      (input.candidateDriverIds = none ↔ m.pickup = none) ∧
      ∀ ranked, m.pickup ≠ none → draw.ranked = .ok ranked →
        ∀ tables locked reservationId eventId now,
          (∀ n, (tables n).reservation input.orderId = none) →
          (∃ writes, (DriverReservations.reserve settings.hashtext input reservationId eventId
              now).among tables locked [] = .ok ((), writes) ∧
            FollowsRanking (fun n => tables (n + 2)) (fun n => locked (n + 2))
              (ranked.map ScoredDriverCandidate.driverId) input reservationId eventId now
              writes) ∨
          IdTaken tables reservationId ((DriverReservations.reserve settings.hashtext input
            reservationId eventId now).among tables locked []) := by
  simp only [handleDispatchEvent, hm] at hop
  obtain ⟨orderId, horder, hop⟩ := Option.bind_eq_some_iff.1 hop
  obtain ⟨correlationId, -, hop⟩ := Option.bind_eq_some_iff.1 hop
  obtain rfl := Option.some.inj hop
  obtain ⟨effect₀, next₀, hrest, rfl, rfl⟩ := rest_on hstep
  set d := Dispatch.start (draw.uuid 0) orderId correlationId draw.now
  rcases effect_startDispatch hrest w.dispatch with hsame | ⟨plan, hplan, heffect⟩
  · simp only [hsame] at hr
    exact absurd hr hnew
  · simp only [heffect] at hr
    obtain rfl := requested_of_start hr hnew hty
    refine ⟨requestedInput d plan (draw.uuid 3) draw.now, horder, fun draw' => ?_, ?_,
      fun ranked hpickup hranked tables locked reservationId eventId now hnone =>
        among_reserve _ ?_ hnone⟩
    · simp only [handleDriverEvent, reserveDriverInput_requested]
      rfl
    · cases plan with
      | none => exact iff_of_true rfl hplan
      | some plan => exact iff_of_false (Option.some_ne_none _) hplan.1
    · cases plan with
      | none => exact absurd hplan hpickup
      | some plan =>
        obtain rfl := Except.ok.inj (hranked.symm.trans hplan.2)
        rfl

section Runs

/-- An order with a pickup is ready, -/
def readyMessage : Message :=
  ⟨"ready-1", .orderReadyForDispatch, [(.orderId, .string "order-1"),
    (.correlationId, .string "order-1"), (.pickup, .point 0 0)], "order-1"⟩

/-- two drivers are ranked for it, -/
def ranking : List ScoredDriverCandidate :=
  [sampleCandidate, { sampleCandidate with driverId := "driver-2" }]

def rankedDraw : Draw :=
  { sampleDraw ["dispatch-1", "decision-1", "started-1", "requested-1"] with
    ranked := .ok ranking }

def idleDriver (id : Uuid) : Driver := ⟨id, "Ana", 1, [], .available, 1, 1⟩

/-- and another transaction holds the row of the first. -/
def heldDrivers : DriverDb := ⟨[idleDriver "driver-1", idleDriver "driver-2"], [], []⟩

theorem eligible_idleDriver (id : Uuid) : (idleDriver id).Eligible :=
  ⟨rfl, by simp [idleDriver]⟩

theorem reserve_follows_ranking_held : ∃ input writes,
    (DriverReservations.reserve sampleSettings.hashtext input "reservation-1" "reserved-1" 1).among
      (fun _ => heldDrivers) (fun _ k => k = .driver "driver-1") [] = .ok ((), writes) ∧
    ((view heldDrivers writes).reservation "order-1").map DriverReservation.driverId =
      some "driver-2" := by
  have hop : handleDispatchEvent sampleSettings readyMessage rankedDraw = some (onDispatch
      (startDispatch sampleSettings "order-1" "order-1" "STANDARD" (some (0, 0)) rankedDraw)) := rfl
  have hlookup : Rest (onDispatch (startDispatch sampleSettings "order-1" "order-1" "STANDARD"
      (some (0, 0)) rankedDraw)) none (.step _ _) := .start
  obtain ⟨input, horder, -, -, hfollow⟩ := reserve_follows_ranking
    (r := DispatchEvent.reservationRequested (.start "dispatch-1" "order-1" "order-1" 1)
      (some ⟨"geo-score-v1", "STANDARD", 8, 0, 0, ranking⟩) "requested-1" 1)
    (w := emptyFleet.world) rfl hop (.next emptyFleet.world hlookup)
    (List.mem_cons_of_mem _ List.mem_cons_self) List.not_mem_nil rfl
  have hid : "order-1" = input.orderId := Option.some.inj horder
  rcases hfollow ranking (Option.some_ne_none _) rfl (fun _ => heldDrivers)
    (fun _ k => k = .driver "driver-1") "reservation-1" "reserved-1" 1 (fun _ => rfl) with
    ⟨writes, hrun, hfollows⟩ | ⟨⟨n, htaken⟩, -⟩
  · refine ⟨input, writes, hrun, ?_⟩
    have hfirst : FirstFree (fun _ => heldDrivers) (fun _ k => k = .driver "driver-1")
        (ranking.map ScoredDriverCandidate.driverId) 1 (idleDriver "driver-2") := by
      refine ⟨⟨rfl, rfl, eligible_idleDriver _, by decide⟩, fun j hj e he => ?_⟩
      obtain rfl := Nat.lt_one_iff.1 hj
      have hheld : e.id = "driver-1" := (Option.some.inj he.candidate).symm
      simpa [hheld] using he.free
    obtain ⟨d', -, hview⟩ := hfollows.reserved 1 _ hfirst
    have hrow : (view heldDrivers writes).reservations =
        [input.row "reservation-1" "driver-2" 1] := by
      rw [hview]
      rfl
    simp [DriverDb.reservation, hrow, Table.find, ReserveDriverInput.row, hid]
  · exact absurd rfl htaken

end Runs

end RouteFast
