import RouteFast.Base.Proc
import RouteFast.Driver.Capacity
import RouteFast.Driver.Outcome

/-! `SetDriverAvailabilityUseCase` among committed creations, reservations and releases: an
unlocked read of the driver's row, and later a write of the whole row. -/

namespace RouteFast

open Transition DriverReservations

/-- What the HTTP endpoints answer with; dates are kept as dates. -/
structure DriverView where
  id : Uuid
  displayName : String
  capacity : ℕ
  currentLoad : ℕ
  remainingCapacity : ℤ
  status : DriverStatus
  reservedOrderIds : List Uuid
  createdAt : Date
  updatedAt : Date
  deriving DecidableEq

def toDriverView (driver : Driver) : DriverView where
  id := driver.id
  displayName := driver.displayName
  capacity := driver.capacity
  currentLoad := driver.reservedOrderIds.length
  remainingCapacity := driver.capacity - driver.reservedOrderIds.length
  status := driver.status
  reservedOrderIds := driver.reservedOrderIds
  createdAt := driver.createdAt
  updatedAt := driver.updatedAt

/-- The statuses that can be asked for. -/
inductive Availability where
  | available
  | offline
  deriving DecidableEq

/-- `status === DriverStatus.AVAILABLE ? driver.setAvailable() : driver.setOffline()` -/
def Driver.setAvailability (d : Driver) (now : Date) : Availability → Except ServiceError Driver
  | .available => d.setAvailable now
  | .offline => d.setOffline now

/-- `findById`, the method, `save`: two separate statements. -/
def setDriverAvailability (driverId : Uuid) (status : Availability) (now : Date) :
    Proc DriverDb ServiceError (Option DriverView) :=
  .read fun db =>
    match db.driver driverId with
    | none => .throw (.error s!"Driver {driverId} not found")
    | some driver =>
      match driver.setAvailability now status with
      | .error e => .throw e
      | .ok driver => .write (fun db => db.saveDriver driver) (.done (some (toDriverView driver)))

inductive DriverRequest where
  /-- A transaction, with the rows that others hold at its skip-locked statements. -/
  | transaction (call : DriverCall) (locked : ℕ → DriverLock → Bool)
  | setAvailability (driverId : Uuid) (status : Availability) (now : Date)

def DriverRequest.execute (hashtext : String → ℤ) :
    DriverRequest → Proc DriverDb ServiceError (Option DriverView)
  | .transaction call locked =>
    .atomically fun db => ((call.body hashtext).run locked db).map fun r => (none, r.2)
  | .setAvailability driverId status now => setDriverAvailability driverId status now

abbrev DriverPool := Pool DriverDb ServiceError (Option DriverView) DriverRequest

abbrev DriverMove := Move DriverPool (PoolLabel DriverRequest)

namespace DriverPool

def system (hashtext : String → ℤ) : System DriverPool (PoolLabel DriverRequest) :=
  Pool.system (fun db => db.drivers = [] ∧ db.reservations = [])
    (DriverRequest.execute hashtext)

variable {hashtext : String → ℤ} {db db' : DriverDb} {driverId : Uuid} {now : Date}

/-- An availability write changes no driver's stored `reservedOrderIds`. -/
def KeepsLists (t : DriverMove) : Prop :=
  ∀ i driverId status now rest seen, t.label = .advance i →
    t.pre.threads i = some ⟨.setAvailability driverId status now, rest, seen⟩ →
    ∀ id d, t.pre.shared.driver id = some d →
      ∃ d', t.post.shared.driver id = some d' ∧ d'.reservedOrderIds = d.reservedOrderIds

/-- A driver that an active row names is on duty and holds the row's order. -/
def Held (db : DriverDb) : Prop :=
  ∀ r ∈ db.reservations, r.status = .active → ∀ d, db.driver r.driverId = some d →
    d.status ≠ .offline ∧ r.orderId ∈ d.reservedOrderIds

/-- If the step is the save of an availability change, no active row names the driver. -/
def UnreservedSave (t : DriverMove) : Prop :=
  ∀ i driverId status now rest seen, t.label = .advance i →
    t.pre.threads i = some ⟨.setAvailability driverId status now, rest, some seen⟩ →
    ∀ r ∈ t.pre.shared.reservations, r.driverId = driverId → r.status ≠ .active

/-- `UnreservedSave`, computed from the thread that takes the step. -/
def unreservedSave (t : DriverMove) : Bool :=
  match t.label with
  | .spawn .. => true
  | .advance i =>
    match t.pre.threads i with
    | some ⟨.setAvailability driverId _ _, _, some _⟩ =>
      t.pre.shared.reservations.all fun r => r.driverId ≠ driverId ∨ r.status ≠ .active
    | _ => true

theorem unreservedSave_of_computed {t : DriverMove} (h : unreservedSave t = true) :
    UnreservedSave t := by
  intro i driverId status now rest seen hl hi r hr hid
  simp only [unreservedSave, hl, hi, List.all_eq_true, decide_eq_true_eq] at h
  exact (h r hr).resolve_left (not_not.2 hid)

/-- The two tables agree, and a driver that is off duty holds nothing. -/
structure OnDuty (db : DriverDb) : Prop extends db.Linked where
  idle : ∀ id d, db.driver id = some d → d.status = .offline → d.reservedOrderIds = []

theorem held_of_onDuty (h : OnDuty db) : Held db := by
  intro r hr hact d hd
  obtain ⟨e, he, ho⟩ := h.active _ r (Table.find_of_mem h.orders hr) hact
  obtain rfl : d = e := by simpa [hd] using he
  refine ⟨fun hoff => ?_, ho⟩
  rw [h.idle _ d hd hoff] at ho
  cases ho

theorem idle_saveDriver {d : Driver}
    (h : ∀ id d, db.driver id = some d → d.status = .offline → d.reservedOrderIds = [])
    (hd : d.status = .offline → d.reservedOrderIds = []) :
    ∀ id e, (db.saveDriver d).driver id = some e → e.status = .offline →
      e.reservedOrderIds = [] := by
  intro id e he
  rw [DriverDb.driver_saveDriver] at he
  split at he
  · obtain rfl := Option.some.inj he
    exact hd
  · exact h id e he

/-- Committed transactions of the service keep drivers on duty. -/
theorem OnDuty.transaction (h : OnDuty db) {call : DriverCall}
    {locked : ℕ → DriverLock → Bool}
    (hrun : (call.body hashtext).run locked db = .ok ((), db')) : OnDuty db' := by
  cases call with
  | create id displayName capacity now =>
    obtain ⟨d, hd, hnew, rfl⟩ := created_of_run hrun
    have hempty := Driver.reservedOrderIds_create hd
    exact ⟨h.toLinked.saveEmpty (by simp [hnew]) hempty, idle_saveDriver h.idle fun _ => hempty⟩
  | reserve input reservationId eventId now =>
    have hres := reserved_of_run h.toLinked hrun
    refine ⟨hres.linked h.toLinked, ?_⟩
    cases hres with
    | again => exact h.idle
    | failed => exact h.idle
    | @granted d d' hnot hd helig hres =>
      refine idle_saveDriver h.idle fun hoff => ?_
      rw [Driver.reserve_eq helig (h.not_held hnot hd)] at hres
      rw [← Except.ok.inj hres] at hoff
      simp only at hoff
      split at hoff <;> cases hoff
  | release input eventId now =>
    have hrel := released_of_commit h.toLinked hrun
    refine ⟨hrel.linked h.toLinked, ?_⟩
    cases hrel with
    | unknown => exact h.idle
    | again => exact h.idle
    | @freed r d hr hact hd =>
      refine idle_saveDriver h.idle fun hoff => ?_
      unfold Driver.release at hoff ⊢
      split at hoff
      · next hnot =>
        rw [if_pos hnot]
        exact h.idle _ d hd hoff
      · cases hoff

/-- What an availability change saves holds no order. -/
theorem setAvailability_eq {d d' : Driver} {status : Availability}
    (h : d.setAvailability now status = .ok d') :
    d'.id = d.id ∧ d.reservedOrderIds = [] ∧ d'.reservedOrderIds = [] := by
  cases status with
  | available | offline =>
    simp only [Driver.setAvailability, Driver.setAvailable, Driver.setOffline] at h
    split at h
    · cases h
    · next hlen =>
      have hempty : d.reservedOrderIds = [] := by simpa using hlen
      obtain rfl := Except.ok.inj h
      exact ⟨rfl, hempty, hempty⟩

/-- What is left of a request: all of it, nothing, or the save of an availability change. -/
theorem residual_cases {p : DriverRequest} {seen : Option DriverDb}
    {rest : Proc DriverDb ServiceError (Option DriverView)}
    (h : Pool.Residual (DriverRequest.execute hashtext) p seen rest) :
    (seen = none ∧ rest = p.execute hashtext) ∨ rest.finished = true ∨
    ∃ db driverId status now driver d reply, seen = some db ∧
      p = .setAvailability driverId status now ∧ db.driver driverId = some driver ∧
      driver.setAvailability now status = .ok d ∧
      rest = .write (fun db => db.saveDriver d) (.done reply) := by
  generalize hrest : rest = rest' at h
  induction h generalizing rest with
  | start => subst hrest; exact Or.inl ⟨rfl, rfl⟩
  | @next seen effect k db h ih =>
    subst hrest
    right
    rcases ih rfl with ⟨-, hrest⟩ | hfin | ⟨-, -, -, -, -, d, reply, -, -, -, -, hrest⟩
    · cases p with
      | transaction call locked =>
        obtain ⟨-, rfl⟩ := Proc.step.inj hrest
        refine Or.inl ?_
        simp only
        split <;> rfl
      | setAvailability driverId status now =>
        obtain ⟨-, rfl⟩ := Proc.step.inj hrest
        cases hrow : db.driver driverId with
        | none => exact Or.inl (by simp [Proc.finished, hrow])
        | some driver =>
          cases hset : driver.setAvailability now status with
          | error e => exact Or.inl (by simp [Proc.finished, hrow, hset])
          | ok d =>
            exact Or.inr ⟨db, driverId, status, now, driver, d, some (toDriverView d), rfl, rfl,
              hrow, hset, by simp only [hrow, hset]⟩
    · cases hfin
    · obtain ⟨-, rfl⟩ := Proc.step.inj hrest
      exact Or.inl rfl

/-- A step of a request: a transaction, a read, or the save of an availability change. -/
theorem residual_step {p : DriverRequest} {seen : Option DriverDb} {effect : DriverDb → DriverDb}
    {next : DriverDb → Proc DriverDb ServiceError (Option DriverView)}
    (h : Pool.Residual (DriverRequest.execute hashtext) p seen (.step effect next)) :
    (∃ call locked, p = .transaction call locked ∧ ∀ db, effect db = db ∨
      (call.body hashtext).run locked db = .ok ((), effect db)) ∨
    (∃ driverId status now, p = .setAvailability driverId status now ∧ seen = none ∧
      effect = id) ∨
    ∃ db driverId status now d, p = .setAvailability driverId status now ∧ seen = some db ∧
      d.id = driverId ∧ d.reservedOrderIds = [] ∧ effect = fun db => db.saveDriver d := by
  rcases residual_cases h with ⟨hseen, hrest⟩ | hfin |
    ⟨db, driverId, status, now, driver, d, reply, hseen, rfl, hrow, hset, hrest⟩
  · cases p with
    | transaction call locked =>
      obtain ⟨rfl, -⟩ := Proc.step.inj hrest
      refine Or.inl ⟨call, locked, rfl, fun db => ?_⟩
      cases hrun : (call.body hashtext).run locked db with
      | error e => exact Or.inl (by simp [hrun, Except.map])
      | ok r => exact Or.inr (by simp [hrun, Except.map])
    | setAvailability driverId status now =>
      exact Or.inr (Or.inl ⟨driverId, status, now, rfl, hseen, (Proc.step.inj hrest).1⟩)
  · cases hfin
  · obtain ⟨hid, -, hempty⟩ := setAvailability_eq hset
    exact Or.inr (Or.inr ⟨db, driverId, status, now, d, rfl, hseen,
      hid.trans (DriverDb.id_of_driver hrow), hempty, (Proc.step.inj hrest).1⟩)

/-- A driver no active row names holds nothing. -/
theorem list_eq_nil (h : db.Linked)
    (hfree : ∀ r ∈ db.reservations, r.driverId = driverId → r.status ≠ .active) {d : Driver}
    (hd : db.driver driverId = some d) : d.reservedOrderIds = [] := by
  rw [List.eq_nil_iff_forall_not_mem]
  intro o ho
  obtain ⟨r, hr, hact, hrd⟩ := h.held _ d o hd ho
  exact hfree r (Table.mem_of_find hr) hrd hact

theorem onDuty_of_run {ts : List DriverMove} {P : DriverPool} (hrun : (system hashtext).Run ts P)
    (hsave : ∀ t ∈ ts, UnreservedSave t) : OnDuty P.shared := by
  refine Pool.run_invariant_of_steps (C := UnreservedSave) ?_ ?_ hrun hsave
  · rintro db ⟨hdrivers, hres⟩
    refine ⟨⟨?_, ?_, ?_, ?_, ?_, ?_⟩, ?_⟩ <;>
      simp [DriverDb.driver, DriverDb.reservation, hdrivers, hres]
  · intro P P' i p seen effect next hres hi hfree h
    rcases residual_step hres with ⟨call, locked, rfl, heffect⟩ | ⟨_, _, _, rfl, rfl, rfl⟩ |
      ⟨db, driverId, status, now, d, rfl, rfl, rfl, hempty, rfl⟩
    · rcases heffect P.shared with hsame | hcommit
      · rwa [hsame]
      · exact h.transaction hcommit
    · exact h
    · have hfree' := hfree i d.id status now _ db rfl hi
      exact ⟨h.toLinked.saveEmpty (fun e he => list_eq_nil h.toLinked hfree' he) hempty,
        idle_saveDriver h.idle fun _ => hempty⟩

/-- An availability change saves over a row that holds nothing, or it loses what it holds. -/
theorem keepsLists_iff {ts : List DriverMove} {P P' : DriverPool} {a : PoolLabel DriverRequest}
    (hrun : (system hashtext).Run ts P) (hduty : OnDuty P.shared)
    (hs : (system hashtext).step P a = some P') :
    KeepsLists ⟨P, a, P'⟩ ↔ UnreservedSave ⟨P, a, P'⟩ := by
  have hres := Pool.run_residual hrun
  rcases Pool.step_cases hs with ⟨i, p, rfl, -, rfl⟩ | ⟨i, p, effect, next, seen, rfl, hi, rfl⟩
  · constructor
    · intro _ j driverId status now rest seen hj
      cases hj
    · intro _ j driverId status now rest seen hj
      cases hj
  rcases residual_step (hres i _ hi) with ⟨call, locked, rfl, -⟩ | ⟨_, _, _, rfl, rfl, rfl⟩ |
    ⟨db, driverId, status, now, d, rfl, rfl, rfl, hempty, rfl⟩
  · constructor
    · rintro _ j driverId status now rest seen ⟨⟩ hj
      simp [hi] at hj
    · rintro _ j driverId status now rest seen ⟨⟩ hj
      simp [hi] at hj
  · constructor
    · rintro _ j driverId status now rest seen ⟨⟩ hj
      simp [hi] at hj
    · intro _ j driverId status now rest seen _ _ id d hd
      exact ⟨d, hd, rfl⟩
  · have hsaved (id : Uuid) : (P.shared.saveDriver d).driver id =
        if d.id = id then some d else P.shared.driver id := DriverDb.driver_saveDriver _ d id
    constructor
    · rintro hkeep j driverId status' now' rest seen ⟨⟩ hj r hr hrd hact
      obtain ⟨⟨rfl, -, -⟩, -, -⟩ :
          (d.id = driverId ∧ status = status' ∧ now = now') ∧ _ = rest ∧ db = seen := by
        simpa [hi] using hj
      -- the row saved over holds the order of `r`
      obtain ⟨e, he, ho⟩ := hduty.active _ r (Table.find_of_mem hduty.orders hr) hact
      obtain ⟨d', hd', hsame⟩ := hkeep i _ _ _ _ _ rfl hi d.id e (hrd ▸ he)
      obtain rfl : d = d' := by simpa [hsaved] using hd'
      rw [← hsame, hempty] at ho
      cases ho
    · intro hfree j driverId status' now' rest seen _ _ id e he
      by_cases hid : d.id = id
      · subst hid
        have hnil := list_eq_nil hduty.toLinked (hfree i d.id status now _ db rfl hi) he
        exact ⟨d, by simp [hsaved], hempty.trans hnil.symm⟩
      · exact ⟨e, by simp [hsaved, hid, he], rfl⟩

/-- No availability change touches a reservation, in exactly the runs where each of them
is saved while no active row names its driver. -/
theorem held_run_iff {ts : List DriverMove} {P : DriverPool} (hrun : (system hashtext).Run ts P) :
    ((∀ t ∈ ts, KeepsLists t) ∧ ∀ t ∈ ts, Held t.post.shared) ↔ ∀ t ∈ ts, UnreservedSave t := by
  constructor
  · rintro ⟨hkeep, -⟩
    induction hrun with
    | nil => simp
    | @snoc ts P P' a hrun hs ih =>
      have hbefore := ih fun t ht => hkeep t (List.mem_append_left _ ht)
      have hlast := (keepsLists_iff hrun (onDuty_of_run hrun hbefore) hs).1 (hkeep _ (by simp))
      intro t ht
      rcases List.mem_append.1 ht with ht | ht
      · exact hbefore t ht
      · rwa [List.mem_singleton.1 ht]
  · intro hsave
    refine ⟨fun t ht => ?_, fun t ht => ?_⟩
    · obtain ⟨l, hsub, hpre, hs⟩ := hrun.of_mem ht
      have hduty := onDuty_of_run hpre fun u hu => hsave u (hsub u hu)
      exact (keepsLists_iff hpre hduty hs).2 (hsave t ht)
    · obtain ⟨l, r, rfl⟩ := List.append_of_mem ht
      refine held_of_onDuty (onDuty_of_run (hrun.through rfl) fun u hu => hsave u ?_)
      rcases List.mem_append.1 hu with hu | hu
      · exact List.mem_append_left _ hu
      · rw [List.mem_singleton.1 hu]; exact ht

section Runs

def createAna : DriverRequest :=
  .transaction (.create "driver-1" "Ana" 1 1) fun _ _ => false

def reserveAna : DriverRequest :=
  .transaction (.reserve (requestFor "order-1") "reservation-1" "id-1" 3) fun _ _ => false

def releaseAna : DriverRequest :=
  .transaction (.release ⟨requestFor "order-1", "driver-1"⟩ "id-2" 4) fun _ _ => false

def emptyTables : DriverPool := ⟨⟨[], [], []⟩, fun _ => none⟩

/-- The change is read before the reservation and saved after its release. -/
def releasedBeforeSave : List (PoolLabel DriverRequest) :=
  [.spawn 0 createAna, .advance 0, .spawn 1 (.setAvailability "driver-1" .offline 2), .advance 1,
    .spawn 2 reserveAna, .advance 2, .spawn 3 releaseAna, .advance 3, .advance 1]

def orderHash : String → ℤ := fun o => o.length

theorem held_releasedBeforeSave :
    (∀ t ∈ (system orderHash).moves emptyTables releasedBeforeSave, KeepsLists t) ∧
      ∀ t ∈ (system orderHash).moves emptyTables releasedBeforeSave, Held t.post.shared := by
  have hrun : (system orderHash).Run ((system orderHash).moves emptyTables releasedBeforeSave) _ :=
    .of_replay ⟨⟨rfl, rfl⟩, fun _ => rfl⟩ rfl
  refine (held_run_iff hrun).2 fun t ht => unreservedSave_of_computed ?_
  exact List.all_eq_true.1 (by decide) t ht

/-- The reservation commits between the read and the save. -/
def reservedBeforeSave : List (PoolLabel DriverRequest) :=
  [.spawn 0 createAna, .advance 0, .spawn 1 (.setAvailability "driver-1" .offline 2), .advance 1,
    .spawn 2 reserveAna, .advance 2, .advance 1]

/-- The driver ends OFFLINE and empty under an active reservation. -/
theorem not_held : ¬ ∀ ts P, (system orderHash).Run ts P →
    (∀ t ∈ ts, KeepsLists t) ∧ ∀ t ∈ ts, Held t.post.shared := by
  intro hlaw
  let ts := (system orderHash).moves emptyTables reservedBeforeSave
  have hrun : (system orderHash).Run ts _ := .of_replay ⟨⟨rfl, rfl⟩, fun _ => rfl⟩ rfl
  have hlast : ts[6] ∈ ts := List.getElem_mem _
  have hoff : ts[6].post.shared.driver "driver-1" =
      some ⟨"driver-1", "Ana", 1, [], .offline, 1, 2⟩ := rfl
  have hrow : (requestFor "order-1").row "reservation-1" "driver-1" 3 ∈
      ts[6].post.shared.reservations := List.mem_singleton.2 rfl
  obtain ⟨hduty, -⟩ := (hlaw ts _ hrun).2 _ hlast _ hrow rfl _ hoff
  exact hduty rfl

end Runs

end DriverPool

end RouteFast
