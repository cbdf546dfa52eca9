import RouteFast.Base.InFlight
import RouteFast.Tracking.Live

/-! The WebSocket gateway of the tracking service: the rooms that sockets join, and the
positions it emits to them. An update is accepted by the store in one step and emitted in a
later one, any number of updates are under way at once, and one whose call to Redis throws is
given up where it is. -/

namespace RouteFast

open Transition

/-- The rooms of the gateway: `driver:${driverId}` and `operations`. -/
inductive Room where
  | driver (driverId : String)
  | operations
  deriving DecidableEq

/-- A position taken from a socket, with `body.driverId` as it was sent. -/
structure Sample where
  driverId : String
  location : DriverLocationView
  deriving DecidableEq

/-- The stores, the members of each room, and the `driver.location.updated` events that each
socket was sent, oldest first. -/
structure TrackingFeed where
  db : TrackingDb
  members : Room → List String
  received : String → List DriverLocationView

namespace TrackingFeed

def setDb (db : TrackingDb) (f : TrackingFeed) : TrackingFeed := { f with db := db }

/-- A step of the stores. -/
def onDb (g : TrackingDb → TrackingDb) (f : TrackingFeed) : TrackingFeed := { f with db := g f.db }

/-- `client.join(room)` -/
def join (room : Room) (socketId : String) (f : TrackingFeed) : TrackingFeed :=
  { f with members := fun r =>
      if r = room ∧ socketId ∉ f.members r then f.members r ++ [socketId] else f.members r }

/-- `server.to(room).emit('driver.location.updated', location)` -/
def emit (room : Room) (location : DriverLocationView) (f : TrackingFeed) : TrackingFeed :=
  { f with received := fun socketId =>
      if socketId ∈ f.members room then f.received socketId ++ [location]
      else f.received socketId }

/-- What the socket gets of a sample when it is emitted. -/
def copies (f : TrackingFeed) (socketId : String) (x : Sample) : List DriverLocationView :=
  (if socketId ∈ f.members (.driver x.driverId) then [x.location] else []) ++
    if socketId ∈ f.members .operations then [x.location] else []

end TrackingFeed

/-- What a handler returns to the socket or the HTTP client. -/
inductive TrackingAnswer where
  | subscribed (driverId : Option String) (operations : Bool)
  | updated (result : DriverLocationUpdateResult)
  | none
  deriving DecidableEq

abbrev FeedProc := Proc TrackingFeed ServiceError TrackingAnswer

/-- How the two calls that an update awaits end. BullMQ also refuses some job ids: then `enqueue`
fails. -/
structure UpdateEnds where
  upsert : CallEnd
  enqueue : CallEnd
  deriving DecidableEq

/-- `UpdateDriverLocationUseCase.execute`, over connections that may fail. -/
def tryUpdateDriverLocation (ends : UpdateEnds) (ttlSeconds : ℕ)
    (input : UpdateDriverLocationInput) (now : Date) :
    Proc TrackingDb ServiceError DriverLocationUpdateResult :=
  match input.view now with
  | .error e => .throw e
  | .ok view =>
    .call ends.upsert .connection (fun s => s.upsert ttlSeconds view) fun s =>
      .call ends.enqueue .connection (fun s => s.enqueue view) fun _ =>
        .done ⟨view, s.live.accepts s.clock view⟩

theorem tryUpdateDriverLocation_answered (ttlSeconds : ℕ) (input : UpdateDriverLocationInput)
    (now : Date) : tryUpdateDriverLocation ⟨.answered, .answered⟩ ttlSeconds input now =
      updateDriverLocation ttlSeconds input now := rfl

namespace TrackingGateway

/-- The two `if`s of `subscribe`. -/
def joinRooms (socketId : String) (driverId : Option String) (operations : Bool)
    (f : TrackingFeed) : TrackingFeed :=
  let f := if operations then f.join .operations socketId else f
  match driverId with
  | some driverId => if driverId = "" then f else f.join (.driver driverId) socketId
  | none => f

def subscribe (socketId : String) (driverId : Option String) (operations : Bool) : FeedProc :=
  .write (joinRooms socketId driverId operations) (.done (.subscribed driverId operations))

/-- The rest of `update` after its `await`, which nothing interrupts. -/
def broadcast (socketId driverId : String) (result : DriverLocationUpdateResult)
    (f : TrackingFeed) : TrackingFeed :=
  let f := f.join (.driver driverId) socketId
  if result.acceptedAsCurrent then
    (f.emit (.driver driverId) result.location).emit .operations result.location
  else f

def update (ttlSeconds : ℕ) (socketId : String) (input : UpdateDriverLocationInput) (now : Date)
    (ends : UpdateEnds) : FeedProc :=
  (tryUpdateDriverLocation ends ttlSeconds input now).withinThen TrackingFeed.db
    TrackingFeed.setDb fun result =>
      .write (broadcast socketId input.driverId result) (.done (.updated result))

end TrackingGateway

/-- `POST /tracking/locations`, which emits nothing. -/
def postLocation (ttlSeconds : ℕ) (input : UpdateDriverLocationInput) (now : Date)
    (ends : UpdateEnds) : FeedProc :=
  (tryUpdateDriverLocation ends ttlSeconds input now).withinThen TrackingFeed.db
    TrackingFeed.setDb fun result => .done (.updated result)

inductive FeedRequest where
  | subscribe (socketId : String) (driverId : Option String) (operations : Bool)
  | update (socketId : String) (input : UpdateDriverLocationInput) (now : Date) (ends : UpdateEnds)
  | post (input : UpdateDriverLocationInput) (now : Date) (ends : UpdateEnds)
  /-- A worker runs a queued job. -/
  | persist (jobId : String)
  | discard (jobId : String)
  /-- Redis' clock moves on. -/
  | tick (ms : ℕ)

/-- The socket that sends the request. -/
def FeedRequest.socketId : FeedRequest → Option String
  | .subscribe socketId _ _ | .update socketId _ _ _ => some socketId
  | .post .. | .persist _ | .discard _ | .tick _ => none

def FeedRequest.execute (ttlSeconds : ℕ) : FeedRequest → FeedProc
  | .subscribe socketId driverId operations =>
    TrackingGateway.subscribe socketId driverId operations
  | .update socketId input now ends => TrackingGateway.update ttlSeconds socketId input now ends
  | .post input now ends => postLocation ttlSeconds input now ends
  | .persist jobId => .write (TrackingFeed.onDb (TrackingDb.process jobId)) (.done .none)
  | .discard jobId => .write (TrackingFeed.onDb (TrackingDb.discard jobId)) (.done .none)
  | .tick ms => .write (TrackingFeed.onDb fun s => { s with clock := s.clock + ms }) (.done .none)

abbrev FeedPool := Pool TrackingFeed ServiceError TrackingAnswer FeedRequest

abbrev FeedMove := Move FeedPool (PoolLabel FeedRequest)

abbrev FeedThread := Thread TrackingFeed ServiceError TrackingAnswer FeedRequest

/-- Any number of requests, from empty stores and with nobody connected. -/
def feedSystem (ttlSeconds : ℕ) : System FeedPool (PoolLabel FeedRequest) :=
  Pool.system (fun f => (∃ clock, f.db = .empty clock) ∧ (∀ room, f.members room = []) ∧
    ∀ socketId, f.received socketId = []) (FeedRequest.execute ttlSeconds)

/-- The view that the store accepts in the first step of a call, if Redis runs the script. -/
def acceptedView (f : TrackingFeed) (input : UpdateDriverLocationInput) (now : Date) :
    Option DriverLocationView :=
  match input.view now with
  | .ok v => if f.db.live.accepts f.db.clock v then some v else none
  | .error _ => none

/-- The sample that comes with it from a socket. -/
def acceptedSample (f : TrackingFeed) (input : UpdateDriverLocationInput) (now : Date) :
    Option Sample :=
  (acceptedView f input now).map (Sample.mk input.driverId)

/-- The sample that an update has had accepted and has neither emitted nor given up: its answer
is settled once the store has seen it. -/
def pendingSample (t : FeedThread) : Multiset Sample :=
  match t.request, t.seen with
  | .update _ input now _, some f =>
    if t.rest.finished then 0
    else
      match (t.rest.run f).1 with
      | .ok (.updated result) =>
        if result.acceptedAsCurrent then {⟨input.driverId, result.location⟩} else 0
      -- the call to the queue is going to throw
      | .error _ => ↑(acceptedSample f input now).toList
      | _ => 0
  | _, _ => 0

/-- The samples accepted from sockets that are still to be emitted or given up. -/
noncomputable def inFlight (P : FeedPool) : Multiset Sample := P.total pendingSample

/-- What the store accepts, with `body.driverId` if it came from a socket. -/
def takenBy (f : TrackingFeed) (t : FeedThread) : Option (DriverLocationView × Option String) :=
  match t.request, t.seen with
  | .update _ input now ends, none =>
    if ends.upsert = .failed then none
    else (acceptedView f input now).map fun v => (v, some input.driverId)
  | .post input now ends, none =>
    if ends.upsert = .failed then none else (acceptedView f input now).map fun v => (v, none)
  | _, _ => none

/-- The sample that an update gives up, though the store has accepted it: the step throws. -/
def givenUpBy (f : TrackingFeed) (t : FeedThread) : Option Sample :=
  match t.request, t.seen with
  | .update _ input now ends, none =>
    if ends.upsert = .lost then acceptedSample f input now else none
  | .update _ input now ends, some g =>
    if ends.enqueue = .answered then none else acceptedSample g input now
  | _, _ => none

/-- What `read` finds in the call that takes the step. -/
def inStep {α : Type} (read : TrackingFeed → FeedThread → Option α) (t : FeedMove) : Option α :=
  match t.label with
  | .spawn .. => none
  | .advance i => (t.pre.threads i).bind (read t.pre.shared)

def taken : FeedMove → Option (DriverLocationView × Option String) := inStep takenBy

def givenUp : FeedMove → Option Sample := inStep givenUpBy

/-- The samples among what is taken that are to be emitted. -/
def sampleOf (x : DriverLocationView × Option String) : Option Sample :=
  x.2.map fun driverId => ⟨driverId, x.1⟩

section Steps

open Pool TrackingGateway

variable {ttlSeconds : ℕ} {socketId : String} {input : UpdateDriverLocationInput} {now : Date}
  {ends : UpdateEnds} {v : DriverLocationView} {result : DriverLocationUpdateResult}
  {p : FeedRequest} {seen : Option TrackingFeed} {rest : FeedProc}
  {effect : TrackingFeed → TrackingFeed} {next : TrackingFeed → FeedProc}

/-- An update whose sample is enqueued: it has to be emitted. -/
def toEmit (socketId driverId : String) (result : DriverLocationUpdateResult) : FeedProc :=
  .write (broadcast socketId driverId result) (.done (.updated result))

/-- An update that the store has seen. -/
def toEnqueue (ends : UpdateEnds) (socketId driverId : String)
    (result : DriverLocationUpdateResult) : FeedProc :=
  .call ends.enqueue .connection (TrackingFeed.onDb (TrackingDb.enqueue result.location)) fun _ =>
    toEmit socketId driverId result

theorem update_eq (hv : input.view now = .ok v) : update ttlSeconds socketId input now ends =
    .call ends.upsert .connection (TrackingFeed.onDb (TrackingDb.upsert ttlSeconds v)) fun f =>
      toEnqueue ends socketId input.driverId ⟨v, f.db.live.accepts f.db.clock v⟩ := by
  unfold update tryUpdateDriverLocation
  rw [hv]
  have hself : ∀ f : TrackingFeed, f.setDb f.db = f := fun _ => rfl
  simp only [Proc.withinThen_call hself]
  rfl

theorem update_error {e : ServiceError} (hv : input.view now = .error e) :
    update ttlSeconds socketId input now ends = .throw e := by
  unfold update tryUpdateDriverLocation
  rw [hv]
  rfl

theorem post_eq (hv : input.view now = .ok v) : postLocation ttlSeconds input now ends =
    .call ends.upsert .connection (TrackingFeed.onDb (TrackingDb.upsert ttlSeconds v)) fun f =>
      .call ends.enqueue .connection (TrackingFeed.onDb (TrackingDb.enqueue v)) fun _ =>
        .done (.updated ⟨v, f.db.live.accepts f.db.clock v⟩) := by
  unfold postLocation tryUpdateDriverLocation
  rw [hv]
  have hself : ∀ f : TrackingFeed, f.setDb f.db = f := fun _ => rfl
  simp only [Proc.withinThen_call hself]
  rfl

theorem post_error {e : ServiceError} (hv : input.view now = .error e) :
    postLocation ttlSeconds input now ends = .throw e := by
  unfold postLocation tryUpdateDriverLocation
  rw [hv]
  rfl

/-- What is left of an update after its first step. -/
inductive Emitting (socketId : String) (input : UpdateDriverLocationInput) (ends : UpdateEnds) :
    FeedProc → Prop
  | toEnqueue (result : DriverLocationUpdateResult) :
      Emitting socketId input ends (toEnqueue ends socketId input.driverId result)
  | toEmit (result : DriverLocationUpdateResult) : ends.enqueue = .answered →
      Emitting socketId input ends (toEmit socketId input.driverId result)
  | ended {rest : FeedProc} : rest.finished = true → Emitting socketId input ends rest

theorem update_residual (h : Residual (FeedRequest.execute ttlSeconds)
    (.update socketId input now ends) seen rest) :
    (seen = none ∧ rest = update ttlSeconds socketId input now ends) ∨
    seen ≠ none ∧ Emitting socketId input ends rest := by
  induction h with
  | start => exact Or.inl ⟨rfl, rfl⟩
  | @next _ effect k f _ ih =>
    refine Or.inr ⟨by simp, ?_⟩
    rcases ih with ⟨-, heq⟩ | ⟨-, hemit⟩
    · cases hv : input.view now with
      | error e =>
        rw [update_error hv] at heq
        cases heq
      | ok v =>
        rw [update_eq hv] at heq
        rcases (Proc.call_cases heq f).2 with ⟨-, hnext⟩ | ⟨-, hnext⟩
        · rw [hnext]
          exact .toEnqueue _
        · rw [hnext]
          exact .ended rfl
    · generalize hrest : Proc.step effect k = rest at hemit
      cases hemit with
      | toEnqueue result =>
        rcases (Proc.call_cases hrest f).2 with ⟨hok, hnext⟩ | ⟨-, hnext⟩
        · rw [hnext]
          exact .toEmit result hok
        · rw [hnext]
          exact .ended rfl
      | toEmit result =>
        obtain ⟨-, rfl⟩ := Proc.step.inj hrest
        exact .ended rfl
      | ended hfin =>
        rw [← hrest] at hfin
        cases hfin

theorem post_residual (h : Residual (FeedRequest.execute ttlSeconds) (.post input now ends) seen
    rest) : (seen = none ∧ rest = postLocation ttlSeconds input now ends) ∨
    seen ≠ none ∧ (rest.finished = true ∨ ∃ v answer, rest = .call ends.enqueue .connection
      (TrackingFeed.onDb (TrackingDb.enqueue v)) fun _ => .done answer) := by
  induction h with
  | start => exact Or.inl ⟨rfl, rfl⟩
  | @next _ effect k f _ ih =>
    refine Or.inr ⟨by simp, ?_⟩
    rcases ih with ⟨-, heq⟩ | ⟨-, hfin | ⟨v, answer, heq⟩⟩
    · cases hv : input.view now with
      | error e =>
        rw [post_error hv] at heq
        cases heq
      | ok v =>
        rw [post_eq hv] at heq
        rcases (Proc.call_cases heq f).2 with ⟨-, hnext⟩ | ⟨-, hnext⟩
        · exact Or.inr ⟨v, _, hnext⟩
        · exact Or.inl (by rw [hnext]; rfl)
    · cases hfin
    · rcases (Proc.call_cases heq f).2 with ⟨-, hnext⟩ | ⟨-, hnext⟩
      · exact Or.inl (by rw [hnext]; rfl)
      · exact Or.inl (by rw [hnext]; rfl)

/-- The other requests take one step. -/
theorem single_residual {g : TrackingFeed → TrackingFeed} {answer : TrackingAnswer}
    (hp : p.execute ttlSeconds = .write g (.done answer))
    (h : Residual (FeedRequest.execute ttlSeconds) p seen (.step effect next)) :
    effect = g := by
  have hleft : ∀ {seen rest}, Residual (FeedRequest.execute ttlSeconds) p seen rest →
      rest = .write g (.done answer) ∨ rest.finished = true := by
    intro seen rest h
    induction h with
    | start => exact Or.inl hp
    | @next _ effect k f _ ih =>
      rcases ih with heq | hfin
      · obtain ⟨-, rfl⟩ := Proc.step.inj heq
        exact Or.inr rfl
      · cases hfin
  rcases hleft h with heq | hfin
  · exact (Proc.step.inj heq).1
  · cases hfin

end Steps

namespace TrackingFeed

variable {f : TrackingFeed} {socketId other : String} {room : Room}
  {location : DriverLocationView}

theorem mem_join_of_ne (h : socketId ≠ other) {r : Room} :
    socketId ∈ (f.join room other).members r ↔ socketId ∈ f.members r := by
  simp only [join]
  split
  · simp [h]
  · rfl

@[simp] theorem received_join : (f.join room other).received = f.received := rfl

@[simp] theorem db_join : (f.join room other).db = f.db := rfl

theorem received_emit : (f.emit room location).received socketId =
    f.received socketId ++ if socketId ∈ f.members room then [location] else [] := by
  simp only [emit]
  split <;> simp

/-- Another's call of `subscribe` or `update`: the socket stays in its rooms. -/
theorem received_broadcast (h : socketId ≠ other) (driverId : String)
    (result : DriverLocationUpdateResult) :
    (TrackingGateway.broadcast other driverId result f).received socketId =
      f.received socketId ++ (if result.acceptedAsCurrent then [⟨driverId, result.location⟩]
        else [] : List Sample).flatMap (f.copies socketId) := by
  unfold TrackingGateway.broadcast
  split
  · have hmembers : ∀ r, ((f.join (.driver driverId) other).emit (.driver driverId)
        result.location).members r = (f.join (.driver driverId) other).members r := fun _ => rfl
    simp [received_emit, copies, hmembers, mem_join_of_ne h]
  · simp

theorem mem_broadcast (h : socketId ≠ other) (driverId : String)
    (result : DriverLocationUpdateResult) (r : Room) :
    socketId ∈ (TrackingGateway.broadcast other driverId result f).members r ↔
      socketId ∈ f.members r := by
  unfold TrackingGateway.broadcast
  split
  · exact mem_join_of_ne h
  · exact mem_join_of_ne h

theorem db_broadcast (other driverId : String) (result : DriverLocationUpdateResult) :
    (TrackingGateway.broadcast other driverId result f).db = f.db := by
  unfold TrackingGateway.broadcast
  split <;> rfl

end TrackingFeed

/-- The account of a socket between two states, over what the store has accepted meanwhile and
what updates that threw have given up. It stays in its rooms; each sample taken from a socket,
before or meanwhile, is shown, given up or still in flight, and what the socket receives are its
copies of those shown. -/
structure Conserves (socketId : String) (accepted : List (DriverLocationView × Option String))
    (lost : List Sample) (S S' : FeedPool) : Prop where
  rooms : ∀ room, socketId ∈ S'.shared.members room ↔ socketId ∈ S.shared.members room
  stored : S'.shared.db.accepted = S.shared.db.accepted ++ accepted.map Prod.fst
  shown : ∃ shown : List Sample, S'.shared.received socketId =
    S.shared.received socketId ++ shown.flatMap (S.shared.copies socketId) ∧
    inFlight S + ↑(accepted.filterMap sampleOf) = ↑shown + ↑lost + inFlight S'

namespace Conserves

variable {socketId : String} {S S' S'' : FeedPool}
  {accepted accepted' : List (DriverLocationView × Option String)} {lost lost' : List Sample}

theorem refl (socketId : String) (S : FeedPool) : Conserves socketId [] [] S S :=
  ⟨fun _ => Iff.rfl, by simp, [], by simp, by simp⟩

theorem trans (h : Conserves socketId accepted lost S S')
    (h' : Conserves socketId accepted' lost' S' S'') :
    Conserves socketId (accepted ++ accepted') (lost ++ lost') S S'' := by
  obtain ⟨hrooms, hstored, shown, hreceived, hbalance⟩ := h
  obtain ⟨hrooms', hstored', shown', hreceived', hbalance'⟩ := h'
  have hcopies : S'.shared.copies socketId = S.shared.copies socketId := by
    funext x
    simp [TrackingFeed.copies, hrooms]
  refine ⟨fun room => (hrooms' room).trans (hrooms room), ?_, shown ++ shown', ?_, ?_⟩
  · rw [hstored', hstored, List.map_append, List.append_assoc]
  · rw [hreceived', hreceived, hcopies, List.flatMap_append, List.append_assoc]
  · simp only [List.filterMap_append, ← Multiset.coe_add]
    rw [← add_assoc, hbalance, add_assoc, hbalance']
    abel

end Conserves

section Runs

open Pool

variable {ttlSeconds : ℕ} {ts : List FeedMove} {S S' : FeedPool} {socketId : String} {i : ℕ}
  {p : FeedRequest} {seen : Option TrackingFeed} {effect : TrackingFeed → TrackingFeed}
  {next : TrackingFeed → FeedProc}

/-- A step of one call keeps the account if what it takes in is shown, given up or pending after
it. -/
theorem conserves_advance (hrun : (feedSystem ttlSeconds).Run ts S)
    (hi : S.threads i = some ⟨p, .step effect next, seen⟩)
    {accepted : List (DriverLocationView × Option String)} {lost : List Sample}
    (shown : List Sample)
    (hrooms : ∀ room, socketId ∈ (effect S.shared).members room ↔ socketId ∈ S.shared.members room)
    (hstored : (effect S.shared).db.accepted = S.shared.db.accepted ++ accepted.map Prod.fst)
    (hreceived : (effect S.shared).received socketId =
      S.shared.received socketId ++ shown.flatMap (S.shared.copies socketId))
    (hbalance : pendingSample ⟨p, .step effect next, seen⟩ + ↑(accepted.filterMap sampleOf) =
      ↑shown + ↑lost + pendingSample ⟨p, next S.shared, some S.shared⟩) :
    Conserves socketId accepted lost S (({ S with shared := effect S.shared } : FeedPool).set i
      ⟨p, next S.shared, some S.shared⟩) := by
  have hfin : {j | S.threads j ≠ none}.Finite := finite_of_run hrun
  have htotal : inFlight (({ S with shared := effect S.shared } : FeedPool).set i
      ⟨p, next S.shared, some S.shared⟩) + held pendingSample S i =
      inFlight S + pendingSample ⟨p, next S.shared, some S.shared⟩ :=
    total_set (P := ({ S with shared := effect S.shared } : FeedPool)) hfin i _
  have hheld : held pendingSample S i = pendingSample ⟨p, .step effect next, seen⟩ := by
    simp [held, hi]
  rw [hheld] at htotal
  exact ⟨hrooms, hstored, shown, hreceived, balance_of_step htotal hbalance⟩

/-- A call that takes nothing in and shows nothing. -/
theorem conserves_quiet (hrun : (feedSystem ttlSeconds).Run ts S)
    (hi : S.threads i = some ⟨p, .step effect next, seen⟩)
    (hrooms : ∀ room, socketId ∈ (effect S.shared).members room ↔ socketId ∈ S.shared.members room)
    (hstored : (effect S.shared).db.accepted = S.shared.db.accepted)
    (hreceived : (effect S.shared).received socketId = S.shared.received socketId)
    (hbalance : pendingSample ⟨p, .step effect next, seen⟩ =
      pendingSample ⟨p, next S.shared, some S.shared⟩) :
    Conserves socketId [] [] S (({ S with shared := effect S.shared } : FeedPool).set i
      ⟨p, next S.shared, some S.shared⟩) :=
  conserves_advance hrun hi [] hrooms (by simpa using hstored) (by simpa using hreceived)
    (by simpa using hbalance)

theorem pendingSample_none (rest : FeedProc) : pendingSample ⟨p, rest, none⟩ = 0 := by
  cases p <;> rfl

theorem pendingSample_of_ne (hp : ∀ socketId input now ends, p ≠ .update socketId input now ends)
    (rest : FeedProc) (seen : Option TrackingFeed) : pendingSample ⟨p, rest, seen⟩ = 0 := by
  cases p with
  | update socketId input now ends => exact absurd rfl (hp socketId input now ends)
  | subscribe | post | persist | discard | tick => rfl

/-- The socket has no call of its own under way. -/
def Watches (socketId : String) (S : FeedPool) : Prop :=
  ∀ i t, S.threads i = some t → t.request.socketId = some socketId → t.rest.finished = true

/-- The socket whose call the label starts. -/
def callerOf : PoolLabel FeedRequest → Option String
  | .spawn _ p => p.socketId
  | .advance _ => none

/-- The label starts no call of the socket. -/
def QuietFor (socketId : String) (a : PoolLabel FeedRequest) : Prop := callerOf a ≠ some socketId

instance (socketId : String) : DecidablePred (QuietFor socketId) := fun _ =>
  inferInstanceAs (Decidable (_ ≠ _))

theorem mem_joinRooms {f : TrackingFeed} {other : String} (h : socketId ≠ other)
    (driverId : Option String) (operations : Bool) (r : Room) :
    socketId ∈ (TrackingGateway.joinRooms other driverId operations f).members r ↔
      socketId ∈ f.members r := by
  unfold TrackingGateway.joinRooms
  have hfirst : socketId ∈ (if operations then f.join .operations other else f).members r ↔
      socketId ∈ f.members r := by
    split
    · exact TrackingFeed.mem_join_of_ne h
    · rfl
  cases driverId with
  | none => exact hfirst
  | some driverId =>
    dsimp only
    split
    · exact hfirst
    · exact (TrackingFeed.mem_join_of_ne h).trans hfirst

theorem joinRooms_same {f : TrackingFeed} {other : String} (driverId : Option String)
    (operations : Bool) : (TrackingGateway.joinRooms other driverId operations f).db = f.db ∧
      (TrackingGateway.joinRooms other driverId operations f).received = f.received := by
  unfold TrackingGateway.joinRooms
  cases driverId with
  | none => cases operations <;> exact ⟨rfl, rfl⟩
  | some driverId =>
    dsimp only
    split <;> cases operations <;> exact ⟨rfl, rfl⟩

/-- What an update holds between its two last steps. -/
def heldSample (driverId : String) (result : DriverLocationUpdateResult) : Option Sample :=
  if result.acceptedAsCurrent then some ⟨driverId, result.location⟩ else none

theorem heldSample_upsert (f : TrackingFeed) {input : UpdateDriverLocationInput} {now : Date}
    {v : DriverLocationView} (hv : input.view now = .ok v) :
    heldSample input.driverId ⟨v, f.db.live.accepts f.db.clock v⟩ =
      acceptedSample f input now := by
  by_cases hacc : f.db.live.accepts f.db.clock v = true
  · simp [heldSample, acceptedSample, acceptedView, hv, hacc]
  · simp [heldSample, acceptedSample, acceptedView, hv, hacc]

theorem pendingSample_toEnqueue (other : String) (input : UpdateDriverLocationInput) (now : Date)
    (ends : UpdateEnds) (result : DriverLocationUpdateResult) (f : TrackingFeed) :
    pendingSample ⟨.update other input now ends, toEnqueue ends other input.driverId result,
      some f⟩ = if ends.enqueue = .answered then ↑(heldSample input.driverId result).toList
        else ↑(acceptedSample f input now).toList := by
  obtain ⟨upsert, enqueue⟩ := ends
  cases enqueue with
  | answered =>
    show (if result.acceptedAsCurrent then {⟨input.driverId, result.location⟩} else 0 :
      Multiset Sample) = ↑(heldSample input.driverId result).toList
    unfold heldSample
    split <;> rfl
  | failed | lost => rfl

theorem pendingSample_toEmit (other : String) (input : UpdateDriverLocationInput) (now : Date)
    (ends : UpdateEnds) (result : DriverLocationUpdateResult) (f : TrackingFeed) :
    pendingSample ⟨.update other input now ends, toEmit other input.driverId result, some f⟩ =
      ↑(heldSample input.driverId result).toList := by
  show (if result.acceptedAsCurrent then {⟨input.driverId, result.location⟩} else 0 :
    Multiset Sample) = ↑(heldSample input.driverId result).toList
  unfold heldSample
  split <;> rfl

theorem pendingSample_throw (other : String) (input : UpdateDriverLocationInput) (now : Date)
    (ends : UpdateEnds) (seen : Option TrackingFeed) :
    pendingSample ⟨.update other input now ends, .throw .connection, seen⟩ = 0 := by
  cases seen <;> rfl

/-- The step in which the store sees the sample of a call. -/
theorem stored_upsert (f : TrackingFeed) {input : UpdateDriverLocationInput} {now : Date}
    {v : DriverLocationView} (hv : input.view now = .ok v) {ending : CallEnd}
    (source : Option String) :
    (ending.apply (TrackingFeed.onDb (TrackingDb.upsert ttlSeconds v)) f).db.accepted =
      f.db.accepted ++ ((if ending = .failed then none
        else (acceptedView f input now).map fun v => (v, source)).toList.map Prod.fst) := by
  cases ending with
  | failed => simp [CallEnd.apply]
  | answered | lost =>
    by_cases hacc : f.db.live.accepts f.db.clock v = true
    · simp [CallEnd.apply, TrackingFeed.onDb, TrackingDb.upsert, acceptedView, hv, hacc]
    · simp [CallEnd.apply, TrackingFeed.onDb, TrackingDb.upsert, acceptedView, hv, hacc]

/-- A call to the stores sends nothing and moves no socket. -/
theorem quiet_of_call (ending : CallEnd) (g : TrackingDb → TrackingDb) (f : TrackingFeed) :
    (ending.apply (TrackingFeed.onDb g) f).members = f.members ∧
      (ending.apply (TrackingFeed.onDb g) f).received = f.received := by
  cases ending <;> exact ⟨rfl, rfl⟩

/-- The call to the queue leaves what was accepted as it is. -/
theorem accepted_enqueue (ending : CallEnd) (v : DriverLocationView) (f : TrackingFeed) :
    (ending.apply (TrackingFeed.onDb (TrackingDb.enqueue v)) f).db.accepted = f.db.accepted := by
  cases ending with
  | answered | lost => exact TrackingDb.enqueue_live.2
  | failed => rfl

/-- The samples of the socket among what the first step of an update takes in. -/
theorem samples_update (f : TrackingFeed) (input : UpdateDriverLocationInput) (now : Date) :
    ((acceptedView f input now).map fun v => (v, some input.driverId)).toList.filterMap sampleOf =
      (acceptedSample f input now).toList := by
  unfold acceptedSample
  cases acceptedView f input now <;> rfl

theorem samples_post (x : Option DriverLocationView) :
    (x.map fun v => (v, (none : Option String))).toList.filterMap sampleOf = [] := by
  cases x <;> rfl

/-- The first step of an update, however the call to the store ends. -/
theorem balance_upsert (f : TrackingFeed) {other : String} {input : UpdateDriverLocationInput}
    {now : Date} {ends : UpdateEnds} {v : DriverLocationView} (hv : input.view now = .ok v)
    {rest rest₀ : FeedProc}
    (hrest : (ends.upsert = .answered ∧ rest = toEnqueue ends other input.driverId
        ⟨v, f.db.live.accepts f.db.clock v⟩) ∨
      (ends.upsert ≠ .answered ∧ rest = .throw .connection)) :
    pendingSample ⟨.update other input now ends, rest₀, none⟩ +
        ↑((takenBy f ⟨.update other input now ends, rest₀, none⟩).toList.filterMap sampleOf) =
      ↑([] : List Sample) + ↑(givenUpBy f ⟨.update other input now ends, rest₀, none⟩).toList +
        pendingSample ⟨.update other input now ends, rest, some f⟩ := by
  rw [pendingSample_none]
  simp only [takenBy, givenUpBy, Multiset.coe_nil, zero_add]
  obtain ⟨upsert, enqueue⟩ := ends
  rcases hrest with ⟨rfl, rfl⟩ | ⟨hne, rfl⟩
  · rw [pendingSample_toEnqueue, heldSample_upsert f hv, ite_self]
    simp [samples_update]
  · rw [pendingSample_throw]
    cases upsert with
    | answered => exact absurd rfl hne
    | failed => simp
    | lost => simp [samples_update]

theorem conserves_step (hrun : (feedSystem ttlSeconds).Run ts S) {a : PoolLabel FeedRequest}
    (hs : (feedSystem ttlSeconds).step S a = some S') (hwatch : Watches socketId S) :
    Conserves socketId (taken ⟨S, a, S'⟩).toList (givenUp ⟨S, a, S'⟩).toList S S' := by
  rcases Pool.step_cases hs with ⟨i, p, rfl, hi, rfl⟩ | ⟨i, p, effect, next, seen, rfl, hi, rfl⟩
  · have htotal : inFlight (S.set i ⟨p, p.execute ttlSeconds, none⟩) + held pendingSample S i =
        inFlight S + pendingSample ⟨p, p.execute ttlSeconds, none⟩ :=
      total_set (finite_of_run hrun) i _
    have hheld : held pendingSample S i = 0 := by simp [held, hi]
    rw [hheld, pendingSample_none, add_zero, add_zero] at htotal
    exact ⟨fun _ => Iff.rfl, by simp [taken, inStep], [], by simp,
      by simp [taken, givenUp, inStep, htotal]⟩
  have hres := Pool.run_residual hrun i _ hi
  have hother : p.socketId ≠ some socketId := fun hsocket => by
    have hfin := hwatch i _ hi hsocket
    cases hfin
  have hread {α : Type} (read : TrackingFeed → FeedThread → Option α) (S' : FeedPool) :
      inStep read ⟨S, .advance i, S'⟩ = read S.shared ⟨p, .step effect next, seen⟩ := by
    simp [inStep, hi]
  rw [taken, givenUp, hread, hread]
  cases p with
  | subscribe other driverId operations =>
    have hne : socketId ≠ other := fun h => hother (by rw [h]; rfl)
    obtain rfl := single_residual rfl hres
    exact conserves_quiet hrun hi (mem_joinRooms hne driverId operations)
      (by rw [(joinRooms_same driverId operations).1])
      (by rw [(joinRooms_same driverId operations).2]) rfl
  | update other input now ends =>
    have hne : socketId ≠ other := fun h => hother (by rw [h]; rfl)
    rcases update_residual hres with ⟨rfl, heq⟩ | ⟨hsome, hemit⟩
    · cases hv : input.view now with
      | error e =>
        rw [update_error hv] at heq
        cases heq
      | ok v =>
        rw [update_eq hv] at heq
        obtain ⟨rfl, hnext⟩ := Proc.call_cases heq S.shared
        have hquiet := quiet_of_call ends.upsert (TrackingDb.upsert ttlSeconds v) S.shared
        exact conserves_advance hrun hi [] (fun _ => by rw [hquiet.1]) (stored_upsert _ hv _)
          (by simp [hquiet.2]) (balance_upsert S.shared hv hnext)
    · obtain ⟨f, rfl⟩ := Option.ne_none_iff_exists'.1 hsome
      generalize hrest : Proc.step effect next = rest at hemit
      cases hemit with
      | toEnqueue result =>
        have hheld : pendingSample ⟨.update other input now ends, .step effect next, some f⟩ =
            if ends.enqueue = .answered then ↑(heldSample input.driverId result).toList
            else ↑(acceptedSample f input now).toList := by
          rw [hrest]
          exact pendingSample_toEnqueue other input now ends result f
        obtain ⟨rfl, hnext⟩ := Proc.call_cases hrest S.shared
        have hquiet := quiet_of_call ends.enqueue (TrackingDb.enqueue result.location) S.shared
        refine conserves_advance hrun hi [] (fun _ => by rw [hquiet.1])
          (by simp [takenBy, accepted_enqueue]) (by simp [hquiet.2]) ?_
        rw [hheld]
        rcases hnext with ⟨hok, hnext⟩ | ⟨hne, hnext⟩
        · simp [hnext, pendingSample_toEmit, takenBy, givenUpBy, hok]
        · simp [hnext, pendingSample_throw, takenBy, givenUpBy, hne]
      | toEmit result hok =>
        obtain ⟨rfl, rfl⟩ := Proc.step.inj hrest
        refine conserves_advance hrun hi
          (if result.acceptedAsCurrent then [⟨input.driverId, result.location⟩] else [])
          (TrackingFeed.mem_broadcast hne input.driverId result) ?_
          (TrackingFeed.received_broadcast hne input.driverId result) ?_
        · simp [takenBy, TrackingFeed.db_broadcast]
        · have hheld := pendingSample_toEmit other input now ends result f
          have hover : pendingSample ⟨.update other input now ends, .done (.updated result),
            some S.shared⟩ = 0 := rfl
          rw [toEmit, Proc.write] at hheld
          rw [hheld, hover, heldSample]
          simp only [takenBy, givenUpBy, hok]
          split <;> simp
      | ended hfin =>
        rw [← hrest] at hfin
        cases hfin
  | post input now ends =>
    rcases post_residual hres with ⟨rfl, heq⟩ | ⟨hsome, hfin | ⟨v, answer, heq⟩⟩
    · cases hv : input.view now with
      | error e =>
        rw [post_error hv] at heq
        cases heq
      | ok v =>
        rw [post_eq hv] at heq
        obtain ⟨rfl, -⟩ := Proc.call_cases heq S.shared
        have hquiet := quiet_of_call ends.upsert (TrackingDb.upsert ttlSeconds v) S.shared
        refine conserves_advance hrun hi [] (fun _ => by rw [hquiet.1]) (stored_upsert _ hv none)
          (by simp [hquiet.2]) ?_
        rw [pendingSample_none, pendingSample_of_ne (by simp)]
        simp only [takenBy, givenUpBy]
        split
        · rfl
        · rw [samples_post]
          rfl
    · cases hfin
    · obtain ⟨f, rfl⟩ := Option.ne_none_iff_exists'.1 hsome
      obtain ⟨rfl, -⟩ := Proc.call_cases heq S.shared
      have hquiet := quiet_of_call ends.enqueue (TrackingDb.enqueue v) S.shared
      exact conserves_quiet hrun hi (fun _ => by rw [hquiet.1]) (accepted_enqueue _ v _)
        (by rw [hquiet.2]) rfl
  | persist jobId =>
    obtain rfl := single_residual rfl hres
    exact conserves_quiet hrun hi (fun _ => Iff.rfl) TrackingDb.process_live.2 rfl rfl
  | discard jobId | tick ms =>
    obtain rfl := single_residual rfl hres
    exact conserves_quiet hrun hi (fun _ => Iff.rfl) rfl rfl rfl

theorem watches_step {a : PoolLabel FeedRequest} (hs : (feedSystem ttlSeconds).step S a = some S')
    (hwatch : Watches socketId S) (hquiet : QuietFor socketId a) : Watches socketId S' := by
  intro j t ht hsocket
  rcases Pool.step_cases hs with ⟨i, p, rfl, hi, rfl⟩ | ⟨i, p, effect, next, seen, rfl, hi, rfl⟩
  · by_cases hij : j = i
    · subst hij
      obtain rfl : _ = t := by simpa using ht
      exact absurd hsocket hquiet
    · exact hwatch j t (by simpa [hij] using ht) hsocket
  · by_cases hij : j = i
    · subst hij
      obtain rfl : _ = t := by simpa using ht
      have hfin := hwatch j _ hi hsocket
      cases hfin
    · exact hwatch j t (by simpa [hij] using ht) hsocket

/-- The call that takes the step is over: it has thrown. -/
def Threw (t : FeedMove) : Prop :=
  ∃ i call, t.label = .advance i ∧ t.post.threads i = some call ∧ call.rest = .throw .connection

theorem threw_of_givenUp {a : PoolLabel FeedRequest} (hrun : (feedSystem ttlSeconds).Run ts S)
    (hs : (feedSystem ttlSeconds).step S a = some S') (h : givenUp ⟨S, a, S'⟩ ≠ none) :
    Threw ⟨S, a, S'⟩ := by
  rcases Pool.step_cases hs with ⟨i, p, rfl, -, rfl⟩ | ⟨i, p, effect, next, seen, rfl, hi, rfl⟩
  · exact absurd rfl h
  have hres := Pool.run_residual hrun i _ hi
  have hgiven : givenUpBy S.shared ⟨p, .step effect next, seen⟩ ≠ none := by
    simpa [givenUp, inStep, hi] using h
  suffices hthrow : next S.shared = .throw .connection from
    ⟨i, _, rfl, set_threads_self _ i _, hthrow⟩
  cases p with
  | update other input now ends =>
    rcases update_residual hres with ⟨rfl, heq⟩ | ⟨hsome, hemit⟩
    · have hlost : ends.upsert = .lost := by
        by_contra hne
        simp [givenUpBy, hne] at hgiven
      cases hv : input.view now with
      | error e =>
        rw [update_error hv] at heq
        cases heq
      | ok v =>
        rw [update_eq hv] at heq
        rcases (Proc.call_cases heq S.shared).2 with ⟨hok, -⟩ | ⟨-, hnext⟩
        · cases hlost.symm.trans hok
        · exact hnext
    · obtain ⟨f, rfl⟩ := Option.ne_none_iff_exists'.1 hsome
      have hfailed : ends.enqueue ≠ .answered := fun hok => hgiven (by simp [givenUpBy, hok])
      generalize hrest : Proc.step effect next = rest at hemit
      cases hemit with
      | toEnqueue result =>
        rcases (Proc.call_cases hrest S.shared).2 with ⟨hok, -⟩ | ⟨-, hnext⟩
        · exact absurd hok hfailed
        · exact hnext
      | toEmit result hok => exact absurd hok hfailed
      | ended hfin =>
        rw [← hrest] at hfin
        cases hfin
  | subscribe | post | persist | discard | tick => exact absurd rfl hgiven

theorem conserves_of_run (hrun : (feedSystem ttlSeconds).Run ts S)
    {as : List (PoolLabel FeedRequest)} (has : (feedSystem ttlSeconds).replay S as = some S')
    (hwatch : Watches socketId S) (hquiet : ∀ a ∈ as, QuietFor socketId a) :
    Conserves socketId (((feedSystem ttlSeconds).moves S as).filterMap taken)
      (((feedSystem ttlSeconds).moves S as).filterMap givenUp) S S' := by
  induction as generalizing ts S with
  | nil =>
    obtain rfl := Option.some.inj has
    exact .refl socketId S
  | cons a as ih =>
    obtain ⟨S₁, hs, has⟩ := Option.bind_eq_some_iff.1 has
    have hstep := conserves_step hrun hs hwatch
    have hrest := ih (hrun.snoc hs) has
      (watches_step hs hwatch (hquiet a List.mem_cons_self))
      (fun b hb => hquiet b (List.mem_cons_of_mem a hb))
    have hmoves : (feedSystem ttlSeconds).moves S (a :: as) =
        ⟨S, a, S₁⟩ :: (feedSystem ttlSeconds).moves S₁ as := by
      simp [System.moves, hs]
    have hcons {α : Type} (read : FeedMove → Option α) (l : List FeedMove) :
        (⟨S, a, S₁⟩ :: l).filterMap read = (read ⟨S, a, S₁⟩).toList ++ l.filterMap read := by
      rw [List.filterMap_cons]
      cases read ⟨S, a, S₁⟩ <;> rfl
    rw [hmoves, hcons, hcons]
    exact hstep.trans hrest

/-- From whatever state, while a socket only listens: the samples taken from sockets that were
in flight or have been accepted since are those shown since, those given up by updates that threw
and those in flight now, none lost otherwise and none doubled, and the socket has received its
copies of those shown. -/
theorem feed_of_run (hrun : (feedSystem ttlSeconds).Run ts S) {as : List (PoolLabel FeedRequest)}
    (has : (feedSystem ttlSeconds).replay S as = some S') (hwatch : Watches socketId S)
    (hquiet : ∀ a ∈ as, QuietFor socketId a) :
    Conserves socketId (((feedSystem ttlSeconds).moves S as).filterMap taken)
      (((feedSystem ttlSeconds).moves S as).filterMap givenUp) S S' ∧
    ∀ t ∈ (feedSystem ttlSeconds).moves S as, givenUp t ≠ none → Threw t := by
  refine ⟨conserves_of_run hrun has hwatch hquiet, fun t ht hgiven => ?_⟩
  obtain ⟨l, -, hpre, hs⟩ := (hrun.replay_append has).of_mem (List.mem_append_right _ ht)
  exact threw_of_givenUp hpre hs hgiven

/-- A dashboard and a customer's map, and then three samples of one driver. Two are accepted
before either is emitted, the later one first, and the third is accepted and given up. -/
def listening : List (PoolLabel FeedRequest) :=
  [.spawn 0 (.subscribe "ops" none true), .advance 0,
    .spawn 1 (.subscribe "map" (some "driver-1") true), .advance 1]

def answeredEnds : UpdateEnds := ⟨.answered, .answered⟩

def overtaking : List (PoolLabel FeedRequest) :=
  [.spawn 2 (.update "phone" (TrackingPool.sampleAt 100) 1000 answeredEnds), .advance 2,
    .spawn 3 (.update "phone" (TrackingPool.sampleAt 200) 1001 answeredEnds), .advance 3,
    .advance 3, .advance 3, .advance 2, .advance 2,
    .spawn 4 (.update "phone" (TrackingPool.sampleAt 300) 1002 ⟨.answered, .failed⟩), .advance 4,
    .advance 4]

def emptyFeed : FeedPool := ⟨⟨.empty 0, fun _ => [], fun _ => []⟩, fun _ => none⟩

theorem feed_overtaking : ∃ S S', (feedSystem 120).replay emptyFeed listening = some S ∧
    (feedSystem 120).replay S overtaking = some S' ∧
    (S'.shared.received "ops").map DriverLocationView.recordedAt = [200, 100] ∧
    ((((feedSystem 120).moves S overtaking).filterMap givenUp).map fun x =>
      x.location.recordedAt) = [300] ∧
    Conserves "ops" (((feedSystem 120).moves S overtaking).filterMap taken)
      (((feedSystem 120).moves S overtaking).filterMap givenUp) S S' ∧
    ∀ t ∈ (feedSystem 120).moves S overtaking, givenUp t ≠ none → Threw t := by
  obtain ⟨S, hS, hover, S', hS', hreceived, hlost⟩ :
      ∃ S, (feedSystem 120).replay emptyFeed listening = some S ∧
      (∀ i < 2, (S.threads i).all fun t => t.rest.finished) ∧
      ∃ S', (feedSystem 120).replay S overtaking = some S' ∧
        (S'.shared.received "ops").map DriverLocationView.recordedAt = [200, 100] ∧
        ((((feedSystem 120).moves S overtaking).filterMap givenUp).map fun x =>
          x.location.recordedAt) = [300] :=
    ⟨_, rfl, by decide, _, rfl, by decide, by decide⟩
  have hrun := System.Run.of_replay (M := feedSystem 120)
    ⟨⟨⟨0, rfl⟩, fun _ => rfl, fun _ => rfl⟩, fun _ => rfl⟩ hS
  refine ⟨S, S', hS, hS', hreceived, hlost,
    feed_of_run hrun hS' (fun i t ht _ => ?_) (by decide)⟩
  · have hi : i < 2 := by
      by_contra hi
      have hidle := Pool.threads_of_replay hS (i := i) (by simp [listening, PoolLabel.thread]; omega)
      rw [ht] at hidle
      cases hidle
    have hdone := hover i hi
    rwa [ht] at hdone

end Runs

end RouteFast
