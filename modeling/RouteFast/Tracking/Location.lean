import RouteFast.Base.Proc
import RouteFast.Base.Table
import RouteFast.Common
import Mathlib.Data.List.Sort
import Mathlib.Data.Rat.Floor

/-! Driver locations: the samples a driver sends, the hot store in Redis, the queue of
samples to persist, and the two PostGIS tables they are persisted in. -/

namespace RouteFast

open Transition

/-- `recordedAt` is the sample's own time, in milliseconds since the epoch, and may lie
before it. -/
structure DriverLocationView where
  driverId : Uuid
  latitude : ℚ
  longitude : ℚ
  speedKph : Option ℚ
  headingDegrees : Option ℚ
  recordedAt : ℤ
  receivedAt : Date
  deriving DecidableEq

/-- `recordedAt` is what `new Date` makes of the string sent: `none` for an invalid date. -/
structure UpdateDriverLocationInput where
  driverId : String
  latitude : ℚ
  longitude : ℚ
  speedKph : Option ℚ
  headingDegrees : Option ℚ
  recordedAt : Option (Option ℤ)
  deriving DecidableEq

/-- `Coordinates.create` of the tracking service. -/
def checkCoordinates (latitude longitude : ℚ) : Except ServiceError Unit :=
  if latitude < -90 ∨ 90 < latitude then .error (.error "latitude must be between -90 and 90")
  else if longitude < -180 ∨ 180 < longitude then
    .error (.error "longitude must be between -180 and 180")
  else .ok ()

/-- The view `UpdateDriverLocationUseCase.execute` builds, or what it throws. -/
def UpdateDriverLocationInput.view (input : UpdateDriverLocationInput) (now : Date) :
    Except ServiceError DriverLocationView := do
  let driverId := Js.trim input.driverId
  if driverId = "" then .error (.error "driverId is required")
  checkCoordinates input.latitude input.longitude
  let recordedAt ← match input.recordedAt with
    | none => .ok (now : ℤ)
    | some (some recordedAt) => .ok recordedAt
    | some none => .error (.error "recordedAt must be a valid ISO date")
  if ∃ speedKph ∈ input.speedKph, speedKph < 0 ∨ 250 < speedKph then
    .error (.error "speedKph must be between 0 and 250")
  if ∃ headingDegrees ∈ input.headingDegrees, headingDegrees < 0 ∨ 360 ≤ headingDegrees then
    .error (.error "headingDegrees must be between 0 and 359.999")
  .ok
    { driverId
      latitude := input.latitude
      longitude := input.longitude
      speedKph := input.speedKph
      headingDegrees := input.headingDegrees
      recordedAt
      receivedAt := now }

/-- A member of the geo set. -/
structure GeoMember where
  driverId : Uuid
  latitude : ℚ
  longitude : ℚ
  deriving DecidableEq

/-- The metadata hash of a driver. It is gone when Redis' clock reaches `expiresAt`. -/
structure LocationMeta where
  location : DriverLocationView
  recordedAtEpochMs : ℤ
  expiresAt : Date
  deriving DecidableEq

def LocationMeta.driverId (m : LocationMeta) : Uuid := m.location.driverId

/-- Redis: the geo set, which never expires, and the metadata. -/
structure LiveStore where
  geo : List GeoMember
  metadata : List LocationMeta

namespace LiveStore

/-- `HGETALL` of the driver's hash, as Redis answers it at `clock`. The hash is taken to be gone
at `expiresAt`; Redis drops it in the millisecond after. -/
def lookup (store : LiveStore) (clock : Date) (driverId : Uuid) : Option LocationMeta :=
  (Table.find LocationMeta.driverId driverId store.metadata).filter fun m => clock < m.expiresAt

def get (store : LiveStore) (clock : Date) (driverId : Uuid) : Option DriverLocationView :=
  (store.lookup clock driverId).map LocationMeta.location

/-- The ordering guard of the script. -/
def accepts (store : LiveStore) (clock : Date) (location : DriverLocationView) : Bool :=
  (store.lookup clock location.driverId).all fun current =>
    current.recordedAtEpochMs ≤ location.recordedAt

/-- The script: `true` and both writes, or `false` and none. -/
def upsert (store : LiveStore) (ttlSeconds : ℕ) (clock : Date) (location : DriverLocationView) :
    Bool × LiveStore :=
  if store.accepts clock location then
    (true,
      { geo := Table.save GeoMember.driverId
          ⟨location.driverId, location.latitude, location.longitude⟩ store.geo
        metadata := Table.save LocationMeta.driverId
          ⟨location, location.recordedAt, clock + ttlSeconds * 1000⟩ store.metadata })
  else (false, store)

end LiveStore

/-- A BullMQ job. `processed` says that `append` has run for it at least once. -/
structure PersistJob where
  jobId : String
  data : DriverLocationView
  processed : Bool
  deriving DecidableEq

/-- `${driverId}-${recordedAt.getTime()}` -/
def DriverLocationView.jobId (location : DriverLocationView) : String :=
  location.driverId ++ "-" ++ toString location.recordedAt

/-- The tracking service: Redis with its clock, the persistence queue, and the PostGIS
tables. `accepted` lists what `upsert` has answered `true` for, oldest first. -/
structure TrackingDb where
  clock : Date
  live : LiveStore
  jobs : List PersistJob
  history : List DriverLocationView
  latest : List DriverLocationView
  accepted : List DriverLocationView

namespace TrackingDb

def empty (clock : Date) : TrackingDb := ⟨clock, ⟨[], []⟩, [], [], [], []⟩

def upsert (ttlSeconds : ℕ) (location : DriverLocationView) (s : TrackingDb) : TrackingDb :=
  { s with
    live := (s.live.upsert ttlSeconds s.clock location).2
    accepted := s.accepted ++
      if s.live.accepts s.clock location then [location] else [] }

/-- `queue.add`: ignored while a job with this id is retained. -/
def enqueue (location : DriverLocationView) (s : TrackingDb) : TrackingDb :=
  match Table.find PersistJob.jobId location.jobId s.jobs with
  | some _ => s
  | none => { s with jobs := s.jobs ++ [⟨location.jobId, location, false⟩] }

/-- The unique index on `(driver_id, recorded_at)`. -/
def historyKey (location : DriverLocationView) : Uuid × ℤ :=
  (location.driverId, location.recordedAt)

/-- `append`: a conflicting history row stays, and the latest row is replaced unless it is
more recent. -/
def append (location : DriverLocationView) (s : TrackingDb) : TrackingDb :=
  { s with
    history :=
      match Table.find historyKey (historyKey location) s.history with
      | some _ => s.history
      | none => s.history ++ [location]
    latest :=
      match Table.find DriverLocationView.driverId location.driverId s.latest with
      | some row =>
        if row.recordedAt ≤ location.recordedAt then
          Table.save DriverLocationView.driverId location s.latest
        else s.latest
      | none => s.latest ++ [location] }

/-- A worker runs the job; its data is appended, and the job counts as processed. -/
def process (jobId : String) (s : TrackingDb) : TrackingDb :=
  match Table.find PersistJob.jobId jobId s.jobs with
  | some job =>
    { s.append job.data with
      jobs := Table.update PersistJob.jobId jobId (fun job => { job with processed := true }) s.jobs }
  | none => s

/-- BullMQ no longer retains a completed job. -/
def discard (jobId : String) (s : TrackingDb) : TrackingDb :=
  { s with jobs := s.jobs.filter fun job => ¬ (job.jobId = jobId ∧ job.processed) }

/-- `getLatest` -/
def getLatest (s : TrackingDb) (driverId : Uuid) : Option DriverLocationView :=
  Table.find DriverLocationView.driverId driverId s.latest

/-- `getHistory`: newest first. -/
def getHistory (s : TrackingDb) (driverId : Uuid) (limit : ℕ) : List DriverLocationView :=
  ((s.history.filter fun row => DriverLocationView.driverId row = driverId).insertionSort
    fun a b => b.recordedAt ≤ a.recordedAt).take limit

end TrackingDb

structure DriverLocationUpdateResult where
  location : DriverLocationView
  acceptedAsCurrent : Bool
  deriving DecidableEq

/-- `UpdateDriverLocationUseCase.execute`: the hot store first, then the queue. -/
def updateDriverLocation (ttlSeconds : ℕ) (input : UpdateDriverLocationInput) (now : Date) :
    Proc TrackingDb ServiceError DriverLocationUpdateResult :=
  match input.view now with
  | .error e => .throw e
  | .ok view =>
    .step (fun s => s.upsert ttlSeconds view) fun s =>
      .write (fun s => s.enqueue view) (.done ⟨view, s.live.accepts s.clock view⟩)

end RouteFast
