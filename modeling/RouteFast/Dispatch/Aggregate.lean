import RouteFast.Common

/-! The Dispatch aggregate. Its methods ignore a call that comes in the wrong status,
except for `startCompensation`, which throws. -/

namespace RouteFast

inductive DispatchStatus where
  | searchingDriver
  | assigned
  | failed
  | compensating
  | cancelled
  deriving DecidableEq, Repr

def DispatchStatus.text : DispatchStatus → String
  | .searchingDriver => "SEARCHING_DRIVER"
  | .assigned => "ASSIGNED"
  | .failed => "FAILED"
  | .compensating => "COMPENSATING"
  | .cancelled => "CANCELLED"

/-- The aggregate's properties, which are also the columns of its row in `dispatches`:
`DispatchMapper` copies them one by one in both directions. -/
structure Dispatch where
  id : Uuid
  orderId : Uuid
  driverId : Option Uuid
  status : DispatchStatus
  failureReason : Option String
  correlationId : String
  createdAt : Date
  updatedAt : Date
  deriving DecidableEq

namespace Dispatch

def start (id orderId : Uuid) (correlationId : String) (now : Date) : Dispatch where
  id := id
  orderId := orderId
  driverId := none
  status := .searchingDriver
  failureReason := none
  correlationId := correlationId
  createdAt := now
  updatedAt := now

def assign (d : Dispatch) (driverId : Uuid) (now : Date) : Dispatch :=
  if d.status ≠ .searchingDriver then d
  else { d with driverId := some driverId, status := .assigned, updatedAt := now }

/-- `!this.props.driverId` also holds of an empty string. -/
def startCompensation (d : Dispatch) (reason : String) (now : Date) :
    Except ServiceError Dispatch :=
  if d.status = .compensating ∨ d.status = .cancelled then .ok d
  else if d.status ≠ .assigned ∨ d.driverId = none ∨ d.driverId = some "" then
    .error (.error s!"Dispatch {d.id} cannot compensate from {d.status.text}")
  else .ok { d with status := .compensating, failureReason := some reason, updatedAt := now }

def completeCompensation (d : Dispatch) (now : Date) : Dispatch :=
  if d.status = .cancelled then d
  else if d.status ≠ .compensating then d
  else { d with status := .cancelled, updatedAt := now }

def fail (d : Dispatch) (reason : String) (now : Date) : Dispatch :=
  if d.status ≠ .searchingDriver then d
  else { d with status := .failed, failureReason := some reason, updatedAt := now }

variable {d d' : Dispatch} {now : Date}

theorem assign_eq (hs : d.status = .searchingDriver) (driverId : Uuid) :
    d.assign driverId now =
      { d with driverId := some driverId, status := .assigned, updatedAt := now } := by
  simp [assign, hs]

theorem fail_eq (hs : d.status = .searchingDriver) (reason : String) :
    d.fail reason now =
      { d with status := .failed, failureReason := some reason, updatedAt := now } := by
  simp [fail, hs]

theorem completeCompensation_eq (hs : d.status = .compensating) :
    d.completeCompensation now = { d with status := .cancelled, updatedAt := now } := by
  simp [completeCompensation, hs]

theorem startCompensation_eq {reason : String}
    (hs : d.status ≠ .compensating ∧ d.status ≠ .cancelled)
    (h : d.startCompensation reason now = .ok d') :
    d.status = .assigned ∧ (∃ driverId, d.driverId = some driverId ∧ driverId ≠ "") ∧
      d' = { d with status := .compensating, failureReason := some reason, updatedAt := now } := by
  simp only [startCompensation, hs, or_self, if_false] at h
  split at h
  · cases h
  · next hcan =>
    obtain ⟨hassigned, hnone, hempty⟩ :
        d.status = .assigned ∧ d.driverId ≠ none ∧ d.driverId ≠ some "" := by
      simpa only [not_or, not_not] using hcan
    obtain ⟨driverId, hd⟩ := Option.ne_none_iff_exists'.1 hnone
    exact ⟨hassigned, ⟨driverId, hd, fun he => hempty (he ▸ hd)⟩, (Except.ok.inj h).symm⟩

end Dispatch

end RouteFast
