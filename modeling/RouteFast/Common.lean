import RouteFast.Base.Js
import Mathlib.Data.Rat.Defs

/-! Identifiers, dates and errors that the services share. -/

namespace RouteFast

abbrev Uuid := String

/-- Milliseconds since the epoch. -/
abbrev Date := ℕ

/-- What the modelled code throws, with its message. The message of a rejected
coordinate ends in the number's own rendering, kept here as the number. -/
inductive ServiceError where
  | error (message : String)
  | invalidLatitude (latitude : ℚ)
  | invalidLongitude (longitude : ℚ)
  | invalidOrderState (message : String)
  | orderNotFound (message : String)
  | driverUnavailable (message : String)
  /-- A statement the database rejects, by the constraint it violates. -/
  | database (constraint : String)
  /-- A call that fails, or whose answer is lost. -/
  | connection
  deriving DecidableEq, Repr

end RouteFast
