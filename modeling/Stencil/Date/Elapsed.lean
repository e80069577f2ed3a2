import Stencil.Double.Layout

/-!
# Spans of time in words

A span is told by its largest unit and, if there is some of it, the next smaller one.
-/

namespace Stencil.Date

/-- A unit of time. -/
structure TimeUnit where
  seconds : Nat
  name : String
  deriving DecidableEq, Repr

/-- The units, the largest first. A year has 365 days and a month 30. Reference: `CHUNKS`. -/
def timeUnits : List TimeUnit := [
  ⟨31536000, "year"⟩,
  ⟨2592000, "month"⟩,
  ⟨604800, "week"⟩,
  ⟨86400, "day"⟩,
  ⟨3600, "hour"⟩,
  ⟨60, "minute"⟩]

/-- A number of units. Reference: `unit`. -/
def countText (count : Nat) (name : String) : String :=
  String.ofList (Double.natDigits count) ++ " " ++ name ++ (if count = 1 then "" else "s")

/-- A span in the units of a list. -/
def elapsedIn (seconds : Nat) : List TimeUnit → String
  | [] => countText 0 "minute"
  | unit :: smaller =>
    if seconds < unit.seconds then elapsedIn seconds smaller
    else
      let first := countText (seconds / unit.seconds) unit.name
      match smaller with
      | [] => first
      | next :: _ =>
        let count := seconds % unit.seconds / next.seconds
        if count = 0 then first else first ++ ", " ++ countText count next.name

/-- A span of seconds in words; what is not positive is no time at all. Reference: `elapsed`. -/
def elapsed (seconds : Int) : String := elapsedIn seconds.toNat timeUnits

end Stencil.Date
