import Stencil.Date.Calendar

/-!
# Moments

A moment is a point of time together with the offset of the clock that shows it. A leap second is
the second before it with a nanosecond count of `10^9` or more.
-/

namespace Stencil.Date

/-- A point of time on a clock. -/
structure Moment where
  /-- Seconds since the beginning of 1970, in universal time. -/
  seconds : Int
  nanos : Nat
  /-- How many seconds the clock is ahead of universal time. -/
  offset : Int
  deriving DecidableEq, Repr

/-- The seconds of a day. -/
def secondsPerDay : Nat := 86400

/-- The nanoseconds of a second. -/
def nanosPerSecond : Nat := 1000000000

namespace Moment

/-- The seconds that the clock shows since the beginning of its day. -/
def timeOfDay (m : Moment) : Nat := ((m.seconds + m.offset) % secondsPerDay).toNat

/-- The date that the clock shows. -/
def date (m : Moment) : Day := Day.ofNumber ((m.seconds + m.offset) / secondsPerDay)

/-- The hour. -/
def hour (m : Moment) : Nat := m.timeOfDay / 3600

/-- The minute of the hour. -/
def minute (m : Moment) : Nat := m.timeOfDay / 60 % 60

/-- The second of the minute; a leap second is second 60. -/
def second (m : Moment) : Nat := m.timeOfDay % 60 + m.nanos / nanosPerSecond

/-- The nanosecond of the second. -/
def nanosecond (m : Moment) : Nat := m.nanos % nanosPerSecond

/-- The hour on a clock of twelve hours. -/
def hour12 (m : Moment) : Nat := if m.hour % 12 = 0 then 12 else m.hour % 12

/-- The years that dates are kept to. -/
def isInRange (d : Day) : Bool := -262143 ≤ d.year && d.year ≤ 262142

/-- The moment at which a clock shows a date and a time. Second 60 is a leap second, in whatever
minute it is. There is none if the calendar or the clock does not have them. -/
def ofClock? (d : Day) (hour minute second nanos : Nat) (offset : Int) : Option Moment :=
  let shown := d.number * secondsPerDay + (hour * 3600 + minute * 60 + min second 59 : Nat)
  let m : Moment := ⟨shown - offset, nanos + (if second = 60 then nanosPerSecond else 0), offset⟩
  if d.isValid && isInRange d && hour < 24 && minute < 60 && second ≤ 60 &&
      offset.natAbs < secondsPerDay && isInRange (Day.ofNumber (m.seconds / secondsPerDay))
  then some m else none

/-- The leap second that lies between two times of a day, counted towards the later one. -/
def leapBetween (later earlier : Moment) : Int :=
  let a := later.seconds % secondsPerDay
  let b := earlier.seconds % secondsPerDay
  if b < a ∧ nanosPerSecond ≤ earlier.nanos then 1
  else if a < b ∧ nanosPerSecond ≤ later.nanos then -1
  else 0

/-- The whole seconds from one moment to another, a fraction being dropped. -/
def since (later earlier : Moment) : Int :=
  let seconds := later.seconds - earlier.seconds + leapBetween later earlier
  let nanos : Int := (later.nanos : Int) - earlier.nanos
  (seconds * nanosPerSecond + nanos).tdiv nanosPerSecond

end Moment

end Stencil.Date
