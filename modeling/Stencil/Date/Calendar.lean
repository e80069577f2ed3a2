/-!
# The calendar

Dates of the Gregorian calendar, extended without bound in both directions, and their numbers: the
day count from the first of January 1970, the day of the year, the day of the week and the week of
the year. `Day.ofNumber` finds a date by taking away whole periods of 400, 100, 4 and 1 years.
-/

namespace Stencil.Date

/-- Whether a year has a 29th of February. -/
def isLeapYear (year : Int) : Bool := year % 4 == 0 && (year % 100 != 0 || year % 400 == 0)

/-- How many days a month has; months count from 1. -/
def daysInMonth (year : Int) (month : Nat) : Nat :=
  match month with
  | 2 => if isLeapYear year then 29 else 28
  | 4 | 6 | 9 | 11 => 30
  | _ => 31

/-- A date. -/
structure Day where
  year : Int
  month : Nat
  day : Nat
  deriving DecidableEq, Repr

namespace Day

/-- Whether the calendar has a date. -/
def isValid (d : Day) : Bool :=
  1 ≤ d.month && d.month ≤ 12 && 1 ≤ d.day && d.day ≤ daysInMonth d.year d.month

/-- The days from the first of January of the year 1 to that of a year. -/
def daysBeforeYear (year : Int) : Int :=
  let past := year - 1
  365 * past + past / 4 - past / 100 + past / 400

/-- The days of a year before a month. -/
def daysBeforeMonth (year : Int) : (month : Nat) → Nat
  | 0 | 1 => 0
  | month + 1 => daysBeforeMonth year month + daysInMonth year month

/-- The days from the first of January of the year 1 to that of 1970. -/
def epochDays : Int := 719162

/-- The day of the year, counted from 1. -/
def dayOfYear (d : Day) : Nat := daysBeforeMonth d.year d.month + d.day

/-- The days from the first of January 1970. -/
def number (d : Day) : Int := daysBeforeYear d.year + d.dayOfYear - 1 - epochDays

/-- The date `rest` days after the first of a month; `months` bounds the months to go through. -/
def ofDayOfMonth (year : Int) (month rest : Nat) : (months : Nat) → Day
  | 0 => ⟨year, month, rest + 1⟩
  | months + 1 =>
    if rest < daysInMonth year month then ⟨year, month, rest + 1⟩
    else ofDayOfMonth year (month + 1) (rest - daysInMonth year month) months

/-- The date of a day number. -/
def ofNumber (number : Int) : Day :=
  let days := number + epochDays
  let inEra := (days % 146097).toNat
  let centuries := min 3 (inEra / 36524)
  let inCentury := inEra - centuries * 36524
  let inQuad := inCentury % 1461
  let years := min 3 (inQuad / 365)
  let year := 400 * (days / 146097) + ((100 * centuries + 4 * (inCentury / 1461) + years : Nat)) + 1
  ofDayOfMonth year 1 (inQuad - years * 365) 11

/-- The day of the week, Monday being 0. -/
def weekday (d : Day) : Nat := ((d.number + 3) % 7).toNat

/-- The week of the year, where weeks begin on a given day of the week and the days before the
first such day are in week 0. -/
def weekFrom (firstDay : Nat) (d : Day) : Nat :=
  let sinceFirst := (d.weekday + 7 - firstDay) % 7
  (d.dayOfYear + 6 - sinceFirst) / 7

/-- The Thursday of the week of a date, weeks beginning on Monday. -/
def thursday (d : Day) : Day := ofNumber (d.number - d.weekday + 3)

/-- The year that the week of a date belongs to: the year of its Thursday. -/
def weekYear (d : Day) : Int := d.thursday.year

/-- The number of the week of a date in the year it belongs to. -/
def week (d : Day) : Nat := (d.thursday.dayOfYear - 1) / 7 + 1

/-- The quarter of the year. -/
def quarter (d : Day) : Nat := (d.month - 1) / 3 + 1

end Day

/-- The names of the days of the week from Monday on. -/
def weekdayNames : List String :=
  ["Monday", "Tuesday", "Wednesday", "Thursday", "Friday", "Saturday", "Sunday"]

/-- The names of the months. -/
def monthNames : List String :=
  ["January", "February", "March", "April", "May", "June", "July", "August", "September",
    "October", "November", "December"]

end Stencil.Date
