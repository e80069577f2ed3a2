import Stencil.Date.Moment
import Stencil.Double.Layout

/-!
# Directives of date formats

A format is a list of directives: characters that stand for themselves and parts of a moment, each
with the width and padding it is written with.
-/

namespace Stencil.Date

/-- A part of a moment that is a number. -/
inductive NumberPart where
  | year
  | century
  | yearOfCentury
  /-- The year that the week belongs to. -/
  | weekYear
  | weekYearOfCentury
  | quarter
  | month
  | day
  | dayOfYear
  /-- Weeks from Monday on, the first one having a Thursday of the year. -/
  | week
  /-- Weeks from the first Sunday of the year on. -/
  | weekFromSunday
  /-- Weeks from the first Monday of the year on. -/
  | weekFromMonday
  /-- The day of the week, Sunday being 0. -/
  | weekdayFromSunday
  /-- The day of the week, Monday being 1. -/
  | weekdayFromMonday
  | hour
  | hour12
  | minute
  | second
  | nanosecond
  /-- Seconds since the beginning of 1970. -/
  | epoch
  deriving DecidableEq, Repr

/-- What fills a number up to its width. -/
inductive Padding where
  | none
  | zero
  | blank
  deriving DecidableEq, Repr

/-- How an offset is written. -/
inductive OffsetForm where
  | hours
  | plain
  | colon
  | seconds
  deriving DecidableEq, Repr

/-- A directive. -/
inductive Directive where
  | literal (c : Char)
  | number (part : NumberPart) (padding : Padding)
  | weekdayName (short : Bool)
  | monthName (short : Bool)
  | half (upper : Bool)
  /-- A fraction of a second with a fixed number of digits. -/
  | fraction (point : Bool) (digits : Nat)
  /-- A point and as many digits, in groups of three, as the fraction needs; nothing for none. -/
  | shortestFraction
  | offset (form : OffsetForm)
  /-- An offset in any form, which can be read but not written. -/
  | anyOffset
  deriving DecidableEq, Repr

/-! ## Numbers -/

/-- A number filled up on its left. -/
def padded (padding : Padding) (width : Nat) (digits : List Char) : List Char :=
  match padding with
  | .none => digits
  | .zero => Double.padLeft '0' width digits
  | .blank => Double.padLeft ' ' width digits

/-- A number of two digits. A number from 100 on counts modulo 256, and its tens are one character
of those that follow the digit nine. -/
def twoDigits (padding : Padding) (n : Int) : List Char :=
  let byte := (n % 256).toNat
  let ones := Char.ofNat (48 + byte % 10)
  if byte < 10 then padded padding 2 [ones] else [Char.ofNat (48 + byte / 10), ones]

/-- An integer of some width. A sign stands in front of the zeros that fill it up. -/
def signedNumber (padding : Padding) (width : Nat) (plus : Bool) (n : Int) : List Char :=
  let digits := Double.natDigits n.natAbs
  let sign := if n < 0 then ['-'] else if plus then ['+'] else []
  match padding with
  | .zero => sign ++ Double.padLeft '0' (width - sign.length) digits
  | padding => padded padding width (sign ++ digits)

/-- A year: four digits, or a sign and at least four digits. -/
def yearNumber (padding : Padding) (year : Int) : List Char :=
  if 0 ≤ year ∧ year ≤ 9999 then signedNumber padding 4 false year
  else signedNumber padding 5 true year

/-- A part of a moment that is a number. -/
def NumberPart.write (part : NumberPart) (padding : Padding) (m : Moment) : List Char :=
  let d := m.date
  match part with
  | .year => yearNumber padding d.year
  | .century => twoDigits padding (d.year / 100)
  | .yearOfCentury => twoDigits padding (d.year % 100)
  | .weekYear => yearNumber padding d.weekYear
  | .weekYearOfCentury => twoDigits padding (d.weekYear % 100)
  | .quarter => Double.natDigits d.quarter
  | .month => twoDigits padding d.month
  | .day => twoDigits padding d.day
  | .dayOfYear => padded padding 3 (Double.natDigits d.dayOfYear)
  | .week => twoDigits padding d.week
  | .weekFromSunday => twoDigits padding (d.weekFrom 6)
  | .weekFromMonday => twoDigits padding (d.weekFrom 0)
  | .weekdayFromSunday => Double.natDigits ((d.weekday + 1) % 7)
  | .weekdayFromMonday => Double.natDigits (d.weekday + 1)
  | .hour => twoDigits padding m.hour
  | .hour12 => twoDigits padding m.hour12
  | .minute => twoDigits padding m.minute
  | .second => twoDigits padding m.second
  | .nanosecond => padded padding 9 (Double.natDigits m.nanosecond)
  | .epoch => signedNumber padding 9 false m.seconds

/-! ## Other parts -/

/-- A name or its first three letters. -/
def nameAt (names : List String) (short : Bool) (index : Nat) : List Char :=
  let name := (names[index]?.getD "").toList
  if short then name.take 3 else name

/-- The first digits of the fraction of a second. -/
def fractionDigits (digits : Nat) (m : Moment) : List Char :=
  (Double.padLeft '0' 9 (Double.natDigits m.nanosecond)).take digits

/-- A fraction of a second with no more groups of three digits than it needs. -/
def writeShortestFraction (m : Moment) : List Char :=
  if m.nanosecond = 0 then []
  else if m.nanosecond % 1000000 = 0 then '.' :: fractionDigits 3 m
  else if m.nanosecond % 1000 = 0 then '.' :: fractionDigits 6 m
  else '.' :: fractionDigits 9 m

/-- An offset. -/
def writeOffset (form : OffsetForm) (offset : Int) : List Char :=
  let seconds := offset.natAbs
  let two (n : Nat) := twoDigits .zero n
  let hours := (if offset < 0 then '-' else '+') :: two (seconds / 3600)
  let minutes := two (seconds / 60 % 60)
  match form with
  | .hours => hours
  | .plain => hours ++ minutes
  | .colon => hours ++ ':' :: minutes
  | .seconds => hours ++ ':' :: minutes ++ ':' :: two (seconds % 60)

/-- What a directive writes, if it can be written. -/
def Directive.write? (m : Moment) : Directive → Option (List Char)
  | .literal c => some [c]
  | .number part padding => some (part.write padding m)
  | .weekdayName short => some (nameAt weekdayNames short m.date.weekday)
  | .monthName short => some (nameAt monthNames short (m.date.month - 1))
  | .half upper =>
    let name := if m.hour < 12 then ['A', 'M'] else ['P', 'M']
    some (if upper then name else name.map Char.toLower)
  | .fraction point digits => some ((if point then ['.'] else []) ++ fractionDigits digits m)
  | .shortestFraction => some (writeShortestFraction m)
  | .offset form => some (writeOffset form m.offset)
  | .anyOffset => none

/-- What a list of directives writes. -/
def writeAll? (m : Moment) (ds : List Directive) : Option (List Char) :=
  (ds.mapM (Directive.write? m)).map List.flatten

end Stencil.Date
