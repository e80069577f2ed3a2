import Stencil.Date.Moment
import Stencil.Double.Reader
import Stencil.Text.Split

/-!
# Reading dates and times

A date may be spelled as on the internet (RFC 3339), as in mail (RFC 2822), or in one of a few
patterns. The first spelling that fits the whole text counts. Where there is no offset, the time is
universal time; where there is no time, it is midnight.
-/

namespace Stencil.Date

/-- The parts of a date and time as they are read. -/
structure Stamp where
  year : Int := 0
  month : Nat := 0
  day : Nat := 0
  hour : Nat := 0
  minute : Nat := 0
  second : Nat := 0
  nanos : Nat := 0
  offset : Int := 0
  deriving DecidableEq, Repr

/-- The moment that the parts describe, if there is one. -/
def Stamp.moment? (s : Stamp) : Option Moment :=
  Moment.ofClock? ⟨s.year, s.month, s.day⟩ s.hour s.minute s.second s.nanos s.offset

/-! ## Parts -/

/-- A number of at least `least` and at most `most` digits at the front of a text. -/
def digits? (least most : Nat) (cs : List Char) : Option (Nat × List Char) :=
  let ds := (cs.take most).takeWhile Char.isDigit
  if ds.length < least then none else some (Double.digitsValue ds, cs.drop ds.length)

/-- The text after a given character. -/
def mark? (c : Char) : List Char → Option (List Char)
  | [] => none
  | d :: cs => if c = d then some cs else none

/-- The text after blanks, of which there is at least one. -/
def blanks? : List Char → Option (List Char)
  | [] => none
  | c :: cs => if Text.isBlank c then some (Text.trimStart cs) else none

/-- The text after a word in any case. -/
def word? (word : String) (cs : List Char) : Option (List Char) :=
  let front := cs.take word.length
  if front.map Char.toLower = word.toList.map Char.toLower then some (cs.drop word.length)
  else none

/-- The position in a list of names of the one whose first three letters a text begins with. -/
def shortName? (names : List String) (cs : List Char) : Option (Nat × List Char) :=
  (names.zipIdx).findSome? fun (name, index) =>
    (word? (String.ofList (name.toList.take 3)) cs).map fun rest => (index, rest)

/-- The number of a month at the front of a text, by its short name. -/
def shortMonth? (cs : List Char) : Option (Nat × List Char) :=
  (shortName? monthNames cs).map fun (index, rest) => (index + 1, rest)

/-- The number of a month at the front of a text, by its short or its full name. -/
def month? (cs : List Char) : Option (Nat × List Char) :=
  (shortMonth? cs).map fun (month, rest) =>
    match monthNames[month - 1]? with
    | some name => (month, (word? name cs).getD rest)
    | none => (month, rest)

/-- A fraction of a second in nanoseconds: a point and digits, of which nine count; without a point
it is zero. -/
def fraction? : List Char → Option (Nat × List Char)
  | '.' :: cs => do
    let ds := (cs.take 9).takeWhile Char.isDigit
    if ds.isEmpty then none
    else some (Double.digitsValue ds * Nat.pow 10 (9 - ds.length), cs.dropWhile Char.isDigit)
  | cs => some (0, cs)

/-- The sign of an offset: whether it is negative. The minus sign of typography can be allowed. -/
def offsetSign? (typographic : Bool) : List Char → Option (Bool × List Char)
  | '+' :: cs => some (false, cs)
  | '-' :: cs => some (true, cs)
  | '−' :: cs => if typographic then some (true, cs) else none
  | _ => none

/-- An offset in seconds: a sign, two digits of hours, a separator, and two digits of minutes. -/
def offset? (typographic : Bool) (separator : List Char → Option (List Char)) (cs : List Char) :
    Option (Int × List Char) := do
  let (negative, cs) ← offsetSign? typographic cs
  let (hours, cs) ← digits? 2 2 cs
  let cs ← separator cs
  let (minutes, cs) ← digits? 2 2 cs
  if 60 ≤ minutes then none
  else
    let seconds : Int := (hours * 3600 + minutes * 60 : Nat)
    some (if negative then -seconds else seconds, cs)

/-! ## Dates of the internet -/

/-- A date and time of RFC 3339. -/
def readInternet? (cs : List Char) : Option Moment := do
  let (year, cs) ← digits? 4 4 cs
  let (month, cs) ← digits? 2 2 (← mark? '-' cs)
  let (day, cs) ← digits? 2 2 (← mark? '-' cs)
  let cs ← mark? 'T' cs <|> mark? 't' cs <|> mark? ' ' cs
  let (hour, cs) ← digits? 2 2 cs
  let (minute, cs) ← digits? 2 2 (← mark? ':' cs)
  let (second, cs) ← digits? 2 2 (← mark? ':' cs)
  let (nanos, cs) ← fraction? cs
  let (offset, cs) ← match cs with
    | 'Z' :: rest | 'z' :: rest => some (0, rest)
    | cs => offset? true (mark? ':') cs
  if cs.isEmpty then (Stamp.mk year month day hour minute second nanos offset).moment? else none

/-! ## Dates of mail -/

/-- The zones that mail knows by name, with their hours. -/
def mailZones : List (String × Int) :=
  [("gmt", 0), ("ut", 0), ("edt", -4), ("est", -5), ("cdt", -5), ("cst", -6), ("mdt", -6),
    ("mst", -7), ("pdt", -7), ("pst", -8)]

/-- The hours of a zone by its name. Single letters other than J stand for universal time. -/
def zoneHours? (name : List Char) : Option Int :=
  match name.map Char.toLower with
  | [letter] => if letter = 'j' then none else some 0
  | name => mailZones.lookup (String.ofList name)

/-- The offset of a zone, by its name or in digits. -/
def mailZone? (cs : List Char) : Option (Int × List Char) :=
  let name := cs.takeWhile Char.isAlpha
  if name.isEmpty then offset? false some cs
  else (zoneHours? name).map fun hours => (hours * 3600, cs.drop name.length)

/-- Whether a text consists of blanks and comments. Comments stand in parentheses and can be nested;
a backslash takes the meaning from the character after it. -/
def isComments : (depth : Nat) → (escaped : Bool) → List Char → Bool
  | depth, _, [] => depth == 0
  | 0, _, c :: cs =>
    if c = '(' then isComments 1 false cs else Text.isBlank c && isComments 0 false cs
  | depth + 1, true, _ :: cs => isComments (depth + 1) false cs
  | depth + 1, false, c :: cs =>
    if c = '\\' then isComments (depth + 1) true cs
    else if c = '(' then isComments (depth + 2) false cs
    else if c = ')' then isComments depth false cs
    else isComments (depth + 1) false cs

/-- A year of mail: two digits lie between 1950 and 2049, three count from 1900. -/
def mailYear? (cs : List Char) : Option (Int × List Char) := do
  let (year, rest) ← digits? 2 cs.length cs
  let year : Int := match cs.length - rest.length with
    | 2 => if year < 50 then year + 2000 else year + 1900
    | 3 => year + 1900
    | _ => year
  some (year, rest)

/-- The day of the week in front of a date, with its comma. -/
def mailWeekday? (cs : List Char) : Option (Option Nat × List Char) :=
  match shortName? weekdayNames cs with
  | some (index, rest) => (mark? ',' rest).map fun rest => (some index, rest)
  | none => some (none, cs)

/-- The seconds of a time of mail, which can be left out. -/
def mailSecond? (cs : List Char) : Option (Nat × List Char) :=
  match mark? ':' (Text.trimStart cs) with
  | some rest => digits? 2 2 rest
  | none => some (0, cs)

/-- A date and time of RFC 2822. A day of the week must be that of the date. -/
def readMail? (cs : List Char) : Option Moment := do
  let (weekday, cs) ← mailWeekday? (Text.trimStart cs)
  let (day, cs) ← digits? 1 2 (Text.trimStart cs)
  let (month, cs) ← shortMonth? (← blanks? cs)
  let (year, cs) ← mailYear? (← blanks? cs)
  let (hour, cs) ← digits? 2 2 (← blanks? cs)
  let cs ← mark? ':' (Text.trimStart cs)
  let (minute, cs) ← digits? 2 2 (Text.trimStart cs)
  let (second, cs) ← mailSecond? cs
  let (offset, cs) ← mailZone? (← blanks? cs)
  let moment ← (Stamp.mk year month day hour minute second 0 offset).moment?
  let agrees := weekday.all (· == (Day.mk year month day).weekday)
  if isComments 0 false cs && agrees then some moment else none

/-! ## Patterns -/

/-- An element of a pattern. -/
inductive PatternItem where
  /-- Any number of blanks. -/
  | blanks
  | mark (c : Char)
  /-- Up to four digits, or any number of them after a sign. -/
  | year
  | month
  | day
  | hour
  | minute
  | second
  /-- A fraction of a second, which can be left out. -/
  | fraction
  | shortMonth
  | monthName
  | offset
  deriving DecidableEq, Repr

/-- A year of a pattern. -/
def patternYear? (cs : List Char) : Option (Int × List Char) :=
  match Text.trimStart cs with
  | '-' :: cs => (digits? 1 cs.length cs).map fun (n, rest) => (-(n : Int), rest)
  | '+' :: cs => (digits? 1 cs.length cs).map fun (n, rest) => ((n : Int), rest)
  | cs => (digits? 1 4 cs).map fun (n, rest) => ((n : Int), rest)

/-- The text behind the colons and blanks at its front. -/
def dropColons (cs : List Char) : List Char :=
  cs.dropWhile fun c => c == ':' || Text.isBlank c

/-- Reads one element of a pattern. -/
def PatternItem.read? (item : PatternItem) (s : Stamp) (cs : List Char) :
    Option (Stamp × List Char) :=
  let number (store : Nat → Stamp) : Option (Stamp × List Char) :=
    (digits? 1 2 (Text.trimStart cs)).map fun (n, rest) => (store n, rest)
  match item with
  | .blanks => some (s, Text.trimStart cs)
  | .mark c => (mark? c cs).map fun rest => (s, rest)
  | .year => (patternYear? cs).map fun (n, rest) => ({ s with year := n }, rest)
  | .month => number fun n => { s with month := n }
  | .day => number fun n => { s with day := n }
  | .hour => number fun n => { s with hour := n }
  | .minute => number fun n => { s with minute := n }
  | .second => number fun n => { s with second := n }
  | .fraction => (fraction? cs).map fun (n, rest) => ({ s with nanos := n }, rest)
  | .shortMonth => (shortMonth? cs).map fun (n, rest) => ({ s with month := n }, rest)
  | .monthName => (month? cs).map fun (n, rest) => ({ s with month := n }, rest)
  | .offset =>
    (offset? true (some ∘ dropColons) (Text.trimStart cs)).map fun (n, rest) =>
      ({ s with offset := n }, rest)

/-- Reads a whole text by a pattern. -/
def readPattern? : List PatternItem → Stamp → List Char → Option Moment
  | [], s, cs => if cs.isEmpty then s.moment? else none
  | item :: items, s, cs => do
    let (s, cs) ← item.read? s cs
    readPattern? items s cs

/-- Year, month and day in digits. -/
def numericDate : List PatternItem := [.year, .mark '-', .month, .mark '-', .day]

/-- Day, short name of the month and year. -/
def namedDate : List PatternItem := [.day, .mark '-', .shortMonth, .mark '-', .year]

/-- Hour, minute and second with a fraction. -/
def fullTime : List PatternItem :=
  [.hour, .mark ':', .minute, .mark ':', .second, .fraction]

/-- The patterns, in the order in which they are tried.
Reference: `ZONED_FORMATS`, `NAIVE_DATETIME_FORMATS`, `NAIVE_DATE_FORMATS`. -/
def patterns : List (List PatternItem) := [
  namedDate ++ [.blanks] ++ fullTime ++ [.offset],
  numericDate ++ [.blanks] ++ fullTime ++ [.offset],
  numericDate ++ [.blanks] ++ fullTime,
  numericDate ++ [.mark 'T'] ++ fullTime,
  numericDate ++ [.blanks, .hour, .mark ':', .minute],
  namedDate ++ [.blanks] ++ fullTime,
  numericDate,
  [.day, .blanks, .monthName, .mark ',', .blanks, .year],
  [.day, .blanks, .monthName, .blanks, .year],
  [.monthName, .blanks, .day, .mark ',', .blanks, .year],
  namedDate]

/-- The moment that a text spells, blanks around it aside. Reference: `parse_datetime`. -/
def readMoment? (text : List Char) : Option Moment :=
  let cs := Text.trim text
  readInternet? cs <|> readMail? cs <|> patterns.findSome? fun pattern => readPattern? pattern {} cs

end Stencil.Date
