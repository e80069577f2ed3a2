import Stencil.Date.Directive
import Stencil.Event

/-!
# Date formats

There are two styles of formats. In the percent style directives begin with a percent sign. In the
letter style every letter of a table is a directive, and a backslash takes that meaning from the
character after it; such a format is rewritten in the percent style.
-/

namespace Stencil.Date

/-- The style of a format. Reference: `DateStyle`. -/
inductive Style where
  | letters
  | percent
  deriving DecidableEq, Repr

/-- The style of a name: `python` in any case is the percent style, all else the letter style. -/
def Style.ofName (name : String) : Style :=
  if name.toList.map Char.toLower = "python".toList then .percent else .letters

/-- Year, month and day with hyphens. -/
def isoDate : List Directive :=
  [.number .year .zero, .literal '-', .number .month .zero, .literal '-', .number .day .zero]

/-- Hour and minute. -/
def clockTime : List Directive := [.number .hour .zero, .literal ':', .number .minute .zero]

/-- Hour, minute and second. -/
def fullClockTime : List Directive := clockTime ++ [.literal ':', .number .second .zero]

/-- Month, day and year of the century with slashes. -/
def slashDate : List Directive :=
  [.number .month .zero, .literal '/', .number .day .zero, .literal '/',
    .number .yearOfCentury .zero]

/-- The date and time of RFC 3339. -/
def internetStamp : List Directive :=
  isoDate ++ [.literal 'T'] ++ fullClockTime ++ [.shortestFraction, .offset .colon]

/-! ## Percent signs -/

/-- What can follow a percent sign. -/
def percentWords : List (String × List Directive) := [
  ("A", [.weekdayName false]),
  ("B", [.monthName false]),
  ("C", [.number .century .zero]),
  ("D", slashDate),
  ("F", isoDate),
  ("G", [.number .weekYear .zero]),
  ("H", [.number .hour .zero]),
  ("I", [.number .hour12 .zero]),
  ("M", [.number .minute .zero]),
  ("P", [.half false]),
  ("R", clockTime),
  ("S", [.number .second .zero]),
  ("T", fullClockTime),
  ("U", [.number .weekFromSunday .zero]),
  ("V", [.number .week .zero]),
  ("W", [.number .weekFromMonday .zero]),
  ("X", fullClockTime),
  ("Y", [.number .year .zero]),
  ("Z", [.offset .colon]),
  ("a", [.weekdayName true]),
  ("b", [.monthName true]),
  ("c", [.weekdayName true, .literal ' ', .monthName true, .literal ' ', .number .day .blank,
    .literal ' '] ++ fullClockTime ++ [.literal ' ', .number .year .zero]),
  ("d", [.number .day .zero]),
  ("e", [.number .day .blank]),
  ("f", [.number .nanosecond .zero]),
  ("g", [.number .weekYearOfCentury .zero]),
  ("h", [.monthName true]),
  ("j", [.number .dayOfYear .zero]),
  ("k", [.number .hour .blank]),
  ("l", [.number .hour12 .blank]),
  ("m", [.number .month .zero]),
  ("n", [.literal '\n']),
  ("p", [.half true]),
  ("q", [.number .quarter .none]),
  ("r", [.number .hour12 .zero, .literal ':', .number .minute .zero, .literal ':',
    .number .second .zero, .literal ' ', .half true]),
  ("s", [.number .epoch .none]),
  ("t", [.literal '\t']),
  ("u", [.number .weekdayFromMonday .none]),
  ("v", [.number .day .blank, .literal '-', .monthName true, .literal '-', .number .year .zero]),
  ("w", [.number .weekdayFromSunday .none]),
  ("x", slashDate),
  ("y", [.number .yearOfCentury .zero]),
  ("z", [.offset .plain]),
  (":z", [.offset .colon]),
  ("::z", [.offset .seconds]),
  (":::z", [.offset .hours]),
  ("#z", [.anyOffset]),
  ("+", internetStamp),
  (".f", [.shortestFraction]),
  (".3f", [.fraction true 3]),
  (".6f", [.fraction true 6]),
  (".9f", [.fraction true 9]),
  ("3f", [.fraction false 3]),
  ("6f", [.fraction false 6]),
  ("9f", [.fraction false 9]),
  ("%", [.literal '%'])]

/-- The padding that a character after a percent sign asks for. -/
def paddingFlag? : Char → Option Padding
  | '-' => some .none
  | '0' => some .zero
  | '_' => some .blank
  | _ => none

/-- A single number with another padding; nothing else can be padded. -/
def repad? (padding : Padding) : List Directive → Option (List Directive)
  | [.number part _] => some [.number part padding]
  | _ => none

/-- The directives of the word at the front of a text, and its length. -/
def percentWord? (cs : List Char) : Option (List Directive × Nat) :=
  (percentWords.find? fun (word, _) => word.toList.isPrefixOf cs).map fun (word, ds) =>
    (ds, word.length)

/-- The directives of what follows a percent sign, and its length. -/
def percentDirectives? : List Char → Option (List Directive × Nat)
  | [] => none
  | c :: cs =>
    match paddingFlag? c with
    | none => percentWord? (c :: cs)
    | some padding => do
      let (ds, length) ← percentWord? cs
      let ds ← repad? padding ds
      some (ds, length + 1)

/-- The directives of the end of a format, of which `skip` characters have been read already. -/
def ofPercentFrom? : (skip : Nat) → List Char → Option (List Directive)
  | _, [] => some []
  | skip + 1, _ :: cs => ofPercentFrom? skip cs
  | 0, c :: cs =>
    if c = '%' then
      match percentDirectives? cs with
      | none => none
      | some (ds, length) => (ofPercentFrom? length cs).map (ds ++ ·)
    else (ofPercentFrom? 0 cs).map (.literal c :: ·)

/-- Makes `%f` stand for microseconds. Characters after a percent sign are taken in pairs with it,
so that `%%f` is left alone. -/
def withMicroseconds : List Char → List Char
  | [] => []
  | ['%'] => ['%']
  | '%' :: c :: cs =>
    (if c = 'f' then ['%', '6', 'f'] else ['%', c]) ++ withMicroseconds cs
  | c :: cs => c :: withMicroseconds cs

/-! ## Letters -/

/-- The percent style of each letter that has a meaning; some letters stand for nothing.
Reference: `django_directive`. -/
def letterWords : List (Char × String) := [
  ('d', "%d"), ('j', "%-d"), ('D', "%a"), ('l', "%A"), ('w', "%w"), ('z', "%-j"), ('W', "%V"),
  ('m', "%m"), ('n', "%-m"), ('M', "%b"), ('E', "%B"), ('F', "%B"), ('y', "%y"), ('Y', "%Y"),
  ('o', "%G"), ('g', "%-I"), ('G', "%-H"), ('h', "%I"), ('H', "%H"), ('i', "%M"), ('s', "%S"),
  ('u', "%6f"), ('A', "%p"), ('e', "%Z"), ('O', "%z"), ('c', "%+"),
  ('r', "%a, %d %b %Y %H:%M:%S %z"), ('U', "%s"), ('I', ""), ('T', ""), ('Z', "")]

/-- A character that stands for itself, in the percent style. Reference: `push_literal`. -/
def percentLiteral (c : Char) : List Char := if c = '%' then ['%', '%'] else [c]

/-- A character of the letter style in the percent style. -/
def percentOfChar (c : Char) : List Char :=
  match letterWords.lookup c with
  | some word => word.toList
  | none => percentLiteral c

/-- A format of the letter style in the percent style. A backslash at the end stands for nothing. -/
def percentOfLetters : List Char → List Char
  | [] => []
  | ['\\'] => []
  | '\\' :: c :: cs => percentLiteral c ++ percentOfLetters cs
  | c :: cs => percentOfChar c ++ percentOfLetters cs

/-! ## Formats -/

/-- A format in the percent style. Reference: `to_strftime`. -/
def Style.toPercent : Style → List Char → List Char
  | .letters => percentOfLetters
  | .percent => withMicroseconds

/-- Formats a moment. A format without a meaning, or one that cannot be written, gives nothing.
Reference: `format_datetime`. -/
def format (m : Moment) (style : Style) (text : List Char) : Logged (Option (List Char)) :=
  let text := style.toPercent text
  match ofPercentFrom? 0 text with
  | none => .withEvent (.dateDirectiveUnsupported (String.ofList text)) none
  | some ds =>
    match writeAll? m ds with
    | none => .withEvent (.dateUnformattable (String.ofList text)) none
    | some out => pure (some out)

end Stencil.Date
