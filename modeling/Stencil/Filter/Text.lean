import Stencil.Filter.Width
import Stencil.Text.Substitute
import Stencil.Value.Json.Printer
import Stencil.Value.Number

/-!
# Filters on text

How values reach the filters that work on text, and those among them that take more than text:
padding, plural endings, choices and line numbers.
-/

namespace Stencil.Filter

/-- The text of a string, a number or a truth value; other values are no text.
Reference: `as_text`. -/
def text? (filter : String) (value : Value) : Logged (Option (List Char)) :=
  match value with
  | .null | .list _ | .dict _ => .withEvent (.unusable filter value.type) none
  | v => pure (some v.displayChars)

/-- Applies a function to the text of a value; null if it has none. Reference: `map_text`. -/
def mapText (filter : String) (value : Value) (f : List Char → List Char) : Logged Value := do
  let cs ← text? filter value
  pure (match cs with
    | some cs => .str (String.ofList (f cs))
    | none => .null)

/-- Applies a function that takes a count. Without a readable count the text stays as it is.
Reference: `with_count`. -/
def mapCounted (filter : String) (value count : Value) (f : Int → List Char → List Char) :
    Logged Value := do
  let cs ← text? filter value
  match cs with
  | none => pure .null
  | some cs =>
    match count.toInt? with
    | some n => pure (.str (String.ofList (f n cs)))
    | none =>
      let same := Value.str (String.ofList cs)
      match count with
      | .null => pure same
      | _ => .withEvent (.countUnreadable filter count.display) same

/-- The width and the fill character of a padding. Reference: `width_and_fill`. -/
def widthAndFill (width fill : Value) : Logged (Nat × Char) := do
  let fill := (fill.displayChars.head?).getD ' '
  match width.toInt? with
  | some w =>
    if w < 0 then pure (0, fill)
    else do
      let w ← clampWidth "padding" w.toNat
      pure (w, fill)
  | none => pure (0, fill)

/-- Pads the text of a value. -/
def padText (filter : String) (value width fill : Value)
    (pad : Char → Nat → List Char → List Char) : Logged Value := do
  let cs ← text? filter value
  match cs with
  | none => pure .null
  | some cs => do
    let (width, fill) ← widthAndFill width fill
    pure (.str (String.ofList (pad fill width cs)))

/-- Whether a value is one of something: the number one, a string that reads as one or as no
number, or a collection of one item. Null says nothing. -/
def isSingular? : Value → Option Bool
  | .null => none
  | .str s =>
    match Double.readDouble? (Text.trim s.toList) with
    | some x => some (Double.eq x (Double.ofInt 1))
    | none => some true
  | .list items => some (items.length == 1)
  | .dict fields => some (fields.length == 1)
  | v => some (match v.toFloat? with
    | some x => Double.eq x (Double.ofInt 1)
    | none => false)

/-- The ending that suits a number: one ending for the plural, or two with a comma between them.
More than two are none. Reference: `pluralize`. -/
def pluralEnding (value : Value) (suffixes : List Char) : List Char :=
  match Text.splitOn ',' suffixes, isSingular? value with
  | [plural], some one => if one then [] else plural
  | [singular, plural], some one => if one then singular else plural
  | _, _ => []

/-- The choice for true, false or null among two or three choices; other numbers of choices give the
value back. Reference: `yes_no`. -/
def choose (value : Value) (choices : List Char) : Value :=
  let pick (yes no maybe : List Char) : Value :=
    .str (String.ofList (match value with
      | .null => maybe
      | v => if v.isTruthy then yes else no))
  match Text.splitOn ',' choices with
  | [yes, no] => pick yes no no
  | [yes, no, maybe] => pick yes no maybe
  | _ => value

/-! ## Line numbers -/

/-- The lines of a value: those of a string, where a backslash with the letter `n` counts as a line
break too, or the items of a list. -/
def linesOf? : Value → Option (List (List Char))
  | .str s => some (Text.splitOn '\n' (Text.replaceAll ['\\', 'n'] ['\n'] s.toList))
  | .list items => some (items.map Value.displayChars)
  | _ => none

/-- Lines with their numbers, a symbol, and blanks up to a column. A number is moved on before its
line is looked at, and once more behind the last line; beyond 64 bits the run halts. -/
def numberLines (symbol : List Char) (column : Nat) :
    (number : Int) → List (List Char) → Logged (List Char)
  | number, [] => do
    let _ ← Logged.sum number 1
    pure []
  | number, line :: lines => do
    let next ← Logged.sum number 1
    let label := Double.intDigits number ++ symbol
    let rest ← numberLines symbol column next lines
    pure (label ++ List.replicate (column - label.length) ' ' ++ line ++ '\n' :: rest)

/-- The gap that an argument asks for. -/
def lineGap (gap : Value) : Logged Nat :=
  match gap.toInt? with
  | some g => if g < 0 then pure 1 else clampWidth "linenumbers" g.toNat
  | none => pure 1

/-- Numbers the lines of a value from a start, with a gap before the text.
Reference: `line_numbers`. -/
def lineNumbersValue (value start gap symbol : Value) : Logged Value :=
  match linesOf? value with
  | none => .withEvent (.unusable "linenumbers" value.type) .null
  | some lines => do
    let first := (start.toInt?).getD 1
    let gap ← lineGap gap
    let symbol := symbol.displayChars
    let last := Value.clampInt (first + lines.length - 1)
    let column := (Double.intDigits last).length + symbol.length + gap
    let numbered ← numberLines symbol column first lines
    pure (.str (String.ofList numbered))

end Stencil.Filter
