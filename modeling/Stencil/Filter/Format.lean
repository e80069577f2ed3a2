import Stencil.Filter.Width
import Stencil.Text.Split
import Stencil.Value.Json.Printer
import Stencil.Value.Number
import Stencil.Value.Path

/-!
# Formatting by a specification

A specification is flags, a width, a precision after a point, and one letter for the conversion:
text, integers in three bases, or doubles in two notations. Numbers reach every conversion as
doubles.
-/

namespace Stencil.Filter

/-- A specification taken apart; width and precision are still text. -/
structure Spec where
  flags : List Char
  width : List Char
  precision : Option (List Char)
  conversion : Char
  deriving DecidableEq, Repr

/-- Whether a character is a flag. -/
def isFlag (c : Char) : Bool := "-+ 0#".toList.contains c

/-- Takes a specification apart; it has at least a conversion. -/
def Spec.parse? (cs : List Char) : Option Spec :=
  cs.getLast?.map fun conversion =>
    let body := cs.dropLast
    let sized := body.dropWhile isFlag
    let width := sized.takeWhile (· != '.')
    let precision := match sized.drop width.length with
      | _ :: rest => some rest
      | [] => none
    ⟨body.takeWhile isFlag, width, precision, conversion⟩

/-- A number of 64 bits: digits after an optional plus sign. -/
def readSize? (cs : List Char) : Option Nat := Value.readIndex? (String.ofList cs)

/-- Reads a size and cuts it to the bound. -/
def clampSize? (cs : List Char) : Logged (Option Nat) :=
  match readSize? cs with
  | some n => do
    let width ← clampWidth "stringformat" n
    pure (some width)
  | none => pure none

/-- A number or a truth value as a double. -/
def formatNumber? : Value → Option Float
  | .str _ => none
  | v => v.toFloat?

/-- A natural number in a base. -/
def radixDigits (base : Nat) (n : Nat) : List Char := Nat.toDigits base n

/-- An integer in a base, with a minus sign if it is negative. Reference: `signed_radix`. -/
def signedRadix (base : Nat) (n : Int) : List Char :=
  Double.signed (n < 0) (radixDigits base n.natAbs)

/-- A double in scientific notation with a fixed number of places. Reference: `scientific`. -/
def scientificPlaces (places : Nat) (x : Float) : List Char :=
  match Double.parts x with
  | .nan => "NaN".toList
  | .infinite negative => Double.signed negative "inf".toList
  | .finite negative significand shift =>
    let d := Double.rounded places significand shift
    let digits := Double.natDigits d.significand
    let padded := digits ++ List.replicate (places + 1 - digits.length) '0'
    let lead := d.exponent + digits.length - 1
    Double.signed negative (Double.pointAfterFirst padded ++ 'e' ::
      (if lead < 0 then '-' else '+') :: Double.padLeft '0' 2 (Double.natDigits lead.natAbs))

/-- The converted text before padding, and whether it is a number. -/
def convert? (conversion : Char) (precision : Option Nat) (value : Value) :
    Option (List Char × Bool) :=
  let integer := (formatNumber? value).map Double.toInt
  let float := formatNumber? value
  let numeric (cs : Option (List Char)) : Option (List Char × Bool) := cs.map (·, true)
  match conversion with
  | 's' =>
    let cs := value.displayChars
    some (match precision with
      | some p => cs.take p
      | none => cs, false)
  | 'r' =>
    some (match value with
      | .str s => '\'' :: s.toList ++ ['\'']
      | v => v.displayChars, false)
  | 'd' | 'i' => numeric (integer.map Double.intDigits)
  | 'x' => numeric (integer.map (signedRadix 16))
  | 'X' => numeric (integer.map fun n => (signedRadix 16 n).map Char.toUpper)
  | 'o' => numeric (integer.map (signedRadix 8))
  | 'f' | 'F' => numeric (float.map (Double.fixed (precision.getD 6)))
  | 'e' => numeric (float.map (scientificPlaces (precision.getD 6)))
  | 'E' => numeric (float.map fun x => (scientificPlaces (precision.getD 6) x).map Char.toUpper)
  | _ => none

/-- A sign in front of a number that has none, if a flag asks for it. -/
def addSign (flags : List Char) (cs : List Char) : List Char :=
  if cs.head? = some '-' then cs
  else if flags.contains '+' then '+' :: cs
  else if flags.contains ' ' then ' ' :: cs
  else cs

/-- A text padded to a width: at its right with a minus flag, with zeros after the sign if a flag
asks for it and the text is a number, and else at its left. -/
def padTo (flags : List Char) (numeric : Bool) (width : Nat) (cs : List Char) : List Char :=
  let pad := width - cs.length
  if flags.contains '-' then cs ++ List.replicate pad ' '
  else if flags.contains '0' && numeric then
    let sign := cs.take (match cs with
      | c :: _ => if c = '-' ∨ c = '+' ∨ c = ' ' then 1 else 0
      | [] => 0)
    sign ++ List.replicate pad '0' ++ cs.drop sign.length
  else List.replicate pad ' ' ++ cs

/-- A value formatted by a specification, if both fit together. Reference: `format_one`. -/
def formatWith? (value : Value) (cs : List Char) : Logged (Option (List Char)) :=
  match Spec.parse? cs with
  | none => pure none
  | some spec => do
    let precision ← match spec.precision with
      | some p => do
        let size ← clampSize? p
        pure (size.map some)
      | none => pure (some none)
    match precision with
    | none => pure none
    | some precision => do
      let width ← if spec.width.isEmpty then pure (some 0) else clampSize? spec.width
      match width with
      | none => pure none
      | some width =>
        pure ((convert? spec.conversion precision value).map fun (converted, numeric) =>
          padTo spec.flags numeric width
            (if numeric then addSign spec.flags converted else converted))

/-- Formats a value; a percent sign in front of the specification is ignored.
Reference: `string_format`. -/
def stringFormatValue (value : Value) (spec : String) : Logged Value := do
  let cs := match spec.toList with
    | '%' :: rest => rest
    | rest => rest
  let formatted ← formatWith? value cs
  match formatted with
  | some text => pure (.str (String.ofList text))
  | none => .withEvent (.formatFailed spec value.display) (.str "")

end Stencil.Filter
