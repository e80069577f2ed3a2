import Stencil.Event
import Stencil.Text.Layout
import Stencil.Value.Json.Printer
import Stencil.Value.Number

/-!
# Filters on numbers

Addition, divisibility, sizes of files, rounding and single digits.
-/

namespace Stencil.Filter

/-! ## Addition -/

/-- A number as an addend. Reference: `Num`. -/
inductive Addend where
  | int (n : Int)
  | float (x : Float)

/-- An addend as a double. -/
def Addend.toFloat : Addend → Float
  | .int n => Double.ofInt n
  | .float x => x

/-- A value that reads as a number: a number of 64 bits, or a string that is an integer or has a
point and is a double. Reference: `numeric`. -/
def addend? : Value → Option Addend
  | .int n => if Double.fits n then some (.int n) else none
  | .float x => some (.float x)
  | .str s =>
    let cs := Text.trim s.toList
    match Double.readInt? cs with
    | some n => some (.int n)
    | none => if cs.contains '.' then (Double.readDouble? cs).map .float else none
  | _ => none

/-- The sum of two addends; a sum of integers beyond 64 bits is a double. -/
def addNumbers (a b : Addend) : Value :=
  match a, b with
  | .int m, .int n =>
    if Double.fits (m + n) then .int (m + n)
    else Value.ofFloat (Double.ofInt m + Double.ofInt n)
  | a, b => Value.ofFloat (a.toFloat + b.toFloat)

/-- Adds two numbers, concatenates two lists, and otherwise concatenates texts. Reference: `add`. -/
def addValues (value operand : Value) : Logged Value :=
  match value, operand with
  | .list as, .list bs => pure (.list (as ++ bs))
  | .null, _ | .list _, _ | .dict _, _ | _, .list _ =>
    .withEvent (.cannotAdd value.type operand.type) .null
  | _, _ =>
    match addend? value, addend? operand with
    | some a, some b => pure (addNumbers a b)
    | _, _ => pure (.str (value.display ++ operand.display))

/-! ## Divisibility -/

/-- Whether a positive number is a multiple of another, both taken as doubles.
Reference: `divisible_by`. -/
def divisible (value divisor : Value) : Logged Value :=
  match value with
  | .str _ | .int _ | .float _ =>
    let left := (value.toFloat?).getD (Double.ofInt 0)
    let right := (divisor.toFloat?).getD (Double.ofInt 0)
    let positive (x : Float) : Bool := Double.order? x (Double.ofInt 0) == some .gt
    if positive left && positive right then pure (.bool (Double.isZero (Double.rem left right)))
    else .withEvent (.notPositive left right) .null
  | _ => .withEvent (.unusable "divisibleby" value.type) .null

/-! ## Sizes of files -/

/-- The units of sizes, each 1024 times the one before. Reference: `SIZE_UNITS`. -/
def sizeUnits : List String :=
  ["KiB", "MiB", "GiB", "TiB", "PiB", "EiB", "ZiB", "YiB"]

/-- A size in the greatest of some units that is not above it; `unit` is the unit it is in. -/
def scaleSize (size : Float) (unit : String) : List String → Float × String
  | [] => (size, unit)
  | next :: units =>
    match Double.order? size (Double.ofInt 1024) with
    | some .gt | some .eq => scaleSize (size / Double.ofInt 1024) next units
    | _ => (size, unit)

/-- A decimal without zeros at its end, and without a point there. -/
def trimZeros (cs : List Char) : List Char :=
  Text.dropEndWhile (· == '.') (Text.dropEndWhile (· == '0') cs)

/-- A number of bytes in a unit that suits it. Reference: `file_size_format`. -/
def fileSize (value : Value) : Logged Value :=
  let size := match value with
    | .str _ | .int _ | .float _ => value.toFloat?
    | _ => none
  match size with
  | none => .withEvent (.notASize value.display) .null
  | some size =>
    let (scaled, unit) := scaleSize size "bytes" sizeUnits
    pure (.str (String.ofList (trimZeros (Double.fixed 2 scaled)) ++ " " ++ unit))

/-! ## Rounding -/

/-- How many places a number can be rounded to. -/
def maxPlaces : Nat := 65535

/-- The double nearest to another one rounded to some places. -/
def roundTo (places : Nat) (x : Float) : Float :=
  match Double.parts x with
  | .finite negative significand shift =>
    Double.ofRatio negative
      (Double.roundDiv (significand * Nat.pow 2 shift * Nat.pow 10 places)
        Double.unitsPerOne) (Nat.pow 10 places)
  | _ => x

/-- A rounded number with no more places than it needs. -/
def roundedText (x : Float) : List Char :=
  if Double.isWhole x then
    match Double.trunc? x with
    | some n => if n.natAbs < 9000000000000000000 then Double.intDigits n else Double.fixed 0 x
    | none => []
  else Double.Layout.display.text x

/-- A number with a fixed number of places; a negative number of places drops what is not
needed. -/
def formatPlaces (decimals : Int) (x : Float) : List Char :=
  let places := min decimals.natAbs maxPlaces
  if 0 ≤ decimals then Double.fixed places x else roundedText (roundTo places x)

/-- Rounds a number; null and the empty string count as zero. Reference: `float_format`. -/
def floatFormatValue (value decimals : Value) : Logged Value :=
  let places := (decimals.toInt?).getD (-1)
  let number := match value with
    | .null => some (Double.ofInt 0)
    | .str s => if s.isEmpty then some (Double.ofInt 0) else value.toFloat?
    | _ => value.toFloat?
  match number with
  | some x => pure (.str (String.ofList (formatPlaces places x)))
  | none => .withEvent (.notANumber value.display) value

/-! ## Digits -/

/-- The digit at a position from the right in the text of a number; the value itself if there is
none. -/
def digitOf (value : Value) (digits : List Char) (position : Value) : Logged Value :=
  match position.toInt? with
  | none => .withEvent (.digitPositionUnreadable position.display) value
  | some p =>
    if 1 ≤ p ∧ p ≤ digits.length then
      match digits.reverse[p.toNat - 1]? with
      | some d =>
        if d.isDigit then pure (.int (d.toNat - 48 : Nat))
        else .withEvent (.notADigit (String.ofList digits) p) value
      | none => .withEvent (.notADigit (String.ofList digits) p) value
    else .withEvent (.digitPositionOutOfRange digits.length p) value

/-- A digit of an integer or of a string. Reference: `get_digit`. -/
def digitAt (value position : Value) : Logged Value :=
  match value with
  | .str s => digitOf value s.toList position
  | .int n => digitOf value (Double.intDigits n) position
  | _ => .withEvent (.unusable "get_digit" value.type) value

end Stencil.Filter
