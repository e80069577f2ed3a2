import Stencil.Value.Basic
import Stencil.Double.Reader
import Stencil.Text.Blank

/-!
# Numbers among the values

Which values read as numbers. A double stands in a value only if it is finite; every other result
becomes null. Strings of digits and booleans read as numbers too.
-/

namespace Stencil.Value

/-- A finite double as a value. Reference: `float`. -/
def ofFloat? (x : Float) : Option Value := if Double.isFinite x then some (.float x) else none

/-- A double as a value, null if it is not finite. Reference: `float_or_null`. -/
def ofFloat (x : Float) : Value := (ofFloat? x).getD .null

/-- A bare word as a number: a double if it has a point, else a 64-bit integer.
Reference: `parse_number`. -/
def ofWord? (word : String) : Option Value :=
  let cs := word.toList
  if cs.contains '.' then (Double.readDouble? cs).bind ofFloat?
  else (Double.readInt? cs).map .int

/-- Whether a condition counts the value as true. Reference: `is_truthy`. -/
def isTruthy : Value → Bool
  | .null => false
  | .bool b => b
  | .int n => n != 0
  | .float x => !Double.isZero x
  | .str s => !s.isEmpty
  | .list items => !items.isEmpty
  | .dict fields => !fields.isEmpty

/-- The value read as a double: numbers, number text between blanks, and booleans.
Reference: `to_f64`. -/
def toFloat? : Value → Option Float
  | .int n => some (Double.ofInt n)
  | .float x => some x
  | .str s => Double.readDouble? (Text.trim s.toList)
  | .bool b => some (Double.ofInt b.toNat)
  | _ => none

/-- An integer outside 64 bits goes to the nearest bound. -/
def clampInt (n : Int) : Int := max Double.minInt (min Double.maxInt n)

/-- The value read as a 64-bit integer; the fraction of a double or of a number text is cut off.
Reference: `to_i64`. -/
def toInt? : Value → Option Int
  | .int n => some (clampInt n)
  | .float x => some (Double.toInt x)
  | .str s =>
    let cs := Text.trim s.toList
    match Double.readInt? cs with
    | some n => some n
    | none => (Double.readDouble? cs).map Double.toInt
  | .bool b => some b.toNat
  | _ => none

end Stencil.Value
