import Stencil.Event
import Stencil.Text.Case
import Stencil.Value.Json.Printer
import Stencil.Value.Number
import Stencil.Value.Path

/-!
# Finding mappings by a field

The mappings of a list whose field, found by a path, has a given value. The value is first brought
to the type of the field.
-/

namespace Stencil.Filter

/-- A whole double as an integer of 64 bits. -/
def wholeInt? (x : Float) : Option Int :=
  if Double.isWhole x then some (Double.toInt x) else none

/-- An expected value as an integer. -/
def expectedInt? : Value → Option Int
  | .int n => if Double.fits n then some n else wholeInt? (Double.ofInt n)
  | .float x => wholeInt? x
  | .str s => Double.readInt? (Text.trim s.toList)
  | .bool b => some b.toNat
  | _ => none

/-- An expected value as a truth value. -/
def expectedBool? : Value → Option Bool
  | .bool b => some b
  | .str s =>
    match String.ofList (Text.lower (Text.trim s.toList)) with
    | "true" | "1" => some true
    | "false" | "0" => some false
    | _ => none
  | .int n => some (Value.isTruthy (.int n))
  | .float x => some (Value.isTruthy (.float x))
  | _ => none

/-- An expected value brought to the type of a field, if it can be. Reference: `coerce_like`. -/
def coerceLike? (field expected : Value) : Option Value :=
  match expected, field with
  | .null, _ | _, .null => none
  | _, .str _ => some (.str expected.display)
  | _, .int _ => (expectedInt? expected).map .int
  | _, .float _ => (expected.toFloat?).bind Value.ofFloat?
  | _, .bool _ => (expectedBool? expected).map .bool
  | _, .list _ | _, .dict _ => some expected

/-- Whether the field at a path has the expected value. Reference: `field_matches`. -/
def fieldMatches (path : String) (expected item : Value) : Bool :=
  match item.walk path with
  | .ok field =>
    match coerceLike? field expected with
    | some e => Value.same e field
    | none => false
  | .error _ => false

/-- The items of a list whose field has a value; none if the path is empty. -/
def matching (items : List Value) (path : String) (expected : Value) : List Value :=
  if path.isEmpty then [] else items.filter (fieldMatches path expected)

/-- The first match, or null. Reference: `find_where`. -/
def findValue (value key expected : Value) : Logged Value :=
  match value with
  | .list items => pure ((matching items key.display expected).head?.getD .null)
  | _ => .withEvent (.unusable "where" value.type) .null

/-- All matches. Reference: `find_where_all`. -/
def findAllValue (value key expected : Value) : Logged Value :=
  match value with
  | .list items => pure (.list (matching items key.display expected))
  | _ => .withEvent (.unusable "whereall" value.type) .null

end Stencil.Filter
