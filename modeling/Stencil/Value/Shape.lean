import Stencil.Value.Basic

/-!
# Shapes of values

What a caller wants a value to be: of one type, a number of either kind, or anything.
-/

namespace Stencil

/-- What a value is asked to be. Reference: `Kind`. -/
inductive Shape where
  | any
  /-- Anything; the name of its type is wanted in its place. -/
  | typeName
  | dict
  | list
  | str
  | bool
  /-- An integer or a double. -/
  | number
  | int
  | float
  deriving DecidableEq, Repr

/-- Whether a type has a shape. Reference: `accepts`. -/
def Shape.accepts : Shape → ValueType → Bool
  | .any, _ | .typeName, _ => true
  | .dict, type => type == .dict
  | .list, type => type == .list
  | .str, type => type == .str
  | .bool, type => type == .bool
  | .number, type => type == .int || type == .float
  | .int, type => type == .int
  | .float, type => type == .float

/-- The word for a shape in messages. -/
def Shape.name : Shape → String
  | .any => "Any"
  | .typeName => "Type"
  | .dict => "Dict"
  | .list => "List"
  | .str => "Str"
  | .bool => "Bool"
  | .number => "Number"
  | .int => "Int"
  | .float => "Float"

end Stencil
