import Stencil.Double.Basic

/-!
# Values

The data a template reads: null, booleans, integers, doubles, strings, lists and mappings from
strings. An integer and a double are kept apart even where they are the same number. A mapping is
a list of fields with strictly increasing keys; `Value.Fields` has its operations.
-/

namespace Stencil

/-- A value of a dataset. -/
inductive Value where
  | null
  | bool (b : Bool)
  | int (n : Int)
  | float (x : Float)
  | str (s : String)
  | list (items : List Value)
  | dict (fields : List (String × Value))
  deriving Inhabited

/-- The fields of a mapping, in order of their keys. -/
abbrev Fields := List (String × Value)

/-- A dataset is the fields of one mapping. -/
abbrev Dataset := Fields

/-- The type of a value. -/
inductive ValueType where
  | null
  | bool
  | int
  | float
  | str
  | list
  | dict
  deriving DecidableEq, Repr

/-- The word for a type, as templates and messages spell it. -/
def ValueType.name : ValueType → String
  | .null => "null"
  | .bool => "bool"
  | .int => "int"
  | .float => "float"
  | .str => "str"
  | .list => "list"
  | .dict => "dict"

namespace Value

/-- The type of a value. -/
def type : Value → ValueType
  | .null => .null
  | .bool _ => .bool
  | .int _ => .int
  | .float _ => .float
  | .str _ => .str
  | .list _ => .list
  | .dict _ => .dict

mutual

/-- Whether two values have the same structure. Doubles are compared by value, and an integer is
never the same as a double. -/
def same : Value → Value → Bool
  | .null, .null => true
  | .bool a, .bool b => a == b
  | .int a, .int b => a == b
  | .float a, .float b => Double.eq a b
  | .str a, .str b => a == b
  | .list as, .list bs => sameItems as bs
  | .dict as, .dict bs => sameFields as bs
  | _, _ => false

/-- Whether two lists have the same items in the same order. -/
def sameItems : List Value → List Value → Bool
  | [], [] => true
  | a :: as, b :: bs => same a b && sameItems as bs
  | _, _ => false

/-- Whether two mappings have the same keys with the same values. -/
def sameFields : List (String × Value) → List (String × Value) → Bool
  | [], [] => true
  | (j, a) :: as, (k, b) :: bs => j == k && same a b && sameFields as bs
  | _, _ => false

end

end Value

namespace Fields

/-- The value under a key. -/
def get? (key : String) : Fields → Option Value
  | [] => none
  | (k, v) :: fields => if k = key then some v else get? key fields

/-- The fields with a key set to a value, in order of the keys. -/
def insert (key : String) (value : Value) : Fields → Fields
  | [] => [(key, value)]
  | (k, v) :: fields =>
    if key < k then (key, value) :: (k, v) :: fields
    else if key = k then (key, value) :: fields
    else (k, v) :: insert key value fields

/-- Fields from a list of pairs; the last of several pairs with one key counts. -/
def ofList (pairs : List (String × Value)) : Fields :=
  pairs.foldl (fun fields pair => insert pair.1 pair.2 fields) []

/-- The first fields overlaid with the second: a key of the second wins. -/
def merge (fields delta : Fields) : Fields :=
  delta.foldl (fun acc pair => insert pair.1 pair.2 acc) fields

/-- Whether a key is present. -/
def hasKey (key : String) (fields : Fields) : Bool := (get? key fields).isSome

end Fields

end Stencil
