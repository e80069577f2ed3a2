import Stencil.Condition.Number
import Stencil.Text.Split

/-!
# Comparing values

Numbers are equal by value whatever their type, lists item by item, and everything else by
structure. Strings are ordered by code points, lists like words in a dictionary, numbers by value;
other values have no order.
-/

namespace Stencil.Condition

/-- Whether two numbers have the same value. -/
def Number.eq : Number → Number → Bool
  | .int x, .int y => x == y
  | a, b => Double.eq a.toFloat b.toFloat

/-- The order of two numbers; one side being a double, both are compared as doubles. -/
def Number.order? : Number → Number → Option Ordering
  | .int x, .int y => some (Ord.compare x y)
  | a, b => Double.order? a.toFloat b.toFloat

mutual

/-- Equality in conditions. Reference: `equals`. -/
def equals : Value → Value → Bool
  | .list as, .list bs => equalItems as bs
  | left, right =>
    match Number.ofValue? left, Number.ofValue? right with
    | some a, some b => a.eq b
    | _, _ => Value.same left right

/-- Equality of lists, item by item. -/
def equalItems : List Value → List Value → Bool
  | [], [] => true
  | a :: as, b :: bs => equals a b && equalItems as bs
  | _, _ => false

end

/-- The order of two strings by code points. -/
def stringOrder (a b : String) : Ordering := if a < b then .lt else if a = b then .eq else .gt

mutual

/-- The order of two values, if they have one. Reference: `order`. -/
def order? : Value → Value → Option Ordering
  | .str a, .str b => some (stringOrder a b)
  | .list as, .list bs => itemsOrder? as bs
  | left, right =>
    match Number.ofValue? left, Number.ofValue? right with
    | some a, some b => a.order? b
    | _, _ => none

/-- The order of two lists: that of their first unequal items, else that of their lengths. -/
def itemsOrder? : List Value → List Value → Option Ordering
  | [], [] => some .eq
  | [], _ :: _ => some .lt
  | _ :: _, [] => some .gt
  | a :: as, b :: bs => if equals a b then itemsOrder? as bs else order? a b

end

/-- Whether a value is in a string, a list or the keys of a mapping. Reference: `contains`. -/
def contains (haystack needle : Value) : Except Error Bool :=
  match haystack, needle with
  | .str h, .str n => .ok (Text.contains n.toList h.toList)
  | .list items, _ => .ok (items.any (equals · needle))
  | .dict fields, .str key => .ok (Fields.hasKey key fields)
  | _, _ => .error (.operandTypes "in" needle.type haystack.type)

/-- Whether two values have the same type and structure. -/
def identical (left right : Value) : Bool := left.type == right.type && Value.same left right

/-- A comparison by order. -/
def ordered (symbol : String) (accept : Ordering → Bool) (left right : Value) :
    Except Error Bool :=
  match order? left right with
  | some o => .ok (accept o)
  | none => .error (.operandTypes symbol left.type right.type)

/-- One link of a comparison. Reference: `compare`. -/
def compare (op : CompareOp) (left right : Value) : Except Error Bool :=
  match op with
  | .eq => .ok (equals left right)
  | .ne => .ok (!equals left right)
  | .lt => ordered "<" Ordering.isLT left right
  | .le => ordered "<=" Ordering.isLE left right
  | .gt => ordered ">" Ordering.isGT left right
  | .ge => ordered ">=" Ordering.isGE left right
  | .isIn => contains right left
  | .notIn => (contains right left).map (!·)
  | .is => .ok (identical left right)
  | .isNot => .ok (!identical left right)

end Stencil.Condition
