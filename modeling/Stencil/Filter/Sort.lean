import Stencil.Event
import Stencil.Text.Case
import Stencil.Value.Json.Printer
import Stencil.Value.Number
import Stencil.Value.Path

/-!
# Sorting by a key

A list of mappings is sorted by what a path leads to in each, a list of lists by an index. The
order is stable. Keys are all strings, or all numbers and truth values compared as doubles.
-/

namespace Stencil.Filter

/-- The order of two sort keys, if they can be compared. Reference: `sort_order`. -/
def keyOrder? (a b : Value) : Option Ordering :=
  match a, b with
  | .str x, .str y => some (if x < y then .lt else if x = y then .eq else .gt)
  | .int _, .int _ | .int _, .float _ | .int _, .bool _ | .float _, .int _ | .float _, .float _
  | .float _, .bool _ | .bool _, .int _ | .bool _, .float _ | .bool _, .bool _ =>
    match a.toFloat?, b.toFloat? with
    | some x, some y => Double.order? x y
    | _, _ => none
  | _, _ => none

/-- Why an item has no sort key. -/
inductive SortKeyError where
  | path (reason : WalkError)
  /-- A list has no item at the index. -/
  | outOfRange (index : Int)
  /-- The item is no list. -/
  | notAList (type : ValueType)
  deriving DecidableEq, Repr

/-- The message of a sort key error. -/
def SortKeyError.message : SortKeyError → String
  | .path reason => reason.message
  | .outOfRange index => "index " ++ String.ofList (Double.intDigits index) ++ " out of range"
  | .notAList type => "cannot index into " ++ type.name

/-- The item of a list at an index, which counts from the end if it is negative.
Reference: `nth`. -/
def itemAt (index : Int) (item : Value) : Except SortKeyError Value :=
  match item with
  | .list inner =>
    let place := if index < 0 then inner.length + index else index
    match (if place < 0 then none else inner[place.toNat]?) with
    | some v => .ok v
    | none => .error (.outOfRange index)
  | v => .error (.notAList v.type)

/-- What reads the sort key of an item: the kind of the first item decides for all. -/
def keyReader? (first key : Value) : Option (Value → Except SortKeyError Value) :=
  match first with
  | .dict _ => some fun item => (item.walk key.display).mapError .path
  | .list _ => some (itemAt ((key.toInt?).getD 0))
  | _ => none

/-- Whether an order asks for the greatest first. -/
def isDescending (order : Value) : Bool :=
  (Text.lower order.displayChars).head? == some 'r'

/-- Pairs of a key and an item in order of their keys. -/
def sortPairs (descending : Bool) (pairs : List (Value × Value)) : List (Value × Value) :=
  pairs.mergeSort fun a b =>
    match keyOrder? a.1 b.1 with
    | some .lt => !descending
    | some .gt => descending
    | _ => true

/-- A list sorted by a key; null if some item has no key or two keys cannot be compared.
Reference: `dict_sort`. -/
def sortValue (value key order : Value) : Logged Value :=
  match value with
  | .list [] => pure (.list [])
  | .list (item :: rest) =>
    match keyReader? item key with
    | none => .withEvent (.unusable "dictsort" item.type) .null
    | some readKey =>
      match (item :: rest).mapM fun item => (readKey item).map fun k => (k, item) with
      | .error reason => .withEvent (.sortKeyUnreadable key.display reason.message) .null
      | .ok pairs =>
        let firstKey := (pairs.head?.map Prod.fst).getD .null
        if pairs.any fun pair => (keyOrder? firstKey pair.1).isNone then
          .withEvent (.sortKeysIncomparable key.display) .null
        else pure (.list ((sortPairs (isDescending order) pairs).map Prod.snd))
  | _ => .withEvent (.unusable "dictsort" value.type) .null

end Stencil.Filter
