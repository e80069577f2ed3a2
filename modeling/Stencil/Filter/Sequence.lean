import Stencil.Event
import Stencil.Text.Substitute
import Stencil.Value.Json.Printer
import Stencil.Value.Number

/-!
# Filters on sequences

Ends, lengths, joining and nested lists of sequences.
-/

namespace Stencil.Filter

/-- A string of one character. -/
def charValue (c : Char) : Value := .str (String.ofList [c])

/-- The items of a list, or the characters of a string. -/
def items? : Value → Option (List Value)
  | .list items => some items
  | .str s => some (s.toList.map charValue)
  | _ => none

/-- An item that a function picks among the items of a list or the characters of a string.
Reference: `pick`, `first`, `last`, `random`. -/
def pickItem (filter : String) (value : Value) (pick : List Value → Option Value) :
    Logged Value :=
  match items? value with
  | none => .withEvent (.unusable filter value.type) .null
  | some items =>
    match pick items with
    | some v => pure v
    | none => .withEvent (.emptyValue filter) .null

/-- The parts of a string between separators, or the items of a list that are neither null nor
collections, joined. Reference: `join`. -/
def joinValue (value : Value) (joiner splitter : List Char) : Logged Value :=
  let parts := match value with
    | .str s => some (Text.splitBy splitter s.toList)
    | .list items => some ((items.filter fun
        | .str _ | .int _ | .float _ | .bool _ => true
        | _ => false).map Value.displayChars)
    | _ => none
  match parts with
  | some parts => pure (.str (String.ofList (Text.joinWith joiner parts)))
  | none => .withEvent (.unusable "join" value.type) .null

/-- How many characters, items or fields a value has. Reference: `size`. -/
def size? : Value → Option Nat
  | .str s => some s.length
  | .list items => some items.length
  | .dict fields => some fields.length
  | _ => none

/-- The size of a value, increased by a number. A sum beyond 64 bits halts the run.
Reference: `length`. -/
def lengthValue (value extra : Value) : Logged Value :=
  match size? value with
  | some n => do
    let sum ← Logged.sum n ((extra.toInt?).getD 0)
    pure (.int sum)
  | none => .withEvent (.unusable "length" value.type) .null

/-- Whether a value has a size. Reference: `length_is`. -/
def lengthIsValue (value expected : Value) : Logged Value :=
  match size? value with
  | some n => pure (.bool (some (n : Int) == expected.toInt?))
  | none => .withEvent (.unusable "length_is" value.type) (.bool false)

/-- The characters of a text or the digits of a number as a list. Reference: `make_list`. -/
def makeListValue (value : Value) : Logged Value :=
  match value with
  | .str _ | .int _ | .float _ => pure (.list (value.displayChars.map charValue))
  | .list _ => pure value
  | _ => .withEvent (.unusable "make_list" value.type) .null

/-! ## Nested lists -/

/-- The lines of list items. A list right after an item holds what is below that item.
Reference: `list_items`. -/
def listLines (depth : Nat) : List Value → List (List Char)
  | [] => []
  | item :: .list children :: rest =>
    let indent := List.replicate depth '\t'
    let below := if children.isEmpty then [] else
      '\n' :: indent ++ "<ul>\n".toList ++ Text.joinWith ['\n'] (listLines (depth + 1) children) ++
        '\n' :: indent ++ "</ul>\n".toList ++ indent
    (indent ++ "<li>".toList ++ item.displayChars ++ below ++ "</li>".toList) ::
      listLines depth rest
  | item :: rest =>
    (List.replicate depth '\t' ++ "<li>".toList ++ item.displayChars ++ "</li>".toList) ::
      listLines depth rest

/-- A list as the items of an HTML list. Reference: `unordered_list`. -/
def unorderedListValue (value : Value) : Logged Value :=
  match value with
  | .list items => pure (.str (String.ofList (Text.joinWith ['\n'] (listLines 1 items))))
  | _ => .withEvent (.unusable "unordered_list" value.type) .null

end Stencil.Filter
