import Stencil.Value.Json.Token

/-!
# Reading JSON

The second pass: tokens are read from the left with a stack of the lists and mappings that are
still open. At most 127 of them may be open at once. Of several fields with one key the last
counts, or else they are refused.
-/

namespace Stencil.Json

/-- A list or mapping that is still open, with what it holds so far. -/
inductive Frame where
  /-- The items read, last first. -/
  | list (items : List Value)
  /-- The fields read, and the key whose value is being read. -/
  | dict (fields : Fields) (key : String)

/-- What may come next. -/
inductive Expect where
  /-- A value; `first` says whether the list around it may still be closed without one. -/
  | value (first : Bool)
  /-- A key of the mapping with these fields; `first` as for values. -/
  | key (fields : Fields) (first : Bool)
  /-- The colon after a key. -/
  | colon (fields : Fields) (key : String)
  /-- A comma or the end of what is open, after this value. -/
  | after (value : Value)

/-- How many lists and mappings may be open at once. -/
def maxOpen : Nat := 127

/-- The fields with one more, unless keys are to be unique and the key is there. -/
def addField? (unique : Bool) (key : String) (value : Value) (fields : Fields) : Option Fields :=
  if unique && Fields.hasKey key fields then none else some (Fields.insert key value fields)

/-- Reads tokens until the outermost value is complete and nothing is left. With `unique` a mapping
with two fields of one key is refused. -/
def readTokens (unique : Bool) (stack : List Frame) (expect : Expect) : List Token → Option Value
  | [] =>
    match stack, expect with
    | [], .after value => some value
    | _, _ => none
  | token :: tokens =>
    match expect, token, stack with
    | .value _, .scalar v, _ => readTokens unique stack (.after v) tokens
    | .value _, .str s, _ => readTokens unique stack (.after (.str s)) tokens
    | .value _, .openList, _ =>
      if stack.length < maxOpen then readTokens unique (.list [] :: stack) (.value true) tokens
      else none
    | .value _, .openDict, _ =>
      if stack.length < maxOpen then
        readTokens unique (.dict [] "" :: stack) (.key [] true) tokens
      else none
    | .value true, .closeList, .list _ :: below => readTokens unique below (.after (.list [])) tokens
    | .key fields true, .closeDict, .dict _ _ :: below =>
      readTokens unique below (.after (.dict fields)) tokens
    | .key fields _, .str s, _ => readTokens unique stack (.colon fields s) tokens
    | .colon fields key, .colon, .dict _ _ :: below =>
      readTokens unique (.dict fields key :: below) (.value false) tokens
    | .after value, .comma, .list items :: below =>
      readTokens unique (.list (value :: items) :: below) (.value false) tokens
    | .after value, .closeList, .list items :: below =>
      readTokens unique below (.after (.list (value :: items).reverse)) tokens
    | .after value, .comma, .dict fields key :: _ =>
      match addField? unique key value fields with
      | some fields => readTokens unique stack (.key fields false) tokens
      | none => none
    | .after value, .closeDict, .dict fields key :: below =>
      match addField? unique key value fields with
      | some fields => readTokens unique below (.after (.dict fields)) tokens
      | none => none
    | _, _, _ => none

/-- The value a JSON text spells. -/
def read? (cs : List Char) : Option Value :=
  (tokens? cs).bind (readTokens false [] (.value false))

/-- The value of a JSON text in which no mapping has a key twice. -/
def readUnique? (cs : List Char) : Option Value :=
  (tokens? cs).bind (readTokens true [] (.value false))

end Stencil.Json
