import Stencil.Value.Basic
import Stencil.Double.Layout

/-!
# JSON text of values

The compact form has no blanks, the indented form two spaces for each level. Strings escape only
the quote, the backslash and the characters below space.
-/

namespace Stencil.Value

/-- A digit of a hexadecimal number, in lower case. -/
def hexDigit (n : Nat) : Char := Nat.digitChar n

/-- A character inside a JSON string. -/
def jsonChar (c : Char) : List Char :=
  if c = '"' then ['\\', '"']
  else if c = '\\' then ['\\', '\\']
  else if c = '\n' then ['\\', 'n']
  else if c = '\r' then ['\\', 'r']
  else if c = '\t' then ['\\', 't']
  else if c = '\x08' then ['\\', 'b']
  else if c = '\x0c' then ['\\', 'f']
  else if c.toNat < 0x20 then
    ['\\', 'u', '0', '0', hexDigit (c.toNat / 16), hexDigit (c.toNat % 16)]
  else [c]

/-- A string between quotes. -/
def jsonString (s : String) : List Char := '"' :: s.toList.flatMap jsonChar ++ ['"']

/-- The JSON text of a value that is neither a list nor a mapping. -/
def jsonScalar : Value → List Char
  | .null => "null".toList
  | .bool b => (if b then "true" else "false").toList
  | .int n => Double.intDigits n
  | .float x => Double.Layout.json.text x
  | .str s => jsonString s
  | .list _ | .dict _ => []

mutual

/-- The JSON text without blanks. -/
def compact : Value → List Char
  | .list items => '[' :: compactItems items ++ [']']
  | .dict fields => '{' :: compactFields fields ++ ['}']
  | .null => jsonScalar .null
  | .bool b => jsonScalar (.bool b)
  | .int n => jsonScalar (.int n)
  | .float x => jsonScalar (.float x)
  | .str s => jsonScalar (.str s)

/-- Items with commas between them. -/
def compactItems : List Value → List Char
  | [] => []
  | [item] => compact item
  | item :: next :: rest => compact item ++ ',' :: compactItems (next :: rest)

/-- Fields with commas between them. -/
def compactFields : List (String × Value) → List Char
  | [] => []
  | [(key, value)] => jsonString key ++ ':' :: compact value
  | (key, value) :: next :: rest =>
    jsonString key ++ ':' :: compact value ++ ',' :: compactFields (next :: rest)

end

/-- A line break and the indentation of a level. -/
def newLine (level : Nat) : List Char := '\n' :: List.replicate (2 * level) ' '

mutual

/-- The indented JSON text; `level` is the depth at which the value stands. -/
def indented (level : Nat) : Value → List Char
  | .list [] => ['[', ']']
  | .list (item :: items) =>
    '[' :: indentedItems (level + 1) (item :: items) ++ newLine level ++ [']']
  | .dict [] => ['{', '}']
  | .dict (field :: fields) =>
    '{' :: indentedFields (level + 1) (field :: fields) ++ newLine level ++ ['}']
  | .null => jsonScalar .null
  | .bool b => jsonScalar (.bool b)
  | .int n => jsonScalar (.int n)
  | .float x => jsonScalar (.float x)
  | .str s => jsonScalar (.str s)

/-- Items on lines of their own. -/
def indentedItems (level : Nat) : List Value → List Char
  | [] => []
  | [item] => newLine level ++ indented level item
  | item :: next :: rest =>
    newLine level ++ indented level item ++ ',' :: indentedItems level (next :: rest)

/-- Fields on lines of their own. -/
def indentedFields (level : Nat) : List (String × Value) → List Char
  | [] => []
  | [(key, value)] => newLine level ++ jsonString key ++ ':' :: ' ' :: indented level value
  | (key, value) :: next :: rest =>
    newLine level ++ jsonString key ++ ':' :: ' ' :: indented level value ++
      ',' :: indentedFields level (next :: rest)

end

/-- The text a template shows for a value: nothing for null, strings as they are, doubles with
their shortest digits, and JSON for lists and mappings. -/
def displayChars : Value → List Char
  | .null => []
  | .bool b => (if b then "True" else "False").toList
  | .int n => Double.intDigits n
  | .float x => Double.Layout.display.text x
  | .str s => s.toList
  | .list items => compact (.list items)
  | .dict fields => compact (.dict fields)

/-- The text a template shows for a value, as a string. Reference: `display`. -/
def display (v : Value) : String := String.ofList (displayChars v)

end Stencil.Value
