import Stencil.Text.Substitute

/-!
# Character references

The characters with a meaning in HTML are written as references. `forceEscape` writes every such
character so, `escape` first reads the references that `forceEscape` writes, and `unescape` reads
references by name and by number.
-/

namespace Stencil.Text

/-- A character as it stands in HTML text. Reference: `escape_char`. -/
def escapeChar (c : Char) : List Char :=
  if c = '&' then "&amp;".toList
  else if c = '<' then "&lt;".toList
  else if c = '>' then "&gt;".toList
  else if c = '"' then "&quot;".toList
  else if c = '\'' then "&#x27;".toList
  else [c]

/-- A text with all special characters escaped. Reference: `force_escape`. -/
def forceEscape (cs : List Char) : List Char := cs.flatMap escapeChar

/-- The five references of `forceEscape` read back, one kind after the other. -/
def readBasicReferences (cs : List Char) : List Char :=
  let cs := replaceAll "&lt;".toList ['<'] cs
  let cs := replaceAll "&gt;".toList ['>'] cs
  let cs := replaceAll "&amp;".toList ['&'] cs
  let cs := replaceAll "&quot;".toList ['"'] cs
  replaceAll "&#x27;".toList ['\''] cs

/-- A text with its special characters escaped, references that are there already being kept.
Reference: `escape`. -/
def escape (cs : List Char) : List Char := forceEscape (readBasicReferences cs)

/-- The named references that are read. Reference: `NAMED_ENTITIES`. -/
def namedReferences : List (String × Char) := [
  ("amp", '&'), ("lt", '<'), ("gt", '>'), ("quot", '"'), ("apos", '\''), ("nbsp", '\u00a0'),
  ("copy", '©'), ("reg", '®'), ("trade", '™'), ("hellip", '…'), ("mdash", '—'), ("ndash", '–'),
  ("lsquo", '‘'), ("rsquo", '’'), ("ldquo", '“'), ("rdquo", '”'), ("laquo", '«'), ("raquo", '»'),
  ("bull", '•'), ("middot", '·'), ("deg", '°'), ("times", '×'), ("divide", '÷'), ("euro", '€'),
  ("pound", '£'), ("yen", '¥'), ("cent", '¢'), ("sect", '§'), ("para", '¶')]

/-- The value of a hexadecimal digit. -/
def hexDigitValue (c : Char) : Nat :=
  if c.isDigit then c.toNat - 48 else c.toLower.toNat - 87

/-- Whether a character is a hexadecimal digit. -/
def isHexDigit (c : Char) : Bool :=
  c.isDigit || ('a' ≤ c && c ≤ 'f') || ('A' ≤ c && c ≤ 'F')

/-- The character of a code point, if it is one. -/
def codePoint? (n : Nat) : Option Char := if n.isValidChar then some (Char.ofNat n) else none

/-- The character that a reference stands for; `body` is the text between `&` and `;`. -/
def referenceChar? (body : List Char) : Option Char :=
  match body with
  | '#' :: x :: digits =>
    if x = 'x' ∨ x = 'X' then
      if digits.isEmpty || !digits.all isHexDigit then none
      else codePoint? (digits.foldl (fun n d => 16 * n + hexDigitValue d) 0)
    else if (x :: digits).all Char.isDigit then
      codePoint? ((x :: digits).foldl (fun n d => 10 * n + (d.toNat - 48)) 0)
    else none
  | _ => namedReferences.lookup (String.ofList body)

/-- Reads one reference. Reference: `ENTITY`. -/
def referenceRule : Rule
  | '&' :: cs =>
    let body := cs.takeWhile fun c => c.isAlphanum || c == '#'
    match cs.drop body.length with
    | ';' :: _ => (referenceChar? body).map fun c => ([c], body.length + 2)
    | _ => none
  | _ => none

/-- A text with its references read. Reference: `unescape`. -/
def unescape (cs : List Char) : List Char := substitute referenceRule cs

end Stencil.Text
