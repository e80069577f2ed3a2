import Stencil.Text.Percent
import Stencil.Text.Substitute

/-!
# Backslash escapes

Two ways to make text safe with backslashes: one for quotes and backslashes, and one that writes
the characters which are dangerous in scripts by their code.
-/

namespace Stencil.Text

/-- A backslash before every quote and backslash. Reference: `add_slashes`. -/
def addSlashes (cs : List Char) : List Char :=
  replaceAll ['\''] ['\\', '\'']
    (replaceAll ['"'] ['\\', '"'] (replaceAll ['\\'] ['\\', '\\'] cs))

/-- Whether a character is written by its code in a script. -/
def isScriptSpecial (c : Char) : Bool :=
  c.toNat < 32 || "\\'\"><&=-;`".toList.contains c || c.toNat = 0x2028 || c.toNat = 0x2029

/-- A character by its code: a backslash, the letter `u` and four hexadecimal digits. -/
def unicodeEscape (c : Char) : List Char :=
  let n := c.toNat
  ['\\', 'u', upperHexDigit (n / 4096 % 16), upperHexDigit (n / 256 % 16),
    upperHexDigit (n / 16 % 16), upperHexDigit (n % 16)]

/-- A text that can stand inside a string of a script. Reference: `escape_js`. -/
def escapeScript (cs : List Char) : List Char :=
  cs.flatMap fun c => if isScriptSpecial c then unicodeEscape c else [c]

end Stencil.Text
