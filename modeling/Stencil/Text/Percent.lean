import Stencil.Text.Split

/-!
# Percent encoding

Characters outside a safe set are written as a percent sign and two hexadecimal digits for each
byte of their UTF-8 form.
-/

namespace Stencil.Text

/-- A hexadecimal digit in upper case. -/
def upperHexDigit (n : Nat) : Char := (Nat.digitChar n).toUpper

/-- The encoded form of a byte. -/
def percentByte (b : UInt8) : List Char :=
  ['%', upperHexDigit (b.toNat / 16), upperHexDigit (b.toNat % 16)]

/-- The characters that are never encoded. -/
def isUnreserved (c : Char) : Bool :=
  c.isAlphanum || c == '_' || c == '.' || c == '-' || c == '~'

/-- A text with everything encoded but the unreserved characters and those of ASCII in `safe`.
Reference: `percent_encode`. -/
def percentEncode (safe cs : List Char) : List Char :=
  cs.flatMap fun c =>
    if isUnreserved c || (c.toNat < 128 && safe.contains c) then [c]
    else (String.utf8EncodeChar c).flatMap percentByte

/-- An internationalised address made fit for an attribute: what has a meaning in addresses, the
percent sign included, is kept. Reference: `iri_encode`. -/
def iriEncode (cs : List Char) : List Char := percentEncode "/#%[]=:;$&()+,!?*@'~".toList cs

end Stencil.Text
