import Stencil.Double.Shortest

/-!
# Writing doubles

Three ways to write a double: its shortest digits, laid out by a `Layout` record; a given number
of places after the point; and a given number of digits in scientific form. The last two round the
exact value, a tie going to the even digit.
-/

namespace Stencil.Double

/-- Where positional notation ends and how an exponent is written. -/
structure Layout where
  /-- The least exponent of the leading digit that is written positionally, if there is one. -/
  least : Option Int
  /-- The exponent of the leading digit from which on scientific notation is used. -/
  limit : Int
  /-- How many digits an exponent has at least. -/
  exponentWidth : Nat
  tie : Tie

/-- Text values: small doubles are written out, and from `10^16` on the exponent has a sign and
two digits. -/
def Layout.display : Layout := ⟨none, 16, 2, .up⟩

/-- JSON: positional from `10^-5` up to `10^16`. -/
def Layout.json : Layout := ⟨some (-5), 16, 1, .even⟩

/-- The decimal digits of a natural number. -/
def natDigits (n : Nat) : List Char := Nat.toDigits 10 n

/-- An integer in decimal. -/
def intDigits (n : Int) : List Char :=
  if n < 0 then '-' :: natDigits n.natAbs else natDigits n.natAbs

/-- The text with a character put in front until it has `width` characters. -/
def padLeft (fill : Char) (width : Nat) (cs : List Char) : List Char :=
  List.replicate (width - cs.length) fill ++ cs

/-- A decimal written out, with at least one digit on either side of the point. -/
def positional (d : Decimal) : List Char :=
  let digits := natDigits d.significand
  if 0 ≤ d.exponent then digits ++ List.replicate d.exponent.toNat '0' ++ ['.', '0']
  else
    let places := d.exponent.natAbs
    let padded := padLeft '0' (places + 1) digits
    padded.take (padded.length - places) ++ '.' :: padded.drop (padded.length - places)

/-- Digits with a point after the first one, if there are more. -/
def pointAfterFirst : List Char → List Char
  | [] => []
  | [d] => [d]
  | d :: ds => d :: '.' :: ds

/-- A decimal with one digit before the point and a signed exponent. -/
def scientific (exponentWidth : Nat) (d : Decimal) : List Char :=
  let digits := natDigits d.significand
  let lead := d.exponent + digits.length - 1
  pointAfterFirst digits ++ 'e' :: (if lead < 0 then '-' else '+') ::
    padLeft '0' exponentWidth (natDigits lead.natAbs)

/-- The text of a decimal in a layout. -/
def Layout.decimal (layout : Layout) (d : Decimal) : List Char :=
  let lead := d.exponent + digitCount d.significand - 1
  let small : Bool := match layout.least with
    | some least => decide (lead < least)
    | none => false
  if d.significand ≠ 0 ∧ (small ∨ layout.limit ≤ lead) then scientific layout.exponentWidth d
  else positional d

/-- A minus sign in front of the text of a negative number. -/
def signed (negative : Bool) (cs : List Char) : List Char := if negative then '-' :: cs else cs

/-- The text of a double in a layout. -/
def Layout.text (layout : Layout) (x : Float) : List Char :=
  match parts x with
  | .nan => "NaN".toList
  | .infinite negative => signed negative "inf".toList
  | .finite negative 0 _ => signed negative (layout.decimal ⟨0, 0⟩)
  | .finite negative significand shift =>
    signed negative (layout.decimal (shortest layout.tie significand shift))

/-- A natural number of `10^-places` written with that many places. -/
def withPlaces (places n : Nat) : List Char :=
  if places = 0 then natDigits n
  else
    let padded := padLeft '0' (places + 1) (natDigits n)
    padded.take (padded.length - places) ++ '.' :: padded.drop (padded.length - places)

/-- The magnitude of a double with a fixed number of places. -/
def fixedMagnitude (places significand shift : Nat) : List Char :=
  withPlaces places (roundDiv (significand * Nat.pow 2 shift * Nat.pow 10 places) unitsPerOne)

/-- A double with a fixed number of places. -/
def fixed (places : Nat) (x : Float) : List Char :=
  match parts x with
  | .nan => "NaN".toList
  | .infinite negative => signed negative "inf".toList
  | .finite negative significand shift => signed negative (fixedMagnitude places significand shift)

/-- The magnitude of a double rounded to `count + 1` digits. -/
def rounded (count significand shift : Nat) : Decimal :=
  if significand = 0 then ⟨0, 0⟩
  else
    let k := leadingExponent significand shift - count
    let digits := roundDiv (significand * Nat.pow 2 shift * Nat.pow 10 (-k).toNat)
      (unitsPerOne * Nat.pow 10 k.toNat)
    if digitCount digits > count + 1 then ⟨digits / 10, k + 1⟩ else ⟨digits, k⟩

end Stencil.Double
