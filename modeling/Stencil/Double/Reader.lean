import Stencil.Double.Layout

/-!
# Reading numbers

Two readers of number text. `readInt?` takes an optional sign and digits and keeps to 64 bits.
`readDouble?` takes an optional sign and either digits with an optional point and exponent, or one
of the names of infinity and NaN in any case; it gives the nearest double.
-/

namespace Stencil.Double

/-- The value of a list of decimal digits. -/
def digitsValue (ds : List Char) : Nat := ds.foldl (fun n d => 10 * n + (d.toNat - 48)) 0

/-- A nonempty list of digits as a number. -/
def readNat? (cs : List Char) : Option Nat :=
  if cs.isEmpty || !cs.all Char.isDigit then none else some (digitsValue cs)

/-- Splits off a sign; without one the text counts as positive. -/
def splitSign : List Char → Bool × List Char
  | '-' :: cs => (true, cs)
  | '+' :: cs => (false, cs)
  | cs => (false, cs)

/-- Whether an integer fits in 64 bits with a sign. -/
def fits (n : Int) : Bool := minInt ≤ n && n ≤ maxInt

/-- An integer of at most 64 bits: digits after an optional sign. -/
def readInt? (cs : List Char) : Option Int :=
  let (negative, digits) := splitSign cs
  match readNat? digits with
  | some n =>
    let value : Int := if negative then -n else n
    if fits value then some value else none
  | none => none

/-- The double nearest to `digits · 10^exponent`. A number far outside the range of doubles is
settled by its size, so that no huge power is ever computed. -/
def ofDecimal (negative : Bool) (digits : Nat) (exponent : Int) : Float :=
  let lead := exponent + digitCount digits
  if digits = 0 then ofRatio negative 0 1
  else if 400 < lead then infinity negative
  else if lead < -400 then ofRatio negative 0 1
  else ofRatio negative (digits * Nat.pow 10 exponent.toNat) (Nat.pow 10 (-exponent).toNat)

/-- The exponent after a mantissa: nothing, or `e` and digits after an optional sign. -/
def readExponent? : List Char → Option Int
  | [] => some 0
  | c :: cs =>
    if c = 'e' || c = 'E' then
      let (negative, digits) := splitSign cs
      (readNat? digits).map fun n => if negative then -(n : Int) else n
    else none

/-- An unsigned decimal: digits, at most one point with a digit on one side of it, and an
exponent. -/
def readDecimal? (negative : Bool) (cs : List Char) : Option Float :=
  let whole := cs.takeWhile Char.isDigit
  let afterWhole := cs.dropWhile Char.isDigit
  let (fraction, rest) := match afterWhole with
    | '.' :: tail => (tail.takeWhile Char.isDigit, tail.dropWhile Char.isDigit)
    | tail => ([], tail)
  if whole.isEmpty && fraction.isEmpty then none
  else (readExponent? rest).map fun e =>
    ofDecimal negative (digitsValue (whole ++ fraction)) (e - fraction.length)

/-- A double in decimal, or an infinity or a NaN by name. -/
def readDouble? (cs : List Char) : Option Float :=
  let (negative, body) := splitSign cs
  let name := String.ofList (body.map Char.toLower)
  if name = "inf" || name = "infinity" then some (infinity negative)
  else if name = "nan" then some notANumber
  else readDecimal? negative body

end Stencil.Double
