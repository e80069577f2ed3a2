/-!
# Doubles taken apart

Every finite double is a whole number of units, the unit being the least positive double
`2⁻¹⁰⁷⁴`. Reading a double as such a number makes comparison, rounding to whole numbers and the
remainder exact integer arithmetic. In the other direction `ofRatio` gives the double nearest to a
fraction, a tie going to the even significand.
-/

namespace Stencil.Double

/-- How many units make one. -/
def unitsPerOne : Nat := Nat.pow 2 1074

/-- The leading bit of a normal significand, `2⁵²`. -/
def leadingBit : Nat := 0x10000000000000

/-- The sign bit of a double, `2⁶³`. -/
def signBit : Nat := 0x8000000000000000

/-- What a double stands for; a finite one is `±significand · 2^shift` units. -/
inductive Parts where
  | nan
  | infinite (negative : Bool)
  | finite (negative : Bool) (significand shift : Nat)
  deriving DecidableEq, Repr

/-- Reads the sign, the exponent and the fraction off the bits. -/
def parts (x : Float) : Parts :=
  let bits := x.toBits.toNat
  let negative := bits / signBit = 1
  let field := bits / leadingBit % 2048
  let fraction := bits % leadingBit
  if field = 2047 then if fraction = 0 then .infinite negative else .nan
  else if field = 0 then .finite negative fraction 0
  else .finite negative (leadingBit + fraction) (field - 1)

/-- The whole number of units in a finite double. -/
def units? (x : Float) : Option Int :=
  match parts x with
  | .finite negative significand shift =>
    let magnitude : Int := (significand * Nat.pow 2 shift : Nat)
    some (if negative then -magnitude else magnitude)
  | _ => none

/-- Whether a double is neither an infinity nor a NaN. -/
def isFinite (x : Float) : Bool := (units? x).isSome

/-- Whether the sign bit is set and the double is a number; negative zero counts. -/
def isNegative (x : Float) : Bool :=
  match parts x with
  | .nan => false
  | .infinite negative | .finite negative _ _ => negative

/-- The quotient of two natural numbers rounded to the nearest, a tie going to the even one. -/
def roundDiv (num den : Nat) : Nat :=
  let q := num / den
  let twice := 2 * (num % den)
  if twice < den then q else if den < twice then q + 1 else q + q % 2

/-- The double nearest to `±num / den`; a quotient beyond the greatest double is an infinity. -/
def ofRatio (negative : Bool) (num den : Nat) : Float :=
  let scaled := num * unitsPerOne
  let shift := (scaled / den).log2 - 52
  let significand := roundDiv scaled (den * Nat.pow 2 shift)
  let pattern := min (shift * leadingBit + significand) (2047 * leadingBit)
  Float.ofBits (UInt64.ofNat (if negative then signBit + pattern else pattern))

/-- The double nearest to a whole number. -/
def ofInt (n : Int) : Float := ofRatio (decide (n < 0)) n.natAbs 1

/-- Positive and negative infinity. -/
def infinity (negative : Bool) : Float :=
  Float.ofBits (UInt64.ofNat (if negative then 0xFFF0000000000000 else 0x7FF0000000000000))

/-- The quiet NaN. -/
def notANumber : Float := Float.ofBits (UInt64.ofNat 0x7FF8000000000000)

/-! ## Order -/

/-- The order of two doubles by value; a NaN has none, and both zeros are equal. -/
def order? (x y : Float) : Option Ordering :=
  match parts x, parts y with
  | .nan, _ | _, .nan => none
  | .infinite a, .infinite b => some (compare b.toNat a.toNat)
  | .infinite a, _ => some (if a then .lt else .gt)
  | _, .infinite b => some (if b then .gt else .lt)
  | .finite a m s, .finite b n t =>
    let left : Int := (m * Nat.pow 2 s : Nat)
    let right : Int := (n * Nat.pow 2 t : Nat)
    some (compare (if a then -left else left) (if b then -right else right))

/-- Equality by value: a NaN differs from everything, and both zeros are equal. -/
def eq (x y : Float) : Bool := order? x y == some .eq

/-- Whether a double is a zero of either sign. -/
def isZero (x : Float) : Bool := units? x == some 0

/-! ## Whole numbers -/

/-- The whole number next to a finite double toward zero. -/
def trunc? (x : Float) : Option Int := (units? x).map (·.tdiv unitsPerOne)

/-- The greatest whole number not above a finite double. -/
def floor? (x : Float) : Option Int := (units? x).map (· / unitsPerOne)

/-- Whether a double is finite and whole. -/
def isWhole (x : Float) : Bool :=
  match units? x with
  | some u => u % unitsPerOne == 0
  | none => false

/-- A whole number as a double that keeps the sign of `x` where the number is zero. -/
def wholeLike (x : Float) (n : Int) : Float := ofRatio (isNegative x) n.natAbs 1

/-- The greatest whole double not above `x`. -/
def floor (x : Float) : Float :=
  match floor? x with
  | some n => wholeLike x n
  | none => x

/-- The least 64-bit signed integer. -/
def minInt : Int := -0x8000000000000000

/-- The greatest 64-bit signed integer. -/
def maxInt : Int := 0x7FFFFFFFFFFFFFFF

/-- How many words of 64 bits there are, `2⁶⁴`. -/
def wordCount : Nat := 0x10000000000000000

/-- The 64-bit signed integer that is left of an integer whose higher bits are dropped. -/
def wrap (n : Int) : Int := n.bmod wordCount

/-- The 64-bit signed integer next to a double toward zero: out of range it is the nearest bound,
and a NaN gives zero. -/
def toInt (x : Float) : Int :=
  match parts x with
  | .nan => 0
  | .infinite negative => if negative then minInt else maxInt
  | .finite .. => max minInt (min maxInt ((trunc? x).getD 0))

/-- The remainder of a division toward zero, exact, with the sign of the dividend. -/
def rem (x y : Float) : Float :=
  match units? x, units? y with
  | some a, some b =>
    if b = 0 then notANumber else ofRatio (isNegative x) (a.tmod b).natAbs unitsPerOne
  | some _, none => if (parts y) = .nan then notANumber else x
  | none, _ => notANumber

end Stencil.Double
