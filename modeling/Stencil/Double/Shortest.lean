import Stencil.Double.Basic

/-!
# The fewest digits that read back

A finite double stands for all reals that round to it, an interval around it that holds its ends
exactly when the significand is even. `shortest` looks on the decimal grids of 1, 2, … 17 digits
for a point of that interval. On each grid only the two neighbours of the double can lie in it;
the first grid with a hit wins, and of two hits the nearer.
-/

namespace Stencil.Double

/-- The decimal number `significand · 10^exponent`. -/
structure Decimal where
  significand : Nat
  exponent : Int
  deriving DecidableEq, Repr

/-- Which neighbour is taken when a double lies halfway between two equally short decimals. -/
inductive Tie where
  | even
  | up
  deriving DecidableEq, Repr

/-- How many decimal digits a natural number has. -/
def digitCount (n : Nat) : Nat := (Nat.toDigits 10 n).length

/-- The exponent of the leading decimal digit of `significand · 2^shift` units. -/
def leadingExponent (significand shift : Nat) : Int :=
  (digitCount (significand * Nat.pow 2 shift * Nat.pow 10 400 / unitsPerOne) : Int) - 401

/-- The point of the grid of multiples of `10^k` that rounds to `significand · 2^shift` units and
is nearest to it. All quantities are scaled to quarter units and to a whole grid. -/
def onGrid (tie : Tie) (significand shift : Nat) (k : Int) : Option Nat :=
  let scale := Nat.pow 10 (-k).toNat
  let grid := Nat.pow 10 k.toNat * 4 * unitsPerOne
  let value := 4 * significand * Nat.pow 2 shift * scale
  let below := value / grid
  let downDistance := value - below * grid
  let upDistance := (below + 1) * grid - value
  let upReach := 2 * Nat.pow 2 shift * scale
  let downReach :=
    if significand = leadingBit ∧ 0 < shift then Nat.pow 2 shift * scale else upReach
  let within (distance reach : Nat) : Bool :=
    if significand % 2 = 0 then distance ≤ reach else distance < reach
  let takeDown : Bool :=
    if downDistance = upDistance then
      match tie with
      | .even => below % 2 = 0
      | .up => false
    else downDistance < upDistance
  match within downDistance downReach, within upDistance upReach with
  | true, true => some (if takeDown then below else below + 1)
  | true, false => some below
  | false, true => some (below + 1)
  | false, false => none

/-- A decimal without zeros at the end of its significand; `fuel` bounds their number. -/
def Decimal.strip : (fuel : Nat) → Decimal → Decimal
  | 0, d => d
  | fuel + 1, d =>
    if d.significand ≠ 0 ∧ d.significand % 10 = 0 then
      strip fuel ⟨d.significand / 10, d.exponent + 1⟩
    else d

/-- The shortest decimal that reads back as `significand · 2^shift` units. -/
def shortest (tie : Tie) (significand shift : Nat) : Decimal :=
  let lead := leadingExponent significand shift
  let found := (List.range 17).findSome? fun (n : Nat) =>
    let k := lead - n
    (onGrid tie significand shift k).map fun point => (⟨point, k⟩ : Decimal)
  (found.getD ⟨0, 0⟩).strip 20

end Stencil.Double
