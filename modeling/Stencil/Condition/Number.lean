import Stencil.Condition.Error
import Stencil.Condition.Expr
import Stencil.Value.Number

/-!
# Arithmetic of conditions

Operators work on numbers, booleans counting as zero and one. Integers keep to 64 bits and fail
with an overflow beyond them; as soon as one operand is a double the operator works on doubles.
Strings and lists can be added and repeated, and two booleans combine by `&`, `|` and `^`.
-/

namespace Stencil.Condition

/-- A value as an operand of arithmetic. Reference: `Num`. -/
inductive Number where
  | int (n : Int)
  | float (x : Float)

/-- The number in a value. An integer beyond 64 bits with a sign counts as a double. -/
def Number.ofValue? : Value → Option Number
  | .bool b => some (.int b.toNat)
  | .int n => some (if Double.fits n then .int n else .float (Double.ofInt n))
  | .float x => some (.float x)
  | _ => none

/-- The double next to a number. Reference: `as_f64`. -/
def Number.toFloat : Number → Float
  | .int n => Double.ofInt n
  | .float x => x

/-- An integer result, if it fits in 64 bits. -/
def checkInt (n : Int) : Except Error Value :=
  if Double.fits n then .ok (.int n) else .error .overflow

/-- A double result, if it is finite. Reference: `float_value`. -/
def checkFloat (x : Float) : Except Error Value :=
  match Value.ofFloat? x with
  | some v => .ok v
  | none => .error .overflow

/-- A 64-bit operation on two integers, bit by bit. -/
def bitwise (f : BitVec 64 → BitVec 64 → BitVec 64) (x y : Int) : Int :=
  (f (BitVec.ofInt 64 x) (BitVec.ofInt 64 y)).toInt

/-- The error of an operator that does not take these operands. Reference: `type_error`. -/
def typesError (op : BinaryOp) (left right : Value) : Error :=
  .operandTypes op.symbol left.type right.type

/-- An integer, if it fits in 64 bits. -/
def fitting? (n : Int) : Option Int := if Double.fits n then some n else none

/-- The quotient of two integers rounded down, if all integers on the way to it fit in 64 bits. With
a negative divisor the Euclidean quotient is rounded up: if there is a remainder it is one too
large. -/
def floorQuotient? (x y : Int) : Option Int := do
  let q ← fitting? (x / y)
  if y < 0 ∧ x % y ≠ 0 then fitting? (q - 1) else some q

/-- The remainder that belongs to the quotient rounded down. The remainder of the division toward
zero has the sign of the dividend; the divisor is added if it has the other sign, which cannot leave
64 bits. -/
def floorRemainder (x y : Int) : Int :=
  let r := x.tmod y
  if r ≠ 0 ∧ ¬(r < 0 ↔ y < 0) then r + y else r

/-- Exponents and shifts stay below `2³²`. -/
def countBound : Int := 0x100000000

/-- An operator on two integers; `mismatch` is the error for a negative shift.
Reference: `int_binary`. -/
def intBinary (mismatch : Error) (op : BinaryOp) (x y : Int) : Except Error Value :=
  match op with
  | .add => checkInt (x + y)
  | .sub => checkInt (x - y)
  | .mul => checkInt (x * y)
  | .div =>
    if y = 0 then .error .divisionByZero else checkFloat (Double.ofInt x / Double.ofInt y)
  | .floorDiv =>
    if y = 0 then .error .divisionByZero
    else match floorQuotient? x y with
      | some q => .ok (.int q)
      | none => .error .overflow
  | .mod =>
    if y = 0 then .error .divisionByZero
    -- The quotient of these two is one beyond 64 bits, and no check comes before the division.
    else if x = Double.minInt ∧ y = -1 then .error (.halts .remainder)
    else .ok (.int (floorRemainder x y))
  | .pow =>
    if y < 0 then checkFloat (Float.pow (Double.ofInt x) (Double.ofInt y))
    else if y < countBound then
      -- A base of at least two in size leaves 64 bits at the 64th power at the latest.
      if 2 ≤ x.natAbs ∧ 64 ≤ y then .error .overflow
      else if x = 0 ∨ x = 1 then checkInt (if y = 0 then 1 else x)
      else if x = -1 then checkInt (if y % 2 = 0 then 1 else -1)
      else checkInt (Int.pow x y.toNat)
    else .error .overflow
  | .bitAnd => .ok (.int (bitwise (· &&& ·) x y))
  | .bitOr => .ok (.int (bitwise (· ||| ·) x y))
  | .bitXor => .ok (.int (bitwise (· ^^^ ·) x y))
  | .shiftLeft =>
    if y < 0 then .error mismatch
    else if y < 64 then .ok (.int (Double.wrap (x * Nat.pow 2 y.toNat)))
    else .error .overflow
  | .shiftRight =>
    if y < 0 then .error mismatch
    else if y < countBound then .ok (.int (x / Nat.pow 2 (min y 64).toNat))
    else .error .overflow

/-- An operator on two doubles; `mismatch` is the error of an operator on bits.
Reference: `float_binary`. -/
def floatBinary (mismatch : Error) (op : BinaryOp) (x y : Float) : Except Error Value :=
  match op with
  | .add => checkFloat (x + y)
  | .sub => checkFloat (x - y)
  | .mul => checkFloat (x * y)
  | .div => if Double.isZero y then .error .divisionByZero else checkFloat (x / y)
  | .floorDiv =>
    if Double.isZero y then .error .divisionByZero else checkFloat (Double.floor (x / y))
  | .mod =>
    if Double.isZero y then .error .divisionByZero
    else checkFloat (x - y * Double.floor (x / y))
  | .pow => checkFloat (Float.pow x y)
  | .bitAnd | .bitOr | .bitXor | .shiftLeft | .shiftRight => .error mismatch

/-- How often a sequence of this length is repeated; a negative count is none.
Reference: `repeat_count`. -/
def repeatCount (length : Nat) (n : Int) : Except Error Nat :=
  if length * n.toNat ≤ maxRepeat then .ok n.toNat else .error .tooLarge

/-- A string repeated. -/
def repeatString (s : String) (n : Int) : Except Error Value := do
  let times ← repeatCount s.utf8ByteSize n
  .ok (.str (if s.isEmpty then "" else String.ofList (List.replicate times s.toList).flatten))

/-- A list repeated. -/
def repeatList (items : List Value) (n : Int) : Except Error Value := do
  let times ← repeatCount items.length n
  .ok (.list (if items.isEmpty then [] else (List.replicate times items).flatten))

/-- An integer operand. -/
def Number.int? (v : Value) : Option Int :=
  match Number.ofValue? v with
  | some (.int n) => some n
  | _ => none

/-- The result of an operator on sequences or truth values, if the operands are such. -/
def sequenceBinary? (op : BinaryOp) (left right : Value) : Option (Except Error Value) :=
  match op, left, right with
  | .add, .str a, .str b => some (.ok (.str (a ++ b)))
  | .add, .list a, .list b => some (.ok (.list (a ++ b)))
  | .mul, .str s, other => (Number.int? other).map (repeatString s)
  | .mul, other, .str s => (Number.int? other).map (repeatString s)
  | .mul, .list items, other => (Number.int? other).map (repeatList items)
  | .mul, other, .list items => (Number.int? other).map (repeatList items)
  | .bitAnd, .bool a, .bool b => some (.ok (.bool (a && b)))
  | .bitOr, .bool a, .bool b => some (.ok (.bool (a || b)))
  | .bitXor, .bool a, .bool b => some (.ok (.bool (a ^^ b)))
  | _, _, _ => none

/-- A binary operator on two values. Reference: `binary`. -/
def binary (op : BinaryOp) (left right : Value) : Except Error Value :=
  match sequenceBinary? op left right with
  | some result => result
  | none =>
    match Number.ofValue? left, Number.ofValue? right with
    | some (.int x), some (.int y) => intBinary (typesError op left right) op x y
    | some a, some b => floatBinary (typesError op left right) op a.toFloat b.toFloat
    | _, _ => .error (typesError op left right)

/-- A unary operator on a value. Reference: `unary`. -/
def unary (op : UnaryOp) (v : Value) : Except Error Value :=
  match op, Number.ofValue? v with
  | .neg, some (.int n) => checkInt (-n)
  | .neg, some (.float x) => checkFloat (-x)
  | .pos, some (.int n) => .ok (.int n)
  | .pos, some (.float x) => checkFloat x
  | .invert, some (.int n) => .ok (.int (-n - 1))
  | op, _ => .error (.operandType op.symbol v.type)

end Stencil.Condition
