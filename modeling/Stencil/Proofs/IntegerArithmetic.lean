import Mathlib.Algebra.Order.Ring.Int
import Mathlib.Tactic.Positivity
import Stencil.Proofs.ConditionParser

/-!
# Integers in conditions

What the operators make of two integers of 64 bits (`intBinary`), held against the integers that
they stand for. Sums, differences and products are these or an overflow. Shifts and powers give them
too, with exceptions: the bits that a shift to the left pushes out of the word are lost without an
error, and large counts fail even where the result is small.
-/

namespace Stencil.Condition

open Double (fits wrap)

/-! ## Two operands -/

/-- An operator between two values has the value of the operator on them. -/
theorem evaluate_binary (op : BinaryOp) (a b : Value) :
    evaluate [.value a, .op op.symbol, .value b] = binary op a b := by
  have hreads := Reads.binary op rfl (.ofValue op.leftLevel a) (.ofValue op.rightLevel b)
  show evaluate ([.value a] ++ .op op.symbol :: [.value b]) = _
  rw [hreads.evaluate]
  rfl

/-- On integers of 64 bits every operator is the one on integers. -/
theorem binary_int (op : BinaryOp) {x y : Int} (hx : fits x) (hy : fits y) :
    binary op (.int x) (.int y) =
      intBinary (typesError op (.int x) (.int y)) op x y := by
  have hnone : sequenceBinary? op (.int x) (.int y) = none := by cases op <;> rfl
  simp only [binary, hnone, Number.ofValue?, if_pos hx, if_pos hy]

/-! ## Sizes -/

theorem fits_iff {n : Int} : fits n = true ↔ -2 ^ 63 ≤ n ∧ n < 2 ^ 63 := by
  rw [fits, Bool.and_eq_true, decide_eq_true_iff, decide_eq_true_iff, Double.minInt, Double.maxInt]
  omega

/-- Only an integer that fits is left as it is. -/
theorem wrap_eq_self_iff {n : Int} : wrap n = n ↔ fits n = true := by
  have hle := Int.le_bmod (x := n) (m := Double.wordCount) (by decide)
  have hlt := Int.bmod_lt (x := n) (m := Double.wordCount) (by decide)
  constructor
  · intro h
    rw [← wrap, h] at hle hlt
    rw [fits_iff]
    simp only [Double.wordCount] at hle hlt
    omega
  · intro h
    rw [fits_iff] at h
    refine Int.bmod_eq_of_le ?_ ?_
    all_goals
      simp only [Double.wordCount]
      omega

/-- From the 64th power on a base of at least two in size is too large. -/
theorem not_fits_pow {x : Int} (hx : 2 ≤ x.natAbs) {n : Nat} (hn : 64 ≤ n) : ¬fits (x ^ n) := by
  have hsize : 2 ^ 64 ≤ (x ^ n).natAbs := by
    calc 2 ^ 64 ≤ 2 ^ n := Nat.pow_le_pow_right (by decide) hn
      _ ≤ x.natAbs ^ n := Nat.pow_le_pow_left hx n
      _ = (x ^ n).natAbs := (Int.natAbs_pow x n).symm
  rw [fits_iff]
  omega

/-- All powers of minus one, zero and one fit. -/
theorem fits_pow {x : Int} (hx : x.natAbs ≤ 1) (n : Nat) : fits (x ^ n) = true := by
  have hsize : (x ^ n).natAbs ≤ 1 := by
    calc (x ^ n).natAbs = x.natAbs ^ n := Int.natAbs_pow x n
      _ ≤ 1 ^ n := Nat.pow_le_pow_left hx n
      _ = 1 := Nat.one_pow n
  rw [fits_iff]
  omega

/-- Only zero can be shifted to the left by 64 or more. -/
theorem not_fits_mul_pow {x : Int} (hx : x ≠ 0) {n : Nat} (hn : 64 ≤ n) : ¬fits (x * 2 ^ n) := by
  have hsize : 2 ^ 64 ≤ (x * 2 ^ n).natAbs := by
    calc 2 ^ 64 ≤ 2 ^ n := Nat.pow_le_pow_right (by decide) hn
      _ ≤ x.natAbs * 2 ^ n := Nat.le_mul_of_pos_left _ (Int.natAbs_pos.2 hx)
      _ = (x * 2 ^ n).natAbs := by rw [Int.natAbs_mul, Int.natAbs_pow]; rfl
  rw [fits_iff]
  omega

/-- Shifted to the right an integer gets no larger. -/
theorem fits_fdiv_pow {x : Int} (hx : fits x) (n : Nat) : fits (x.fdiv (2 ^ n)) = true := by
  have hpos : (0 : Int) < 2 ^ n := by positivity
  rw [fits_iff] at hx ⊢
  rw [Int.fdiv_eq_ediv_of_nonneg x hpos.le, Int.le_ediv_iff_mul_le hpos,
    Int.ediv_lt_iff_lt_mul hpos]
  omega

/-- A shift to the right by 64 or more leaves the sign only. -/
theorem ediv_pow_of_le {x : Int} (hx : fits x) {n : Nat} (hn : 64 ≤ n) :
    x / 2 ^ n = if x < 0 then -1 else 0 := by
  have hpow : (2 : Int) ^ 64 ≤ 2 ^ n := pow_le_pow_right₀ (by decide) hn
  rw [fits_iff] at hx
  split
  · exact Int.ediv_eq_neg_one_of_neg_of_le (by assumption) (by omega)
  · exact Int.ediv_eq_zero_of_lt (by omega) (by omega)

/-! ## Powers and shifts -/

section Operators

variable (mismatch : Error) {x y : Int}

/-- The shortcuts for large exponents give the power. -/
theorem intBinary_pow (hy : 0 ≤ y) (hbound : y < countBound) :
    intBinary mismatch .pow x y = checkInt (x ^ y.toNat) := by
  simp only [intBinary, if_neg (not_lt.2 hy), if_pos hbound]
  split
  · rename_i hlarge
    have hnot : ¬fits (x ^ y.toNat) := not_fits_pow hlarge.1 (by omega)
    rw [checkInt, if_neg hnot]
  · split
    · rename_i hunit
      rcases hunit with rfl | rfl
      · by_cases hzero : y = 0
        · rw [if_pos hzero, hzero]
          rfl
        · have hne : y.toNat ≠ 0 := by omega
          rw [if_neg hzero, zero_pow hne]
      · rw [one_pow, ite_self]
    · split
      · rename_i hminus
        subst hminus
        by_cases heven : y % 2 = 0
        · have hparity : Even y.toNat := by rw [Nat.even_iff]; omega
          rw [if_pos heven, hparity.neg_one_pow]
        · have hparity : Odd y.toNat := by rw [Nat.odd_iff]; omega
          rw [if_neg heven, hparity.neg_one_pow]
      · rfl

theorem intBinary_pow_of_le (hbound : countBound ≤ y) :
    intBinary mismatch .pow x y = .error .overflow := by
  have hy : ¬y < 0 := by
    rw [countBound] at hbound
    omega
  simp only [intBinary, if_neg hy, if_neg (not_lt.2 hbound)]

theorem intBinary_shiftLeft (hy : 0 ≤ y) :
    intBinary mismatch .shiftLeft x y =
      if y < 64 then .ok (.int (wrap (x * 2 ^ y.toNat))) else .error .overflow := by
  simp only [intBinary, if_neg (not_lt.2 hy)]
  rfl

/-- Counting no further than 64 gives the quotient. -/
theorem intBinary_shiftRight (hx : fits x) (hy : 0 ≤ y) (hbound : y < countBound) :
    intBinary mismatch .shiftRight x y = .ok (.int (x.fdiv (2 ^ y.toNat))) := by
  have hquotient : x / Nat.pow 2 (min y 64).toNat = x.fdiv (2 ^ y.toNat) := by
    rw [Int.fdiv_eq_ediv_of_nonneg x (by positivity)]
    by_cases hy64 : y ≤ 64
    · rw [min_eq_left hy64]
      rfl
    · have hn : 64 ≤ y.toNat := by omega
      rw [min_eq_right (le_of_not_ge hy64), ediv_pow_of_le hx hn,
        ← ediv_pow_of_le hx (Nat.le_refl 64)]
      rfl
  simp only [intBinary, if_neg (not_lt.2 hy), if_pos hbound, hquotient]

theorem intBinary_shiftRight_of_le (hbound : countBound ≤ y) :
    intBinary mismatch .shiftRight x y = .error .overflow := by
  have hy : ¬y < 0 := by
    rw [countBound] at hbound
    omega
  simp only [intBinary, if_neg hy, if_neg (not_lt.2 hbound)]

end Operators

/-! ## Exact results -/

/-- The integer that an operator stands for, of whatever size: a shift to the left multiplies by a
power of two, one to the right divides by it and rounds down. A power and a shift stand for an
integer if the right operand is not negative. -/
def BinaryOp.integer? : BinaryOp → Int → Int → Option Int
  | .add, x, y => some (x + y)
  | .sub, x, y => some (x - y)
  | .mul, x, y => some (x * y)
  | .pow, x, y => if 0 ≤ y then some (x ^ y.toNat) else none
  | .shiftLeft, x, y => if 0 ≤ y then some (x * 2 ^ y.toNat) else none
  | .shiftRight, x, y => if 0 ≤ y then some (x.fdiv (2 ^ y.toNat)) else none
  | _, _, _ => none

/-- Where an operator does not give the integer that it stands for, or an overflow in its place: a
shift to the left below 64 drops the bits beyond the word, and from 64 on it fails for zero too; a
power and a shift to the right fail from `2³²` on whatever the result. -/
def BinaryOp.Strays : BinaryOp → Int → Int → Prop
  | .pow, x, y => x.natAbs ≤ 1 ∧ countBound ≤ y
  | .shiftLeft, x, y => if y < 64 then ¬fits (x * 2 ^ y.toNat) else x = 0
  | .shiftRight, _, y => countBound ≤ y
  | _, _, _ => False

/-- What an operator gives where it strays: an overflow in place of an integer that fits, and the
word that is left of an integer that does not. -/
def strayInt (n : Int) : Except Error Value :=
  if fits n then .error .overflow else .ok (.int (wrap n))

section Exact

variable (mismatch : Error) {x y : Int}

theorem intBinary_pow_exact (hy : 0 ≤ y) :
    (¬BinaryOp.Strays .pow x y → intBinary mismatch .pow x y = checkInt (x ^ y.toNat)) ∧
      (BinaryOp.Strays .pow x y → intBinary mismatch .pow x y = strayInt (x ^ y.toNat)) := by
  by_cases hbound : y < countBound
  · refine ⟨fun _ => intBinary_pow mismatch hy hbound, fun hstray => ?_⟩
    exact absurd hbound (not_lt.2 hstray.2)
  · rw [not_lt] at hbound
    rw [intBinary_pow_of_le mismatch hbound]
    refine ⟨fun hstray => ?_, fun hstray => ?_⟩
    · have hbase : 2 ≤ x.natAbs := Nat.lt_of_not_le fun hle => hstray ⟨hle, hbound⟩
      have hexponent : 64 ≤ y.toNat := by
        rw [countBound] at hbound
        omega
      rw [checkInt, if_neg (not_fits_pow hbase hexponent)]
    · rw [strayInt, if_pos (fits_pow hstray.1 y.toNat)]

theorem intBinary_shiftLeft_exact (hy : 0 ≤ y) :
    (¬BinaryOp.Strays .shiftLeft x y →
        intBinary mismatch .shiftLeft x y = checkInt (x * 2 ^ y.toNat)) ∧
      (BinaryOp.Strays .shiftLeft x y →
        intBinary mismatch .shiftLeft x y = strayInt (x * 2 ^ y.toNat)) := by
  rw [intBinary_shiftLeft mismatch hy, BinaryOp.Strays]
  by_cases hcount : y < 64
  · rw [if_pos hcount, if_pos hcount, not_not]
    refine ⟨fun hfits => ?_, fun hnot => ?_⟩
    · rw [checkInt, if_pos hfits, wrap_eq_self_iff.2 hfits]
    · rw [strayInt, if_neg hnot]
  · rw [if_neg hcount, if_neg hcount]
    refine ⟨fun hne => ?_, fun hzero => ?_⟩
    · have hnot : ¬fits (x * 2 ^ y.toNat) := not_fits_mul_pow hne (by omega)
      rw [checkInt, if_neg hnot]
    · rw [hzero, zero_mul]
      rfl

theorem intBinary_shiftRight_exact (hx : fits x) (hy : 0 ≤ y) :
    (¬BinaryOp.Strays .shiftRight x y →
        intBinary mismatch .shiftRight x y = checkInt (x.fdiv (2 ^ y.toNat))) ∧
      (BinaryOp.Strays .shiftRight x y →
        intBinary mismatch .shiftRight x y = strayInt (x.fdiv (2 ^ y.toNat))) := by
  have hfits : fits (x.fdiv (2 ^ y.toNat)) = true := fits_fdiv_pow hx y.toNat
  rw [checkInt, strayInt, if_pos hfits, if_pos hfits]
  refine ⟨fun hstray => ?_, fun hstray => ?_⟩
  · exact intBinary_shiftRight mismatch hx hy (not_le.1 hstray)
  · exact intBinary_shiftRight_of_le mismatch hstray

end Exact

/-- Operators on integers of 64 bits give the integer that they stand for if it fits in 64 bits, and
the overflow error if it does not, with exceptions that are all of two kinds: an overflow in place
of an integer that fits, and the lowest 64 bits of one that does not. Only powers with exponents
from `2³²` on and shifts stray (`Strays`). -/
theorem arithmetic_exact_unless_strays (op : BinaryOp) {x y n : Int} (hx : fits x) (hy : fits y)
    (hn : op.integer? x y = some n) :
    (¬op.Strays x y → evaluate [.value (.int x), .op op.symbol, .value (.int y)] =
      if fits n then .ok (.int n) else .error .overflow) ∧
    (op.Strays x y → evaluate [.value (.int x), .op op.symbol, .value (.int y)] =
      if fits n then .error .overflow else .ok (.int (wrap n))) := by
  rw [evaluate_binary, binary_int op hx hy]
  cases op with
  | add | sub | mul =>
    obtain rfl := Option.some.inj hn
    exact ⟨fun _ => rfl, False.elim⟩
  | pow =>
    obtain ⟨hnonneg, rfl⟩ : 0 ≤ y ∧ x ^ y.toNat = n := by simpa [BinaryOp.integer?] using hn
    exact intBinary_pow_exact _ hnonneg
  | shiftLeft =>
    obtain ⟨hnonneg, rfl⟩ : 0 ≤ y ∧ x * 2 ^ y.toNat = n := by simpa [BinaryOp.integer?] using hn
    exact intBinary_shiftLeft_exact _ hnonneg
  | shiftRight =>
    obtain ⟨hnonneg, rfl⟩ : 0 ≤ y ∧ x.fdiv (2 ^ y.toNat) = n := by
      simpa [BinaryOp.integer?] using hn
    exact intBinary_shiftRight_exact _ hx hnonneg
  | div | floorDiv | mod | bitAnd | bitOr | bitXor =>
    cases hn

/-- The least integer is a power of minus two, the next power is too large, and the shift that would
give its opposite leaves the least integer. -/
theorem arithmetic_exact_unless_strays_least :
    evaluate [.value (.int (-2)), .op "**", .value (.int 63)] = .ok (.int (-2 ^ 63)) ∧
      evaluate [.value (.int (-2)), .op "**", .value (.int 64)] = .error .overflow ∧
      evaluate [.value (.int 1), .op "<<", .value (.int 63)] = .ok (.int (-2 ^ 63)) := by
  have hbase : ∀ y, ¬BinaryOp.Strays .pow (-2) y := fun y hstray => absurd hstray.1 (by decide)
  have hleast : BinaryOp.integer? .pow (-2) 63 = some (-2 ^ 63) := by decide
  have hbeyond : BinaryOp.integer? .pow (-2) 64 = some (2 ^ 64) := by decide
  have hshift : BinaryOp.integer? .shiftLeft 1 63 = some (2 ^ 63) := by decide
  refine ⟨?_, ?_, ?_⟩
  · exact (arithmetic_exact_unless_strays .pow (by decide) (by decide) hleast).1 (hbase 63)
  · exact (arithmetic_exact_unless_strays .pow (by decide) (by decide) hbeyond).1 (hbase 64)
  · have hstrays : BinaryOp.Strays .shiftLeft 1 63 := by
      rw [BinaryOp.Strays, if_pos (by decide)]
      decide
    exact (arithmetic_exact_unless_strays .shiftLeft (by decide) (by decide) hshift).2 hstrays

/-- A shift that pushes the bit of a one into the sign gives no overflow. -/
theorem shiftLeft_not_exact :
    ¬∀ (op : BinaryOp) (x y n : Int), fits x → fits y → op.integer? x y = some n →
      evaluate [.value (.int x), .op op.symbol, .value (.int y)] =
        if fits n then .ok (.int n) else .error .overflow := by
  intro h
  have hshift := h .shiftLeft 1 63 (2 ^ 63) (by decide) (by decide) (by decide)
  rw [evaluate_binary] at hshift
  cases hshift

end Stencil.Condition
