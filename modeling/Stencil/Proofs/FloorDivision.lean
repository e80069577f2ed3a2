import Mathlib.Algebra.Order.Floor.Ring
import Mathlib.Data.Rat.Floor
import Stencil.Proofs.IntegerArithmetic

/-!
# Floor division and its remainder

The quotient in conditions (`floorQuotient?`) comes from the Euclidean one, the remainder
(`floorRemainder`) from the division toward zero, and each has a correction of its own. On integers
of 64 bits both come out as the quotient rounded down and what it leaves, and on the way there only
the quotient of the least integer by minus one does not fit in 64 bits.
-/

namespace Stencil.Condition

open Double (fits wrap)

/-! ## Rounding down -/

/-- What a quotient rounded down leaves lies between zero and the divisor. -/
theorem fmod_between (x : Int) {y : Int} (hy : y ≠ 0) :
    (0 ≤ x.fmod y ∧ x.fmod y < y) ∨ (y < x.fmod y ∧ x.fmod y ≤ 0) := by
  rcases lt_or_gt_of_ne hy with hneg | hpos
  · right
    have hopposite : (-x).fmod (-y) = -x.fmod y := Int.neg_fmod_neg x y
    have hnonneg : 0 ≤ (-x).fmod (-y) := Int.fmod_nonneg_of_pos (-x) (by omega)
    have hlt : (-x).fmod (-y) < -y := Int.fmod_lt_of_pos (-x) (by omega)
    omega
  · left
    exact ⟨Int.fmod_nonneg_of_pos x hpos, Int.fmod_lt_of_pos x hpos⟩

/-- So it is smaller than the divisor and, if not zero, has its sign. -/
theorem abs_fmod_lt (x : Int) {y : Int} (hy : y ≠ 0) :
    |x.fmod y| < |y| ∧ (x.fmod y = 0 ∨ (x.fmod y).sign = y.sign) := by
  rcases fmod_between x hy with ⟨hnonneg, hlt⟩ | ⟨hlt, hnonpos⟩
  · refine ⟨by rwa [abs_of_nonneg hnonneg, abs_of_pos (by omega)], ?_⟩
    rcases hnonneg.eq_or_lt with hzero | hpos
    · exact .inl hzero.symm
    · right
      rw [Int.sign_eq_one_of_pos hpos, Int.sign_eq_one_of_pos (by omega)]
  · refine ⟨by rwa [abs_of_nonpos hnonpos, abs_of_neg (by omega), neg_lt_neg_iff], ?_⟩
    rcases hnonpos.eq_or_lt with hzero | hneg
    · exact .inl hzero
    · right
      rw [Int.sign_eq_neg_one_of_neg hneg, Int.sign_eq_neg_one_of_neg (by omega)]

/-- The quotient rounded down is the floor of the fraction. -/
theorem fdiv_eq_floor (x : Int) {y : Int} (hy : y ≠ 0) : x.fdiv y = ⌊(x / y : ℚ)⌋ := by
  have hne : (y : ℚ) ≠ 0 := Int.cast_ne_zero.2 hy
  have hsum : (x : ℚ) = y * x.fdiv y + x.fmod y := by
    exact_mod_cast (Int.mul_fdiv_add_fmod x y).symm
  have hsplit : (x / y : ℚ) = x.fdiv y + x.fmod y / y := by
    rw [hsum]
    field_simp
  -- The remainder lies between zero and the divisor, so it adds less than one.
  have hrest : 0 ≤ (x.fmod y / y : ℚ) ∧ (x.fmod y / y : ℚ) < 1 := by
    rcases fmod_between x hy with ⟨hnonneg, hlt⟩ | ⟨hlt, hnonpos⟩
    · have hpos : (0 : ℚ) < y := by exact_mod_cast hnonneg.trans_lt hlt
      rw [div_lt_one hpos]
      exact ⟨div_nonneg (by exact_mod_cast hnonneg) hpos.le, by exact_mod_cast hlt⟩
    · have hneg : (y : ℚ) < 0 := by exact_mod_cast hlt.trans_le hnonpos
      rw [div_lt_one_of_neg hneg]
      exact ⟨div_nonneg_of_nonpos (by exact_mod_cast hnonpos) hneg.le, by exact_mod_cast hlt⟩
  rw [hsplit, Int.floor_intCast_add, Int.floor_eq_zero_iff.2 hrest, add_zero]

/-! ## The corrections -/

/-- A Euclidean quotient that leaves something fits in 64 bits. -/
theorem fits_ediv {x y : Int} (hx : fits x) (hne : y ≠ 0) (hrest : x % y ≠ 0) :
    fits (x / y) = true := by
  have hunit : y ≠ 1 ∧ y ≠ -1 := by
    constructor
    all_goals
      rintro rfl
      simp at hrest
  have hsize : (x / y).natAbs ≤ x.natAbs := Int.natAbs_ediv_le_natAbs x y
  have hnonneg : 0 ≤ x % y := Int.emod_nonneg x hne
  have hlt : x % y < |y| := Int.emod_lt_abs x hne
  have hsum : x % y + y * (x / y) = x := Int.emod_add_mul_ediv x y
  rw [fits_iff] at hx ⊢
  -- The only integer of no larger size that does not fit is the opposite of the least one.
  have hopposite : x / y ≠ 2 ^ 63 := by
    intro hquotient
    rw [hquotient] at hsum
    rw [abs_eq_max_neg] at hlt
    omega
  omega

/-- The corrected Euclidean quotient is the quotient rounded down. -/
theorem floorQuotient?_eq {x y : Int} (hx : fits x) (hne : y ≠ 0) :
    floorQuotient? x y = fitting? (x.fdiv y) := by
  rw [floorQuotient?]
  by_cases hcorrected : y < 0 ∧ x % y ≠ 0
  · have hquotient : x.fdiv y = x / y - 1 := by
      have hnot : ¬(0 ≤ y ∨ y ∣ x) := by
        rw [Int.dvd_iff_emod_eq_zero]
        omega
      rw [Int.fdiv_eq_ediv, if_neg hnot]
    rw [hquotient, fitting?, if_pos (fits_ediv hx hne hcorrected.2)]
    exact if_pos hcorrected
  · have hquotient : x.fdiv y = x / y := by
      have hpos : 0 ≤ y ∨ y ∣ x := by
        rw [Int.dvd_iff_emod_eq_zero]
        omega
      rw [Int.fdiv_eq_ediv, if_pos hpos, sub_zero]
    rw [hquotient]
    cases hq : fitting? (x / y) with
    | none => rfl
    | some q => exact if_neg hcorrected

/-- The corrected remainder of the division toward zero is what the quotient rounded down leaves. -/
theorem floorRemainder_eq (x : Int) {y : Int} (hne : y ≠ 0) : floorRemainder x y = x.fmod y := by
  have hsize : (x.tmod y).natAbs < y.natAbs := by
    rw [Int.natAbs_tmod]
    exact Nat.mod_lt _ (Int.natAbs_pos.2 hne)
  rw [floorRemainder]
  by_cases hdvd : y ∣ x
  · have hzero : x.tmod y = 0 := Int.tmod_eq_zero_of_dvd hdvd
    simp only [hzero, ne_eq, not_true_eq_false, false_and, if_false]
    exact (Int.fmod_eq_zero_of_dvd hdvd).symm
  · have hnonzero : x.tmod y ≠ 0 := fun hzero => hdvd (Int.dvd_of_tmod_eq_zero hzero)
    have hneg : x.tmod y < 0 ↔ x < 0 := by
      rw [← Int.sign_eq_neg_one_iff_neg, Int.sign_tmod, if_neg hdvd, Int.sign_eq_neg_one_iff_neg]
    rw [Int.fmod_eq_tmod, if_neg hdvd]
    by_cases hsame : x.tmod y < 0 ↔ y < 0
    · rw [if_neg fun hcorrected => hcorrected.2 hsame]
      split_ifs <;> omega
    · rw [if_pos ⟨hnonzero, hsame⟩]
      split_ifs <;> omega

/-! ## In conditions -/

section Operators

variable (mismatch : Error) {x y : Int}

theorem intBinary_floorDiv (hx : fits x) (hne : y ≠ 0) :
    intBinary mismatch .floorDiv x y = checkInt (x.fdiv y) := by
  simp only [intBinary, if_neg hne, floorQuotient?_eq hx hne, fitting?, checkInt]
  by_cases hfits : fits (x.fdiv y) = true
  · rw [if_pos hfits, if_pos hfits]
  · rw [if_neg hfits, if_neg hfits]

/-- There is a remainder where the quotient rounded down fits. -/
theorem intBinary_mod (hfits : fits (x.fdiv y) = true) (hne : y ≠ 0) :
    intBinary mismatch .mod x y = .ok (.int (x.fmod y)) := by
  have hquotient : ¬(x = Double.minInt ∧ y = -1) := by
    rintro ⟨rfl, rfl⟩
    revert hfits
    decide
  simp only [intBinary, if_neg hne, if_neg hquotient, floorRemainder_eq x hne]

end Operators

/-- The quotient of two integers of 64 bits is rounded down, or an overflow if it does not fit in 64
bits. Where there is a quotient there is a remainder: it is what the product with the divisor lacks,
is smaller than the divisor and has its sign. Division by zero has neither. -/
theorem floorDiv_with_remainder {x y : Int} (hx : fits x) (hy : fits y) :
    let quotient := evaluate [.value (.int x), .op "//", .value (.int y)]
    let remainder := evaluate [.value (.int x), .op "%", .value (.int y)]
    (y = 0 → quotient = .error .divisionByZero ∧ remainder = .error .divisionByZero) ∧
    (y ≠ 0 → quotient =
      if fits ⌊(x / y : ℚ)⌋ then .ok (.int ⌊(x / y : ℚ)⌋) else .error .overflow) ∧
    ∀ v, quotient = .ok v → ∃ q r : Int, v = .int q ∧ remainder = .ok (.int r) ∧
      x = y * q + r ∧ |r| < |y| ∧ (r = 0 ∨ r.sign = y.sign) := by
  intro quotient remainder
  have hquotient : quotient =
      intBinary (typesError .floorDiv (.int x) (.int y)) .floorDiv x y := by
    rw [← binary_int .floorDiv hx hy, ← evaluate_binary]
    rfl
  have hremainder : remainder = intBinary (typesError .mod (.int x) (.int y)) .mod x y := by
    rw [← binary_int .mod hx hy, ← evaluate_binary]
    rfl
  rw [hquotient, hremainder]
  by_cases hzero : y = 0
  · subst hzero
    refine ⟨fun _ => ⟨rfl, rfl⟩, fun hne => absurd rfl hne, ?_⟩
    intro v hv
    cases hv
  · rw [intBinary_floorDiv _ hx hzero, ← fdiv_eq_floor x hzero]
    refine ⟨fun h => absurd h hzero, fun _ => rfl, ?_⟩
    intro v hv
    rw [checkInt] at hv
    split at hv
    · rename_i hfits
      cases hv
      exact ⟨x.fdiv y, x.fmod y, rfl, intBinary_mod _ hfits hzero,
        (Int.mul_fdiv_add_fmod x y).symm, abs_fmod_lt x hzero⟩
    · cases hv

/-- The least integer divided by three is rounded down, with a remainder of the sign of three, and
its opposite does not fit. -/
theorem floorDiv_with_remainder_least :
    evaluate [.value (.int (-2 ^ 63)), .op "//", .value (.int 3)] =
        .ok (.int (-3074457345618258603)) ∧
      evaluate [.value (.int (-2 ^ 63)), .op "%", .value (.int 3)] = .ok (.int 1) ∧
      evaluate [.value (.int (-2 ^ 63)), .op "//", .value (.int (-1))] = .error .overflow := by
  have hthird : ⌊((-2 ^ 63 : Int) / (3 : Int) : ℚ)⌋ = -3074457345618258603 := by
    rw [← fdiv_eq_floor _ (by decide)]
    decide
  have hopposite : ⌊((-2 ^ 63 : Int) / (-1 : Int) : ℚ)⌋ = 2 ^ 63 := by
    rw [← fdiv_eq_floor _ (by decide)]
    decide
  have hleast : fits (-2 ^ 63) = true := by decide
  obtain ⟨-, hthirds, hrest⟩ := floorDiv_with_remainder hleast (y := 3) (by decide)
  obtain ⟨-, hnegated, -⟩ := floorDiv_with_remainder hleast (y := -1) (by decide)
  rw [hthird] at hthirds
  rw [hopposite] at hnegated
  have hquotient := hthirds (by decide)
  rw [if_pos (by decide)] at hquotient
  obtain ⟨q, r, hq, hr, hsum, -⟩ := hrest _ hquotient
  cases hq
  obtain rfl : r = 1 := by omega
  exact ⟨hquotient, hr, hnegated (by decide)⟩

end Stencil.Condition
