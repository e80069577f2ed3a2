import Stencil.Proofs.ComparisonOrder
import Stencil.Proofs.IntegerArithmetic
import Stencil.Proofs.NearestDouble

/-!
# Comparisons of integers

Data may hold every integer that fits in 64 bits with or without a sign. Integers that fit with a
sign are compared by value (`Number.order?`). As soon as one of two integers does not, the doubles
next to them are compared instead, and two integers with the same double count as equal.
-/

namespace Stencil.Condition

/-! ## Integers with the same double -/

/-- Two integers that conditions cannot tell apart: one of them does not fit in 64 bits with a sign,
and they are the same once all but the first 53 bits are rounded away. -/
def Blurred (a b : Int) : Prop :=
  a ≠ b ∧ (2 ^ 63 ≤ a ∨ 2 ^ 63 ≤ b) ∧ Double.nearest a = Double.nearest b

instance (a b : Int) : Decidable (Blurred a b) := inferInstanceAs (Decidable (_ ∧ _ ∧ _))

theorem Blurred.comm {a b : Int} : Blurred a b ↔ Blurred b a := by
  rw [Blurred, Blurred, ne_comm, or_comm, eq_comm (a := Double.nearest a)]

/-- The last of the first 53 bits of an integer of 64 bits counts `2¹¹` at most. -/
theorem lastBit_le {n : Nat} (hn : n < 2 ^ 64) : Double.lastBit n ≤ 2 ^ 11 := by
  rcases eq_or_ne n 0 with rfl | hne
  · decide
  · have hlog : n.log2 < 64 := (Nat.log2_lt hne).2 hn
    exact Nat.pow_le_pow_right (by decide) (by omega)

/-- Integers of 64 bits that cannot be told apart differ by `2¹¹` at most. -/
theorem Blurred.close {a b : Int} (h : Blurred a b) (ha : a.natAbs < 2 ^ 64)
    (hb : b.natAbs < 2 ^ 64) : |a - b| ≤ 2 ^ 11 := by
  have hleft := Double.nearest_close a
  have hright := Double.nearest_close b
  have hbits := lastBit_le ha
  have hbits' := lastBit_le hb
  rw [← h.2.2] at hright
  rw [abs_eq_max_neg] at *
  omega

/-! ## Equality and order -/

/-- Rounding keeps the order of two integers unless it makes them equal. -/
theorem compare_nearest {a b : Int} (hlarge : 2 ^ 63 ≤ a ∨ 2 ^ 63 ≤ b) :
    Ord.compare (Double.nearest a) (Double.nearest b) =
      if Blurred a b then .eq else Ord.compare a b := by
  by_cases hblurred : Blurred a b
  · rw [if_pos hblurred, compare_eq_iff_eq]
    exact hblurred.2.2
  · rw [if_neg hblurred]
    have hapart (hne : a ≠ b) : Double.nearest a ≠ Double.nearest b := by
      intro hsame
      exact hblurred ⟨hne, hlarge, hsame⟩
    rcases lt_trichotomy a b with hlt | rfl | hgt
    · have hnearest : Double.nearest a < Double.nearest b :=
        lt_of_le_of_ne (Double.nearest_mono hlt.le) (hapart hlt.ne)
      rw [compare_lt_iff_lt.2 hlt, compare_lt_iff_lt.2 hnearest]
    · rw [compare_eq_iff_eq.2 rfl, compare_eq_iff_eq.2 rfl]
    · have hnearest : Double.nearest b < Double.nearest a :=
        lt_of_le_of_ne (Double.nearest_mono hgt.le) (hapart hgt.ne').symm
      rw [compare_gt_iff_gt.2 hgt, compare_gt_iff_gt.2 hnearest]

/-- Integers are compared by value if both fit in 64 bits with a sign, else by their doubles. -/
theorem order?_int (a b : Int) :
    order? (.int a) (.int b) =
      if Double.fits a ∧ Double.fits b then some (Ord.compare a b)
      else Double.order? (Double.ofInt a) (Double.ofInt b) := by
  simp only [order?, Number.ofValue?]
  by_cases ha : Double.fits a = true <;> by_cases hb : Double.fits b = true <;>
    simp [ha, hb, Number.order?, Number.toFloat]

/-- Two integers are equal exactly if their order is that of equal values. -/
theorem equals_int (a b : Int) :
    equals (.int a) (.int b) = true ↔ order? (.int a) (.int b) = some .eq := by
  rw [order?_int]
  simp only [equals, Number.ofValue?]
  by_cases ha : Double.fits a = true <;> by_cases hb : Double.fits b = true <;>
    simp [ha, hb, Number.eq, Number.toFloat, Double.eq]

theorem isLT_blurred (a b : Int) :
    (if Blurred a b then .eq else Ord.compare a b).isLT = decide (a < b ∧ ¬Blurred a b) := by
  rw [Bool.eq_iff_iff, decide_eq_true_iff, ← compare_lt_iff_lt]
  split_ifs with hblurred
  · constructor
    · intro hequal
      cases hequal
    · intro h
      exact absurd hblurred h.2
  · rw [and_iff_left hblurred]
    cases Ord.compare a b <;> decide

theorem isLE_blurred (a b : Int) :
    (if Blurred a b then .eq else Ord.compare a b).isLE = decide (a ≤ b ∨ Blurred a b) := by
  rw [Bool.eq_iff_iff, decide_eq_true_iff, ← compare_le_iff_le]
  split_ifs with hblurred
  · exact ⟨fun _ => .inr hblurred, fun _ => rfl⟩
  · rw [or_iff_left hblurred]
    cases Ord.compare a b <;> decide

section Range

variable {a b : Int} (hlow : -2 ^ 63 ≤ a) (hhigh : a < 2 ^ 64) (hlow' : -2 ^ 63 ≤ b)
  (hhigh' : b < 2 ^ 64)

include hlow hhigh hlow' hhigh'

/-- Integers that data can hold have the order of their values unless they are blurred. -/
theorem order?_integers :
    order? (.int a) (.int b) = some (if Blurred a b then .eq else Ord.compare a b) := by
  rw [order?_int]
  by_cases hfits : Double.fits a = true ∧ Double.fits b = true
  · have hsharp : ¬Blurred a b := by
      intro hblurred
      have hlarge := hblurred.2.1
      rw [fits_iff, fits_iff] at hfits
      omega
    rw [if_pos hfits, if_neg hsharp]
  · have hlarge : 2 ^ 63 ≤ a ∨ 2 ^ 63 ≤ b := by
      rw [fits_iff, fits_iff] at hfits
      omega
    rw [if_neg hfits, Double.order?_ofInt (by omega) (by omega), compare_nearest hlarge]

/-- Such integers are equal in conditions exactly if they are equal or blurred. -/
theorem equals_integers : equals (.int a) (.int b) = decide (a = b ∨ Blurred a b) := by
  rw [Bool.eq_iff_iff, equals_int, order?_integers hlow hhigh hlow' hhigh', decide_eq_true_iff,
    Option.some_inj]
  split_ifs with hblurred
  · exact ⟨fun _ => .inr hblurred, fun _ => rfl⟩
  · rw [compare_eq_iff_eq, or_iff_left hblurred]

/-- Comparisons of two integers that data can hold, from `-2⁶³` to `2⁶⁴ - 1`, are right about their
values, except where the integers are blurred (`Blurred`): these count as equal, so `==`, `<=` and
`in` hold of them and `<` does not. Blurred integers are close together. -/
theorem integers_compare_by_value_unless_blurred :
    comparison .eq (.int a) (.int b) = .ok (.bool (decide (a = b ∨ Blurred a b))) ∧
      comparison .lt (.int a) (.int b) = .ok (.bool (decide (a < b ∧ ¬Blurred a b))) ∧
      comparison .le (.int a) (.int b) = .ok (.bool (decide (a ≤ b ∨ Blurred a b))) ∧
      comparison .isIn (.int a) (.list [.int b]) =
        .ok (.bool (decide (a = b ∨ Blurred a b))) ∧
      (Blurred a b → |a - b| ≤ 2 ^ 11) := by
  have horder := order?_integers hlow hhigh hlow' hhigh'
  obtain ⟨hlt, hle, -, -⟩ := comparison_of_order? horder
  refine ⟨?_, ?_, ?_, ?_, ?_⟩
  · rw [comparison_eq_compare, compare, equals_integers hlow hhigh hlow' hhigh']
    rfl
  · rw [hlt, isLT_blurred]
  · rw [hle, isLE_blurred]
  · have hturned : decide (b = a ∨ Blurred b a) = decide (a = b ∨ Blurred a b) := by
      rw [decide_eq_decide, eq_comm, Blurred.comm]
    rw [comparison_eq_compare, compare, contains, List.any_cons, List.any_nil, Bool.or_false,
      equals_integers hlow' hhigh' hlow hhigh, hturned]
    rfl
  · intro hblurred
    exact hblurred.close (by omega) (by omega)

end Range

/-- The greatest integer with a sign is below the greatest without one. -/
theorem integers_compare_by_value_unless_blurred_bounds :
    -2 ^ 63 ≤ (2 ^ 63 - 1 : Int) ∧ (2 ^ 63 - 1 : Int) < 2 ^ 64 ∧ -2 ^ 63 ≤ (2 ^ 64 - 1 : Int) ∧
      (2 ^ 64 - 1 : Int) < 2 ^ 64 ∧
      comparison .lt (.int (2 ^ 63 - 1)) (.int (2 ^ 64 - 1)) = .ok (.bool true) := by
  have hsharp : decide ((2 ^ 63 - 1 : Int) < 2 ^ 64 - 1 ∧ ¬Blurred (2 ^ 63 - 1) (2 ^ 64 - 1)) =
    true := by decide
  refine ⟨by decide, by decide, by decide, by decide, ?_⟩
  have hlt := (integers_compare_by_value_unless_blurred (a := 2 ^ 63 - 1) (b := 2 ^ 64 - 1)
    (by decide) (by decide) (by decide) (by decide)).2.1
  rwa [hsharp] at hlt

/-- The first two integers that do not fit with a sign count as equal in every comparison, though
one is less than the other. -/
theorem integers_beyond_sign_not_by_value :
    ¬∀ a b : Int, -2 ^ 63 ≤ a → a < 2 ^ 64 → -2 ^ 63 ≤ b → b < 2 ^ 64 →
      comparison .eq (.int a) (.int b) = .ok (.bool (decide (a = b))) ∧
        comparison .lt (.int a) (.int b) = .ok (.bool (decide (a < b))) ∧
        comparison .le (.int a) (.int b) = .ok (.bool (decide (a ≤ b))) ∧
        comparison .isIn (.int a) (.list [.int b]) = .ok (.bool (decide (a = b))) := by
  intro hvalue
  have hequal := (hvalue (2 ^ 63) (2 ^ 63 + 1) (by decide) (by decide) (by decide) (by decide)).1
  rw [comparison_eq_compare, compare, equals_integers (by decide) (by decide) (by decide)
    (by decide), Except.map, Except.ok.injEq, Value.bool.injEq] at hequal
  revert hequal
  decide

end Stencil.Condition
