import Mathlib
import Stencil.Double.Reader

/-!
# Widths of printed numbers

How many characters the decimal text of an integer has. Away from zero integers get wider, so none
between two others is wider than both of them. On the negative side they get narrower on the way up.
-/

namespace Stencil.Double

theorem length_natDigits_pos (n : Nat) : 0 < (natDigits n).length := Nat.length_toDigits_pos

theorem length_natDigits_le_iff {n k : Nat} (hk : 0 < k) :
    (natDigits n).length ≤ k ↔ n < 10 ^ k := Nat.length_toDigits_le_iff (by decide) hk

theorem length_natDigits_mono {m n : Nat} (h : m ≤ n) :
    (natDigits m).length ≤ (natDigits n).length := by
  have hpos := length_natDigits_pos n
  rw [length_natDigits_le_iff hpos]
  calc m ≤ n := h
    _ < 10 ^ (natDigits n).length := (length_natDigits_le_iff hpos).1 le_rfl

/-- How many characters an integer is printed with. -/
def width (n : Int) : Nat := (intDigits n).length

theorem width_of_neg {n : Int} (h : n < 0) : width n = (natDigits n.natAbs).length + 1 := by
  rw [width, intDigits, if_pos h, List.length_cons]

theorem width_of_nonneg {n : Int} (h : 0 ≤ n) : width n = (natDigits n.natAbs).length := by
  rw [width, intDigits, if_neg h.not_gt]

/-- Integers from zero up get wider. -/
theorem width_mono {m n : Int} (hm : 0 ≤ m) (h : m ≤ n) : width m ≤ width n := by
  rw [width_of_nonneg hm, width_of_nonneg (hm.trans h)]
  apply length_natDigits_mono
  omega

/-- An integer between two others is no wider than the wider one. -/
theorem width_le_max {a n b : Int} (ha : a ≤ n) (hb : n ≤ b) :
    width n ≤ max (width a) (width b) := by
  rcases lt_or_ge n 0 with hneg | hnonneg
  · apply le_max_of_le_left
    have hlength : (natDigits n.natAbs).length ≤ (natDigits a.natAbs).length :=
      length_natDigits_mono (by omega)
    rw [width_of_neg hneg, width_of_neg (ha.trans_lt hneg)]
    omega
  · exact le_max_of_le_right (width_mono hnonneg hb)

/-- The widest integers of 64 bits have 19 digits and a sign. -/
theorem width_le_of_fits {n : Int} (h : fits n = true) : width n ≤ 20 := by
  have hrange : minInt ≤ n ∧ n ≤ maxInt := by
    rwa [fits, Bool.and_eq_true, decide_eq_true_iff, decide_eq_true_iff] at h
  simp only [minInt, maxInt] at hrange
  have hlength : (natDigits n.natAbs).length ≤ 19 := by
    rw [length_natDigits_le_iff (by decide)]
    omega
  rcases lt_or_ge n 0 with hneg | hnonneg
  · rw [width_of_neg hneg]
    omega
  · rw [width_of_nonneg hnonneg]
    omega

end Stencil.Double
