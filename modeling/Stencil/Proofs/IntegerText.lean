import Stencil.Proofs.NearestDouble
import Stencil.Proofs.NumberWidth
import Stencil.Proofs.Slicing

/-!
# Integers and their texts

Filters on numbers take the decimal text of an integer for the integer. Read as an integer it is
exact, and read as a double it is the double of the integer, however it is spelled.
-/

namespace Stencil

open Condition (fits_iff)

namespace Filter.SpellsInt

variable {cs : List Char} {n : Int}

/-- The decimal digits of an integer are one of its texts. -/
theorem of_intDigits (n : Int) : SpellsInt (Double.intDigits n) n := by
  have hne : Double.natDigits n.natAbs ≠ [] := Nat.toDigits_ne_nil
  have hdigits : ∀ c ∈ Double.natDigits n.natAbs, c.isDigit = true := fun _ hc =>
    Nat.isDigit_of_mem_toDigits (by decide) (by decide) hc
  have hvalue : Nat.ofDigitChars 10 (Double.natDigits n.natAbs) 0 = n.natAbs :=
    Nat.ofDigitChars_ten_toDigits
  rw [Double.intDigits]
  split_ifs with hneg
  · have h := minus hne hdigits
    rwa [hvalue, Int.ofNat_natAbs_of_nonpos (by omega), neg_neg] at h
  · have h := plain hne hdigits
    rwa [hvalue, Int.natAbs_of_nonneg (by omega)] at h

theorem trim_eq (h : SpellsInt cs n) : Text.trim cs = cs := by
  have hblank := h.isBlank_eq
  have htrim : Text.trim ([] ++ cs ++ []) = cs :=
    Text.trim_between (by simp) (by simp) (fun c hc => hblank c (List.mem_of_mem_head? hc))
      (fun c hc => hblank c (List.mem_of_getLast? hc))
  rwa [List.nil_append, List.append_nil] at htrim

end Filter.SpellsInt

/-! ## Texts read as doubles -/

namespace Double

/-- An integer of moderate size is written as a decimal without an exponent. -/
theorem ofDecimal_eq_ofRatio (negative : Bool) {n : Nat} (hn : n < 2 ^ 64) :
    ofDecimal negative n 0 = ofRatio negative n 1 := by
  have hcount : digitCount n ≤ 20 := (length_natDigits_le_iff (by decide)).2 (by omega)
  unfold ofDecimal
  dsimp only
  split_ifs with hzero hlarge hsmall
  · rw [hzero]
  · omega
  · omega
  · simp [Nat.pow_eq]

theorem toLower_of_isDigit {d : Char} (h : d.isDigit = true) : d.toLower = d := by
  apply Char.toLower_eq_of_not_isUpper
  simp only [Char.isDigit, Char.isUpper, Bool.and_eq_true, decide_eq_true_eq,
    UInt32.le_iff_toNat_le, ge_iff_le] at h ⊢
  have hnine : '9'.val.toNat = 57 := rfl
  have hletter : 'A'.val.toNat = 65 := rfl
  omega

section Digits

variable {digits : List Char} (hne : digits ≠ []) (hdigits : ∀ c ∈ digits, c.isDigit = true)

include hdigits

/-- No name of a number is made of digits. -/
theorem lower_ne_of_digits {name : String} {c : Char} (hc : c ∈ name.toList)
    (hletter : c.isDigit = false) : String.ofList (digits.map Char.toLower) ≠ name := by
  have hlower : digits.map Char.toLower = digits := by
    rw [List.map_congr_left fun d hd => toLower_of_isDigit (hdigits d hd), List.map_id']
  rintro rfl
  rw [hlower, String.toList_ofList] at hc
  rw [hdigits c hc] at hletter
  cases hletter

include hne

theorem readDecimal?_digits (negative : Bool) :
    readDecimal? negative digits = some (ofDecimal negative (digitsValue digits) 0) := by
  have htake : digits.takeWhile Char.isDigit = digits := List.takeWhile_eq_self_iff.2 hdigits
  have hdrop : digits.dropWhile Char.isDigit = [] := List.dropWhile_eq_nil_iff.2 hdigits
  simp [readDecimal?, htake, hdrop, hne, readExponent?]

/-- A sign and digits are read as the double next to the number that the digits make. -/
theorem readDouble?_of_splitSign {cs : List Char} {negative : Bool}
    (hsplit : splitSign cs = (negative, digits)) (hn : Nat.ofDigitChars 10 digits 0 < 2 ^ 64) :
    readDouble? cs = some (ofRatio negative (Nat.ofDigitChars 10 digits 0) 1) := by
  have hinf : String.ofList (digits.map Char.toLower) ≠ "inf" :=
    lower_ne_of_digits hdigits (c := 'i') (by decide) rfl
  have hinfinity : String.ofList (digits.map Char.toLower) ≠ "infinity" :=
    lower_ne_of_digits hdigits (c := 'i') (by decide) rfl
  have hnan : String.ofList (digits.map Char.toLower) ≠ "nan" :=
    lower_ne_of_digits hdigits (c := 'n') (by decide) rfl
  rw [← ofDecimal_eq_ofRatio negative hn]
  simp only [readDouble?, hsplit, hinf, hinfinity, hnan, if_false]
  exact readDecimal?_digits hne hdigits negative

end Digits

end Double

namespace Value

open Double (fits ofInt readDouble?_of_splitSign)

/-- The values that stand for an integer: the integer itself and its texts. -/
inductive Gives : Value → Int → Prop
  | int (n : Int) : Gives (.int n) n
  | text {cs : List Char} {n : Int} : Filter.SpellsInt cs n → Gives (.str (String.ofList cs)) n

namespace Gives

variable {v : Value} {n : Int}

theorem toInt?_eq (h : v.Gives n) (hn : fits n = true) : v.toInt? = some n := by
  cases h with
  | int =>
    rw [fits_iff] at hn
    simp only [toInt?, clampInt, Double.minInt, Double.maxInt, Option.some_inj]
    omega
  | text h => simp [toInt?, String.toList_ofList, h.trim_eq, h.readInt?_eq hn]

/-- Zero is left out for its text with a minus sign, which is another double. -/
theorem toFloat?_eq (h : v.Gives n) (hn : n.natAbs < 2 ^ 64) (hne : n ≠ 0) :
    v.toFloat? = some (ofInt n) := by
  cases h with
  | int => rfl
  | @text cs n h =>
    rw [toFloat?, String.toList_ofList, h.trim_eq]
    cases h with
    | plain hdigits hall =>
      exact readDouble?_of_splitSign hdigits hall (Filter.SpellsInt.splitSign_digits hall) hn
    | plus hdigits hall => exact readDouble?_of_splitSign hdigits hall rfl hn
    | @minus digits hdigits hall =>
      rw [Int.natAbs_neg, Int.natAbs_natCast] at hn
      have hneg : -(Nat.ofDigitChars 10 digits 0 : Int) < 0 := by omega
      rw [readDouble?_of_splitSign hdigits hall rfl hn, ofInt, Int.natAbs_neg, Int.natAbs_natCast,
        decide_eq_true hneg]

end Gives

end Value

end Stencil
