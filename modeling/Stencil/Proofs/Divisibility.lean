import Stencil.Proofs.Arguments
import Stencil.Proofs.IntegerText

/-!
# Divisibility of integers

Whether an integer is a multiple of another is asked of their doubles (`divisible`). The remainder
of two doubles is exact, so the answer is that for the nearest integers of 53 bits: it is right for
integers that have a double of their own, and may be wrong either way for others.
-/

namespace Stencil

open Condition (fits_iff)
open Double (fits lastBit nearest nearestNat ofInt)

/-! ## Remainders of whole doubles -/

namespace Double

/-- A fraction need not be in lowest terms. -/
theorem ofRatio_mul_mul (negative : Bool) (num den : Nat) {c : Nat} (hc : 0 < c) :
    ofRatio negative (num * c) (den * c) = ofRatio negative num den := by
  have hscaled : num * c * unitsPerOne = num * unitsPerOne * c := Nat.mul_right_comm _ _ _
  have hquotient : num * unitsPerOne * c / (den * c) = num * unitsPerOne / den :=
    Nat.mul_div_mul_right _ _ hc
  have hround (shift : Nat) : roundDiv (num * unitsPerOne * c) (den * c * Nat.pow 2 shift) =
      roundDiv (num * unitsPerOne) (den * Nat.pow 2 shift) := by
    rw [Nat.mul_right_comm den c, roundDiv_mul_mul _ _ hc]
  simp only [ofRatio, hscaled, hquotient, hround]

theorem nearestNat_pos {n : Nat} (hn : n ≠ 0) : 0 < nearestNat n := by
  calc 0 < 2 ^ n.log2 := Nat.two_pow_pos _
    _ ≤ nearestNat n := (nearestNat_between hn).1

theorem nearest_pos {n : Int} (hn : 0 < n) : 0 < nearest n := by
  have hpos : 0 < nearestNat n.natAbs := nearestNat_pos (by omega)
  rw [nearest, if_neg (by omega)]
  exact_mod_cast hpos

theorem nearest_lt {n : Int} (hn : fits n = true) : (nearest n).natAbs < 2 ^ 64 := by
  have hlow : nearest (-2 ^ 63) ≤ nearest n := nearest_mono (fits_iff.1 hn).1
  have hhigh : nearest n ≤ nearest (2 ^ 63) := nearest_mono (fits_iff.1 hn).2.le
  have hbounds : nearest (-2 ^ 63) = -2 ^ 63 ∧ nearest (2 ^ 63) = 2 ^ 63 := by decide
  omega

/-- The double of a number is a zero only for zero, which may have either sign. -/
theorem isZero_ofRatio_one (negative : Bool) {n : Nat} (hn : n < 2 ^ 64) :
    isZero (ofRatio negative n 1) = true ↔ n = 0 := by
  rcases eq_or_ne n 0 with rfl | hne
  · have hparts : parts (ofRatio negative 0 1) = .finite negative 0 0 := by
      have hofRatio : ofRatio negative 0 1 =
          Float.ofBits (UInt64.ofNat (if negative then signBit + 0 else 0)) := by
        simp only [ofRatio, Nat.zero_mul]
        rfl
      rw [hofRatio]
      exact parts_ofBits negative (show 0 < 2047 * leadingBit by decide)
    simp [isZero, units?, hparts]
  · obtain ⟨m, hm⟩ : ∃ m : Int, m = if negative then -(n : Int) else n := ⟨_, rfl⟩
    have habs : m.natAbs = n := by
      rw [hm]
      split_ifs <;> omega
    have hnegative : decide (m < 0) = negative := by
      cases negative with
      | false => exact decide_eq_false (by rw [hm, if_neg Bool.false_ne_true]; omega)
      | true => exact decide_eq_true (by rw [hm, if_pos rfl]; omega)
    have hofInt : ofRatio negative n 1 = ofInt m := by rw [ofInt, habs, hnegative]
    have hnearest : nearest m ≠ 0 := by
      have hpos := nearestNat_pos hne
      rw [nearest, habs]
      split_ifs <;> omega
    have hunits : (unitsPerOne : Int) ≠ 0 := by exact_mod_cast unitsPerOne_pos.ne'
    rw [hofInt, isZero, units?_ofInt (by omega)]
    simp only [beq_iff_eq, Option.some_inj, Int.mul_eq_zero, hnearest, hunits, hne, or_self]

/-- The remainder of two whole doubles is a zero if the one is a multiple of the other. -/
theorem isZero_rem_iff {x y : Float} {m k : Int} (hx : units? x = some (m * unitsPerOne))
    (hy : units? y = some (k * unitsPerOne)) (hk : k ≠ 0) (hm : m.natAbs < 2 ^ 64) :
    isZero (rem x y) = true ↔ k ∣ m := by
  have hunits : (unitsPerOne : Int) ≠ 0 := by exact_mod_cast unitsPerOne_pos.ne'
  have hrem : rem x y = ofRatio (isNegative x) (m.tmod k).natAbs 1 := by
    have htmod : ((m * unitsPerOne).tmod (k * unitsPerOne)).natAbs =
        (m.tmod k).natAbs * unitsPerOne := by
      rw [mul_comm m, mul_comm k, Int.mul_tmod_mul_of_pos, Int.natAbs_mul, Int.natAbs_natCast,
        Nat.mul_comm]
      exact_mod_cast unitsPerOne_pos
    simp only [rem, hx, hy, if_neg (Int.mul_ne_zero hk hunits), htmod]
    rw [← ofRatio_mul_mul (isNegative x) (m.tmod k).natAbs 1 unitsPerOne_pos, Nat.one_mul]
  have hsmall : (m.tmod k).natAbs < 2 ^ 64 := by
    rw [Int.natAbs_tmod]
    exact (Nat.mod_le _ _).trans_lt hm
  rw [hrem, isZero_ofRatio_one _ hsmall, Int.natAbs_eq_zero, Int.dvd_iff_tmod_eq_zero]

/-- A positive integer has a positive double. -/
theorem order?_ofInt_zero {n : Int} (hn : 0 < n) (hfits : fits n = true) :
    order? (ofInt n) (ofInt 0) = some .gt := by
  rw [fits_iff] at hfits
  have hnearest : nearest 0 < nearest n := nearest_pos hn
  rw [order?_ofInt (by omega) (by omega), Option.some_inj]
  exact compare_gt_iff_gt.2 hnearest

end Double

namespace Filter

/-! ## The answer -/

section Positive

variable {v w : Value} {n d : Int} (hn : 0 < n) (hd : 0 < d) (hnfits : fits n = true)
  (hdfits : fits d = true)

include hd hdfits in
/-- A positive divisor is accepted. -/
theorem takes_divisor (hw : w.Gives d) :
    Parameter.Takes ⟨[.str, .int, .float], .str "1", [.str "", .int 0]⟩ w := by
  cases hw with
  | int =>
    have heq : Double.eq (ofInt d) (ofInt 0) = false := by
      rw [Double.eq, Double.order?_ofInt_zero hd hdfits]
      rfl
    exact ⟨.inl (by simp [Value.type]), by simp [Constant.matches, heq]⟩
  | @text cs _ hspells =>
    have hne : "" ≠ String.ofList cs := by
      intro h
      apply hspells.ne_nil
      rw [← String.toList_ofList (l := cs), ← h]
      rfl
    exact ⟨.inl (by simp [Value.type]), by simp [Constant.matches, hne]⟩

include hd hdfits in
theorem apply_divisibleBy_eq (s : Surroundings) (hw : w.Gives d) :
    divisibleBy.apply s v [w] = divisible v w := by
  have hargs : divisibleBy.resolveArguments [w] = pure [w] :=
    resolveFrom_of_takes divisibleBy 1 (.cons (takes_divisor hd hdfits hw) .nil)
  rw [apply, hargs]
  rfl

include hn hd hnfits hdfits in
/-- The answer is that for the nearest integers of 53 bits. -/
theorem divisible_of_gives (hv : v.Gives n) (hw : w.Gives d) :
    divisible v w = pure (.bool (decide (nearest d ∣ nearest n))) := by
  have hleft : v.toFloat? = some (ofInt n) := by
    rw [fits_iff] at hnfits
    exact hv.toFloat?_eq (by omega) hn.ne'
  have hright : w.toFloat? = some (ofInt d) := by
    rw [fits_iff] at hdfits
    exact hw.toFloat?_eq (by omega) hd.ne'
  have hzero : Double.isZero (Double.rem (ofInt n) (ofInt d)) = decide (nearest d ∣ nearest n) := by
    have hunits {m : Int} (hm : fits m = true) :
        Double.units? (ofInt m) = some (nearest m * Double.unitsPerOne) := by
      rw [fits_iff] at hm
      exact Double.units?_ofInt (by omega)
    rw [Bool.eq_iff_iff, decide_eq_true_iff]
    exact Double.isZero_rem_iff (hunits hnfits) (hunits hdfits) (Double.nearest_pos hd).ne'
      (Double.nearest_lt hnfits)
  have hshown : divisible v w =
      (if Double.order? (ofInt n) (ofInt 0) == some .gt &&
          Double.order? (ofInt d) (ofInt 0) == some .gt
        then pure (.bool (Double.isZero (Double.rem (ofInt n) (ofInt d))))
        else .withEvent (.notPositive (ofInt n) (ofInt d)) .null : Logged Value) := by
    cases hv <;> simp only [divisible, hleft, hright, Option.getD_some]
  rw [hshown, Double.order?_ofInt_zero hn hnfits, Double.order?_ofInt_zero hd hdfits, hzero]
  rfl

include hn hd hnfits hdfits in
theorem apply_divisibleBy (s : Surroundings) (hv : v.Gives n) (hw : w.Gives d) :
    divisibleBy.apply s v [w] = pure (.bool (decide (nearest d ∣ nearest n))) := by
  rw [apply_divisibleBy_eq hd hdfits s hw, divisible_of_gives hn hd hnfits hdfits hv hw]

end Positive

/-- A positive integer of 64 bits is said to be a multiple of another if this holds of the nearest
integers of 53 bits, with no event, whether the two are numbers or texts. The answer is right if
their other bits are zeros, and so up to `2⁵³`. -/
theorem divisible_unless_rounded (s : Surroundings) {v w : Value} {n d : Int} (hv : v.Gives n)
    (hw : w.Gives d) (hn : 0 < n) (hd : 0 < d) (hnfits : fits n = true) (hdfits : fits d = true) :
    ∃ answer : Bool, divisibleBy.apply s v [w] = pure (.bool answer) ∧
      (answer = true ↔ nearest n % nearest d = 0) ∧
      (lastBit n.natAbs ∣ n.natAbs → lastBit d.natAbs ∣ d.natAbs → (answer = true ↔ n % d = 0)) ∧
      (n ≤ 2 ^ 53 → d ≤ 2 ^ 53 → (answer = true ↔ n % d = 0)) := by
  have hanswer : decide (nearest d ∣ nearest n) = true ↔ nearest n % nearest d = 0 := by
    rw [decide_eq_true_iff, Int.dvd_iff_emod_eq_zero]
  refine ⟨decide (nearest d ∣ nearest n), apply_divisibleBy hn hd hnfits hdfits s hv hw, hanswer,
    ?_, ?_⟩
  · intro hnbits hdbits
    rw [hanswer, Double.nearest_eq_self_iff.2 hnbits, Double.nearest_eq_self_iff.2 hdbits]
  · intro hnsmall hdsmall
    rw [hanswer, Double.nearest_eq_self_of_le (by omega), Double.nearest_eq_self_of_le (by omega)]

/-- A long integer with zeros behind its first 53 bits, and a divisor with a sign and a zero in
front, both as texts. -/
theorem divisible_unless_rounded_text :
    let v : Value := .str "9223372036854774784"
    let w : Value := .str "+0512"
    v.Gives 9223372036854774784 ∧ w.Gives 512 ∧ (0 : Int) < 9223372036854774784 ∧ (0 : Int) < 512 ∧
      fits 9223372036854774784 = true ∧ fits 512 = true ∧
      ∀ s : Surroundings, divisibleBy.apply s v [w] = pure (.bool true) := by
  intro v w
  have hv : v.Gives 9223372036854774784 := .text (.of_intDigits 9223372036854774784)
  have hspells : SpellsInt ['+', '0', '5', '1', '2'] 512 :=
    .plus (by decide) (List.all_eq_true.1 rfl)
  have hw : w.Gives 512 := .text hspells
  have hnfits : fits 9223372036854774784 = true := by decide
  have hdfits : fits 512 = true := by decide
  refine ⟨hv, hw, by decide, by decide, hnfits, hdfits, fun s => ?_⟩
  obtain ⟨answer, happly, -, hexact, -⟩ :=
    divisible_unless_rounded s hv hw (by decide) (by decide) hnfits hdfits
  rw [happly, (hexact (by decide) (by decide)).2 (by decide)]

/-- The first integer that no double stands for is odd and a multiple of three. It is said to be
even and no multiple of three. -/
theorem divisible_of_rounded_wrong :
    (¬∀ (s : Surroundings) (v w : Value) (n d : Int), v.Gives n → w.Gives d → 0 < n → 0 < d →
      fits n = true → fits d = true →
        (divisibleBy.apply s v [w]).value = .bool true → n % d = 0) ∧
      ¬∀ (s : Surroundings) (v w : Value) (n d : Int), v.Gives n → w.Gives d → 0 < n → 0 < d →
        fits n = true → fits d = true →
          n % d = 0 → (divisibleBy.apply s v [w]).value = .bool true := by
  let surroundings : Surroundings := ⟨⟨0, 0, 0⟩, fun _ => 0⟩
  have hn : fits 9007199254740993 = true := by decide
  constructor
  · intro hall
    have heven := hall surroundings _ _ _ _ (.int 9007199254740993) (.int 2) (by decide) (by decide)
      hn (by decide)
    have hrounded : nearest 2 ∣ nearest 9007199254740993 := by decide
    rw [apply_divisibleBy (by decide) (by decide) hn (by decide) _ (.int _) (.int _),
      decide_eq_true hrounded] at heven
    exact absurd (heven rfl) (by decide)
  · intro hall
    have hthree := hall surroundings _ _ _ _ (.int 9007199254740993) (.int 3) (by decide)
      (by decide) hn (by decide) (by decide)
    have hrounded : ¬nearest 3 ∣ nearest 9007199254740993 := by decide
    rw [apply_divisibleBy (by decide) (by decide) hn (by decide) _ (.int _) (.int _),
      decide_eq_false hrounded] at hthree
    cases hthree

end Filter

end Stencil
