import Stencil.Proofs.Arguments
import Stencil.Proofs.IntegerText

/-!
# Digits by their places

The digits of a number, counted from the right, are its quotients by the powers of ten modulo ten.
An integer has no digit where its minus sign stands, nor in front of its first digit or behind its
last one; there `digitAt` leaves it as it is.
-/

namespace Stencil

open Double (fits intDigits natDigits)

/-! ## Decimal digits -/

namespace Double

/-- The last digit is the remainder by ten, and the digits before it are those of the quotient. -/
theorem reverse_natDigits (n : Nat) :
    (natDigits n).reverse =
      (n % 10).digitChar :: if n < 10 then [] else (natDigits (n / 10)).reverse := by
  rw [natDigits, Nat.toDigits_eq_if (by decide)]
  split_ifs with hlt
  · rw [Nat.mod_eq_of_lt hlt]
    rfl
  · rw [List.reverse_append]
    rfl

/-- The digit at a place, counted from the right. -/
theorem getElem?_reverse_natDigits {n k : Nat} (hk : k < (natDigits n).length) :
    (natDigits n).reverse[k]? = some (n / 10 ^ k % 10).digitChar := by
  induction k generalizing n with
  | zero => rw [reverse_natDigits, List.getElem?_cons_zero, pow_zero, Nat.div_one]
  | succ k ih =>
    have hlength := congrArg List.length (reverse_natDigits n)
    rw [List.length_reverse, List.length_cons] at hlength
    rw [reverse_natDigits, List.getElem?_cons_succ]
    split_ifs at hlength ⊢ with hlt
    · rw [List.length_nil] at hlength
      omega
    · rw [List.length_reverse] at hlength
      rw [ih (by omega), Nat.div_div_eq_div_mul, ← pow_succ']

/-- How many digits a number has. -/
theorem length_natDigits (n : Nat) : (natDigits n).length = Nat.log 10 n + 1 := by
  apply le_antisymm
  · rw [length_natDigits_le_iff (Nat.succ_pos _)]
    exact Nat.lt_pow_succ_log_self (by decide) n
  · have hlt : n < 10 ^ (natDigits n).length :=
      (length_natDigits_le_iff (length_natDigits_pos n)).1 le_rfl
    exact Nat.log_lt_of_lt_pow' (length_natDigits_pos n).ne' hlt

/-- Counted from the right, a minus sign comes behind the digits. -/
theorem reverse_intDigits (n : Int) :
    (intDigits n).reverse = (natDigits n.natAbs).reverse ++ if n < 0 then ['-'] else [] := by
  rw [intDigits]
  split_ifs
  · rw [List.reverse_cons]
  · rw [List.append_nil]

end Double

theorem isDigit_digitChar {d : Nat} (hd : d < 10) :
    d.digitChar.isDigit = true ∧ d.digitChar.toNat - 48 = d := by
  revert d
  decide

namespace Filter

/-! ## The filter -/

section Position

variable {w : Value} {k : Int} (hk : w.toInt? = some k) (value : Value) {digits : List Char}

include hk

theorem value_digitOf_digit {d : Char} (hpos : 1 ≤ k)
    (hd : digits.reverse[(k - 1).toNat]? = some d) (hdigit : d.isDigit = true) :
    (digitOf value digits w).value = .int (d.toNat - 48 : Nat) := by
  have hplace : k.toNat - 1 = (k - 1).toNat := by omega
  obtain ⟨hlt, -⟩ := List.getElem?_eq_some_iff.1 hd
  rw [List.length_reverse] at hlt
  have hrange : 1 ≤ k ∧ k ≤ digits.length := by omega
  simp only [digitOf, hk, if_pos hrange, hplace, hd, if_pos hdigit, Logged.value_pure]

theorem value_digitOf_other
    (hnone : 1 ≤ k → ∀ d, digits.reverse[(k - 1).toNat]? = some d → ¬d.isDigit = true) :
    (digitOf value digits w).value = value := by
  by_cases hrange : 1 ≤ k ∧ k ≤ digits.length
  · have hplace : k.toNat - 1 = (k - 1).toNat := by omega
    have hlt : (k - 1).toNat < digits.reverse.length := by
      rw [List.length_reverse]
      omega
    have hd : digits.reverse[(k - 1).toNat]? = some digits.reverse[(k - 1).toNat] :=
      List.getElem?_eq_getElem hlt
    simp only [digitOf, hk, if_pos hrange, hplace, hd, if_neg (hnone hrange.1 _ hd)]
    rfl
  · simp only [digitOf, hk, if_neg hrange]
    rfl

/-- The places of an integer are those of its digits; a minus sign is no digit. -/
theorem value_digitAt (n : Int) :
    (digitAt (.int n) w).value = .int (if 1 ≤ k ∧ k ≤ Nat.log 10 n.natAbs + 1
      then (n.natAbs / 10 ^ (k - 1).toNat % 10 : Nat) else n) := by
  have hlength := Double.length_natDigits n.natAbs
  split_ifs with hrange
  · have hlt : (k - 1).toNat < (natDigits n.natAbs).length := by omega
    have hd : (intDigits n).reverse[(k - 1).toNat]? =
        some (n.natAbs / 10 ^ (k - 1).toNat % 10).digitChar := by
      rw [Double.reverse_intDigits, List.getElem?_append_left (by rwa [List.length_reverse]),
        Double.getElem?_reverse_natDigits hlt]
    obtain ⟨hdigit, hvalue⟩ := isDigit_digitChar (Nat.mod_lt (n.natAbs / 10 ^ (k - 1).toNat)
      (show 10 > 0 by decide))
    rw [digitAt, value_digitOf_digit hk _ hrange.1 hd hdigit, hvalue]
  · rw [digitAt]
    apply value_digitOf_other hk
    intro hpos d hd
    have hle : (natDigits n.natAbs).reverse.length ≤ (k - 1).toNat := by
      rw [List.length_reverse]
      omega
    rw [Double.reverse_intDigits, List.getElem?_append_right hle] at hd
    have hminus : d = '-' := by
      have hmem := List.mem_of_getElem? hd
      split_ifs at hmem
      · exact List.mem_singleton.1 hmem
      · cases hmem
    rw [hminus]
    decide

end Position

/-- A place is accepted, be it a number or a text. -/
theorem takes_place {w : Value} {k : Int} (hw : w.Gives k) :
    Parameter.Takes ⟨[.str, .int], .str "1", [.str ""]⟩ w := by
  cases hw with
  | int => exact ⟨.inl (by simp [Value.type]), by simp [Constant.matches]⟩
  | @text cs _ hspells =>
    exact ⟨.inl (by simp [Value.type]), by simp [Constant.matches, hspells.ne_nil]⟩

/-- Of an integer the digit at a place is the quotient by a power of ten modulo ten. The places are
counted from the right and from one, as numbers or texts of 64 bits; where there is no digit, the
integer is left. -/
theorem digit_at_place (s : Surroundings) (n : Int) {w : Value} {k : Int} (hw : w.Gives k)
    (hk : fits k = true) :
    (getDigit.apply s (.int n) [w]).value = .int (if 1 ≤ k ∧ k ≤ Nat.log 10 n.natAbs + 1
      then (n.natAbs / 10 ^ (k - 1).toNat % 10 : Nat) else n) := by
  have hargs : getDigit.resolveArguments [w] = pure [w] :=
    resolveFrom_of_takes getDigit 1 (.cons (takes_place hw) .nil)
  rw [value_apply, hargs]
  exact value_digitAt (hw.toInt?_eq hk) n

/-- The least integer of 64 bits: the digit in front, the minus sign and a place far beyond. -/
theorem digit_at_place_least :
    (Value.int 19).Gives 19 ∧ fits 19 = true ∧ (Value.str "20").Gives 20 ∧ fits 20 = true ∧
      (Value.int (-2 ^ 63)).Gives (-2 ^ 63) ∧ fits (-2 ^ 63) = true ∧ ∀ s : Surroundings,
        (getDigit.apply s (.int (-2 ^ 63)) [.int 19]).value = .int 9 ∧
          (getDigit.apply s (.int (-2 ^ 63)) [.str "20"]).value = .int (-2 ^ 63) ∧
          (getDigit.apply s (.int (-2 ^ 63)) [.int (-2 ^ 63)]).value = .int (-2 ^ 63) := by
  have hsign : (Value.str "20").Gives 20 := .text (.of_intDigits 20)
  have hlog : Nat.log 10 (-2 ^ 63 : Int).natAbs = 18 := by
    rw [Nat.log_eq_iff (.inl (by decide))]
    decide
  refine ⟨.int 19, by decide, hsign, by decide, .int _, by decide, fun s => ⟨?_, ?_, ?_⟩⟩
  · rw [digit_at_place s _ (.int 19) (by decide), hlog]
    exact congrArg Value.int (by decide)
  · rw [digit_at_place s _ hsign (by decide), hlog]
    exact congrArg Value.int (by decide)
  · rw [digit_at_place s _ (.int _) (by decide), hlog]
    exact congrArg Value.int (by decide)

end Filter

end Stencil
