import Mathlib
import Stencil.Filter.Format

/-!
# Digits read back

Integers in a base up to sixteen (`signedRadix`) are read back from their text: blanks on either
side, a sign, and digits with letters of either case. Zeros in front of the digits do not count.
-/

namespace Stencil

open Double (signed splitSign)

namespace Filter

/-! ## Reading integers in a base -/

/-- The value of a digit, in bases up to sixteen. -/
def digitValue? (c : Char) : Option Nat :=
  if c.isDigit then some (c.toNat - 48)
  else if 'a' ≤ c ∧ c ≤ 'f' then some (c.toNat - 87)
  else if 'A' ≤ c ∧ c ≤ 'F' then some (c.toNat - 55)
  else none

/-- The number that digits make behind another number; none if one of them is no digit of the base.
-/
def readOn? (base : Nat) (cs : List Char) (n : Nat) : Option Nat :=
  cs.foldlM (fun n c => ((digitValue? c).filter (· < base)).map (base * n + ·)) n

/-- A nonempty text of digits as a number. -/
def readRadix? (base : Nat) (cs : List Char) : Option Nat :=
  if cs = [] then none else readOn? base cs 0

/-- An integer: digits after an optional sign. -/
def readInteger? (base : Nat) (cs : List Char) : Option Int :=
  let (negative, digits) := splitSign cs
  (readRadix? base digits).map fun n => if negative then -n else n

/-- An integer with blanks around it. -/
def readPadded? (base : Nat) (cs : List Char) : Option Int :=
  readInteger? base (Text.dropBothWhile (· == ' ') cs)

section Digits

variable {base : Nat}

theorem readRadix?_eq {cs : List Char} (h : cs ≠ []) : readRadix? base cs = readOn? base cs 0 :=
  if_neg h

theorem readOn?_append (cs ds : List Char) (n : Nat) :
    readOn? base (cs ++ ds) n = (readOn? base cs n).bind (readOn? base ds) := by
  rw [readOn?, List.foldlM_append]
  rfl

theorem readOn?_digit {c : Char} {d : Nat} (hc : digitValue? c = some d) (hd : d < base) (n : Nat) :
    readOn? base [c] n = some (base * n + d) := by
  simp [readOn?, hc, hd]

theorem readOn?_zeros (hbase : 0 < base) (count : Nat) :
    readOn? base (List.replicate count '0') 0 = some 0 := by
  induction count with
  | zero => rfl
  | succ count ih =>
    have hzero : readOn? base ['0'] 0 = some 0 := readOn?_digit rfl hbase 0
    rw [List.replicate_succ, ← List.singleton_append, readOn?_append, hzero]
    exact ih

/-- Zeros in front of digits do not count. -/
theorem readRadix?_zeros_append (hbase : 0 < base) (count : Nat) {cs : List Char} (h : cs ≠ []) :
    readRadix? base (List.replicate count '0' ++ cs) = readRadix? base cs := by
  rw [readRadix?_eq (List.append_ne_nil_of_right_ne_nil _ h), readRadix?_eq h, readOn?_append,
    readOn?_zeros hbase, Option.bind_some]

theorem ne_nil_of_readRadix? {cs : List Char} {n : Nat} (h : readRadix? base cs = some n) :
    cs ≠ [] := by
  rintro rfl
  cases h

/-- A text that is read as a number is made of digits. -/
theorem not_mem_of_readRadix? {cs : List Char} {n : Nat} (h : readRadix? base cs = some n)
    {c : Char} (hc : digitValue? c = none) : c ∉ cs := by
  intro hmem
  obtain ⟨front, back, rfl⟩ := List.append_of_mem hmem
  have hstop (m : Nat) : readOn? base (c :: back) m = none := by
    simp [readOn?, hc]
  rw [readRadix?_eq (ne_nil_of_readRadix? h), readOn?_append] at h
  obtain ⟨m, -, hm⟩ := Option.bind_eq_some_iff.1 h
  rw [hstop m] at hm
  cases hm

/-- Digits are read back, also if they are written in another way. -/
theorem readRadix?_radixDigits (hbase : 1 < base) (write : Char → Char)
    (hwrite : ∀ d < base, digitValue? (write d.digitChar) = some d) (n : Nat) :
    readRadix? base ((radixDigits base n).map write) = some n := by
  have hne : (radixDigits base n).map write ≠ [] := by
    rw [Ne, List.map_eq_nil_iff]
    exact Nat.toDigits_ne_nil
  rw [readRadix?_eq hne, radixDigits]
  clear hne
  induction n using Nat.strongRecOn with
  | ind n ih =>
    rw [Nat.toDigits_eq_if hbase]
    split_ifs with hlt
    · rw [List.map_singleton, readOn?_digit (hwrite n hlt) hlt, Nat.mul_zero, Nat.zero_add]
    · -- The last digit follows those of the quotient.
      have hmod : n % base < base := Nat.mod_lt n (by omega)
      have hless : n / base < n := Nat.div_lt_self (by omega) hbase
      rw [List.map_append, readOn?_append, ih (n / base) hless, Option.bind_some,
        List.map_singleton, readOn?_digit (hwrite _ hmod) hmod, Nat.div_add_mod]

end Digits

/-! ## Signs and blanks -/

theorem dropBothWhile_blanks {cs : List Char} (hne : cs ≠ []) (h : ' ' ∉ cs) (left right : Nat) :
    Text.dropBothWhile (· == ' ') (List.replicate left ' ' ++ cs ++ List.replicate right ' ') =
      cs := by
  have hblank {count : Nat} : ∀ c ∈ List.replicate count ' ', (c == ' ') = true := fun _ hc =>
    beq_iff_eq.2 (List.eq_of_mem_replicate hc)
  have hkeep {ds : List Char} (hds : ds ≠ []) (hmem : ' ' ∉ ds) (back : List Char) :
      (ds ++ back).dropWhile (· == ' ') = ds ++ back := by
    obtain ⟨d, ds, rfl⟩ := List.exists_cons_of_ne_nil hds
    rw [List.cons_append, List.dropWhile_cons_of_neg]
    rw [beq_iff_eq]
    rintro rfl
    exact hmem List.mem_cons_self
  have hback : (cs.reverse.dropWhile (· == ' ')) = cs.reverse := by
    have hreverse := hkeep (mt List.reverse_eq_nil_iff.1 hne) (mt List.mem_reverse.1 h) []
    rwa [List.append_nil] at hreverse
  rw [Text.dropBothWhile, Text.dropEndWhile, List.append_assoc,
    List.dropWhile_append_of_pos hblank, hkeep hne h, List.reverse_append, List.reverse_replicate,
    List.dropWhile_append_of_pos hblank, hback, List.reverse_reverse]

section Signs

variable {base n : Nat} {digits : List Char} (h : readRadix? base digits = some n)

include h

theorem readInteger?_digits : readInteger? base digits = some (n : Int) := by
  have hsplit : splitSign digits = (false, digits) := by
    unfold splitSign
    split
    · exact absurd List.mem_cons_self (not_mem_of_readRadix? h rfl)
    · exact absurd List.mem_cons_self (not_mem_of_readRadix? h rfl)
    · rfl
  rw [readInteger?, hsplit]
  simp [h]

theorem readInteger?_minus : readInteger? base ('-' :: digits) = some (-n : Int) := by
  simp [readInteger?, splitSign, h]

theorem readInteger?_plus : readInteger? base ('+' :: digits) = some (n : Int) := by
  simp [readInteger?, splitSign, h]

end Signs

/-! ## Conversions of integers -/

/-- The base of a conversion of integers. -/
def radix? : Char → Option Nat
  | 'd' | 'i' => some 10
  | 'x' | 'X' => some 16
  | 'o' => some 8
  | _ => none

theorem digitValue?_digitChar {d : Nat} (h : d < 16) : digitValue? d.digitChar = some d := by
  revert d
  decide

theorem digitValue?_toUpper_digitChar {d : Nat} (h : d < 16) :
    digitValue? d.digitChar.toUpper = some d := by
  revert d
  decide

theorem readRadix?_radixDigits_self {base : Nat} (hbase : 1 < base) (hle : base ≤ 16) (n : Nat) :
    readRadix? base (radixDigits base n) = some n := by
  have hread := readRadix?_radixDigits hbase id
    (fun d hd => digitValue?_digitChar (hd.trans_le hle)) n
  rwa [List.map_id] at hread

/-- A number converted to an integer is a sign and digits that are read back. -/
theorem convert?_integer {conversion : Char} {base : Nat} (hbase : radix? conversion = some base)
    (precision : Option Nat) {value : Value} {x : Float} (hx : formatNumber? value = some x) :
    ∃ digits, convert? conversion precision value =
        some (signed (Double.toInt x < 0) digits, true) ∧
      readRadix? base digits = some (Double.toInt x).natAbs := by
  obtain ⟨n, hn⟩ : ∃ n, n = Double.toInt x := ⟨_, rfl⟩
  have hdecimal : Double.intDigits n = signed (n < 0) (radixDigits 10 n.natAbs) := by
    simp only [Double.intDigits, signed, decide_eq_true_eq]
    rfl
  have hupper : (signedRadix 16 n).map Char.toUpper =
      signed (n < 0) ((radixDigits 16 n.natAbs).map Char.toUpper) := by
    simp only [signedRadix, signed, decide_eq_true_eq]
    split_ifs
    · exact List.map_cons
    · rfl
  have hread {base : Nat} (hone : 1 < base) (hle : base ≤ 16) :
      readRadix? base (radixDigits base n.natAbs) = some n.natAbs :=
    readRadix?_radixDigits_self hone hle _
  rw [← hn]
  unfold radix? at hbase
  split at hbase
  · obtain rfl := Option.some_inj.1 hbase
    exact ⟨_, by simp [convert?, hx, ← hn, hdecimal], hread (by decide) (by decide)⟩
  · obtain rfl := Option.some_inj.1 hbase
    exact ⟨_, by simp [convert?, hx, ← hn, hdecimal], hread (by decide) (by decide)⟩
  · obtain rfl := Option.some_inj.1 hbase
    exact ⟨_, by simp [convert?, hx, ← hn, signedRadix], hread (by decide) (by decide)⟩
  · obtain rfl := Option.some_inj.1 hbase
    refine ⟨(radixDigits 16 n.natAbs).map Char.toUpper, by simp [convert?, hx, ← hn, hupper], ?_⟩
    exact readRadix?_radixDigits (by decide) Char.toUpper
      (fun d hd => digitValue?_toUpper_digitChar hd) _
  · obtain rfl := Option.some_inj.1 hbase
    exact ⟨_, by simp [convert?, hx, ← hn, signedRadix], hread (by decide) (by decide)⟩
  · cases hbase

end Filter

end Stencil
