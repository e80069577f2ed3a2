import Stencil.Proofs.FieldSearch
import Stencil.Proofs.FormatSpec
import Stencil.Proofs.RadixDigits

/-!
# Integers converted to text

A number that is converted to an integer (`convert?`) is read back from the text, whatever signs,
zeros and blanks are put around its digits. But the conversions get integers as doubles: what is
read back is the nearest integer of 53 bits, cut to 64 bits.
-/

namespace Stencil

open Condition (fits_iff)
open Double (fits lastBit nearest)

/-! ## Integers taken for doubles -/

theorem Double.toInt_ofInt {n : Int} (hn : fits n = true) :
    toInt (ofInt n) = Value.clampInt (nearest n) := by
  rw [fits_iff] at hn
  exact toInt_of_units? (units?_ofInt (by omega))

namespace Value

variable {n : Int}

/-- An integer of 64 bits survives if its bits behind the first 53 are zeros. The greatest one does
not fit when it is rounded, and is cut back to itself. -/
theorem clampInt_nearest_eq_self_iff (hn : fits n = true) :
    clampInt (nearest n) = n ↔ lastBit n.natAbs ∣ n.natAbs ∨ n = Double.maxInt := by
  rw [← Double.nearest_eq_self_iff]
  constructor
  · intro h
    have hlow : -2 ^ 63 ≤ nearest n := by
      calc -2 ^ 63 = nearest (-2 ^ 63) := by decide
        _ ≤ nearest n := Double.nearest_mono (fits_iff.1 hn).1
    simp only [clampInt, Double.minInt, Double.maxInt] at *
    omega
  · rintro (h | rfl)
    · rw [h]
      exact Filter.clampInt_of_fits hn
    · decide

/-- An integer of 64 bits is off by `2⁹` at most. -/
theorem clampInt_nearest_close (hn : fits n = true) : |clampInt (nearest n) - n| ≤ 2 ^ 9 := by
  rw [fits_iff] at hn
  rcases eq_or_ne n (-2 ^ 63) with rfl | hne
  · decide
  · have hlast : lastBit n.natAbs ≤ 2 ^ 10 := by
      rcases eq_or_ne n.natAbs 0 with hzero | hpos
      · rw [hzero]
        decide
      · have hlog : n.natAbs.log2 < 63 := (Nat.log2_lt hpos).2 (by omega)
        exact Nat.pow_le_pow_right (by decide) (by omega)
    have hclose := Double.nearest_close n
    rw [abs_eq_max_neg] at *
    simp only [clampInt, Double.minInt, Double.maxInt]
    omega

theorem clampInt_nearest_of_small (h : n.natAbs ≤ 2 ^ 53) : clampInt (nearest n) = n := by
  have hfits : fits n = true := by
    rw [fits_iff]
    omega
  rw [Double.nearest_eq_self_of_le h]
  exact Filter.clampInt_of_fits hfits

end Value

namespace Filter

/-! ## Numbers with signs, zeros and blanks -/

section Written

variable {base n : Nat} {digits : List Char} (h : readRadix? base digits = some n)

include h

theorem head_of_readRadix? : ∀ c ∈ digits.head?, ¬IsSign c := by
  rintro c hc (rfl | rfl | rfl)
  all_goals exact not_mem_of_readRadix? h rfl (List.mem_of_mem_head? hc)

/-- Digits with a sign in front of them and blanks around both are read back. -/
theorem readPadded?_written {sign : List Char} (hsign : sign = [] ∨ ∃ c, IsSign c ∧ sign = [c])
    (left right : Nat) :
    readPadded? base (List.replicate left ' ' ++ (sign ++ digits) ++ List.replicate right ' ') =
      some (if sign = ['-'] then -n else n : Int) := by
  have hne := ne_nil_of_readRadix? h
  have hblank : ' ' ∉ digits := not_mem_of_readRadix? h rfl
  rcases hsign with rfl | ⟨c, rfl | rfl | rfl, rfl⟩
  · rw [readPadded?, List.nil_append, dropBothWhile_blanks hne hblank]
    exact readInteger?_digits h
  · rw [readPadded?, dropBothWhile_blanks (by simp) (by simp [hblank])]
    exact readInteger?_minus h
  · rw [readPadded?, dropBothWhile_blanks (by simp) (by simp [hblank])]
    exact readInteger?_plus h
  · have hshift : List.replicate left ' ' ++ ([' '] ++ digits) =
        List.replicate (left + 1) ' ' ++ digits := by
      rw [List.replicate_succ', List.append_assoc]
    rw [readPadded?, hshift, dropBothWhile_blanks hne hblank]
    exact readInteger?_digits h

/-- Padding does not change the number that is read back. -/
theorem readPadded?_padTo (hbase : 0 < base) {sign : List Char} (hsigned : Signed sign digits)
    (flags : List Char) (numeric : Bool) (width : Nat) :
    readPadded? base (padTo flags numeric width (sign ++ digits)) =
      some (if sign = ['-'] then -n else n : Int) := by
  have hsign : sign = [] ∨ ∃ c, IsSign c ∧ sign = [c] := by
    cases hsigned with
    | bare => exact .inl rfl
    | sign rest hc => exact .inr ⟨_, hc, rfl⟩
  obtain ⟨count, -, hpad⟩ := padTo_cases hsigned flags numeric width
  rcases hpad with hright | hzeros | hleft
  · rw [hright]
    exact readPadded?_written h hsign 0 count
  · have hdigits : readRadix? base (List.replicate count '0' ++ digits) = some n := by
      rwa [readRadix?_zeros_append hbase count (ne_nil_of_readRadix? h)]
    have hread := readPadded?_written hdigits hsign 0 0
    rwa [List.replicate_zero, List.nil_append, List.append_nil, ← List.append_assoc,
      ← hzeros] at hread
  · have hread := readPadded?_written h hsign count 0
    rwa [List.replicate_zero, List.append_nil, ← hleft] at hread

/-- The flags put one sign in front of digits at most, a minus sign exactly if there was one. -/
theorem addSign_signed (flags : List Char) (negative : Bool) :
    ∃ sign, addSign flags (Double.signed negative digits) = sign ++ digits ∧ Signed sign digits ∧
      (sign = ['-'] ↔ negative = true) := by
  have hhead := head_of_readRadix? h
  cases negative with
  | true => exact ⟨['-'], rfl, .sign _ (.inl rfl), by simp⟩
  | false =>
    have hminus : ¬digits.head? = some '-' := fun hdash => hhead '-' hdash (.inl rfl)
    simp only [Double.signed, Bool.false_eq_true, if_false, addSign, if_neg hminus]
    split_ifs
    · exact ⟨['+'], rfl, .sign _ (.inr (.inl rfl)), by decide⟩
    · exact ⟨[' '], rfl, .sign _ (.inr (.inr rfl)), by decide⟩
    · exact ⟨[], rfl, .bare hhead, by decide⟩

end Written

theorem radix?_pos {conversion : Char} {base : Nat} (h : radix? conversion = some base) :
    0 < base := by
  unfold radix? at h
  split at h
  case h_6 => cases h
  all_goals
    obtain rfl := Option.some_inj.1 h
    decide

/-- A number converted to an integer is read back from its text as the integer that it is cut to. -/
theorem readPadded?_format? {d : Settled} {base : Nat} (hbase : radix? d.conversion = some base)
    {value : Value} {x : Float} (hx : formatNumber? value = some x) :
    ∃ out, d.format? value = some out ∧ readPadded? base out = some (Double.toInt x) := by
  obtain ⟨digits, hconvert, hdigits⟩ := convert?_integer hbase d.precision hx
  obtain ⟨sign, hadd, hsigned, hminus⟩ := addSign_signed hdigits d.flags (Double.toInt x < 0)
  refine ⟨padTo d.flags true d.width (sign ++ digits), ?_, ?_⟩
  · rw [Settled.format?, hconvert]
    simp only [Option.map_some, if_true, hadd]
  · rw [readPadded?_padTo hdigits (radix?_pos hbase) hsigned]
    rw [decide_eq_true_iff] at hminus
    simp only [hminus, Option.some_inj]
    split_ifs <;> omega

section Formatted

variable {n : Int} (hn : Double.fits n = true) {format : String} {given : List Value}
  (hgiven : (stringFormat.resolveArguments given).value = [.str format])
  {spec : Spec} (hspec : Spec.parse? (specText format) = some spec)
  {base : Nat} (hbase : radix? spec.conversion = some base)
  {d : Settled} (hd : spec.settle? = some d)

include hn hgiven hspec hbase hd

theorem integer_read_back (s : Surroundings) :
    ∃ out : List Char, (stringFormat.apply s (.int n) given).value = .str (String.ofList out) ∧
      readPadded? base out = some (Value.clampInt (Double.nearest n)) := by
  obtain ⟨-, hconversion, -, -⟩ := Spec.settled_of_settle? hd
  have hbase' : radix? d.conversion = some base := by rwa [hconversion]
  have hnumber : formatNumber? (.int n) = some (Double.ofInt n) := rfl
  obtain ⟨out, hout, hread⟩ := readPadded?_format? hbase' hnumber
  have hformat : formatBy? (.int n) format = some out := by
    rw [formatBy?, hspec, Option.bind_some, hd, Option.bind_some, hout]
  refine ⟨out, ?_, by rw [hread, Double.toInt_ofInt hn]⟩
  rw [value_stringFormat, hgiven]
  show Value.str (String.ofList ((formatBy? (.int n) (String.ofList format.toList)).getD [])) = _
  rw [String.ofList_toList, hformat, Option.getD_some]

end Formatted

/-- An integer that is formatted as one, in one of three bases and with whatever flags and sizes, is
read back as the nearest integer of 53 bits, cut to 64 bits. This is the integer itself if its other
bits are zeros, and else it is close. -/
theorem integers_read_back_unless_rounded (s : Surroundings) {n : Int}
    (hn : Double.fits n = true) {format : String} {given : List Value}
    (hgiven : (stringFormat.resolveArguments given).value = [.str format])
    {spec : Spec} (hspec : Spec.parse? (specText format) = some spec)
    {base : Nat} (hbase : radix? spec.conversion = some base)
    {d : Settled} (hd : spec.settle? = some d) :
    ∃ (out : List Char) (m : Int),
      (stringFormat.apply s (.int n) given).value = .str (String.ofList out) ∧
        readPadded? base out = some m ∧
        (m = n ↔ Double.lastBit n.natAbs ∣ n.natAbs ∨ n = Double.maxInt) ∧
        |m - n| ≤ 2 ^ 9 ∧ (n.natAbs ≤ 2 ^ 53 → m = n) := by
  obtain ⟨out, hout, hread⟩ := integer_read_back hn hgiven hspec hbase hd s
  exact ⟨out, _, hout, hread, Value.clampInt_nearest_eq_self_iff hn,
    Value.clampInt_nearest_close hn, Value.clampInt_nearest_of_small⟩

/-- Upper case hexadecimal with a plus flag and eight characters, zeros in front. -/
theorem integers_read_back_unless_rounded_hexadecimal :
    let given : List Value := [.str "%+08X"]
    let spec : Spec := ⟨['+', '0'], ['8'], none, 'X'⟩
    Double.fits (-255) = true ∧ (stringFormat.resolveArguments given).value = [.str "%+08X"] ∧
      Spec.parse? (specText "%+08X") = some spec ∧ radix? spec.conversion = some 16 ∧
      spec.settle? = some ⟨['+', '0'], 8, none, 'X'⟩ ∧
      ∀ s : Surroundings, ∃ out : List Char,
        (stringFormat.apply s (.int (-255)) given).value = .str (String.ofList out) ∧
          readPadded? 16 out = some (-255) := by
  intro given spec
  have hn : Double.fits (-255) = true := by decide
  have hgiven : (stringFormat.resolveArguments given).value = [.str "%+08X"] := rfl
  have hspec : Spec.parse? (specText "%+08X") = some spec := by decide
  have hbase : radix? spec.conversion = some 16 := rfl
  have hd : spec.settle? = some ⟨['+', '0'], 8, none, 'X'⟩ := by decide
  refine ⟨hn, hgiven, hspec, hbase, hd, fun s => ?_⟩
  obtain ⟨out, m, hout, hread, -, -, hexact⟩ :=
    integers_read_back_unless_rounded s hn hgiven hspec hbase hd
  refine ⟨out, hout, ?_⟩
  rw [hread, hexact (by decide)]

/-- The first integer that no double stands for is written as the one before it. -/
theorem integers_not_read_back :
    ¬∀ (s : Surroundings) (n : Int) (format : String) (spec : Spec) (base : Nat) (d : Settled)
      (out : List Char), Double.fits n = true →
        (stringFormat.resolveArguments [.str format]).value = [.str format] →
        Spec.parse? (specText format) = some spec → radix? spec.conversion = some base →
        spec.settle? = some d →
        (stringFormat.apply s (.int n) [.str format]).value = .str (String.ofList out) →
          readPadded? base out = some n := by
  intro hall
  let surroundings : Surroundings := ⟨⟨0, 0, 0⟩, fun _ => 0⟩
  have hn : Double.fits 9007199254740993 = true := by decide
  have hgiven : (stringFormat.resolveArguments [.str "d"]).value = [.str "d"] := rfl
  have hspec : Spec.parse? (specText "d") = some ⟨[], [], none, 'd'⟩ := by decide
  have hd : (⟨[], [], none, 'd'⟩ : Spec).settle? = some ⟨[], 0, none, 'd'⟩ := by decide
  obtain ⟨out, hout, hread⟩ := integer_read_back hn hgiven hspec rfl hd surroundings
  have hexact := hall surroundings _ "d" _ 10 _ out hn hgiven hspec rfl hd hout
  have hnearest : Value.clampInt (Double.nearest 9007199254740993) = 9007199254740992 := by decide
  rw [hread, hnearest, Option.some_inj] at hexact
  revert hexact
  decide

end Filter

end Stencil
