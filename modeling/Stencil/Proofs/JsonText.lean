import Mathlib
import Stencil.Value.Json.Printer
import Stencil.Value.Json.Reader

/-!
# The shape of JSON text

Compact text (`Value.compact`) consists of strings and, outside them, of marks, letters and the
characters of numbers. A string is read back as what was written, whatever follows it.
-/

namespace Stencil

/-! ## Reading strings -/

namespace Json

theorem readString_unit {a b c d x : Char} (h : (hexUnit? a b c d).bind singleUnit? = some x)
    (cs : List Char) :
    readString ('\\' :: 'u' :: a :: b :: c :: d :: cs) =
      (readString cs).map fun (s, rest) => (x :: s, rest) := by
  rw [readString.eq_def]
  simp only [h]

theorem readString_letter {c x : Char} (h : escapedChar? c = some x) (cs : List Char) :
    readString ('\\' :: c :: cs) = (readString cs).map fun (s, rest) => (x :: s, rest) := by
  have hletter : c ≠ 'u' := by
    rintro rfl
    cases h
  rw [readString, h]
  exact fun _ _ _ _ _ hc => absurd hc hletter

theorem readString_plain {c : Char} (hquote : c ≠ '"') (h : ¬(c = '\\' ∨ c.toNat < 0x20))
    (cs : List Char) :
    readString (c :: cs) = (readString cs).map fun (s, rest) => (c :: s, rest) := by
  rw [readString, if_neg h]
  all_goals simp_all

/-- A character of a string is written by a letter, by its code, or as it is. -/
theorem jsonChar_cases (c : Char) :
    (∃ letter, Value.jsonChar c = ['\\', letter] ∧ escapedChar? letter = some c) ∨
      (c.toNat < 0x20 ∧ Value.jsonChar c = ['\\', 'u', '0', '0', Value.hexDigit (c.toNat / 16),
        Value.hexDigit (c.toNat % 16)]) ∨
      (c ≠ '"' ∧ ¬(c = '\\' ∨ c.toNat < 0x20) ∧ Value.jsonChar c = [c]) := by
  unfold Value.jsonChar
  split_ifs with hquote hslash hline hreturn htab hback hfeed hcontrol
  iterate 7 exact .inl ⟨_, rfl, by subst_vars; rfl⟩
  · exact .inr (.inl ⟨hcontrol, rfl⟩)
  · exact .inr (.inr ⟨hquote, not_or.2 ⟨hslash, hcontrol⟩, rfl⟩)

/-- The code of a control character spells it. -/
theorem hexUnit?_control {c : Char} (h : c.toNat < 0x20) :
    (hexUnit? '0' '0' (Value.hexDigit (c.toNat / 16)) (Value.hexDigit (c.toNat % 16))).bind
      singleUnit? = some c := by
  have hall : ∀ n < 0x20, (hexUnit? '0' '0' (Value.hexDigit (n / 16))
      (Value.hexDigit (n % 16))).bind singleUnit? = some (Char.ofNat n) := by decide
  rw [hall c.toNat h, Char.ofNat_toNat]

theorem readString_jsonChar (c : Char) (cs : List Char) :
    readString (Value.jsonChar c ++ cs) = (readString cs).map fun (s, rest) => (c :: s, rest) := by
  obtain ⟨letter, hcode, hletter⟩ | ⟨hcontrol, hcode⟩ | ⟨hquote, hplain, hcode⟩ :=
    jsonChar_cases c
  · rw [hcode]
    exact readString_letter hletter cs
  · rw [hcode]
    exact readString_unit (hexUnit?_control hcontrol) cs
  · rw [hcode]
    exact readString_plain hquote hplain cs

/-- A string is read up to its closing quote. -/
theorem readString_written (s rest : List Char) :
    readString (s.flatMap Value.jsonChar ++ '"' :: rest) = some (s, rest) := by
  induction s with
  | nil => rfl
  | cons c s ih =>
    rw [List.flatMap_cons, List.append_assoc, readString_jsonChar, ih]
    rfl

/-! ## Reading tokens -/

theorem tokens?_string {cs s rest : List Char} (h : readString cs = some (s, rest)) :
    tokens? ('"' :: cs) = (tokens? rest).map (.str (String.ofList s) :: ·) := by
  have hmark : mark? '"' = none := rfl
  rw [tokens?, if_neg (by decide), hmark]
  simp only [if_true]
  split
  · next hread =>
    cases h.symm.trans hread
    rfl
  · next hread => cases h.symm.trans hread

section Characters

variable {c : Char}

theorem tokens?_blank (h : isBlank c = true) (cs : List Char) : tokens? (c :: cs) = tokens? cs := by
  rw [tokens?, if_pos h]

variable (hblank : ¬isBlank c = true)
include hblank

theorem tokens?_mark {token : Token} (h : mark? c = some token) (cs : List Char) :
    tokens? (c :: cs) = (tokens? cs).map (token :: ·) := by
  rw [tokens?, if_neg hblank, h]

variable (hmark : mark? c = none) (hquote : ¬c = '"')
include hmark hquote

theorem tokens?_number (h : (c.isDigit || c == '-') = true) (cs : List Char) :
    tokens? (c :: cs) = (readNumber? (c :: cs.takeWhile isNumberChar)).bind fun v =>
      (tokens? (cs.dropWhile isNumberChar)).map (.scalar v :: ·) := by
  rw [tokens?, if_neg hblank, hmark]
  simp only [if_neg hquote, if_pos h]
  cases readNumber? (c :: cs.takeWhile isNumberChar) <;> rfl

theorem tokens?_word (h : ¬(c.isDigit || c == '-') = true) (cs : List Char) :
    tokens? (c :: cs) = (readWord? (c :: cs.takeWhile Char.isAlpha)).bind fun v =>
      (tokens? (cs.dropWhile Char.isAlpha)).map (.scalar v :: ·) := by
  rw [tokens?, if_neg hblank, hmark]
  simp only [if_neg hquote, if_neg h]
  cases readWord? (c :: cs.takeWhile Char.isAlpha) <;> rfl

end Characters

/-! ## Texts of strings and other characters -/

/-- The characters that stand outside strings: marks, letters, and what numbers are made of. -/
def isOutside (c : Char) : Bool := (mark? c).isSome || c.isAlpha || isNumberChar c

/-- Texts without strings. -/
def Outside (cs : List Char) : Prop := ∀ c ∈ cs, isOutside c = true

namespace Outside

variable {cs ds : List Char}

theorem nil : Outside [] := fun _ hc => absurd hc List.not_mem_nil

theorem cons {c : Char} (hc : isOutside c = true) (h : Outside cs) : Outside (c :: cs) :=
  List.forall_mem_cons.2 ⟨hc, h⟩

theorem append (hcs : Outside cs) (hds : Outside ds) : Outside (cs ++ ds) :=
  List.forall_mem_append.2 ⟨hcs, hds⟩

theorem sublist (h : Outside cs) (hsub : ds.Sublist cs) : Outside ds :=
  fun c hc => h c (hsub.subset hc)

theorem zeros (n : Nat) : Outside (List.replicate n '0') :=
  fun _ hc => List.eq_of_mem_replicate hc ▸ rfl

end Outside

/-- Texts of complete strings and of characters outside them. -/
inductive Segmented : List Char → Prop
  | nil : Segmented []
  | outside {c : Char} {cs : List Char} (hc : isOutside c = true) (hrest : Segmented cs) :
      Segmented (c :: cs)
  | string (s : String) {cs : List Char} (hrest : Segmented cs) :
      Segmented (Value.jsonString s ++ cs)

namespace Segmented

theorem append {cs ds : List Char} (hcs : Segmented cs) (hds : Segmented ds) :
    Segmented (cs ++ ds) := by
  induction hcs with
  | nil => exact hds
  | outside hc _ ih => exact .outside hc ih
  | string s _ ih =>
    rw [List.append_assoc]
    exact .string s ih

theorem of_outside {cs : List Char} (h : Outside cs) : Segmented cs := by
  induction cs with
  | nil => exact .nil
  | cons c cs ih =>
    rw [Outside, List.forall_mem_cons] at h
    exact .outside h.1 (ih h.2)

theorem jsonString (s : String) : Segmented (Value.jsonString s) := by
  rw [← List.append_nil (Value.jsonString s)]
  exact .string s .nil

/-- The first character is outside of strings or begins one. -/
theorem cons_cases {c : Char} {cs : List Char} (h : Segmented (c :: cs)) :
    (isOutside c = true ∧ Segmented cs) ∨
      (c = '"' ∧ ∃ (s rest : List Char), cs = s.flatMap Value.jsonChar ++ '"' :: rest ∧
        Segmented rest) := by
  generalize htext : c :: cs = text at h
  cases h with
  | nil => cases htext
  | outside hc hrest =>
    cases htext
    exact .inl ⟨hc, hrest⟩
  | @string s rest hrest =>
    simp only [Value.jsonString, List.cons_append, List.append_assoc] at htext
    cases htext
    exact .inr ⟨rfl, s.toList, rest, rfl, hrest⟩

/-- A scan that stops at quotes stops outside of strings. -/
theorem dropWhile {p : Char → Bool} (hp : ¬p '"' = true) {cs : List Char} (h : Segmented cs) :
    Segmented (cs.dropWhile p) := by
  induction cs with
  | nil => exact .nil
  | cons c cs ih =>
    cases hc : p c with
    | true =>
      rw [List.dropWhile_cons_of_pos hc]
      rcases h.cons_cases with ⟨-, hrest⟩ | ⟨rfl, -⟩
      · exact ih hrest
      · exact absurd hc hp
    | false => rwa [List.dropWhile_cons_of_neg (by simp [hc])]

end Segmented

end Json

/-! ## The text of numbers -/

namespace Double

open Json

theorem outside_natDigits (n : Nat) : Outside (natDigits n) := by
  intro c hc
  have hdigit : c.isDigit = true := Nat.isDigit_of_mem_toDigits (by decide) (by decide) hc
  simp [isOutside, isNumberChar, hdigit]

theorem outside_signed (negative : Bool) {cs : List Char} (h : Outside cs) :
    Outside (signed negative cs) := by
  cases negative with
  | true => exact h.cons rfl
  | false => exact h

theorem outside_intDigits (n : Int) : Outside (intDigits n) := by
  unfold intDigits
  split_ifs
  · exact (outside_natDigits _).cons rfl
  · exact outside_natDigits _

theorem outside_padLeft (width : Nat) {cs : List Char} (h : Outside cs) :
    Outside (padLeft '0' width cs) :=
  (Outside.zeros _).append h

theorem outside_pointAfterFirst {digits : List Char} (h : Outside digits) :
    Outside (pointAfterFirst digits) := by
  unfold pointAfterFirst
  split
  · exact h
  · exact h
  · rw [Outside, List.forall_mem_cons] at h
    exact .cons h.1 (.cons rfl h.2)

theorem outside_positional (d : Decimal) : Outside (positional d) := by
  have hdigits : Outside (natDigits d.significand) := outside_natDigits _
  unfold positional
  split_ifs
  · exact (hdigits.append (.zeros _)).append (.cons rfl (.cons rfl .nil))
  · have hpadded := outside_padLeft (d.exponent.natAbs + 1) hdigits
    exact (hpadded.sublist (List.take_sublist _ _)).append
      (.cons rfl (hpadded.sublist (List.drop_sublist _ _)))

theorem outside_scientific (width : Nat) (d : Decimal) : Outside (scientific width d) := by
  have hexponent (n : Nat) : Outside (padLeft '0' width (natDigits n)) :=
    outside_padLeft width (outside_natDigits n)
  unfold scientific
  refine (outside_pointAfterFirst (outside_natDigits _)).append (.cons rfl ?_)
  split_ifs
  · exact (hexponent _).cons rfl
  · exact (hexponent _).cons rfl

theorem outside_decimal (layout : Layout) (d : Decimal) : Outside (layout.decimal d) := by
  dsimp only [Layout.decimal]
  split_ifs
  · exact outside_scientific _ d
  · exact outside_positional d

theorem outside_text (layout : Layout) (x : Float) : Outside (layout.text x) := by
  unfold Layout.text
  split
  · exact List.all_eq_true.1 rfl
  · exact outside_signed _ (List.all_eq_true.1 rfl)
  · exact outside_signed _ (outside_decimal layout _)
  · exact outside_signed _ (outside_decimal layout _)

end Double

/-! ## The text of values -/

namespace Value

open Json

mutual

theorem segmented_compact : ∀ v : Value, Segmented v.compact
  | .null => .of_outside (List.all_eq_true.1 rfl)
  | .bool true => .of_outside (List.all_eq_true.1 rfl)
  | .bool false => .of_outside (List.all_eq_true.1 rfl)
  | .int n => .of_outside (Double.outside_intDigits n)
  | .float x => .of_outside (Double.outside_text _ x)
  | .str s => .jsonString s
  | .list items => .outside rfl ((segmented_compactItems items).append (.outside rfl .nil))
  | .dict fields => .outside rfl ((segmented_compactFields fields).append (.outside rfl .nil))

theorem segmented_compactItems : ∀ items : List Value, Segmented (compactItems items)
  | [] => .nil
  | [item] => segmented_compact item
  | item :: next :: rest =>
    (segmented_compact item).append (.outside rfl (segmented_compactItems (next :: rest)))

theorem segmented_compactFields :
    ∀ fields : List (String × Value), Segmented (compactFields fields)
  | [] => .nil
  | [(key, value)] => (Segmented.jsonString key).append (.outside rfl (segmented_compact value))
  | (key, value) :: next :: rest =>
    ((Segmented.jsonString key).append (.outside rfl (segmented_compact value))).append
      (.outside rfl (segmented_compactFields (next :: rest)))

end

end Value

end Stencil
