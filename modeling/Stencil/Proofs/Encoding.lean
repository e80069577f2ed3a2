import Stencil.Proofs.Replacement
import Stencil.Text.Html.Entity
import Stencil.Text.Percent

/-!
# Texts written character by character

An encoding writes each character by a code of its own, many characters by themselves. A rule that
finds the character of a code, whatever stands behind the code, reads the whole text back. If a mark
stands in a code only as its first character, then every mark of the text begins a code. Codes with
numbers spell them in hexadecimal digits of upper case.
-/

namespace Stencil.Text

/-! ## Reading back -/

/-- At the code of a character, whatever follows, the rule puts the character back. It leaves a
character alone that is written as itself. -/
def ReadsBack (rule : Rule) (encode : Char → List Char) : Prop :=
  ∀ (c : Char) (rest : List Char),
    (encode c ≠ [] ∧ rule (encode c ++ rest) = some ([c], (encode c).length)) ∨
      (encode c = [c] ∧ rule (c :: rest) = none)

theorem ReadsBack.substitute_flatMap {rule : Rule} {encode : Char → List Char}
    (h : ReadsBack rule encode) (cs : List Char) : substitute rule (cs.flatMap encode) = cs := by
  induction cs with
  | nil => rfl
  | cons c cs ih =>
    rw [List.flatMap_cons]
    rcases h c (cs.flatMap encode) with ⟨hcode, hread⟩ | ⟨hself, hkept⟩
    · rw [substitute_append hcode hread, ih]
      rfl
    · rw [hself, List.singleton_append, substitute_cons hkept, ih]

/-! ## Marks -/

/-- A suffix that begins with a mark lies behind everything that does not hold the mark. -/
theorem suffix_of_suffix_append {c : Char} {before rest cs : List Char} (hbefore : c ∉ before)
    (h : c :: rest <:+ before ++ cs) : c :: rest <:+ cs := by
  induction before with
  | nil => exact h
  | cons b before ih =>
    rw [List.mem_cons, not_or] at hbefore
    rw [List.cons_append, List.suffix_cons_iff] at h
    rcases h with hsame | hlater
    · exact absurd (List.cons_eq_cons.1 hsame).1 hbefore.1
    · exact ih hbefore.2 hlater

/-- If a mark stands in codes only in front, then wherever it stands in a text it begins a code. -/
theorem exists_code_of_suffix {encode : Char → List Char} {mark : Char}
    (hmark : ∀ c, mark ∈ encode c → ∃ body, encode c = mark :: body ∧ mark ∉ body)
    {cs rest : List Char} (h : mark :: rest <:+ cs.flatMap encode) :
    ∃ c, mark ∈ encode c ∧ encode c <+: mark :: rest := by
  induction cs with
  | nil => exact absurd (List.suffix_nil.1 h) (List.cons_ne_nil _ _)
  | cons c cs ih =>
    rw [List.flatMap_cons] at h
    by_cases hc : mark ∈ encode c
    · obtain ⟨body, hbody, hplain⟩ := hmark c hc
      rw [hbody, List.cons_append, List.suffix_cons_iff] at h
      rcases h with hsame | hlater
      · refine ⟨c, hc, cs.flatMap encode, ?_⟩
        rw [hbody, List.cons_append, hsame]
      · exact ih (suffix_of_suffix_append hplain hlater)
    · exact ih (suffix_of_suffix_append hc h)

/-! ## Hexadecimal digits -/

/-- Whether a character is a hexadecimal digit in upper case. -/
def isUpperHexDigit (c : Char) : Bool := c.isDigit || ('A' ≤ c && c ≤ 'F')

/-- The number that hexadecimal digits spell. -/
def hexNumber (digits : List Char) : Nat := digits.foldl (fun n d => 16 * n + hexDigitValue d) 0

theorem hexDigitValue_upperHexDigit {n : Nat} (h : n < 16) :
    hexDigitValue (upperHexDigit n) = n := by
  have hall : ∀ n < 16, hexDigitValue (upperHexDigit n) = n := by decide
  exact hall n h

theorem isUpperHexDigit_upperHexDigit {n : Nat} (h : n < 16) :
    isUpperHexDigit (upperHexDigit n) = true := by
  have hall : ∀ n < 16, isUpperHexDigit (upperHexDigit n) = true := by decide
  exact hall n h

theorem isHexDigit_of_isUpperHexDigit {c : Char} (h : isUpperHexDigit c = true) :
    isHexDigit c = true := by
  simp only [isUpperHexDigit, isHexDigit, Bool.or_eq_true] at h ⊢
  exact h.imp_left .inl

theorem isUpperHexDigit_iff {c : Char} :
    isUpperHexDigit c = true ↔
      (48 ≤ c.toNat ∧ c.toNat ≤ 57) ∨ (65 ≤ c.toNat ∧ c.toNat ≤ 70) := by
  simp only [isUpperHexDigit, Char.isDigit, Bool.or_eq_true, Bool.and_eq_true,
    decide_eq_true_eq, ge_iff_le, Char.le_def, UInt32.le_iff_toNat_le]
  rfl

end Stencil.Text
