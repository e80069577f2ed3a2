import Stencil.Proofs.Encoding
import Stencil.Text.Escape

/-!
# Text inside strings of scripts

What could end a string of a script, or the script itself, is written by its code (`escapeScript`),
and so is the backslash that codes begin with. Hence each backslash of an escaped text begins a
code, and reading the codes gives the text back, also where the text itself spelled out such codes.
-/

namespace Stencil.Text

/-! ## Codes -/

/-- A character of an escaped text. -/
def scriptCode (c : Char) : List Char := if isScriptSpecial c then unicodeEscape c else [c]

theorem escapeScript_eq (cs : List Char) : escapeScript cs = cs.flatMap scriptCode := rfl

theorem scriptCode_of_special {c : Char} (h : isScriptSpecial c = true) :
    scriptCode c = unicodeEscape c := if_pos h

theorem scriptCode_of_plain {c : Char} (h : isScriptSpecial c = false) : scriptCode c = [c] := by
  rw [scriptCode, h]
  rfl

/-- The code of a character that needs one has no more than four digits. -/
theorem toNat_lt_of_special {c : Char} (h : isScriptSpecial c = true) : c.toNat < 65536 := by
  simp only [isScriptSpecial, Bool.or_eq_true, decide_eq_true_eq] at h
  rcases h with ((hcontrol | hmark) | hline) | hparagraph
  · omega
  · have hmarks : ("\\'\"><&=-;`".toList.all fun x => x.toNat < 65536) = true := rfl
    simpa using List.all_eq_true.1 hmarks c (List.contains_iff_mem.1 hmark)
  · omega
  · omega

/-- A code is a backslash, a letter and four digits. -/
theorem exists_digits (c : Char) :
    ∃ digits, unicodeEscape c = '\\' :: 'u' :: digits ∧ digits.length = 4 ∧
      ∀ d ∈ digits, ∃ n < 16, d = upperHexDigit n := by
  refine ⟨_, rfl, rfl, ?_⟩
  intro d hd
  simp only [List.mem_cons, List.not_mem_nil, or_false] at hd
  rcases hd with rfl | rfl | rfl | rfl <;> exact ⟨_, Nat.mod_lt _ (by decide), rfl⟩

theorem not_special_upperHexDigit {n : Nat} (h : n < 16) :
    isScriptSpecial (upperHexDigit n) = false := by
  have hall : ∀ n < 16, isScriptSpecial (upperHexDigit n) = false := by decide
  exact hall n h

/-- In a code nothing but the backslash needs one. -/
theorem not_special_of_mem_unicodeEscape {c d : Char} (h : d ∈ unicodeEscape c) (hd : d ≠ '\\') :
    isScriptSpecial d = false := by
  obtain ⟨digits, hcode, -, hdigits⟩ := exists_digits c
  rw [hcode, List.mem_cons, List.mem_cons] at h
  rcases h with hslash | hletter | hdigit
  · exact absurd hslash hd
  · rw [hletter]
    decide
  · obtain ⟨n, hn, rfl⟩ := hdigits d hdigit
    exact not_special_upperHexDigit hn

/-- Nor does anything else in an escaped text. -/
theorem not_special_of_mem_escapeScript {cs : List Char} {d : Char} (h : d ∈ escapeScript cs)
    (hd : d ≠ '\\') : isScriptSpecial d = false := by
  rw [escapeScript_eq, List.mem_flatMap] at h
  obtain ⟨c, -, hc⟩ := h
  cases hspecial : isScriptSpecial c with
  | true =>
    rw [scriptCode_of_special hspecial] at hc
    exact not_special_of_mem_unicodeEscape hc hd
  | false =>
    rw [scriptCode_of_plain hspecial, List.mem_singleton] at hc
    rwa [hc]

/-- Of the characters that need a code only the backslash is left, to begin codes. -/
theorem safe_of_not_special {c : Char} (h : isScriptSpecial c = false) :
    0x20 ≤ c.toNat ∧ c ∉ "'\"`<>&=-;\u2028\u2029".toList := by
  constructor
  · by_contra hcontrol
    have hspecial : isScriptSpecial c = true := by simp [isScriptSpecial, Nat.not_le.1 hcontrol]
    exact absurd (h.symm.trans hspecial) Bool.false_ne_true
  · intro hmem
    have hmarks : "'\"`<>&=-;\u2028\u2029".toList.all isScriptSpecial = true := rfl
    exact absurd (h.symm.trans (List.all_eq_true.1 hmarks c hmem)) Bool.false_ne_true

/-- Where a backslash is written, a code is. -/
theorem special_of_backslash_mem {c : Char} (h : '\\' ∈ scriptCode c) :
    isScriptSpecial c = true := by
  by_contra hplain
  rw [scriptCode_of_plain (Bool.eq_false_of_not_eq_true hplain), List.mem_singleton] at h
  subst h
  exact hplain rfl

/-- A backslash stands in front of the digits of a code, and nowhere else. -/
theorem exists_body_of_backslash_mem {c : Char} (h : '\\' ∈ scriptCode c) :
    ∃ body, scriptCode c = '\\' :: body ∧ '\\' ∉ body := by
  obtain ⟨digits, hcode, -, hdigits⟩ := exists_digits c
  refine ⟨'u' :: digits, by rw [scriptCode_of_special (special_of_backslash_mem h), hcode], ?_⟩
  rw [List.mem_cons, not_or]
  refine ⟨by decide, fun hmem => ?_⟩
  obtain ⟨n, hn, hslash⟩ := hdigits _ hmem
  have hplain : isScriptSpecial (upperHexDigit n) = false := not_special_upperHexDigit hn
  rw [← hslash] at hplain
  exact absurd hplain (by decide)

/-! ## Reading codes -/

/-- Reads one code: a backslash, the letter `u` and four hexadecimal digits in upper case. -/
def unicodeEscapeRule : Rule
  | '\\' :: 'u' :: a :: b :: c :: d :: _ =>
    if [a, b, c, d].all isUpperHexDigit then
      (codePoint? (hexNumber [a, b, c, d])).map fun x => ([x], 6)
    else none
  | _ => none

/-- A text with each code replaced by its character. -/
def unescapeScript (cs : List Char) : List Char := substitute unicodeEscapeRule cs

theorem codePoint?_toNat (c : Char) : codePoint? c.toNat = some c := by
  have hvalid : c.toNat.isValidChar := c.valid
  rw [codePoint?, if_pos hvalid, Char.ofNat_toNat]

/-- Four digits spell a number of 16 bits. -/
theorem hexNumber_of_lt {n : Nat} (h : n < 65536) :
    hexNumber [upperHexDigit (n / 4096 % 16), upperHexDigit (n / 256 % 16),
      upperHexDigit (n / 16 % 16), upperHexDigit (n % 16)] = n := by
  have hdigit (m : Nat) : hexDigitValue (upperHexDigit (m % 16)) = m % 16 :=
    hexDigitValue_upperHexDigit (Nat.mod_lt m (by decide))
  simp only [hexNumber, List.foldl_cons, List.foldl_nil, hdigit]
  omega

theorem unicodeEscapeRule_append {c : Char} (h : c.toNat < 65536) (rest : List Char) :
    unicodeEscapeRule (unicodeEscape c ++ rest) = some ([c], (unicodeEscape c).length) := by
  have hdigit (m : Nat) : isUpperHexDigit (upperHexDigit (m % 16)) = true :=
    isUpperHexDigit_upperHexDigit (Nat.mod_lt m (by decide))
  have hdigits : [upperHexDigit (c.toNat / 4096 % 16), upperHexDigit (c.toNat / 256 % 16),
      upperHexDigit (c.toNat / 16 % 16), upperHexDigit (c.toNat % 16)].all isUpperHexDigit := by
    simp [hdigit]
  show (if _ then _ else _) = _
  rw [if_pos hdigits, hexNumber_of_lt h, codePoint?_toNat]
  rfl

/-- Nothing but a backslash begins a code. -/
theorem unicodeEscapeRule_cons {c : Char} (h : c ≠ '\\') (rest : List Char) :
    unicodeEscapeRule (c :: rest) = none := by
  unfold unicodeEscapeRule
  split
  · next hsame => exact absurd (List.cons_eq_cons.1 hsame).1 h
  · rfl

theorem readsBack_scriptCode : ReadsBack unicodeEscapeRule scriptCode := by
  intro c rest
  cases hspecial : isScriptSpecial c with
  | true =>
    left
    rw [scriptCode_of_special hspecial]
    exact ⟨List.cons_ne_nil _ _, unicodeEscapeRule_append (toNat_lt_of_special hspecial) rest⟩
  | false =>
    right
    have hplain : c ≠ '\\' := by
      rintro rfl
      exact absurd hspecial (by decide)
    exact ⟨scriptCode_of_plain hspecial, unicodeEscapeRule_cons hplain rest⟩

theorem unescapeScript_escapeScript (cs : List Char) : unescapeScript (escapeScript cs) = cs :=
  readsBack_scriptCode.substitute_flatMap cs

/-- Escaped text holds no control character and nothing that could end a string or a script, and
every backslash in it begins a code of four digits in upper case. Reading these codes gives the text
back, so no two texts are escaped alike. -/
theorem escapeScript_safe_and_lossless :
    (∀ cs : List Char,
      (∀ c ∈ escapeScript cs, 0x20 ≤ c.toNat ∧ c ∉ "'\"`<>&=-;\u2028\u2029".toList) ∧
      (∀ rest, '\\' :: rest <:+ escapeScript cs →
        ∃ digits tail, rest = 'u' :: (digits ++ tail) ∧ digits.length = 4 ∧
          ∀ d ∈ digits, isUpperHexDigit d = true) ∧
      unescapeScript (escapeScript cs) = cs) ∧
    Function.Injective escapeScript := by
  refine ⟨fun cs => ⟨?_, ?_, unescapeScript_escapeScript cs⟩,
    Function.LeftInverse.injective unescapeScript_escapeScript⟩
  · intro c hc
    -- The backslash is the one character that is written by a code and stands in codes as well.
    by_cases hslash : c = '\\'
    · subst hslash
      decide
    · exact safe_of_not_special (not_special_of_mem_escapeScript hc hslash)
  · intro rest hrest
    obtain ⟨c, hslash, tail, hstarts⟩ :=
      exists_code_of_suffix (fun _ => exists_body_of_backslash_mem) hrest
    obtain ⟨digits, hcode, hlength, hdigits⟩ := exists_digits c
    rw [scriptCode_of_special (special_of_backslash_mem hslash), hcode] at hstarts
    refine ⟨digits, tail, (List.cons_eq_cons.1 hstarts).2.symm, hlength, fun d hd => ?_⟩
    obtain ⟨n, hn, rfl⟩ := hdigits d hd
    exact isUpperHexDigit_upperHexDigit hn

end Stencil.Text
