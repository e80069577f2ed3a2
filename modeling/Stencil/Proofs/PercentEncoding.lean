import Stencil.Proofs.Encoding

/-!
# Percent encoding read back

Percent encoding (`percentEncode`) keeps the characters of a safe set and writes the bytes of all
others. As long as the percent sign is not kept, every percent sign begins a byte, and decoding
gives the bytes of the text. If it is kept, then so is everything that encoding writes, and encoding
once more changes nothing.
-/

namespace Stencil.Text

/-! ## Decoding -/

/-- The bytes of a text in which a percent sign with two hexadecimal digits, in either case, stands
for a byte. A percent sign without them stands for itself. -/
def percentDecode : List Char → List UInt8
  | [] => []
  | '%' :: high :: low :: cs =>
    if isHexDigit high && isHexDigit low then
      UInt8.ofNat (hexNumber [high, low]) :: percentDecode cs
    else String.utf8EncodeChar '%' ++ percentDecode (high :: low :: cs)
  | c :: cs => String.utf8EncodeChar c ++ percentDecode cs

theorem percentDecode_cons {c : Char} (h : c ≠ '%') (cs : List Char) :
    percentDecode (c :: cs) = String.utf8EncodeChar c ++ percentDecode cs := by
  rw [percentDecode]
  simpa using fun _ _ _ hc => absurd hc h

theorem percentDecode_percentByte (b : UInt8) (cs : List Char) :
    percentDecode (percentByte b ++ cs) = b :: percentDecode cs := by
  have hsize : b.toNat < 256 := b.toNat_lt
  have hhigh : b.toNat / 16 < 16 := by omega
  have hlow : b.toNat % 16 < 16 := Nat.mod_lt _ (by decide)
  have hdigit {n : Nat} (h : n < 16) : isHexDigit (upperHexDigit n) = true :=
    isHexDigit_of_isUpperHexDigit (isUpperHexDigit_upperHexDigit h)
  have hvalue :
      hexNumber [upperHexDigit (b.toNat / 16), upperHexDigit (b.toNat % 16)] = b.toNat := by
    simp only [hexNumber, List.foldl_cons, List.foldl_nil, hexDigitValue_upperHexDigit hhigh,
      hexDigitValue_upperHexDigit hlow]
    omega
  simp only [percentByte, List.cons_append, List.nil_append, percentDecode, hdigit hhigh,
    hdigit hlow, Bool.and_self, if_true, hvalue, UInt8.ofNat_toNat]

theorem percentDecode_percentBytes (bytes : List UInt8) (cs : List Char) :
    percentDecode (bytes.flatMap percentByte ++ cs) = bytes ++ percentDecode cs := by
  induction bytes with
  | nil => rfl
  | cons b bytes ih =>
    rw [List.flatMap_cons, List.append_assoc, percentDecode_percentByte, ih, List.cons_append]

/-! ## Characters that are kept -/

/-- Whether a character is kept as it is. -/
def isKept (safe : List Char) (c : Char) : Bool :=
  isUnreserved c || (c.toNat < 128 && safe.contains c)

theorem percentEncode_cons_of_kept {safe : List Char} {c : Char} (h : isKept safe c = true)
    (cs : List Char) : percentEncode safe (c :: cs) = c :: percentEncode safe cs := by
  rw [percentEncode, List.flatMap_cons]
  exact congrArg (· ++ percentEncode safe cs) (if_pos h)

theorem percentEncode_cons_of_not_kept {safe : List Char} {c : Char} (h : ¬isKept safe c = true)
    (cs : List Char) :
    percentEncode safe (c :: cs) =
      (String.utf8EncodeChar c).flatMap percentByte ++ percentEncode safe cs := by
  rw [percentEncode, List.flatMap_cons]
  exact congrArg (· ++ percentEncode safe cs) (if_neg h)

theorem percentDecode_percentEncode {safe : List Char} (hsafe : '%' ∉ safe) (cs : List Char) :
    percentDecode (percentEncode safe cs) = cs.flatMap String.utf8EncodeChar := by
  -- Of the characters that are kept only a percent sign could be taken for something else.
  have hwritten : ¬isKept safe '%' = true := by simpa [isKept, isUnreserved] using hsafe
  induction cs with
  | nil => rfl
  | cons c cs ih =>
    rw [List.flatMap_cons, ← ih]
    by_cases hkept : isKept safe c = true
    · have hpercent : c ≠ '%' := by
        rintro rfl
        exact hwritten hkept
      rw [percentEncode_cons_of_kept hkept, percentDecode_cons hpercent]
    · rw [percentEncode_cons_of_not_kept hkept, percentDecode_percentBytes]

/-! ## What is written -/

/-- The texts of ASCII that percent encoding writes: letters, digits and the marks `_.-~`,
characters of `safe`, and percent signs with two digits. -/
inductive PercentEncoded (safe : List Char) : List Char → Prop
  | nil : PercentEncoded safe []
  /-- A character that stands for itself. -/
  | kept {c : Char} {cs : List Char} (hascii : c.toNat < 128)
      (hkept : c.isAlphanum = true ∨ c ∈ "_.-~".toList ∨ c ∈ safe)
      (hrest : PercentEncoded safe cs) : PercentEncoded safe (c :: cs)
  /-- A byte. -/
  | byte {high low : Char} {cs : List Char} (hhigh : isUpperHexDigit high = true)
      (hlow : isUpperHexDigit low = true) (hrest : PercentEncoded safe cs) :
      PercentEncoded safe ('%' :: high :: low :: cs)

theorem isUnreserved_iff {c : Char} :
    isUnreserved c = true ↔ c.isAlphanum = true ∨ c ∈ "_.-~".toList := by
  simp [isUnreserved, or_assoc]

theorem isAlphanum_iff {c : Char} :
    c.isAlphanum = true ↔ (65 ≤ c.toNat ∧ c.toNat ≤ 90) ∨ (97 ≤ c.toNat ∧ c.toNat ≤ 122) ∨
      (48 ≤ c.toNat ∧ c.toNat ≤ 57) := by
  simp only [Char.isAlphanum, Char.isAlpha, Char.isUpper, Char.isLower, Char.isDigit,
    Bool.or_eq_true, Bool.and_eq_true, decide_eq_true_eq, ge_iff_le, UInt32.le_iff_toNat_le,
    or_assoc]
  rfl

theorem toNat_lt_of_isUnreserved {c : Char} (h : isUnreserved c = true) : c.toNat < 128 := by
  rcases isUnreserved_iff.1 h with hword | hmark
  · rw [isAlphanum_iff] at hword
    omega
  · have hmarks : ("_.-~".toList.all fun x => x.toNat < 128) = true := rfl
    simpa using List.all_eq_true.1 hmarks c hmark

theorem isKept_iff {safe : List Char} {c : Char} :
    isKept safe c = true ↔
      c.toNat < 128 ∧ (c.isAlphanum = true ∨ c ∈ "_.-~".toList ∨ c ∈ safe) := by
  rw [isKept, Bool.or_eq_true, Bool.and_eq_true, decide_eq_true_eq, List.contains_iff_mem]
  constructor
  · rintro (hplain | ⟨hascii, hmem⟩)
    · exact ⟨toNat_lt_of_isUnreserved hplain, (isUnreserved_iff.1 hplain).imp_right .inl⟩
    · exact ⟨hascii, .inr (.inr hmem)⟩
  · rintro ⟨hascii, hword | hmark | hmem⟩
    · exact .inl (isUnreserved_iff.2 (.inl hword))
    · exact .inl (isUnreserved_iff.2 (.inr hmark))
    · exact .inr ⟨hascii, hmem⟩

namespace PercentEncoded

variable {safe : List Char}

theorem percentBytes (bytes : List UInt8) {cs : List Char} (h : PercentEncoded safe cs) :
    PercentEncoded safe (bytes.flatMap percentByte ++ cs) := by
  induction bytes with
  | nil => exact h
  | cons b bytes ih =>
    have hsize : b.toNat < 256 := b.toNat_lt
    have hhigh : b.toNat / 16 < 16 := by omega
    rw [List.flatMap_cons, List.append_assoc]
    exact .byte (isUpperHexDigit_upperHexDigit hhigh)
      (isUpperHexDigit_upperHexDigit (Nat.mod_lt _ (by decide))) ih

theorem percentEncode (safe cs : List Char) : PercentEncoded safe (percentEncode safe cs) := by
  induction cs with
  | nil => exact .nil
  | cons c cs ih =>
    by_cases hkept : isKept safe c = true
    · rw [percentEncode_cons_of_kept hkept]
      exact .kept (isKept_iff.1 hkept).1 (isKept_iff.1 hkept).2 ih
    · rw [percentEncode_cons_of_not_kept hkept]
      exact ih.percentBytes _

theorem isAscii {cs : List Char} (h : PercentEncoded safe cs) : ∀ c ∈ cs, c.toNat < 128 := by
  induction h with
  | nil => simp
  | kept hascii _ _ ih => exact List.forall_mem_cons.2 ⟨hascii, ih⟩
  | byte hhigh hlow _ ih =>
    rw [isUpperHexDigit_iff] at hhigh hlow
    simp only [List.forall_mem_cons]
    exact ⟨by decide, by omega, by omega, ih⟩

/-- Where the percent sign is kept, all of this is. -/
theorem percentEncode_eq_self (hpercent : '%' ∈ safe) {cs : List Char}
    (h : PercentEncoded safe cs) : Text.percentEncode safe cs = cs := by
  have hdigit {d : Char} (hd : isUpperHexDigit d = true) : isKept safe d = true := by
    rw [isKept_iff, isAlphanum_iff]
    rw [isUpperHexDigit_iff] at hd
    omega
  induction h with
  | nil => rfl
  | kept hascii hsafe _ ih => rw [percentEncode_cons_of_kept (isKept_iff.2 ⟨hascii, hsafe⟩), ih]
  | byte hhigh hlow _ ih =>
    have hsign : isKept safe '%' = true := isKept_iff.2 ⟨by decide, .inr (.inr hpercent)⟩
    rw [percentEncode_cons_of_kept hsign, percentEncode_cons_of_kept (hdigit hhigh),
      percentEncode_cons_of_kept (hdigit hlow), ih]

end PercentEncoded

/-- Encoding with safe characters but the percent sign is undone by decoding, byte by byte, and
writes nothing but ASCII: letters, digits and marks, the safe characters, and bytes in digits of
upper case. Encoding an address a second time changes nothing. -/
theorem percentEncode_lossless_and_iriEncode_idempotent :
    (∀ safe cs : List Char, '%' ∉ safe →
      (percentDecode (percentEncode safe cs)).toByteArray = (String.ofList cs).toUTF8 ∧
        PercentEncoded safe (percentEncode safe cs) ∧
        ∀ c ∈ percentEncode safe cs, c.toNat < 128) ∧
    ∀ cs : List Char, iriEncode (iriEncode cs) = iriEncode cs := by
  constructor
  · intro safe cs hsafe
    refine ⟨?_, .percentEncode safe cs, (PercentEncoded.percentEncode safe cs).isAscii⟩
    rw [percentDecode_percentEncode hsafe]
    exact String.toByteArray_ofList.symm
  · intro cs
    exact (PercentEncoded.percentEncode _ cs).percentEncode_eq_self (by decide)

/-- A safe character that is not of ASCII, and a text that spells out a byte. -/
theorem percentEncode_lossless_spelled_byte :
    '%' ∉ "/é".toList ∧ percentEncode "/é".toList "/é%C3".toList = "/%C3%A9%25C3".toList ∧
      (percentDecode "/%C3%A9%25C3".toList).toByteArray = "/é%C3".toUTF8 := by
  have hsafe : '%' ∉ "/é".toList := by decide
  have hcode : percentEncode "/é".toList "/é%C3".toList = "/%C3%A9%25C3".toList := by decide
  refine ⟨hsafe, hcode, ?_⟩
  have hdecoded := (percentEncode_lossless_and_iriEncode_idempotent.1 _ "/é%C3".toList hsafe).1
  rwa [hcode, String.ofList_toList] at hdecoded

end Stencil.Text
