import Stencil.Filter.Apply
import Stencil.Proofs.LatinLetters

/-!
# Canonical slugs

A slug (`slugBy`) has single hyphens between its words and neither hyphens nor underscores at its
ends, and it is its own slug. This holds of any way of writing texts in ASCII that leaves ASCII
alone, and the Latin letters of the library are one.
-/

namespace Stencil

namespace Text

/-! ## Texts without their ends -/

section Ends

variable (p : Char → Bool) (cs : List Char)

theorem dropBothWhile_eq : dropBothWhile p cs = (cs.dropWhile p).rdropWhile p := rfl

theorem isInfix_dropBothWhile : dropBothWhile p cs <:+: cs :=
  (List.rdropWhile_prefix p _).isInfix.trans (List.dropWhile_suffix p).isInfix

theorem head?_dropBothWhile : ∀ c ∈ (dropBothWhile p cs).head?, p c = false := by
  intro c hc
  have hfront : c ∈ (cs.dropWhile p).head? := by
    obtain ⟨ds, hds⟩ := List.head?_eq_some_iff.1 hc
    obtain ⟨back, hback⟩ := List.rdropWhile_prefix p (cs.dropWhile p)
    rw [← dropBothWhile_eq, hds] at hback
    rw [← hback]
    rfl
  have hnot := List.head?_dropWhile_not p cs
  rw [Option.mem_def.1 hfront] at hnot
  exact hnot

theorem getLast?_dropBothWhile : ∀ c ∈ (dropBothWhile p cs).getLast?, p c = false := by
  intro c hc
  obtain ⟨hne, rfl⟩ := List.mem_getLast?_eq_getLast hc
  exact Bool.eq_false_iff.2 (List.rdropWhile_last_not p _ hne)

variable {p cs}

theorem dropBothWhile_eq_self (hhead : ∀ c ∈ cs.head?, p c = false)
    (hlast : ∀ c ∈ cs.getLast?, p c = false) : dropBothWhile p cs = cs := by
  have hfront : cs.dropWhile p = cs := by
    cases cs with
    | nil => rfl
    | cons c cs => exact List.dropWhile_cons_of_neg (Bool.eq_false_iff.1 (hhead c rfl))
  rw [dropBothWhile_eq, hfront, List.rdropWhile_eq_self_iff]
  intro hne
  exact Bool.eq_false_iff.1 (hlast _ (List.getLast?_eq_getLast_of_ne_nil hne))

end Ends

/-! ## Gaps -/

theorem mem_joinGaps {afterGap : Bool} {cs : List Char} {c : Char} (h : c ∈ joinGaps afterGap cs) :
    c = '-' ∨ c ∈ cs ∧ isSlugGap c = false := by
  induction cs generalizing afterGap with
  | nil => cases h
  | cons d cs ih =>
    have hlater {b : Bool} (hc : c ∈ joinGaps b cs) :
        c = '-' ∨ c ∈ d :: cs ∧ isSlugGap c = false :=
      (ih hc).imp_right fun hmem => ⟨List.mem_cons_of_mem d hmem.1, hmem.2⟩
    rw [joinGaps] at h
    split_ifs at h with hgap hafter
    · exact hlater h
    · rcases List.mem_cons.1 h with hc | hc
      · exact .inl hc
      · exact hlater hc
    · rcases List.mem_cons.1 h with rfl | hc
      · exact .inr ⟨List.mem_cons_self, Bool.eq_false_iff.2 hgap⟩
      · exact hlater hc

/-- Behind a gap no hyphen is written. -/
theorem head?_joinGaps (cs : List Char) : (joinGaps true cs).head? ≠ some '-' := by
  induction cs with
  | nil => simp [joinGaps]
  | cons c cs ih =>
    by_cases hgap : isSlugGap c = true
    · simpa [joinGaps, hgap] using ih
    · rw [joinGaps, if_neg hgap, List.head?_cons, Ne, Option.some_inj]
      rintro rfl
      exact hgap rfl

/-- No two hyphens are next to each other. -/
theorem not_infix_joinGaps (afterGap : Bool) (cs : List Char) :
    ¬['-', '-'] <:+: joinGaps afterGap cs := by
  induction cs generalizing afterGap with
  | nil => simp [joinGaps]
  | cons c cs ih =>
    rw [joinGaps]
    split_ifs with hgap hafter
    · exact ih true
    · rw [List.singleton_append, List.infix_cons_iff, List.cons_prefix_cons, not_or]
      refine ⟨?_, ih true⟩
      rintro ⟨-, back, hback⟩
      apply head?_joinGaps cs
      rw [← hback]
      rfl
    · rw [List.infix_cons_iff, List.cons_prefix_cons, not_or]
      refine ⟨?_, ih false⟩
      rintro ⟨rfl, -⟩
      exact hgap rfl

/-- A text whose gaps are single hyphens stays as it is. -/
theorem joinGaps_eq_self {afterGap : Bool} {cs : List Char}
    (hgaps : ∀ c ∈ cs, isSlugGap c = true → c = '-') (hsingle : ¬['-', '-'] <:+: cs)
    (hafter : afterGap = true → cs.head? ≠ some '-') : joinGaps afterGap cs = cs := by
  induction cs generalizing afterGap with
  | nil => rfl
  | cons c cs ih =>
    rw [List.forall_mem_cons] at hgaps
    rw [List.infix_cons_iff, List.cons_prefix_cons, not_or, not_and] at hsingle
    rw [joinGaps]
    split_ifs with hgap htrue
    · obtain rfl := hgaps.1 hgap
      exact absurd rfl (hafter htrue)
    · obtain rfl := hgaps.1 hgap
      rw [ih hgaps.2 hsingle.2, List.singleton_append]
      intro _ hhead
      obtain ⟨ds, rfl⟩ := List.head?_eq_some_iff.1 hhead
      exact hsingle.1 rfl ⟨ds, rfl⟩
    · rw [ih hgaps.2 hsingle.2]
      intro hfalse
      cases hfalse

/-! ## Slugs -/

/-- A canonical slug: small letters, digits, underscores and single hyphens, of which neither
underscores nor hyphens stand at an end. -/
structure IsSlug (cs : List Char) : Prop where
  chars : ∀ c ∈ cs, c.isLower = true ∨ c.isDigit = true ∨ c = '-' ∨ c = '_'
  head : ∀ c ∈ cs.head?, c ≠ '-' ∧ c ≠ '_'
  last : ∀ c ∈ cs.getLast?, c ≠ '-' ∧ c ≠ '_'
  single : ¬['-', '-'] <:+: cs

/-- A way of writing texts in ASCII, which leaves the texts that are so written. -/
structure WritesAscii (write : List Char → List Char) : Prop where
  ascii : ∀ cs, IsAscii (write cs)
  self : ∀ cs, IsAscii cs → write cs = cs

/-- The lower case of a letter or digit of ASCII is a small letter or a digit. -/
theorem isLower_or_isDigit_toLower {c : Char} (h : c.toLower.isAlphanum = true) :
    c.toLower.isLower = true ∨ c.toLower.isDigit = true := by
  simpa [Char.isAlphanum, Char.isAlpha] using h

namespace IsSlug

variable {cs : List Char} (h : IsSlug cs)

include h

/-- The characters of a slug by their codes. -/
theorem toNat_cases : ∀ c ∈ cs, 97 ≤ c.toNat ∧ c.toNat ≤ 122 ∨ 48 ≤ c.toNat ∧ c.toNat ≤ 57 ∨
    c.toNat = 45 ∨ c.toNat = 95 := by
  intro c hc
  have hchar := h.chars c hc
  simp only [Char.isLower, Char.isDigit, Bool.and_eq_true, decide_eq_true_eq,
    UInt32.le_iff_toNat_le, ge_iff_le] at hchar
  rcases hchar with hlow | hdigit | rfl | rfl
  · exact .inl hlow
  · exact .inr (.inl hdigit)
  · exact .inr (.inr (.inl rfl))
  · exact .inr (.inr (.inr rfl))

theorem ascii : IsAscii cs := by
  intro c hc
  have hcases := h.toNat_cases c hc
  omega

theorem isBlank_eq : ∀ c ∈ cs, isBlank c = false := by
  intro c hc
  have hcases := h.toNat_cases c hc
  simp only [Char.toNat] at hcases
  simp only [isBlank, Bool.or_eq_false_iff, Bool.and_eq_false_iff, decide_eq_false_iff_not]
  omega

theorem lower_eq : lower cs = cs := by
  have hself : ∀ c ∈ cs, c.toLower = c := by
    intro c hc
    have hcases := h.toNat_cases c hc
    apply Char.toLower_eq_of_not_isUpper
    simp only [Char.toNat] at hcases
    have hfirst : 'A'.val.toNat = 65 := rfl
    have hlast : 'Z'.val.toNat = 90 := rfl
    simp only [Char.isUpper, decide_eq_true_eq, UInt32.le_iff_toNat_le, ge_iff_le]
    omega
  rw [lower, lowerFrom_of_ascii h.ascii, List.map_congr_left hself, List.map_id']

theorem isSlugWord_or_gap : ∀ c ∈ cs, (isSlugWord c || isSlugGap c) = true := by
  intro c hc
  rcases h.chars c hc with hlow | hdigit | rfl | rfl
  · simp [isSlugWord, Char.isAlphanum, Char.isAlpha, hlow]
  · simp [isSlugWord, Char.isAlphanum, hdigit]
  · rfl
  · rfl

end IsSlug

section By

variable {write : List Char → List Char} (hwrite : WritesAscii write)

include hwrite

theorem isSlug_slugBy (cs : List Char) : IsSlug (slugBy write cs) := by
  have hlower : lower (write cs) = (write cs).map Char.toLower :=
    lowerFrom_of_ascii (hwrite.ascii cs) []
  obtain ⟨kept, hkept⟩ : ∃ kept, kept =
      (lower (write cs)).filter fun c => isSlugWord c || isSlugGap c := ⟨_, rfl⟩
  have hslug : slugBy write cs =
      dropBothWhile (fun c => c == '-' || c == '_') (joinGaps false (trim kept)) := by
    rw [hkept]
    rfl
  have hends {c : Char} (hc : (c == '-' || c == '_') = false) : c ≠ '-' ∧ c ≠ '_' := by
    simpa using hc
  have hwithin := isInfix_dropBothWhile (fun c => c == '-' || c == '_') (joinGaps false (trim kept))
  rw [hslug]
  refine ⟨?_, ?_, ?_, ?_⟩
  · intro c hc
    rcases mem_joinGaps (hwithin.subset hc) with rfl | ⟨hmem, hgap⟩
    · exact .inr (.inr (.inl rfl))
    · have hc : c ∈ kept := (isInfix_dropBothWhile isBlank kept).subset hmem
      rw [hkept, hlower, List.mem_filter] at hc
      obtain ⟨d, -, rfl⟩ := List.mem_map.1 hc.1
      have hword : isSlugWord d.toLower = true := by
        simpa [hgap] using hc.2
      rw [isSlugWord, Bool.or_eq_true, beq_iff_eq] at hword
      rcases hword with halnum | hunder
      · exact (isLower_or_isDigit_toLower halnum).imp_right .inl
      · exact .inr (.inr (.inr hunder))
  · exact fun c hc => hends (head?_dropBothWhile _ _ c hc)
  · exact fun c hc => hends (getLast?_dropBothWhile _ _ c hc)
  · exact fun hdouble => not_infix_joinGaps false _ (hdouble.trans hwithin)

/-- A slug is its own slug: every pass leaves it alone. -/
theorem slugBy_eq_self {cs : List Char} (h : IsSlug cs) : slugBy write cs = cs := by
  have hblank := h.isBlank_eq
  have htrim : trim cs = cs :=
    dropBothWhile_eq_self (fun c hc => hblank c (List.mem_of_mem_head? hc))
      (fun c hc => hblank c (List.mem_of_getLast? hc))
  have hjoin : joinGaps false cs = cs := by
    refine joinGaps_eq_self ?_ h.single (by simp)
    intro c hc hgap
    simpa [isSlugGap, hblank c hc] using hgap
  rw [slugBy, hwrite.self cs h.ascii, h.lower_eq]
  simp only [List.filter_eq_self.2 h.isSlugWord_or_gap, htrim, hjoin]
  exact dropBothWhile_eq_self (fun c hc => by simpa using h.head c hc)
    (fun c hc => by simpa using h.last c hc)

end By

/-- The Latin letters of the library are such a way. -/
theorem writesAscii_latin : WritesAscii latin := ⟨isAscii_latin, fun _ h => latin_eq_self h⟩

/-- The slug of a text consists of small letters, digits, hyphens and underscores, with no hyphen or
underscore at an end and no two hyphens next to each other (`IsSlug`), and it is its own slug. This
holds of any way of writing texts in ASCII that leaves ASCII alone. -/
theorem slugBy_canonical {write : List Char → List Char} (hwrite : WritesAscii write)
    (cs : List Char) :
    IsSlug (slugBy write cs) ∧ slugBy write (slugBy write cs) = slugBy write cs := by
  have hslug : IsSlug (slugBy write cs) := isSlug_slugBy hwrite cs
  exact ⟨hslug, slugBy_eq_self hwrite hslug⟩

/-- A wide letter, Korean syllables, hyphens among blanks, a control character, and underscores at
the ends. -/
theorem slugBy_canonical_latin :
    let text : List Char := "_ --Ｗide__ \x01한글 -- _x_ \t".toList
    WritesAscii latin ∧ slugBy latin text = "wide__-hangeul-_x".toList ∧
      IsSlug (slugBy latin text) ∧ slugBy latin (slugBy latin text) = slugBy latin text := by
  intro text
  have hslug := slugBy_canonical writesAscii_latin text
  exact ⟨writesAscii_latin, by decide +kernel, hslug.1, hslug.2⟩

end Text

namespace Filter

/-- With the Latin letters of the library the filter makes canonical slugs, without an event, and
leaves them alone. -/
theorem apply_slugify (s : Surroundings) (text : String) (given : List Value) :
    ∃ out : List Char, slugify.apply s (.str text) given = pure (.str (String.ofList out)) ∧
      Text.IsSlug out ∧
      slugify.apply s (.str (String.ofList out)) given = pure (.str (String.ofList out)) := by
  have hwrite : Text.WritesAscii Text.latin := Text.writesAscii_latin
  have happly (cs : List Char) : slugify.apply s (.str (String.ofList cs)) given =
      pure (.str (String.ofList (Text.slug cs))) := by
    show pure (Value.str (String.ofList (Text.slug (String.ofList cs).toList))) = _
    rw [String.toList_ofList]
  have hslug : Text.IsSlug (Text.slug text.toList) := Text.isSlug_slugBy hwrite _
  refine ⟨Text.slug text.toList, ?_, hslug, ?_⟩
  · rw [← happly, String.ofList_toList]
  · rw [happly, Text.slug, Text.slugBy_eq_self hwrite hslug]

end Filter

end Stencil
