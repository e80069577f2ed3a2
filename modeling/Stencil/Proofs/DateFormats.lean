import Mathlib
import Stencil.Filter.Date

/-!
# Date formats put together

No word behind a percent sign is the front of another one, so a format of the percent style that has
a meaning keeps it whatever comes after it. A format of the letter style is rewritten in such
formats (`percentOfLetters`), one for each character or escaped character: it always has a meaning,
and it writes one piece after the other.
-/

namespace Stencil.Date

/-! ## Words behind a percent sign -/

/-- No word is the front of another one. -/
theorem percentWords_prefixFree : ∀ entry ∈ percentWords, ∀ other ∈ percentWords,
    entry.1.toList <+: other.1.toList → entry = other := by
  decide +kernel

section Words

variable {cs : List Char} {ds : List Directive} {n : Nat}

theorem exists_word_of_percentWord? (h : percentWord? cs = some (ds, n)) :
    ∃ word, (word, ds) ∈ percentWords ∧ word.toList <+: cs ∧ word.length = n := by
  rw [percentWord?, Option.map_eq_some_iff] at h
  obtain ⟨⟨word, found⟩, hfind, hpair⟩ := h
  obtain ⟨rfl, rfl⟩ := Prod.mk.inj hpair
  have hstart := List.find?_some hfind
  exact ⟨word, List.mem_of_find?_eq_some hfind, List.isPrefixOf_iff_prefix.1 hstart, rfl⟩

/-- A word that stands earlier in the table is not read in place of another one. -/
theorem percentWord?_of_prefix {word : String} (hmem : (word, ds) ∈ percentWords)
    (hstart : word.toList <+: cs) : percentWord? cs = some (ds, word.length) := by
  cases hread : percentWord? cs with
  | none =>
    rw [percentWord?, Option.map_eq_none_iff, List.find?_eq_none] at hread
    exact absurd (List.isPrefixOf_iff_prefix.2 hstart) (hread _ hmem)
  | some read =>
    obtain ⟨other, hother, hfront, hlength⟩ := exists_word_of_percentWord? hread
    have heq : (word, ds) = (other, read.1) := by
      rcases List.prefix_or_prefix_of_prefix hstart hfront with hle | hle
      · exact percentWords_prefixFree _ hmem _ hother hle
      · exact (percentWords_prefixFree _ hother _ hmem hle).symm
    obtain ⟨rfl, rfl⟩ := Prod.mk.inj heq
    rw [hlength]

/-- A word is read within the text, and whatever comes after. -/
theorem percentWord?_append (h : percentWord? cs = some (ds, n)) :
    n ≤ cs.length ∧ ∀ tail, percentWord? (cs ++ tail) = some (ds, n) := by
  obtain ⟨word, hmem, hstart, rfl⟩ := exists_word_of_percentWord? h
  constructor
  · rw [← String.length_toList]
    exact hstart.length_le
  · intro tail
    exact percentWord?_of_prefix hmem (hstart.trans (List.prefix_append cs tail))

/-- So are a padding and a word. -/
theorem percentDirectives?_append (h : percentDirectives? cs = some (ds, n)) :
    n ≤ cs.length ∧ ∀ tail, percentDirectives? (cs ++ tail) = some (ds, n) := by
  cases cs with
  | nil => cases h
  | cons c cs =>
    rw [percentDirectives?] at h
    simp only [List.cons_append, percentDirectives?]
    cases hflag : paddingFlag? c with
    | none =>
      rw [hflag] at h
      exact percentWord?_append h
    | some padding =>
      rw [hflag] at h
      obtain ⟨⟨found, length⟩, hword, hrest⟩ := Option.bind_eq_some_iff.1 h
      obtain ⟨hlength, happend⟩ := percentWord?_append hword
      obtain ⟨padded, hpad, hsome⟩ := Option.bind_eq_some_iff.1 hrest
      obtain ⟨rfl, rfl⟩ := Prod.mk.inj (Option.some_inj.1 hsome)
      refine ⟨Nat.succ_le_succ hlength, fun tail => ?_⟩
      simp [happend tail, hpad]

end Words

/-! ## Formats of the percent style -/

/-- What a format means does not depend on what comes after it. -/
theorem ofPercentFrom?_append {skip : Nat} {cs : List Char} {ds : List Directive}
    (h : ofPercentFrom? skip cs = some ds) (hskip : skip ≤ cs.length) (tail : List Char) :
    ofPercentFrom? skip (cs ++ tail) = (ofPercentFrom? 0 tail).map (ds ++ ·) := by
  -- `hskip` goes along: a word lies within the text, so nothing that comes after is skipped.
  induction cs generalizing skip ds with
  | nil =>
    obtain rfl : skip = 0 := Nat.le_zero.1 hskip
    obtain rfl := Option.some_inj.1 h
    simp
  | cons c cs ih =>
    cases skip with
    | succ skip => exact ih h (Nat.le_of_succ_le_succ hskip)
    | zero =>
      rw [List.cons_append]
      rw [ofPercentFrom?] at h ⊢
      by_cases hc : c = '%'
      · rw [if_pos hc] at h ⊢
        cases hread : percentDirectives? cs with
        | none =>
          rw [hread] at h
          cases h
        | some read =>
          obtain ⟨first, length⟩ := read
          rw [hread] at h
          obtain ⟨hlength, happend⟩ := percentDirectives?_append hread
          obtain ⟨rest, hrest, rfl⟩ := Option.map_eq_some_iff.1 h
          simp [happend tail, ih hrest hlength, Function.comp_def]
      · rw [if_neg hc] at h ⊢
        obtain ⟨rest, hrest, rfl⟩ := Option.map_eq_some_iff.1 h
        simp [ih hrest (Nat.zero_le _), Function.comp_def]

theorem writeAll?_append (m : Moment) (ds es : List Directive) :
    writeAll? m (ds ++ es) =
      (writeAll? m ds).bind fun front => (writeAll? m es).map (front ++ ·) := by
  simp only [writeAll?, List.mapM_append]
  cases ds.mapM (Directive.write? m) with
  | none => rfl
  | some front =>
    cases es.mapM (Directive.write? m) with
    | none => rfl
    | some back => simp

/-- All that cannot be written is an offset in any form. -/
theorem writeAll?_isSome (m : Moment) {ds : List Directive} (h : .anyOffset ∉ ds) :
    (writeAll? m ds).isSome := by
  induction ds with
  | nil => rfl
  | cons d ds ih =>
    rw [List.mem_cons, not_or] at h
    obtain ⟨back, hback⟩ := Option.isSome_iff_exists.1 (ih h.2)
    obtain ⟨front, hfront⟩ : ∃ front, writeAll? m [d] = some front := by
      cases d with
      | anyOffset => exact absurd rfl h.1
      | _ => exact ⟨_, rfl⟩
    rw [← List.singleton_append, writeAll?_append, hfront, hback]
    rfl

/-- A format of the percent style has a meaning and writes `out`. -/
def Writes (m : Moment) (text out : List Char) : Prop :=
  ∃ ds, ofPercentFrom? 0 text = some ds ∧ writeAll? m ds = some out

namespace Writes

variable {m : Moment} {text back out rest : List Char}

theorem nil : Writes m [] [] := ⟨[], rfl, rfl⟩

theorem append (htext : Writes m text out) (hback : Writes m back rest) :
    Writes m (text ++ back) (out ++ rest) := by
  obtain ⟨ds, hds, hout⟩ := htext
  obtain ⟨es, hes, hrest⟩ := hback
  refine ⟨ds ++ es, ?_, ?_⟩
  · rw [ofPercentFrom?_append hds (Nat.zero_le _), hes, Option.map_some]
  · rw [writeAll?_append, hout, hrest]
    rfl

theorem format_eq {style : Style} {cs : List Char} (h : Writes m (style.toPercent cs) out) :
    format m style cs = pure (some out) := by
  obtain ⟨ds, hds, hout⟩ := h
  simp only [format, hds, hout]

end Writes

/-! ## Characters of the letter style -/

theorem writes_percentLiteral (m : Moment) (c : Char) : Writes m (percentLiteral c) [c] := by
  refine ⟨[.literal c], ?_, rfl⟩
  by_cases hc : c = '%'
  · subst hc
    decide +kernel
  · rw [percentLiteral, if_neg hc, ofPercentFrom?, if_neg hc]
    rfl

/-- The percent style of every letter has a meaning and can be written. -/
theorem letterWords_writable : ∀ entry ∈ letterWords,
    (ofPercentFrom? 0 entry.2.toList).any (Directive.anyOffset ∉ ·) = true := by
  decide +kernel

theorem writes_percentOfChar (m : Moment) (c : Char) : ∃ out, Writes m (percentOfChar c) out := by
  rw [percentOfChar]
  cases hword : letterWords.lookup c with
  | none => exact ⟨[c], writes_percentLiteral m c⟩
  | some word =>
    obtain ⟨front, back, hwords, -⟩ := List.lookup_eq_some_iff.1 hword
    have hany := letterWords_writable (c, word) (by simp [hwords])
    cases hds : ofPercentFrom? 0 word.toList with
    | none =>
      rw [hds] at hany
      cases hany
    | some ds =>
      rw [hds, Option.any_some, decide_eq_true_eq] at hany
      obtain ⟨out, hout⟩ := Option.isSome_iff_exists.1 (writeAll?_isSome m hany)
      exact ⟨out, ds, hds, hout⟩

/-! ## Formats of the letter style -/

/-- Every format of the letter style has a meaning and can be written. -/
theorem writes_percentOfLetters (m : Moment) (cs : List Char) :
    ∃ out, Writes m (percentOfLetters cs) out := by
  fun_induction percentOfLetters cs with
  | case1 => exact ⟨[], .nil⟩
  | case2 => exact ⟨[], .nil⟩
  | case3 c cs ih =>
    obtain ⟨out, hout⟩ := ih
    exact ⟨_, (writes_percentLiteral m c).append hout⟩
  | case4 c cs hlast hescape ih =>
    obtain ⟨out, hout⟩ := ih
    obtain ⟨first, hfirst⟩ := writes_percentOfChar m c
    exact ⟨_, hfirst.append hout⟩

/-- Every backslash of a format has its character: at the end there is an even number of them. -/
def PairsBackslashes (cs : List Char) : Prop := Even (cs.rtakeWhile (· = '\\')).length

instance : DecidablePred PairsBackslashes := fun cs =>
  inferInstanceAs (Decidable (Even (cs.rtakeWhile (· = '\\')).length))

/-- A character in front counts at the end only where the whole text does. -/
theorem rtakeWhile_cons (p : Char → Bool) (c : Char) (cs : List Char) :
    (c :: cs).rtakeWhile p = if ∀ d ∈ c :: cs, p d = true then c :: cs else cs.rtakeWhile p := by
  by_cases hall : ∀ d ∈ c :: cs, p d = true
  · rw [if_pos hall, List.rtakeWhile_eq_self_iff]
    exact hall
  · rw [if_neg hall, List.rtakeWhile, List.rtakeWhile, List.reverse_cons, List.takeWhile_append]
    split_ifs with hlength
    · have hself : cs.reverse.takeWhile p = cs.reverse :=
        (List.takeWhile_prefix p).eq_of_length hlength
      have hcs : ∀ d ∈ cs, p d = true := by
        simpa using List.takeWhile_eq_self_iff.1 hself
      have hc : ¬p c = true := fun hc => hall (List.forall_mem_cons.2 ⟨hc, hcs⟩)
      rw [List.takeWhile_cons_of_neg hc, List.append_nil, hself]
    · rfl

theorem pairsBackslashes_cons {c : Char} (hc : c ≠ '\\') (cs : List Char) :
    PairsBackslashes (c :: cs) ↔ PairsBackslashes cs := by
  simp [PairsBackslashes, rtakeWhile_cons, hc]

/-- An escaped character does not count, be it a backslash itself. -/
theorem pairsBackslashes_escaped (c : Char) (cs : List Char) :
    PairsBackslashes ('\\' :: c :: cs) ↔ PairsBackslashes cs := by
  simp only [PairsBackslashes, rtakeWhile_cons, decide_true, List.forall_mem_cons, true_and]
  split_ifs with hall
  · rw [List.rtakeWhile_eq_self_iff.2 hall.2, List.length_cons, List.length_cons,
      Nat.even_add_one, Nat.even_add_one, not_not]
  · rfl

theorem percentOfLetters_append {cs : List Char} (h : PairsBackslashes cs) (tail : List Char) :
    percentOfLetters (cs ++ tail) = percentOfLetters cs ++ percentOfLetters tail := by
  fun_induction percentOfLetters cs with
  | case1 => rfl
  | case2 => exact absurd h (by decide)
  | case3 c cs ih =>
    -- The backslash has its character on this side of the seam.
    rw [pairsBackslashes_escaped] at h
    rw [List.append_assoc, ← ih h]
    rfl
  | case4 c cs hlast hescape ih =>
    have hc : c ≠ '\\' := by
      rintro rfl
      cases cs with
      | nil => exact hlast rfl rfl
      | cons c cs => exact hescape c cs rfl rfl
    rw [pairsBackslashes_cons hc] at h
    rw [List.append_assoc, ← ih h, List.cons_append, percentOfLetters.eq_4]
    all_goals simp [hc]

theorem percentOfLetters_escaped (cs : List Char) :
    percentOfLetters (cs.flatMap fun c => ['\\', c]) = cs.flatMap percentLiteral := by
  induction cs with
  | nil => rfl
  | cons c cs ih =>
    rw [List.flatMap_cons, List.flatMap_cons, ← ih]
    rfl

/-- The characters that a format of escaped characters stands for. -/
theorem writes_flatMap_percentLiteral (m : Moment) (cs : List Char) :
    Writes m (cs.flatMap percentLiteral) cs := by
  induction cs with
  | nil => exact .nil
  | cons c cs ih => exact (writes_percentLiteral m c).append ih

/-- Formats of the letter style are written for every moment, and two of them one after the other
write one text after the other, unless the first one ends in a backslash without its character. A
text with a backslash before each character writes itself. -/
theorem format_letters (m : Moment) :
    (∀ front back : List Char, PairsBackslashes front → ∃ first second : List Char,
      format m .letters front = pure (some first) ∧
      format m .letters back = pure (some second) ∧
      format m .letters (front ++ back) = pure (some (first ++ second))) ∧
    ∀ text : List Char,
      format m .letters (text.flatMap fun c => ['\\', c]) = pure (some text) := by
  constructor
  · intro front back hfront
    obtain ⟨first, hfirst⟩ := writes_percentOfLetters m front
    obtain ⟨second, hsecond⟩ := writes_percentOfLetters m back
    refine ⟨first, second, Writes.format_eq hfirst, Writes.format_eq hsecond, Writes.format_eq ?_⟩
    show Writes m (percentOfLetters (front ++ back)) (first ++ second)
    rw [percentOfLetters_append hfront]
    exact hfirst.append hsecond
  · intro text
    apply Writes.format_eq
    show Writes m (percentOfLetters (text.flatMap fun c => ['\\', c])) text
    rw [percentOfLetters_escaped]
    exact writes_flatMap_percentLiteral m text

/-- Percent signs, paddings, points and digits where the percent style would read them, in a leap
second. -/
theorem format_letters_leap_second :
    let m : Moment := ⟨1483228799, 1250000000, -19800⟩
    let front : List Char := "%d.\\%-\\\\".toList
    let back : List Char := "z.3fc%".toList
    let first : List Char := "%31.%-\\".toList
    let second : List Char := "366.3f2016-12-31T18:29:60.250-05:30%".toList
    PairsBackslashes front ∧ format m .letters front = pure (some first) ∧
      format m .letters back = pure (some second) ∧
      format m .letters (front ++ back) = pure (some (first ++ second)) := by
  intro m front back first second
  have hpairs : PairsBackslashes front := by decide +kernel
  obtain ⟨a, b, hfront, hback, hboth⟩ := (format_letters m).1 front back hpairs
  have hfirst : (format m .letters front).value = some first := by decide +kernel
  have hsecond : (format m .letters back).value = some second := by decide +kernel
  rw [hfront, Logged.value_pure, Option.some_inj] at hfirst
  rw [hback, Logged.value_pure, Option.some_inj] at hsecond
  subst hfirst hsecond
  exact ⟨hpairs, hfront, hback, hboth⟩

end Stencil.Date

namespace Stencil.Filter

/-- In the letter style a date is null only if it is not one: there is nothing wrong with any
format. -/
theorem dateValue_letters (filter : String) {s : String} {m : Date.Moment}
    (hs : Date.readMoment? s.toList = some m) {style : Value}
    (hstyle : Date.Style.ofName style.display = .letters) (format : Value) :
    ∃ out : List Char,
      dateValue filter (.str s) format style = pure (.str (String.ofList out)) := by
  obtain ⟨out, hout⟩ := Date.writes_percentOfLetters m format.displayChars
  have hformat : Date.format m .letters format.displayChars = pure (some out) :=
    Date.Writes.format_eq hout
  have hmoment : moment? filter (.str s) = pure (some m) := by
    rw [moment?, hs]
  refine ⟨out, Logged.eq_of ?_ ?_⟩
  · simp [dateValue, hmoment, hstyle, hformat]
  · simp [dateValue, hmoment, hstyle, hformat]

end Stencil.Filter
