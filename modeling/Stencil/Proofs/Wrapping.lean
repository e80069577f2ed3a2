import Mathlib
import Stencil.Proofs.Paths
import Stencil.Text.Layout

/-!
# Wrapped text

A line longer than the width is broken at one of its spaces (`breakIndex?`), and the loop goes on
with what stands behind the space, which is shorter. The loop ends where what is left fits or has no
space. So a wrapped line has the parts of the line between some of its spaces, a line break in the
place of each of these spaces, and a part that does not fit has no space left. The line break that
ends a line stays where it is: it is no space, and no part but the last one holds it.
-/

namespace Stencil.Text

/-! ## Where a line is broken -/

theorem exists_of_findIdx? {c : Char} {cs : List Char} {i : Nat}
    (h : cs.findIdx? (· == c) = some i) :
    ∃ before after, cs = before ++ c :: after ∧ before.length = i ∧ c ∉ before := by
  induction cs generalizing i with
  | nil => cases h
  | cons d cs ih =>
    rw [List.findIdx?_cons] at h
    split at h
    · rename_i hd
      obtain rfl : 0 = i := Option.some.inj h
      exact ⟨[], cs, by rw [beq_iff_eq.1 hd]; rfl, rfl, List.not_mem_nil⟩
    · rename_i hd
      obtain ⟨j, hj, rfl⟩ := Option.map_eq_some_iff.1 h
      obtain ⟨before, after, rfl, rfl, hbefore⟩ := ih hj
      refine ⟨d :: before, after, rfl, rfl, ?_⟩
      rw [List.mem_cons, not_or]
      exact ⟨fun hsame => hd (by simp [hsame]), hbefore⟩

theorem not_mem_of_findIdx? {c : Char} {cs : List Char} (h : cs.findIdx? (· == c) = none) :
    c ∉ cs := by
  intro hmem
  have hnone := List.findIdx?_eq_none_iff.1 h c hmem
  simp at hnone

/-- The last of some characters has none of its kind behind it. -/
theorem exists_of_lastIndexOf? {c : Char} {cs : List Char} {i : Nat}
    (h : lastIndexOf? c cs = some i) :
    ∃ before after, cs = before ++ c :: after ∧ before.length = i ∧ c ∉ after := by
  obtain ⟨j, hj, rfl⟩ := Option.map_eq_some_iff.1 h
  obtain ⟨before, after, hreverse, rfl, hbefore⟩ := exists_of_findIdx? hj
  have hcs : cs = after.reverse ++ c :: before.reverse := by
    rw [← List.reverse_reverse cs, hreverse]
    simp
  refine ⟨after.reverse, before.reverse, hcs, ?_, by simpa using hbefore⟩
  rw [hcs]
  simp

/-- A line is broken at a space, and only if it has one. What is broken off fits or has no space. -/
theorem breakIndex?_cases (width : Nat) (line : List Char) :
    (' ' ∉ line ∧ breakIndex? width line = none) ∨
      ∃ front rest, line = front ++ ' ' :: rest ∧ breakIndex? width line = some front.length ∧
        (front.length ≤ width ∨ ' ' ∉ front) := by
  cases hlast : lastIndexOf? ' ' (line.take (width + 1)) with
  | some i =>
    obtain ⟨front, after, htake, rfl, -⟩ := exists_of_lastIndexOf? hlast
    have hline : line = front ++ ' ' :: (after ++ line.drop (width + 1)) := by
      rw [← List.cons_append, ← List.append_assoc, ← htake, List.take_append_drop]
    have hlength : (line.take (width + 1)).length ≤ width + 1 := List.length_take_le _ _
    rw [htake, List.length_append, List.length_cons] at hlength
    exact .inr ⟨front, _, hline, by rw [breakIndex?, hlast], .inl (by omega)⟩
  | none =>
    have hbreak : breakIndex? width line = line.findIdx? (· == ' ') := by
      rw [breakIndex?, hlast]
    cases hfirst : line.findIdx? (· == ' ') with
    | some i =>
      obtain ⟨front, rest, rfl, rfl, hfront⟩ := exists_of_findIdx? hfirst
      exact .inr ⟨front, rest, rfl, hbreak.trans hfirst, .inr hfront⟩
    | none => exact .inl ⟨not_mem_of_findIdx? hfirst, hbreak.trans hfirst⟩

/-! ## The loop over a line -/

/-- One round of the loop: what is broken off a line and what is left of it. There is no further
round if the line fits or has no space. -/
def breakOff? (width : Nat) (line : List Char) : Option (List Char × List Char) :=
  if width < line.length then
    (breakIndex? width line).map fun i => (line.take i, line.drop (i + 1))
  else none

/-- The rounds of the loop up to its end: the parts that are broken off, and what is left. -/
inductive WrapsTo (width : Nat) : List Char → List (List Char) → Prop where
  | ends {line : List Char} (h : breakOff? width line = none) : WrapsTo width line [line]
  | goesOn {line front rest : List Char} {parts : List (List Char)}
    (h : breakOff? width line = some (front, rest)) (hrest : WrapsTo width rest parts) :
    WrapsTo width line (front :: parts)

section Rounds

variable {width : Nat} {line front rest : List Char}

theorem breakOff?_eq_none_iff : breakOff? width line = none ↔ line.length ≤ width ∨ ' ' ∉ line := by
  unfold breakOff?
  split
  · rename_i hlong
    rcases breakIndex?_cases width line with ⟨hspace, hbreak⟩ | ⟨front, rest, rfl, hbreak, -⟩
    · simp [hbreak, hspace]
    · rw [hbreak]
      simp only [Option.map_some, reduceCtorEq, false_iff, not_or, not_not]
      exact ⟨Nat.not_le.2 hlong, by simp⟩
  · rename_i hfits
    simp [Nat.not_lt.1 hfits]

theorem eq_of_breakOff? (h : breakOff? width line = some (front, rest)) :
    line = front ++ ' ' :: rest ∧ (front.length ≤ width ∨ ' ' ∉ front) := by
  unfold breakOff? at h
  split at h
  · rcases breakIndex?_cases width line with ⟨-, hbreak⟩ | ⟨before, after, rfl, hbreak, hbefore⟩
    · rw [hbreak] at h
      cases h
    · rw [hbreak, Option.map_some, Option.some.injEq, Prod.mk.injEq] at h
      obtain ⟨hfront, hrest⟩ := h
      rw [List.take_left] at hfront
      rw [List.drop_append, List.drop_of_length_le (by omega)] at hrest
      obtain rfl := hfront
      obtain rfl : after = rest := by simpa using hrest
      exact ⟨rfl, hbefore⟩
  · cases h

theorem wrapLine_of_none (h : breakOff? width line = none) : wrapLine width line = line := by
  unfold breakOff? at h
  rw [wrapLine]
  split
  · rename_i hlong
    rw [if_pos hlong, Option.map_eq_none_iff] at h
    rw [h]
  · rfl

theorem wrapLine_of_some (h : breakOff? width line = some (front, rest)) :
    wrapLine width line = front ++ '\n' :: wrapLine width rest := by
  unfold breakOff? at h
  split at h
  · rename_i hlong
    obtain ⟨i, hbreak, hparts⟩ := Option.map_eq_some_iff.1 h
    obtain ⟨rfl, rfl⟩ := Prod.mk.inj hparts
    rw [wrapLine, dif_pos hlong, hbreak]
  · cases h

end Rounds

/-- The loop ends, since each round leaves less of the line. -/
theorem exists_wrapsTo (width : Nat) (line : List Char) : ∃ parts, WrapsTo width line parts := by
  cases h : breakOff? width line with
  | none => exact ⟨[line], .ends h⟩
  | some broken =>
    obtain ⟨front, rest⟩ := broken
    have hshorter : rest.length < line.length := by
      rw [(eq_of_breakOff? h).1, List.length_append, List.length_cons]
      omega
    obtain ⟨parts, hparts⟩ := exists_wrapsTo width rest
    exact ⟨front :: parts, .goesOn h hparts⟩
  termination_by line.length

theorem joinWith_cons {sep part : List Char} {parts : List (List Char)} (h : parts ≠ []) :
    joinWith sep (part :: parts) = part ++ sep ++ joinWith sep parts := by
  cases parts with
  | nil => exact absurd rfl h
  | cons next parts => rfl

namespace WrapsTo

variable {width : Nat} {line : List Char} {parts : List (List Char)}

theorem ne_nil (h : WrapsTo width line parts) : parts ≠ [] := by
  cases h <;> exact List.cons_ne_nil _ _

/-- The parts with a line break behind each but the last are the wrapped line. -/
theorem wrapLine_eq (h : WrapsTo width line parts) :
    wrapLine width line = joinWith ['\n'] parts := by
  induction h with
  | ends h => exact wrapLine_of_none h
  | goesOn h hrest ih =>
    rw [wrapLine_of_some h, ih, joinWith_cons hrest.ne_nil, List.append_assoc]
    rfl

end WrapsTo

/-- The same for several lines. -/
theorem exists_rounds (width : Nat) (lines : List (List Char)) :
    ∃ rounds, List.Forall₂ (WrapsTo width) lines rounds ∧
      lines.flatMap (wrapLine width) = rounds.flatMap (joinWith ['\n']) := by
  induction lines with
  | nil => exact ⟨[], .nil, rfl⟩
  | cons line lines ih =>
    obtain ⟨rounds, hrounds, hrest⟩ := ih
    obtain ⟨parts, hparts⟩ := exists_wrapsTo width line
    refine ⟨parts :: rounds, .cons hparts hrounds, ?_⟩
    rw [List.flatMap_cons, List.flatMap_cons, hparts.wrapLine_eq, hrest]

/-- A line stays as it is exactly if it fits or has no space. -/
theorem wrapLine_eq_self_iff {width : Nat} {line : List Char} :
    wrapLine width line = line ↔ line.length ≤ width ∨ ' ' ∉ line := by
  rw [← breakOff?_eq_none_iff]
  cases h : breakOff? width line with
  | none => simp [wrapLine_of_none h]
  | some broken =>
    obtain ⟨front, rest⟩ := broken
    rw [wrapLine_of_some h]
    obtain ⟨rfl, -⟩ := eq_of_breakOff? h
    simp

/-! ## Characters -/

/-- A character of a text and the one that stands there in the wrapped text. -/
def KeptOrBroken (c d : Char) : Prop := d = c ∨ (c = ' ' ∧ d = '\n')

theorem keptOrBroken_refl (cs : List Char) : List.Forall₂ KeptOrBroken cs cs :=
  List.forall₂_same.2 fun _ _ => .inl rfl

theorem keptOrBroken_wrapLine (width : Nat) (line : List Char) :
    List.Forall₂ KeptOrBroken line (wrapLine width line) := by
  obtain ⟨parts, hparts⟩ := exists_wrapsTo width line
  induction hparts with
  | ends h =>
    rw [wrapLine_of_none h]
    exact keptOrBroken_refl _
  | goesOn h hrest ih =>
    rw [wrapLine_of_some h, (eq_of_breakOff? h).1]
    exact List.rel_append (keptOrBroken_refl _) (.cons (.inr ⟨rfl, rfl⟩) ih)

/-! ## The lines of a text -/

theorem linesInclusive_last {line : List Char} (hline : '\n' ∉ line) (hne : line ≠ []) :
    linesInclusive line = [line] := by
  induction line with
  | nil => exact absurd rfl hne
  | cons c line ih =>
    rw [List.mem_cons, not_or] at hline
    rw [linesInclusive, if_neg (Ne.symm hline.1)]
    by_cases hrest : line = []
    · rw [hrest]
      rfl
    · rw [ih hline.2 hrest]

theorem linesInclusive_append {line : List Char} (hline : '\n' ∉ line) (rest : List Char) :
    linesInclusive (line ++ '\n' :: rest) = (line ++ ['\n']) :: linesInclusive rest := by
  induction line with
  | nil => rfl
  | cons c line ih =>
    rw [List.mem_cons, not_or] at hline
    rw [List.cons_append, linesInclusive, if_neg (Ne.symm hline.1), ih hline.2]
    rfl

/-- Induction along the lines of a text: either one without a line break is left, or a line is ended
by one. -/
@[elab_as_elim]
theorem lines_induction {motive : List Char → Prop} (last : ∀ line, '\n' ∉ line → motive line)
    (ended : ∀ line rest, '\n' ∉ line → motive rest → motive (line ++ '\n' :: rest))
    (cs : List Char) : motive cs := by
  by_cases hbreak : '\n' ∈ cs
  · obtain ⟨line, rest, hcs, hline⟩ := List.eq_append_cons_of_mem hbreak
    have hshorter : rest.length < cs.length := by
      rw [hcs, List.length_append, List.length_cons]
      omega
    rw [hcs]
    exact ended line rest hline (lines_induction last ended rest)
  · exact last cs hbreak
  termination_by cs.length

section Positive

variable {width : Nat} (hwidth : 0 < width)
include hwidth

theorem wordWrap_of_pos (cs : List Char) :
    wordWrap width cs = (linesInclusive cs).flatMap (wrapLine width) := by
  have hpositive : ¬(width : Int) ≤ 0 := by omega
  rw [wordWrap, if_neg hpositive, Int.toNat_natCast]

theorem wordWrap_last {line : List Char} (hline : '\n' ∉ line) :
    wordWrap width line = wrapLine width line := by
  rw [wordWrap_of_pos hwidth]
  by_cases hne : line = []
  · rw [hne, wrapLine_eq_self_iff.2 (.inl (Nat.zero_le width))]
    rfl
  · rw [linesInclusive_last hline hne, List.flatMap_singleton]

theorem wordWrap_append {line : List Char} (hline : '\n' ∉ line) (rest : List Char) :
    wordWrap width (line ++ '\n' :: rest) =
      wrapLine width (line ++ ['\n']) ++ wordWrap width rest := by
  rw [wordWrap_of_pos hwidth, wordWrap_of_pos hwidth, linesInclusive_append hline,
    List.flatMap_cons]

theorem keptOrBroken_wordWrap (cs : List Char) :
    List.Forall₂ KeptOrBroken cs (wordWrap width cs) := by
  induction cs using lines_induction with
  | last line hline =>
    rw [wordWrap_last hwidth hline]
    exact keptOrBroken_wrapLine width line
  | ended line rest hline ih =>
    rw [wordWrap_append hwidth hline, ← List.singleton_append, ← List.append_assoc]
    exact List.rel_append (keptOrBroken_wrapLine width _) ih

end Positive

/-! ## The lines of a wrapped text -/

/-- What stands behind the last space of a text stands behind all of them. -/
theorem exists_of_append_eq {line ending front rest : List Char} (hending : ' ' ∉ ending)
    (h : line ++ ending = front ++ ' ' :: rest) :
    ∃ line', line = front ++ ' ' :: line' ∧ rest = line' ++ ending := by
  rcases List.append_eq_append_iff.1 h with ⟨part, -, hpart⟩ | ⟨part, hline, hpart⟩
  · exact absurd (hpart ▸ by simp) hending
  · cases part with
    | nil =>
      have hspace : ' ' ∈ [] ++ ending := hpart ▸ List.mem_cons_self
      exact absurd hspace hending
    | cons c part =>
      obtain ⟨rfl, rfl⟩ := List.cons.inj hpart
      exact ⟨part, hline, rfl⟩

/-- A line that is wrapped together with the line break that ends it is wrapped to parts none of
which has a line break, and those of them that do not fit have no space. -/
theorem exists_parts (width : Nat) {line ending : List Char} (hending : ' ' ∉ ending)
    (hline : '\n' ∉ line) :
    ∃ parts, parts ≠ [] ∧ wrapLine width (line ++ ending) = joinWith ['\n'] parts ++ ending ∧
      ∀ part ∈ parts, '\n' ∉ part ∧ (part.length ≤ width ∨ ' ' ∉ part) := by
  obtain ⟨rounds, hrounds⟩ := exists_wrapsTo width (line ++ ending)
  generalize hwhole : line ++ ending = whole at hrounds
  induction hrounds generalizing line with
  | ends h =>
    subst hwhole
    refine ⟨[line], List.cons_ne_nil _ _, wrapLine_of_none h, ?_⟩
    rw [List.forall_mem_singleton]
    refine ⟨hline, ?_⟩
    rcases breakOff?_eq_none_iff.1 h with hfits | hspace
    · exact .inl (Nat.le_trans (List.sublist_append_left line ending).length_le hfits)
    · exact .inr fun hmem => hspace (List.mem_append_left _ hmem)
  | @goesOn whole front rest rounds h _ ih =>
    subst hwhole
    obtain ⟨heq, hfront⟩ := eq_of_breakOff? h
    obtain ⟨line', rfl, hrest⟩ := exists_of_append_eq hending heq
    rw [List.mem_append, not_or] at hline
    obtain ⟨parts, hne, hwrap, hparts⟩ := ih (List.not_mem_of_not_mem_cons hline.2) hrest.symm
    refine ⟨front :: parts, List.cons_ne_nil _ _, ?_, ?_⟩
    · rw [wrapLine_of_some h, hwrap, joinWith_cons hne]
      simp
    · exact List.forall_mem_cons.2 ⟨⟨hline.1, hfront⟩, hparts⟩

theorem splitOn_joinWith {sep : Char} {parts : List (List Char)} (hne : parts ≠ [])
    (hparts : ∀ part ∈ parts, sep ∉ part) : splitOn sep (joinWith [sep] parts) = parts := by
  induction parts with
  | nil => exact absurd rfl hne
  | cons part parts ih =>
    rw [List.forall_mem_cons] at hparts
    by_cases hlast : parts = []
    · rw [hlast, joinWith, splitOn_of_not_mem hparts.1]
    · rw [joinWith_cons hlast, List.append_assoc, List.singleton_append, splitOn_append hparts.1,
        ih hlast hparts.2]

theorem splitOn_joinWith_append {sep : Char} {parts : List (List Char)} (hne : parts ≠ [])
    (hparts : ∀ part ∈ parts, sep ∉ part) (rest : List Char) :
    splitOn sep (joinWith [sep] parts ++ sep :: rest) = parts ++ splitOn sep rest := by
  induction parts with
  | nil => exact absurd rfl hne
  | cons part parts ih =>
    rw [List.forall_mem_cons] at hparts
    by_cases hlast : parts = []
    · rw [hlast, joinWith, splitOn_append hparts.1, List.singleton_append]
    · rw [joinWith_cons hlast, List.append_assoc, List.append_assoc, List.singleton_append,
        splitOn_append hparts.1, ih hlast hparts.2, List.cons_append]

/-- Every line of the wrapped text fits or has no space. -/
theorem fits_of_mem_lines {width : Nat} (hwidth : 0 < width) {cs line : List Char}
    (h : line ∈ splitOn '\n' (wordWrap width cs)) : line.length ≤ width ∨ ' ' ∉ line := by
  induction cs using lines_induction with
  | last whole hwhole =>
    have hspace : ' ' ∉ ([] : List Char) := List.not_mem_nil
    obtain ⟨parts, hne, hwrap, hparts⟩ := exists_parts width hspace hwhole
    rw [List.append_nil, List.append_nil] at hwrap
    rw [wordWrap_last hwidth hwhole, hwrap,
      splitOn_joinWith hne fun part hpart => (hparts part hpart).1] at h
    exact (hparts line h).2
  | ended whole rest hwhole ih =>
    have hspace : ' ' ∉ ['\n'] := by decide
    obtain ⟨parts, hne, hwrap, hparts⟩ := exists_parts width hspace hwhole
    rw [wordWrap_append hwidth hwhole, hwrap, List.append_assoc, List.singleton_append,
      splitOn_joinWith_append hne fun part hpart => (hparts part hpart).1, List.mem_append] at h
    exact h.elim (fun hmem => (hparts line hmem).2) ih

/-- For a positive width the loop over each line ends, and the wrapped text is what the loops leave.
It has as many characters as the text. Each is the character of the text in its place, but that
spaces may have become line breaks. A line of it that is longer than the width has no space. -/
theorem wordWrap_breaks_at_spaces {width : Nat} (hwidth : 0 < width) (cs : List Char) :
    (∃ rounds, List.Forall₂ (WrapsTo width) (linesInclusive cs) rounds ∧
        wordWrap width cs = rounds.flatMap (joinWith ['\n'])) ∧
      (wordWrap width cs).length = cs.length ∧
      List.Forall₂ (fun c d => d = c ∨ (c = ' ' ∧ d = '\n')) cs (wordWrap width cs) ∧
      ∀ line ∈ splitOn '\n' (wordWrap width cs), width < line.length → ' ' ∉ line := by
  have hkept := keptOrBroken_wordWrap hwidth cs
  refine ⟨?_, hkept.length_eq.symm, hkept, ?_⟩
  · rw [wordWrap_of_pos hwidth]
    exact exists_rounds width _
  · intro line hline hlong
    exact (fits_of_mem_lines hwidth hline).resolve_left (Nat.not_le.2 hlong)

/-- A text with blanks in front, a run of spaces, a word too long, and a line of just the width. -/
theorem wordWrap_breaks_at_spaces_mixed :
    0 < 5 ∧
      (∃ rounds,
        List.Forall₂ (WrapsTo 5) (linesInclusive "  abcdefgh  i j\nab cd\n".toList) rounds ∧
        wordWrap (5 : Nat) "  abcdefgh  i j\nab cd\n".toList =
          rounds.flatMap (joinWith ['\n'])) ∧
      (wordWrap (5 : Nat) "  abcdefgh  i j\nab cd\n".toList).length =
        "  abcdefgh  i j\nab cd\n".toList.length ∧
      List.Forall₂ (fun c d => d = c ∨ (c = ' ' ∧ d = '\n')) "  abcdefgh  i j\nab cd\n".toList
        (wordWrap (5 : Nat) "  abcdefgh  i j\nab cd\n".toList) ∧
      (∀ line ∈ splitOn '\n' (wordWrap (5 : Nat) "  abcdefgh  i j\nab cd\n".toList),
        5 < line.length → ' ' ∉ line) ∧
      wordWrap (5 : Nat) "  abcdefgh  i j\nab cd\n".toList =
        " \nabcdefgh\n i j\nab\ncd\n".toList := by
  have hwidth : 0 < 5 := by decide
  obtain ⟨hrounds, hlength, hsame, hlong⟩ :=
    wordWrap_breaks_at_spaces hwidth "  abcdefgh  i j\nab cd\n".toList
  refine ⟨hwidth, hrounds, hlength, hsame, hlong, ?_⟩
  cbv

end Stencil.Text
