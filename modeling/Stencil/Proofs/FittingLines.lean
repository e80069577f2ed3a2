import Stencil.Proofs.Wrapping

/-!
# Lines that fit

Whether a line is broken (`wrapLine`) depends on its length together with the line break that ends
it. So a line shorter than the width stays as it is, and so does one of just the width at the end of
the text. One of just the width in front of a line break stays as it is only if it has no space.
Wrapping makes up such lines itself, where the space that is replaced stands behind just as many
characters as the width allows; without any of them a second wrapping changes nothing.
-/

namespace Stencil.Text

/-! ## Lines -/

/-- Whether a line begins behind a text. -/
def EndsLine (before : List Char) : Prop := before = [] ∨ before.getLast? = some '\n'

/-- A line of a text: what stands before it, its characters, the line break that ends it, which is
missing at the end of the text, and what stands behind it. -/
structure LineAt (cs before line ending after : List Char) : Prop where
  text_eq : cs = before ++ (line ++ (ending ++ after))
  endsLine : EndsLine before
  not_mem : '\n' ∉ line
  ending_cases : ending = ['\n'] ∨ (ending = [] ∧ after = [])

/-- A line that fits, but no longer together with its line break, and has a space. -/
def IsTight (width : Nat) (line ending : List Char) : Prop :=
  ending = ['\n'] ∧ line.length = width ∧ ' ' ∈ line

theorem endsLine_append_iff {line rest : List Char} :
    EndsLine (line ++ '\n' :: rest) ↔ EndsLine rest := by
  unfold EndsLine
  cases hrest : rest.getLast? with
  | none => simp [List.getLast?_eq_none_iff.1 hrest]
  | some c =>
    have hne : rest ≠ [] := by
      rintro rfl
      cases hrest
    simp [List.getLast?_append, List.getLast?_cons, hrest, hne]

theorem eq_nil_of_endsLine {line : List Char} (hline : '\n' ∉ line) (h : EndsLine line) :
    line = [] := by
  rcases h with hnil | hlast
  · exact hnil
  · exact absurd (List.mem_of_getLast? hlast) hline

namespace LineAt

variable {cs before line ending after : List Char}

theorem space_not_mem (h : LineAt cs before line ending after) : ' ' ∉ ending := by
  rcases h.ending_cases with rfl | ⟨rfl, -⟩ <;> decide

/-- A line of the rest of a text is a line of the text. -/
theorem later (h : LineAt cs before line ending after) (first : List Char) :
    LineAt (first ++ '\n' :: cs) (first ++ '\n' :: before) line ending after where
  text_eq := by rw [h.text_eq, List.append_assoc, List.cons_append]
  endsLine := endsLine_append_iff.2 h.endsLine
  not_mem := h.not_mem
  ending_cases := h.ending_cases

end LineAt

theorem lineAt_last {line : List Char} (hline : '\n' ∉ line) : LineAt line [] line [] [] where
  text_eq := by simp
  endsLine := .inl rfl
  not_mem := hline
  ending_cases := .inr ⟨rfl, rfl⟩

theorem lineAt_ended {line : List Char} (hline : '\n' ∉ line) (rest : List Char) :
    LineAt (line ++ '\n' :: rest) [] line ['\n'] rest where
  text_eq := by simp
  endsLine := .inl rfl
  not_mem := hline
  ending_cases := .inl rfl

theorem mem_splitOn_append {before line tail : List Char} (hbefore : EndsLine before)
    (h : line ∈ splitOn '\n' tail) : line ∈ splitOn '\n' (before ++ tail) := by
  induction before using lines_induction with
  | last first hfirst => rwa [eq_nil_of_endsLine hfirst hbefore, List.nil_append]
  | ended first rest hfirst ih =>
    rw [List.append_assoc, List.cons_append, splitOn_append hfirst]
    exact List.mem_cons_of_mem _ (ih (endsLine_append_iff.1 hbefore))

theorem LineAt.mem_splitOn {cs before line ending after : List Char}
    (h : LineAt cs before line ending after) : line ∈ splitOn '\n' cs := by
  rw [h.text_eq]
  apply mem_splitOn_append h.endsLine
  rcases h.ending_cases with rfl | ⟨rfl, rfl⟩
  · rw [List.singleton_append, splitOn_append h.not_mem]
    exact List.mem_cons_self
  · rw [List.append_nil, List.append_nil, splitOn_of_not_mem h.not_mem]
    exact List.mem_singleton.2 rfl

/-- Of the lines that fit or have no space wrapping keeps those that are not tight. -/
theorem LineAt.wrapLine_eq_iff {width : Nat} {cs before line ending after : List Char}
    (h : LineAt cs before line ending after) (hline : line.length ≤ width ∨ ' ' ∉ line) :
    wrapLine width (line ++ ending) = line ++ ending ↔ ¬IsTight width line ending := by
  rw [wrapLine_eq_self_iff, List.mem_append, or_iff_left h.space_not_mem]
  rcases h.ending_cases with rfl | ⟨rfl, -⟩
  · rw [List.length_append, List.length_singleton]
    constructor
    · rintro (hshort | hspace) ⟨-, hlength, hmem⟩
      · omega
      · exact hspace hmem
    · intro hloose
      rcases hline with hfits | hspace
      · by_cases hlength : line.length = width
        · exact .inr fun hmem => hloose ⟨rfl, hlength, hmem⟩
        · exact .inl (by omega)
      · exact .inr hspace
  · simp [IsTight, hline]

section Positive

variable {width : Nat} (hwidth : 0 < width)
include hwidth

/-! ## One line of a text -/

/-- Text behind a line is wrapped by itself. -/
theorem wordWrap_append_of_endsLine {before : List Char} (hbefore : EndsLine before)
    (tail : List Char) :
    wordWrap width (before ++ tail) = wordWrap width before ++ wordWrap width tail := by
  induction before using lines_induction with
  | last first hfirst =>
    rw [eq_nil_of_endsLine hfirst hbefore, wordWrap_of_pos hwidth []]
    rfl
  | ended first rest hfirst ih =>
    rw [List.append_assoc, List.cons_append, wordWrap_append hwidth hfirst,
      wordWrap_append hwidth hfirst, ih (endsLine_append_iff.1 hbefore), List.append_assoc]

/-- So is a line, together with its line break. -/
theorem LineAt.wordWrap_eq {cs before line ending after : List Char}
    (h : LineAt cs before line ending after) :
    wordWrap width cs =
      wordWrap width before ++ (wrapLine width (line ++ ending) ++ wordWrap width after) := by
  rw [h.text_eq, wordWrap_append_of_endsLine hwidth h.endsLine]
  rcases h.ending_cases with rfl | ⟨rfl, rfl⟩
  · rw [List.singleton_append, wordWrap_append hwidth h.not_mem]
  · rw [List.append_nil, List.append_nil, wordWrap_last hwidth h.not_mem, wordWrap_of_pos hwidth []]
    exact congrArg _ (List.append_nil _).symm

/-- A line is kept exactly if wrapping it by itself keeps it. -/
theorem LineAt.kept_iff {cs before line ending after : List Char}
    (h : LineAt cs before line ending after) :
    wordWrap width cs = wordWrap width before ++ (line ++ (ending ++ wordWrap width after)) ↔
      wrapLine width (line ++ ending) = line ++ ending := by
  rw [h.wordWrap_eq hwidth, List.append_cancel_left_eq, ← List.append_assoc line,
    List.append_cancel_right_eq]

/-! ## All lines -/

/-- Wrapping changes nothing exactly if it changes no line. -/
theorem wordWrap_eq_self_iff {cs : List Char} :
    wordWrap width cs = cs ↔
      ∀ before line ending after, LineAt cs before line ending after →
        wrapLine width (line ++ ending) = line ++ ending := by
  constructor
  · intro hsame before line ending after h
    have hparts := h.wordWrap_eq hwidth
    rw [hsame, h.text_eq, ← List.append_assoc line] at hparts
    have hbefore : before.length = (wordWrap width before).length :=
      (keptOrBroken_wordWrap hwidth before).length_eq
    have hline : (line ++ ending).length = (wrapLine width (line ++ ending)).length :=
      (keptOrBroken_wrapLine width _).length_eq
    exact (List.append_inj_left (List.append_inj_right hparts hbefore) hline).symm
  · intro hkept
    induction cs using lines_induction with
    | last line hline =>
      have hself := hkept _ _ _ _ (lineAt_last hline)
      rwa [List.append_nil, ← wordWrap_last hwidth hline] at hself
    | ended line rest hline ih =>
      rw [wordWrap_append hwidth hline, hkept _ _ _ _ (lineAt_ended hline rest),
        ih fun _ _ _ _ h => hkept _ _ _ _ (h.later line), List.append_assoc,
        List.singleton_append]

end Positive

/-- For a positive width a line of at most that many characters is kept exactly if it is not tight
(`IsTight`): if it is shorter, or ends the text, or has no space. Wrapping a wrapped text again
changes nothing exactly if no line of it is tight. -/
theorem fitting_lines_kept_unless_tight {width : Nat} (hwidth : 0 < width) (cs : List Char) :
    (∀ before line ending after, LineAt cs before line ending after → line.length ≤ width →
        (wordWrap width cs = wordWrap width before ++ (line ++ (ending ++ wordWrap width after)) ↔
          ¬IsTight width line ending)) ∧
      (wordWrap width (wordWrap width cs) = wordWrap width cs ↔
        ∀ before line ending after, LineAt (wordWrap width cs) before line ending after →
          ¬IsTight width line ending) := by
  constructor
  · intro before line ending after h hfits
    exact (h.kept_iff hwidth).trans (h.wrapLine_eq_iff (.inl hfits))
  · rw [wordWrap_eq_self_iff hwidth]
    -- A line of a wrapped text fits or has no space, whatever the text was.
    have hiff {before line ending after : List Char}
        (h : LineAt (wordWrap width cs) before line ending after) :
        wrapLine width (line ++ ending) = line ++ ending ↔ ¬IsTight width line ending :=
      h.wrapLine_eq_iff (fits_of_mem_lines hwidth h.mem_splitOn)
    exact ⟨fun hkept _ _ _ _ h => (hiff h).1 (hkept _ _ _ _ h),
      fun hloose _ _ _ _ h => (hiff h).2 (hloose _ _ _ _ h)⟩

/-- A line of just the width that ends the text is kept. -/
theorem fitting_lines_kept_unless_tight_last :
    0 < 5 ∧ LineAt "a b\ncd ef".toList "a b\n".toList "cd ef".toList [] [] ∧
      "cd ef".toList.length ≤ 5 ∧ ¬IsTight 5 "cd ef".toList [] ∧
      wordWrap (5 : Nat) "a b\ncd ef".toList =
        wordWrap (5 : Nat) "a b\n".toList ++ ("cd ef".toList ++ ([] ++ wordWrap (5 : Nat) [])) := by
  have hline : LineAt "a b\ncd ef".toList "a b\n".toList "cd ef".toList [] [] :=
    ⟨by decide, .inr (by decide), by decide, .inr ⟨rfl, rfl⟩⟩
  have hloose : ¬IsTight 5 "cd ef".toList [] := fun htight => List.cons_ne_nil _ _ htight.1.symm
  have hfits : "cd ef".toList.length ≤ 5 := by decide
  exact ⟨by decide, hline, hfits, hloose,
    ((fitting_lines_kept_unless_tight (by decide) _).1 _ _ _ _ hline hfits).2 hloose⟩

/-- One in front of a line break is broken, also if wrapping has made it. -/
theorem tight_lines_broken :
    (¬∀ cs before line ending after : List Char, LineAt cs before line ending after →
        line.length ≤ 5 → wordWrap (5 : Nat) cs =
          wordWrap (5 : Nat) before ++ (line ++ (ending ++ wordWrap (5 : Nat) after))) ∧
      ¬∀ cs : List Char, wordWrap (5 : Nat) (wordWrap (5 : Nat) cs) = wordWrap (5 : Nat) cs := by
  constructor
  · intro hkept
    have hline : LineAt "ab cd\nef".toList [] "ab cd".toList ['\n'] "ef".toList :=
      ⟨by decide, .inl rfl, by decide, .inl rfl⟩
    have hwrap : wordWrap (5 : Nat) "ab cd\nef".toList = "ab\ncd\nef".toList := by
      cbv
    have hempty : wordWrap (5 : Nat) [] = [] := by
      cbv
    have hrest : wordWrap (5 : Nat) "ef".toList = "ef".toList := by
      cbv
    have hsame := hkept _ _ _ _ _ hline (by decide)
    rw [hwrap, hempty, hrest] at hsame
    exact absurd hsame (by decide)
  · intro hsame
    have honce : wordWrap (5 : Nat) "ab cd efg".toList = "ab cd\nefg".toList := by
      cbv
    have htwice : wordWrap (5 : Nat) "ab cd\nefg".toList = "ab\ncd\nefg".toList := by
      cbv
    have hagain := hsame "ab cd efg".toList
    rw [honce, htwice] at hagain
    exact absurd hagain (by decide)

end Stencil.Text
