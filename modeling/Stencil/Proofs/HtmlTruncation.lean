import Stencil.Proofs.OpenElements

/-!
# Truncated HTML

Truncation (`truncateHtml`) goes through the pieces of a text with a budget for what stands between
the tags. If the budget does not last, it ends inside a piece of text. What has been copied by then
is a text of its own, whose pieces are the ones before and the front of that piece: its size is the
budget, and the elements that are closed behind it are those that its own tags leave open.
-/

namespace Stencil.Text

open scoped List

/-! ## Sizes -/

/-- The number of words, a first one not counted that is being read already. -/
def countWords : (inWord : Bool) → List Char → Nat
  | _, [] => 0
  | inWord, c :: cs =>
    if isBlank c then countWords false cs
    else if inWord then countWords true cs
    else countWords true cs + 1

theorem exists_splitWhere (cs : List Char) :
    ∃ part parts, splitWhere isBlank cs = part :: parts ∧
      countWords true cs = (parts.filter (!·.isEmpty)).length ∧
      countWords false cs = ((part :: parts).filter (!·.isEmpty)).length := by
  induction cs with
  | nil => exact ⟨[], [], rfl, rfl, rfl⟩
  | cons c cs ih =>
    obtain ⟨part, parts, hsplit, hinside, houtside⟩ := ih
    by_cases hc : isBlank c = true
    · refine ⟨[], part :: parts, ?_, ?_, ?_⟩
      · rw [splitWhere, if_pos hc, hsplit]
      · rw [countWords, if_pos hc, houtside]
      · rw [countWords, if_pos hc, houtside]
        rfl
    · refine ⟨c :: part, parts, ?_, ?_, ?_⟩
      · rw [splitWhere, if_neg hc, hsplit]
      · rw [countWords, if_neg hc, if_pos rfl, hinside]
      · rw [countWords, if_neg hc, if_neg (by decide), hinside]
        rfl

theorem length_words (cs : List Char) : (words cs).length = countWords false cs := by
  obtain ⟨part, parts, hsplit, -, houtside⟩ := exists_splitWhere cs
  rw [words, hsplit, houtside]

theorem takeWords_prefix (n : Nat) (inWord : Bool) (cs : List Char) :
    takeWords n inWord cs <+: cs := by
  fun_induction takeWords n inWord cs with
  | case1 => exact List.nil_prefix
  | case2 => exact List.nil_prefix
  | case3 n inWord c cs hc hn ih => exact (List.prefix_cons_inj c).2 ih
  | case4 n c cs hc ih => exact (List.prefix_cons_inj c).2 ih
  | case5 => exact List.nil_prefix
  | case6 inWord c cs hc hin n ih => exact (List.prefix_cons_inj c).2 ih

theorem countWords_takeWords (n : Nat) (inWord : Bool) (cs : List Char) :
    countWords inWord (takeWords n inWord cs) = min n (countWords inWord cs) := by
  fun_induction takeWords n inWord cs with
  | case1 => simp [countWords]
  | case2 => simp [countWords]
  | case3 n inWord c cs hc hn ih => simp [countWords, hc, ih]
  | case4 n c cs hc ih => simp [countWords, hc, ih]
  | case5 => simp [countWords]
  | case6 inWord c cs hc hin n ih => simp [countWords, hc, hin, ih]

namespace Measure

theorem take_prefix (m : Measure) (n : Nat) (cs : List Char) : m.take n cs <+: cs := by
  unfold take
  split
  · exact List.take_prefix _ _
  · exact List.nil_prefix
  · exact takeWords_prefix _ _ _

/-- The front of a text has the size that was asked for, or that of the text if this is less. -/
theorem size_take (m : Measure) (n : Nat) (cs : List Char) :
    m.size (m.take n cs) = min n (m.size cs) := by
  unfold take
  split
  · exact List.length_take
  · exact (Nat.zero_min _).symm
  · simp only [size, length_words]
    exact countWords_takeWords _ _ _

/-- How much may stand before the sign of a cut. -/
def budget : Measure → (limit : Nat) → Nat
  | .chars, limit => limit - 1
  | .words, limit => limit

end Measure

theorem textSize_append (m : Measure) (ps qs : List HtmlPiece) :
    textSize m (ps ++ qs) = textSize m ps + textSize m qs := by
  induction ps with
  | nil => exact (Nat.zero_add _).symm
  | cons p ps ih =>
    cases p with
    | tag source => exact ih
    | text source => rw [List.cons_append, textSize, textSize, ih, Nat.add_assoc]

theorem textSize_textPieces (m : Measure) (part : List Char) :
    textSize m (textPieces part) = m.size part := by
  unfold textPieces
  split
  · rename_i hempty
    subst hempty
    cases m <;> rfl
  · rfl

/-! ## The cut -/

/-- If the budget does not last, the cut is made inside the first piece of text that exceeds it. -/
theorem cutPieces_of_lt {m : Measure} {budget : Nat} {ps : List HtmlPiece}
    (h : budget < textSize m ps) (opened : List (List Char)) :
    ∃ whole source behind, ps = whole ++ .text source :: behind ∧
      textSize m whole ≤ budget ∧ budget < textSize m whole + m.size source ∧
      cutPieces m budget opened ps =
        sourceOfPieces whole ++ m.take (budget - textSize m whole) source ++ m.ellipsis ++
          closers (openAfter opened whole) := by
  induction ps generalizing budget opened with
  | nil => exact absurd h (Nat.not_lt_zero budget)
  | cons p ps ih =>
    cases p with
    | tag tagSource =>
      obtain ⟨whole, source, behind, rfl, hfits, hexceeds, hcut⟩ :=
        ih h (trackTag opened tagSource)
      refine ⟨.tag tagSource :: whole, source, behind, rfl, hfits, hexceeds, ?_⟩
      rw [cutPieces, hcut]
      simp [HtmlPiece.source, textSize]
    | text first =>
      rw [textSize] at h
      by_cases hfirst : m.size first ≤ budget
      · have hless : budget - m.size first < textSize m ps := by omega
        obtain ⟨whole, source, behind, rfl, hfits, hexceeds, hcut⟩ := ih hless opened
        refine ⟨.text first :: whole, source, behind, rfl, ?_, ?_, ?_⟩
        · rw [textSize]
          omega
        · rw [textSize]
          omega
        · rw [cutPieces, if_pos hfirst, hcut]
          simp [HtmlPiece.source, textSize, Nat.sub_sub]
      · refine ⟨[], first, ps, rfl, Nat.zero_le _, ?_, ?_⟩
        · rw [textSize]
          omega
        · rw [cutPieces, if_neg hfirst]
          rfl

/-- What has been copied is a text of its own, as large as the budget. It has left open what is
closed behind it. -/
theorem exists_front_of_cutPieces {m : Measure} {budget : Nat} {cs : List Char}
    (h : budget < textSize m (htmlPieces cs)) :
    ∃ front, front <+: cs ∧ textSize m (htmlPieces front) = budget ∧
      cutPieces m budget [] (htmlPieces cs) =
        front ++ m.ellipsis ++ closers (openAfter [] (htmlPieces front)) := by
  obtain ⟨whole, source, behind, hpieces, hfits, hexceeds, hcut⟩ := cutPieces_of_lt h []
  have hconsists := consistsOf_htmlPieces cs
  rw [hpieces] at hconsists
  generalize hpart : m.take (budget - textSize m whole) source = part at hcut
  have hcopied : part <+: source := hpart ▸ m.take_prefix _ _
  have hsize : m.size part = budget - textSize m whole := by
    rw [← hpart, m.size_take]
    omega
  have hfront := (hconsists.take hcopied).htmlPieces_eq
  refine ⟨sourceOfPieces whole ++ part, ?_, ?_, ?_⟩
  · rw [← hconsists.source_eq, sourceOfPieces_append, sourceOfPieces_cons]
    exact (List.prefix_append_right_inj _).2 (hcopied.trans (List.prefix_append _ _))
  · rw [hfront, textSize_append, textSize_textPieces, hsize]
    omega
  · rw [hcut, hfront, openAfter_append, openAfter_textPieces]

/-! ## Differences -/

/-- The difference of two sizes, if it does not go below zero. -/
def difference? (a b : Nat) : Option Nat := if b ≤ a then some (a - b) else none

theorem difference?_of_le {a b : Nat} (h : b ≤ a) : difference? a b = some (a - b) := if_pos h

/-- The front of a text of a given size; the last of its words is found by its index. -/
def Measure.takeChecked? : Measure → Nat → List Char → Option (List Char)
  | .chars, n, cs => some (cs.take n)
  | .words, n, cs =>
    if 0 < n then (difference? n 1).map fun last => takeWords (last + 1) false cs else some []

/-- The cut as a loop that counts what has been used of the budget. It has no result if a difference
goes below zero. -/
def cutChecked? (m : Measure) (budget : Nat) :
    (used : Nat) → (opened : List (List Char)) → List HtmlPiece → Option (List Char)
  | _, _, [] => some []
  | used, opened, .tag source :: rest =>
    (cutChecked? m budget used (trackTag opened source) rest).map (source ++ ·)
  | used, opened, .text source :: rest =>
    if used + m.size source ≤ budget then
      (cutChecked? m budget (used + m.size source) opened rest).map (source ++ ·)
    else do
      let remaining ← difference? budget used
      let front ← m.takeChecked? remaining source
      some (front ++ m.ellipsis ++ closers opened)

/-- Truncation to a size that is not zero, with every difference checked. -/
def truncateChecked? (m : Measure) (limit : Nat) (cs : List Char) : Option (List Char) :=
  if textSize m (htmlPieces cs) ≤ limit then some cs
  else do
    let budget ← match m with
      | .chars => difference? limit 1
      | .words => some limit
    cutChecked? m budget 0 [] (htmlPieces cs)

theorem Measure.takeChecked?_eq (m : Measure) (n : Nat) (cs : List Char) :
    m.takeChecked? n cs = some (m.take n cs) := by
  cases m with
  | chars => rfl
  | words =>
    cases n with
    | zero => rfl
    | succ n =>
      rw [takeChecked?, if_pos (Nat.succ_pos n), difference?_of_le (by omega)]
      rfl

/-- No more than the budget is ever used, so no difference goes below zero. -/
theorem cutChecked?_eq {m : Measure} {budget used : Nat} (hused : used ≤ budget)
    (opened : List (List Char)) (ps : List HtmlPiece) :
    cutChecked? m budget used opened ps = some (cutPieces m (budget - used) opened ps) := by
  induction ps generalizing used opened with
  | nil => rfl
  | cons p ps ih =>
    cases p with
    | tag source => rw [cutChecked?, ih hused, Option.map_some, cutPieces]
    | text source =>
      rw [cutChecked?, cutPieces]
      by_cases hsize : used + m.size source ≤ budget
      · rw [if_pos hsize, if_pos (by omega), ih hsize, Option.map_some, Nat.sub_add_eq]
      · rw [if_neg hsize, if_neg (by omega), difference?_of_le hused]
        simp [m.takeChecked?_eq]

/-! ## Truncation -/

theorem truncateHtml_of_pos (m : Measure) {limit : Nat} (hlimit : 0 < limit) (cs : List Char) :
    truncateHtml m limit cs =
      if textSize m (htmlPieces cs) ≤ limit then cs
      else cutPieces m (m.budget limit) [] (htmlPieces cs) := by
  have hpositive : ¬(limit : Int) ≤ 0 := by omega
  unfold truncateHtml
  rw [if_neg hpositive]
  cases m <;> rfl

theorem truncateChecked?_eq (m : Measure) {limit : Nat} (hlimit : 0 < limit) (cs : List Char) :
    truncateChecked? m limit cs = some (truncateHtml m limit cs) := by
  rw [truncateChecked?, truncateHtml_of_pos m hlimit]
  split_ifs
  · rfl
  · cases m with
    | chars => simp [difference?_of_le hlimit, cutChecked?_eq (Nat.zero_le _), Measure.budget]
    | words => simp [cutChecked?_eq (Nat.zero_le _), Measure.budget]

/-- For a positive limit a text is kept if the text between its tags is no larger. Of any other text
a front is kept between whose tags there are as many words as the limit says, or one character less
to make room for the sign of the cut. Behind this sign stands a closing tag for each element that
the tags of the front leave open (`openAfter`), and together with these tags they leave none open.
No difference that is formed on the way goes below zero. -/
theorem truncateHtml_cuts_and_closes (m : Measure) {limit : Nat} (hlimit : 0 < limit)
    (cs : List Char) :
    ConsistsOf cs (htmlPieces cs) ∧
      truncateChecked? m limit cs = some (truncateHtml m limit cs) ∧
      (textSize m (htmlPieces cs) ≤ limit → truncateHtml m limit cs = cs) ∧
      (limit < textSize m (htmlPieces cs) →
        ∃ front closing, front <+: cs ∧ textSize m (htmlPieces front) = m.budget limit ∧
          truncateHtml m limit cs = front ++ m.ellipsis ++ closing ∧
          closing = (openAfter [] (htmlPieces front)).flatMap
            (fun name => "</".toList ++ name ++ ">".toList) ∧
          openAfter [] (htmlPieces front ++ htmlPieces closing) = []) := by
  refine ⟨consistsOf_htmlPieces cs, truncateChecked?_eq m hlimit cs, ?_, ?_⟩
  · intro hfits
    rw [truncateHtml_of_pos m hlimit, if_pos hfits]
  · intro hexceeds
    have hbudget : m.budget limit < textSize m (htmlPieces cs) := by
      cases m with
      | chars => exact Nat.lt_of_le_of_lt (Nat.sub_le limit 1) hexceeds
      | words => exact hexceeds
    obtain ⟨front, hfront, hsize, hcut⟩ := exists_front_of_cutPieces hbudget
    refine ⟨front, closers (openAfter [] (htmlPieces front)), hfront, hsize, ?_, rfl, ?_⟩
    · rw [truncateHtml_of_pos m hlimit, if_neg (Nat.not_le.2 hexceeds), hcut]
    · have hnames : ∀ name ∈ openAfter [] (htmlPieces front), IsElementName name :=
        isElementName_of_mem_openAfter (List.forall_mem_nil _)
      rw [openAfter_append, openAfter_closers hnames]

/-- A text with a stray closing tag, a void element, two open elements and a `<` that is no tag. -/
theorem truncateHtml_cuts_and_closes_stray :
    0 < 4 ∧ 4 < textSize .words (htmlPieces "</p><P>a<br>b <i>c d < e".toList) ∧
      truncateHtml .words (4 : Nat) "</p><P>a<br>b <i>c d < e".toList =
        "</p><P>a<br>b <i>c d  …</i></p>".toList ∧
      ∃ front closing, front <+: "</p><P>a<br>b <i>c d < e".toList ∧
        textSize .words (htmlPieces front) = Measure.words.budget 4 ∧
        "</p><P>a<br>b <i>c d  …</i></p>".toList = front ++ Measure.words.ellipsis ++ closing ∧
        closing = (openAfter [] (htmlPieces front)).flatMap
          (fun name => "</".toList ++ name ++ ">".toList) ∧
        openAfter [] (htmlPieces front ++ htmlPieces closing) = [] := by
  have hsize : textSize .words (htmlPieces "</p><P>a<br>b <i>c d < e".toList) = 6 := by
    cbv
  have hexceeds : 4 < textSize .words (htmlPieces "</p><P>a<br>b <i>c d < e".toList) := by
    rw [hsize]
    decide
  have hcut : truncateHtml .words (4 : Nat) "</p><P>a<br>b <i>c d < e".toList =
      "</p><P>a<br>b <i>c d  …</i></p>".toList := by
    cbv
  refine ⟨by decide, hexceeds, hcut, ?_⟩
  rw [← hcut]
  exact (truncateHtml_cuts_and_closes .words (by decide) _).2.2.2 hexceeds

end Stencil.Text
