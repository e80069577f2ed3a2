import Mathlib
import Stencil.Text.Html.Tag

/-!
# Pieces of HTML text

The pieces of a text are its tags, the runs without `<` between them, and the `<` that no `>`
follows. The reader (`htmlPieces`) finds these pieces and no others. A text that is cut off in the
middle of a run keeps the pieces before the run, since each of them ends where it ended whatever
stands behind, and the front of the run is its last piece.
-/

namespace Stencil.Text

open scoped List

/-! ## Up to a character -/

theorem takeWhile_ne_append {c : Char} {before : List Char} (h : c ∉ before) (rest : List Char) :
    (before ++ c :: rest).takeWhile (· != c) = before := by
  have hall : ∀ d ∈ before, (d != c) = true := fun d hd => bne_iff_ne.2 (ne_of_mem_of_not_mem hd h)
  rw [List.takeWhile_append_of_pos hall, List.takeWhile_cons_of_neg (by simp), List.append_nil]

theorem dropWhile_ne_append {c : Char} {before : List Char} (h : c ∉ before) (rest : List Char) :
    (before ++ c :: rest).dropWhile (· != c) = c :: rest := by
  have hall : ∀ d ∈ before, (d != c) = true := fun d hd => bne_iff_ne.2 (ne_of_mem_of_not_mem hd h)
  rw [List.dropWhile_append_of_pos hall, List.dropWhile_cons_of_neg (by simp)]

theorem takeWhile_ne_of_not_mem {c : Char} {cs : List Char} (h : c ∉ cs) :
    cs.takeWhile (· != c) = cs := by
  rw [List.takeWhile_eq_self_iff]
  exact fun d hd => bne_iff_ne.2 (ne_of_mem_of_not_mem hd h)

theorem dropWhile_ne_of_not_mem {c : Char} {cs : List Char} (h : c ∉ cs) :
    cs.dropWhile (· != c) = [] := by
  rw [List.dropWhile_eq_nil_iff]
  exact fun d hd => bne_iff_ne.2 (ne_of_mem_of_not_mem hd h)

/-! ## The grammar -/

/-- A text consists of pieces: tags from a `<` to the next `>`, longest runs without `<`, and single
`<` behind which no `>` stands. -/
inductive ConsistsOf : List Char → List HtmlPiece → Prop where
  | nil : ConsistsOf [] []
  | tag {inside cs : List Char} {ps : List HtmlPiece} (hinside : '>' ∉ inside)
    (hrest : ConsistsOf cs ps) :
    ConsistsOf ('<' :: (inside ++ '>' :: cs)) (.tag ('<' :: (inside ++ ['>'])) :: ps)
  | single {cs : List Char} {ps : List HtmlPiece} (hopen : '>' ∉ cs) (hrest : ConsistsOf cs ps) :
    ConsistsOf ('<' :: cs) (.text ['<'] :: ps)
  | run {part cs : List Char} {ps : List HtmlPiece} (hne : part ≠ []) (hpart : '<' ∉ part)
    (hend : ∀ c ∈ cs.head?, c = '<') (hrest : ConsistsOf cs ps) :
    ConsistsOf (part ++ cs) (.text part :: ps)

/-- The text that pieces make up. -/
def sourceOfPieces (ps : List HtmlPiece) : List Char := ps.flatMap HtmlPiece.source

@[simp] theorem sourceOfPieces_nil : sourceOfPieces [] = [] := rfl

@[simp] theorem sourceOfPieces_cons (p : HtmlPiece) (ps : List HtmlPiece) :
    sourceOfPieces (p :: ps) = p.source ++ sourceOfPieces ps := rfl

@[simp] theorem sourceOfPieces_append (ps qs : List HtmlPiece) :
    sourceOfPieces (ps ++ qs) = sourceOfPieces ps ++ sourceOfPieces qs := by
  simp [sourceOfPieces]

theorem ConsistsOf.source_eq {cs : List Char} {ps : List HtmlPiece} (h : ConsistsOf cs ps) :
    sourceOfPieces ps = cs := by
  induction h with
  | nil => rfl
  | tag _ _ ih => simp [HtmlPiece.source, ih]
  | single _ _ ih => simp [HtmlPiece.source, ih]
  | run _ _ _ _ ih => simp [HtmlPiece.source, ih]

/-! ## The reader -/

theorem htmlPieces_nil : htmlPieces [] = [] := by
  rw [htmlPieces]

theorem htmlPieces_tag {inside : List Char} (hinside : '>' ∉ inside) (cs : List Char) :
    htmlPieces ('<' :: (inside ++ '>' :: cs)) =
      .tag ('<' :: (inside ++ ['>'])) :: htmlPieces cs := by
  rw [htmlPieces, if_pos rfl]
  split
  · rename_i hnone
    rw [dropWhile_ne_append hinside] at hnone
    cases hnone
  · rename_i close after hsome
    rw [dropWhile_ne_append hinside] at hsome
    obtain ⟨rfl, rfl⟩ := List.cons_eq_cons.1 hsome
    rw [takeWhile_ne_append hinside, List.cons_append]

theorem htmlPieces_single {cs : List Char} (hopen : '>' ∉ cs) :
    htmlPieces ('<' :: cs) = .text ['<'] :: htmlPieces cs := by
  rw [htmlPieces, if_pos rfl]
  split
  · rfl
  · rename_i close after hsome
    rw [dropWhile_ne_of_not_mem hopen] at hsome
    cases hsome

theorem htmlPieces_run {part cs : List Char} (hne : part ≠ []) (hpart : '<' ∉ part)
    (hend : ∀ c ∈ cs.head?, c = '<') :
    htmlPieces (part ++ cs) = .text part :: htmlPieces cs := by
  cases part with
  | nil => exact absurd rfl hne
  | cons c part =>
    rw [List.mem_cons, not_or] at hpart
    have hc : ¬c = '<' := Ne.symm hpart.1
    cases cs with
    | nil =>
      rw [List.append_nil, htmlPieces_nil, htmlPieces, if_neg hc, takeWhile_ne_of_not_mem hpart.2,
        dropWhile_ne_of_not_mem hpart.2, htmlPieces_nil]
    | cons d cs =>
      obtain rfl : d = '<' := hend d rfl
      rw [List.cons_append, htmlPieces, if_neg hc, takeWhile_ne_append hpart.2,
        dropWhile_ne_append hpart.2]

theorem ConsistsOf.htmlPieces_eq {cs : List Char} {ps : List HtmlPiece} (h : ConsistsOf cs ps) :
    htmlPieces cs = ps := by
  induction h with
  | nil => exact htmlPieces_nil
  | tag hinside _ ih => rw [htmlPieces_tag hinside, ih]
  | single hopen _ ih => rw [htmlPieces_single hopen, ih]
  | run hne hpart hend _ ih => rw [htmlPieces_run hne hpart hend, ih]

theorem consistsOf_htmlPieces (cs : List Char) : ConsistsOf cs (htmlPieces cs) := by
  match cs with
  | [] =>
    rw [htmlPieces_nil]
    exact .nil
  | c :: cs =>
    by_cases hc : c = '<'
    · subst hc
      by_cases hclosed : '>' ∈ cs
      · obtain ⟨inside, rest, hcs, hinside⟩ := List.eq_append_cons_of_mem hclosed
        have hshorter : rest.length < cs.length := by
          rw [hcs, List.length_append, List.length_cons]
          omega
        rw [hcs, htmlPieces_tag hinside]
        exact .tag hinside (consistsOf_htmlPieces rest)
      · rw [htmlPieces_single hclosed]
        exact .single hclosed (consistsOf_htmlPieces cs)
    · have hrest : cs.takeWhile (· != '<') ++ cs.dropWhile (· != '<') = cs :=
        List.takeWhile_append_dropWhile
      have hshorter := (List.dropWhile_suffix (l := cs) (· != '<')).length_le
      have hpart : '<' ∉ c :: cs.takeWhile (· != '<') := by
        rw [List.mem_cons, not_or]
        exact ⟨Ne.symm hc, fun hmem => by simpa using List.mem_takeWhile_imp hmem⟩
      have hend : ∀ d ∈ (cs.dropWhile (· != '<')).head?, d = '<' := by
        intro d hd
        have hstop := List.head?_dropWhile_not (· != '<') cs
        rw [Option.mem_def.1 hd] at hstop
        simpa using hstop
      have hrun := htmlPieces_run (List.cons_ne_nil _ _) hpart hend
      rw [List.cons_append, hrest] at hrun
      rw [hrun]
      have hwhole := ConsistsOf.run (List.cons_ne_nil _ _) hpart hend
        (consistsOf_htmlPieces (cs.dropWhile (· != '<')))
      rwa [List.cons_append, hrest] at hwhole
  termination_by cs.length
  decreasing_by
    all_goals simp only [List.length_cons]
    all_goals omega

/-- The reader finds the pieces of which a text consists, and these only. -/
theorem consistsOf_iff {cs : List Char} {ps : List HtmlPiece} :
    ConsistsOf cs ps ↔ htmlPieces cs = ps :=
  ⟨ConsistsOf.htmlPieces_eq, fun h => h ▸ consistsOf_htmlPieces cs⟩

theorem sourceOfPieces_htmlPieces (cs : List Char) : sourceOfPieces (htmlPieces cs) = cs :=
  (consistsOf_htmlPieces cs).source_eq

/-! ## Texts that are cut -/

/-- Text as a piece, unless it is empty. -/
def textPieces (part : List Char) : List HtmlPiece := if part = [] then [] else [.text part]

/-- What a text is cut to in the middle of a run has the pieces before the run and the front of the
run. -/
theorem ConsistsOf.take {cs source front : List Char} {whole behind : List HtmlPiece}
    (h : ConsistsOf cs (whole ++ .text source :: behind)) (hfront : front <+: source) :
    ConsistsOf (sourceOfPieces whole ++ front) (whole ++ textPieces front) := by
  induction whole generalizing cs with
  | nil =>
    rw [sourceOfPieces_nil, List.nil_append, List.nil_append, textPieces]
    by_cases hempty : front = []
    · rw [if_pos hempty, hempty]
      exact .nil
    · rw [if_neg hempty]
      cases h with
      | single hopen _ =>
        obtain ⟨tail, rfl, htail⟩ := (List.prefix_cons_iff.1 hfront).resolve_left hempty
        rw [List.prefix_nil.1 htail]
        exact .single List.not_mem_nil .nil
      | run hne hpart hend _ =>
        have hrun : ConsistsOf (front ++ []) [.text front] :=
          .run hempty (fun hmem => hpart (hfront.subset hmem)) (by simp) .nil
        rwa [List.append_nil] at hrun
  | cons p whole ih =>
    -- What is left of the text behind the first piece is a prefix of what was there.
    have hbehind {rest : List Char} (hrest : ConsistsOf rest (whole ++ .text source :: behind)) :
        sourceOfPieces whole ++ front <+: rest := by
      rw [← hrest.source_eq, sourceOfPieces_append, sourceOfPieces_cons]
      exact (List.prefix_append_right_inj _).2 (hfront.trans (List.prefix_append _ _))
    rw [List.cons_append] at h
    rw [sourceOfPieces_cons, List.append_assoc, List.cons_append]
    cases h with
    | tag hinside hrest =>
      have htag := ConsistsOf.tag hinside (ih hrest)
      simpa [HtmlPiece.source] using htag
    | single hopen hrest =>
      exact .single (fun hmem => hopen ((hbehind hrest).subset hmem)) (ih hrest)
    | run hne hpart hend hrest =>
      refine .run hne hpart (fun c hc => hend c ?_) (ih hrest)
      obtain ⟨tail, htail⟩ := hbehind hrest
      rw [← htail, List.head?_append, Option.mem_def.1 hc]
      rfl

end Stencil.Text
