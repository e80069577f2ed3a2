import Stencil.Proofs.Pieces

/-!
# Trimming line breaks is a pass over the pieces

A tag that takes the line break behind it moves the place where cutting goes on. All the same the
pieces of a trimmed template are those of the template, of which each tag has then taken
(`takeLineBreaks`) the line break at the front of the text behind it: the pieces after the line
break are found where they were found before, and so are the faults.
-/

namespace Stencil.Template

/-! ## The pass -/

/-- A piece of plain text before other pieces, unless it is empty. -/
def consText (offset : Nat) (text : List Char) (ps : List Piece) : List Piece :=
  if text = [] then ps else ⟨offset, text, .text⟩ :: ps

/-- The pieces after every tag has taken the single line break at the front of the plain text right
behind it: a newline, or a carriage return with its newline. Plain text of which nothing is left is
dropped. -/
def takeLineBreaks : List Piece → List Piece
  | [] => []
  | [p] => [p]
  | p :: q :: ps =>
    match p.kind, q.kind, q.source with
    | .tag .., .text, '\n' :: text =>
      { p with source := p.source ++ ['\n'] } :: consText (q.start + 1) text (takeLineBreaks ps)
    | .tag .., .text, '\r' :: '\n' :: text =>
      { p with source := p.source ++ ['\r', '\n'] } ::
        consText (q.start + 2) text (takeLineBreaks ps)
    | _, _, _ => p :: takeLineBreaks (q :: ps)

/-- Whether a piece is a tag. -/
def PieceKind.IsTag (kind : PieceKind) : Prop := ∃ name arguments, kind = .tag name arguments

/-- What is no tag takes nothing. -/
theorem takeLineBreaks_cons {p : Piece} (hp : ¬p.kind.IsTag) (ps : List Piece) :
    takeLineBreaks (p :: ps) = p :: takeLineBreaks ps := by
  cases ps with
  | nil => rfl
  | cons q ps =>
    rw [takeLineBreaks]
    split
    · rename_i name arguments _ hkind _ _
      exact absurd ⟨name, arguments, hkind⟩ hp
    · rename_i name arguments _ hkind _ _
      exact absurd ⟨name, arguments, hkind⟩ hp
    · rfl

/-- Where no plain text follows, nothing is taken. -/
theorem takeLineBreaks_cons_of_head {p : Piece} {ps : List Piece}
    (hps : ∀ q ∈ ps.head?, q.kind ≠ .text) :
    takeLineBreaks (p :: ps) = p :: takeLineBreaks ps := by
  cases ps with
  | nil => rfl
  | cons q ps =>
    rw [takeLineBreaks]
    split
    · rename_i hkind _
      exact absurd hkind (hps q rfl)
    · rename_i hkind _
      exact absurd hkind (hps q rfl)
    · rfl

/-- A text begins with a line break of one or two characters or with none. -/
theorem splitLineBreak_cases (cs : List Char) :
    (∃ ds, cs = '\n' :: ds) ∨ (∃ ds, cs = '\r' :: '\n' :: ds) ∨ splitLineBreak cs = ([], cs) := by
  unfold splitLineBreak
  split
  · exact .inl ⟨_, rfl⟩
  · exact .inr (.inl ⟨_, rfl⟩)
  · exact .inr (.inr rfl)

/-- A tag takes the line break from the plain text behind it, which may be empty. -/
theorem takeLineBreaks_tag {p : Piece} (hp : p.kind.IsTag) {ps : List Piece}
    (hps : ∀ q ∈ ps.head?, q.kind ≠ .text) (offset : Nat) (text : List Char) :
    takeLineBreaks (p :: consText offset text ps) =
      { p with source := p.source ++ (splitLineBreak text).1 } ::
        consText (offset + Text.utf8Length (splitLineBreak text).1) (splitLineBreak text).2
          (takeLineBreaks ps) := by
  obtain ⟨name, arguments, hkind⟩ := hp
  rcases splitLineBreak_cases text with ⟨behind, rfl⟩ | ⟨behind, rfl⟩ | hnone
  · rw [consText, if_neg (List.cons_ne_nil _ _), takeLineBreaks]
    simp only [hkind]
    rfl
  · rw [consText, if_neg (List.cons_ne_nil _ _), takeLineBreaks]
    simp only [hkind]
    rfl
  · rw [hnone, List.append_nil]
    by_cases htext : text = []
    · subst htext
      exact takeLineBreaks_cons_of_head hps
    · -- The text begins with no line break, so neither it nor the tag is changed.
      rw [consText, if_neg htext, takeLineBreaks]
      split
      · rename_i hbreak
        obtain rfl : text = '\n' :: _ := hbreak
        simp [splitLineBreak] at hnone
      · rename_i hbreak
        obtain rfl : text = '\r' :: '\n' :: _ := hbreak
        simp [splitLineBreak] at hnone
      · rw [takeLineBreaks_cons (fun ⟨_, _, h⟩ => by cases h)]
        show _ = p :: consText offset text (takeLineBreaks ps)
        rw [consText, if_neg htext]

/-! ## One piece -/

/-- The cut after a tag has taken the line break behind it. -/
def takeLineBreak : Cut → Cut
  | (.tag name arguments, source, rest) =>
    (.tag name arguments, source ++ (splitLineBreak rest).1, (splitLineBreak rest).2)
  | cut => cut

/-- What is no tag takes nothing. -/
theorem takeLineBreak_of_kind {kind : PieceKind} (hkind : ¬kind.IsTag) (source rest : List Char) :
    takeLineBreak (kind, source, rest) = (kind, source, rest) := by
  cases kind with
  | tag name arguments => exact absurd ⟨name, arguments, rfl⟩ hkind
  | text | emit _ | comment _ => rfl

theorem cutTag_trim (cs : List Char) : cutTag true cs = (cutTag false cs).map takeLineBreak := by
  unfold cutTag
  cases hc : cutTagContent (String.ofList ((Text.trimStart cs).takeWhile isNameChar)) cs with
  | error fault =>
    simp only [hc, bind, Except.bind]
    rfl
  | ok cut =>
    simp only [hc, bind, Except.bind]
    split
    · rfl
    · simp only [Except.map, takeLineBreak, if_true, if_false, Bool.false_eq_true, List.append_nil]

/-- With trimming a piece is cut off as without, but that a tag takes the line break behind it. -/
theorem cutPiece_trim (cs : List Char) :
    cutPiece true cs = (cutPiece false cs).map takeLineBreak := by
  by_cases ho : atOpener cs = true
  · rcases opener_cases ho with ⟨inner, rfl⟩ | ⟨inner, rfl⟩ | ⟨inner, rfl⟩
    · rw [cutPiece_emit, cutPiece_emit]
      cases h : cutEmit inner with
      | error fault => rfl
      | ok cut =>
        obtain ⟨kind, source, rest⟩ := cut
        obtain ⟨content, -, -, rfl, -⟩ := cutEmit_eq_ok_iff.1 h
        rfl
    · exact cutTag_trim inner
    · rw [cutPiece_comment, cutPiece_comment]
      cases h : cutComment inner with
      | error fault => rfl
      | ok cut =>
        obtain ⟨kind, source, rest⟩ := cut
        obtain ⟨content, -, rfl, -⟩ := cutComment_eq_ok_iff.1 h
        rfl
  · rw [cutPiece_text true ho, cutPiece_text false ho]
    rfl

/-! ## All pieces -/

theorem spanText_of_opener {cs : List Char} (h : atOpener cs = true) : spanText cs = ([], cs) := by
  cases cs with
  | nil => rfl
  | cons c cs => rw [spanText, if_pos h]

/-- The pieces of any text are its plain text up to the first opening delimiter and the pieces
behind. -/
theorem piecesFrom_eq_consText (trim : Bool) (offset : Nat) (cs : List Char) :
    piecesFrom trim offset cs =
      (piecesFrom trim (offset + Text.utf8Length (spanText cs).1) (spanText cs).2).map
        (consText offset (spanText cs).1) := by
  have hnone : ∀ r : Except Error (List Piece), r.map (consText offset []) = r := fun r => by
    cases r <;> rfl
  by_cases ho : atOpener cs = true
  · rw [spanText_of_opener ho, hnone]
    rfl
  · cases cs with
    | nil => rw [spanText, hnone]; rfl
    | cons c cs =>
      have hcut := cutPiece_text trim ho
      have hne : (spanText (c :: cs)).1 ≠ [] := cutPiece_source_ne_nil hcut
      rw [piecesFrom_of_cut (by simp) hcut]
      congr 1
      funext ps
      rw [consText, if_neg hne]

theorem spanText_cons {c : Char} {cs : List Char} (h : ¬atOpener (c :: cs) = true) :
    spanText (c :: cs) = (c :: (spanText cs).1, (spanText cs).2) := by
  rw [spanText, if_neg h]

/-- The line break at the front of a text is that of the plain text at its front. -/
theorem splitLineBreak_spanText (cs : List Char) :
    (splitLineBreak (spanText cs).1).1 = (splitLineBreak cs).1 ∧
      spanText (splitLineBreak cs).2 = ((splitLineBreak (spanText cs).1).2, (spanText cs).2) := by
  rcases splitLineBreak_cases cs with ⟨ds, rfl⟩ | ⟨ds, rfl⟩ | h
  · rw [spanText_cons (by simp [atOpener])]
    exact ⟨rfl, rfl⟩
  · rw [spanText_cons (by simp [atOpener]), spanText_cons (by simp [atOpener])]
    exact ⟨rfl, rfl⟩
  · -- Plain text at the front begins with a line break only if the text does.
    have hprefix : (spanText cs).1 <+: (lineBreakAfter true cs).2 := by
      rw [lineBreakAfter, if_pos rfl, h]
      exact ⟨_, spanText_append cs⟩
    have hspan := lineBreakAfter_shorten hprefix
    simp only [lineBreakAfter, if_true, h, List.nil_append] at hspan
    rw [h, hspan]
    exact ⟨rfl, rfl⟩

/-- At an opening delimiter no plain text begins. -/
theorem kind_head_ne_text {trim : Bool} {offset : Nat} {cs : List Char} {ps : List Piece}
    (ho : cs = [] ∨ atOpener cs = true) (h : piecesFrom trim offset cs = .ok ps) :
    ∀ q ∈ ps.head?, q.kind ≠ .text := by
  intro q hq
  obtain ⟨qs, rfl⟩ := List.head?_eq_some_iff.1 hq
  cases cuts_of_piecesFrom h with
  | cons hne hcut _ => exact kind_ne_text_of_atOpener (ho.resolve_left hne) hcut

/-- Behind a tag plain text is split, and cutting goes on at the opening delimiter where it did. -/
theorem piecesFrom_trim_tag {offset : Nat} {cs source rest arguments : List Char} {name : String}
    (hne : cs ≠ []) (hcut : cutPiece false cs = .ok (.tag name arguments, source, rest))
    (ih : ∀ offset, piecesFrom true offset (spanText rest).2 =
      (piecesFrom false offset (spanText rest).2).map takeLineBreaks) :
    piecesFrom true offset cs = (piecesFrom false offset cs).map takeLineBreaks := by
  obtain ⟨hbreak, hspan⟩ := splitLineBreak_spanText rest
  have htrim := cutPiece_trim cs
  rw [hcut, Except.map, takeLineBreak, ← hbreak] at htrim
  have hoffset : offset +
        Text.utf8Length (source ++ (splitLineBreak (spanText rest).1).1) +
        Text.utf8Length (splitLineBreak (spanText rest).1).2 =
      offset + Text.utf8Length source + Text.utf8Length (spanText rest).1 := by
    conv_rhs => rw [← splitLineBreak_append (spanText rest).1]
    rw [utf8Length_append, utf8Length_append]
    omega
  rw [piecesFrom_of_cut hne hcut, piecesFrom_of_cut hne htrim,
    piecesFrom_eq_consText false _ rest, piecesFrom_eq_consText true, hspan, hoffset]
  dsimp only
  rw [ih]
  cases hbehind : piecesFrom false
      (offset + Text.utf8Length source + Text.utf8Length (spanText rest).1)
      (spanText rest).2 with
  | error reason => rfl
  | ok ps =>
    have hhead := kind_head_ne_text (spanText_rest rest) hbehind
    simp only [Except.map, takeLineBreaks_tag (p := ⟨offset, source, .tag name arguments⟩)
      ⟨name, arguments, rfl⟩ hhead, utf8Length_append, Nat.add_assoc]

/-- Behind any other piece cutting goes on where it did anyway. -/
theorem piecesFrom_trim_of_kind {offset : Nat} {cs source rest : List Char} {kind : PieceKind}
    (hne : cs ≠ []) (hcut : cutPiece false cs = .ok (kind, source, rest)) (hkind : ¬kind.IsTag)
    (ih : ∀ offset, piecesFrom true offset rest =
      (piecesFrom false offset rest).map takeLineBreaks) :
    piecesFrom true offset cs = (piecesFrom false offset cs).map takeLineBreaks := by
  have htrim := cutPiece_trim cs
  rw [hcut, Except.map, takeLineBreak_of_kind hkind] at htrim
  rw [piecesFrom_of_cut hne hcut, piecesFrom_of_cut hne htrim, ih]
  cases piecesFrom false (offset + Text.utf8Length source) rest with
  | error reason => rfl
  | ok ps => simp only [Except.map, takeLineBreaks_cons (p := ⟨offset, source, kind⟩) hkind]

/-- Trimming is the pass over the pieces, wherever the text stands. -/
theorem piecesFrom_trim (offset : Nat) (cs : List Char) :
    piecesFrom true offset cs = (piecesFrom false offset cs).map takeLineBreaks := by
  induction hn : cs.length using Nat.strong_induction_on generalizing offset cs with
  | _ n ih =>
  subst hn
  cases cs with
  | nil =>
    rw [piecesFrom, piecesFrom]
    rfl
  | cons c cs =>
    have hne : c :: cs ≠ [] := by simp
    cases hcut : cutPiece false (c :: cs) with
    | error fault =>
      have htrim := cutPiece_trim (c :: cs)
      rw [hcut] at htrim
      rw [piecesFrom_of_fault hne hcut, piecesFrom_of_fault hne htrim]
      rfl
    | ok cut =>
      obtain ⟨kind, source, rest⟩ := cut
      have hlt : rest.length < (c :: cs).length := cutPiece_rest_length_lt hcut
      by_cases hkind : kind.IsTag
      · obtain ⟨name, arguments, rfl⟩ := hkind
        have hle : (spanText rest).2.length ≤ rest.length :=
          List.IsSuffix.length_le ⟨_, spanText_append rest⟩
        exact piecesFrom_trim_tag hne hcut fun offset => ih _ (by omega) offset _ rfl
      · exact piecesFrom_trim_of_kind hne hcut hkind fun offset => ih _ hlt offset _ rfl

/-- Cutting a template with trimming fails as it does without, and otherwise gives the pieces found
without it after every tag has taken the line break behind it (`takeLineBreaks`). -/
theorem pieces_trim (template : String) :
    pieces true template = (pieces false template).map takeLineBreaks :=
  piecesFrom_trim 0 template.toList

example : (pieces false "\x7b% x %\x7d\r\n\nb").map takeLineBreaks =
    .ok [⟨0, "\x7b% x %\x7d\r\n".toList, .tag "x" []⟩, ⟨9, "\nb".toList, .text⟩] := by cbv

end Stencil.Template
