import Stencil.Proofs.Grammar
import Mathlib.Data.List.Infix

/-!
# Cutting pieces is local

Where a piece ends (`cutPiece`) depends on the piece alone, but for two looks at what stands behind
it: text goes on up to an opening delimiter, and a trimmed tag takes a line break. So pieces that
stand next to each other in a template are also the pieces of the text they cover.
-/

namespace Stencil.Template

/-! ## Looking for a closing delimiter -/

/-- The first occurrence of a needle does not depend on what stands behind it. -/
theorem cutAt?_append {needle cs before after : List Char}
    (h : Text.cutAt? needle cs = some (before, after)) (rest : List Char) :
    Text.cutAt? needle (before ++ needle ++ rest) = some (before, rest) := by
  induction cs generalizing before after with
  | nil =>
    rw [Text.cutAt?] at h
    split at h
    · simp_all
      cases rest <;> simp [Text.cutAt?]
    · simp at h
  | cons c cs ih =>
    rw [Text.cutAt?] at h
    split at h
    · rename_i hp
      simp only [Option.some.injEq, Prod.mk.injEq] at h
      obtain ⟨rfl, rfl⟩ := h
      cases needle with
      | nil => cases rest <;> simp [Text.cutAt?]
      | cons d needle => simp [Text.cutAt?]
    · rename_i hp
      obtain ⟨⟨x, y⟩, hx, hxy⟩ := Option.map_eq_some_iff.1 h
      simp only [Prod.mk.injEq] at hxy
      obtain ⟨rfl, rfl⟩ := hxy
      -- An earlier needle would lie before the end of the first one, so it would be in `cs` too.
      have hne : ¬needle <+: c :: (x ++ needle ++ rest) := by
        intro hpre
        apply hp
        rw [List.isPrefixOf_iff_prefix, cutAt?_eq hx]
        rw [← List.cons_append] at hpre ⊢
        rw [List.isPrefix_append_of_length (by simp; omega)] at hpre ⊢
        exact hpre
      rw [List.cons_append, List.cons_append, Text.cutAt?,
        if_neg (by rwa [List.isPrefixOf_iff_prefix]), ih hx]
      rfl

/-- The first closing delimiter outside quotes does not depend on what stands behind it. -/
theorem cutOutsideQuotes_append {a b : Char} {q : Quote} {cs before after : List Char}
    (h : cutOutsideQuotes a b q cs = .ok (before, after)) (rest : List Char) :
    cutOutsideQuotes a b q (before ++ a :: b :: rest) = .ok (before, rest) := by
  induction cs generalizing q before after with
  | nil => simp [cutOutsideQuotes] at h
  | cons c cs ih =>
    rw [cutOutsideQuotes] at h
    split at h
    · rename_i hc
      obtain ⟨rfl, rfl, hb⟩ := hc
      simp only [Except.ok.injEq, Prod.mk.injEq] at h
      obtain ⟨rfl, rfl⟩ := h
      simp [cutOutsideQuotes]
    · rename_i hc
      cases hr : cutOutsideQuotes a b (q.step c) cs with
      | error e => simp [hr, Except.map] at h
      | ok r =>
        obtain ⟨x, y⟩ := r
        simp only [hr, Except.map, Except.ok.injEq, Prod.mk.injEq] at h
        obtain ⟨rfl, rfl⟩ := h
        -- The next character decides whether `c` begins the delimiter, and it is unchanged.
        have hhead : (x ++ a :: b :: rest).head? = cs.head? := by
          rw [cutOutsideQuotes_eq hr]
          cases x <;> rfl
        rw [List.cons_append, cutOutsideQuotes, hhead, if_neg hc, ih hr]
        rfl

/-- The content of a tag does not depend on what stands behind the tag. -/
theorem cutTagContent_append {name : String} {cs content after : List Char}
    (h : cutTagContent name cs = .ok (content, after)) (rest : List Char) :
    cutTagContent name (content ++ ['%', '\x7d'] ++ rest) = .ok (content, rest) := by
  unfold cutTagContent at h ⊢
  split at h
  · rename_i hraw
    rw [if_pos hraw]
    split at h
    · simp at h
    · rename_i cut hc
      simp only [Except.ok.injEq] at h
      subst h
      rw [cutAt?_append hc rest]
  · rename_i hraw
    rw [if_neg hraw]
    split at h
    · simp at h
    · rename_i cut hc
      simp only [Except.ok.injEq] at h
      subst h
      have := cutOutsideQuotes_append hc rest
      simp [this]

/-! ## Tags -/

/-- The name at the front of the content of a tag. -/
def tagName (content : List Char) : List Char := (Text.trimStart content).takeWhile isNameChar

/-- The name of a tag ends before the first percent sign. -/
theorem tagName_append (content rest : List Char) :
    tagName (content ++ '%' :: rest) = tagName content := by
  have hstop (xs : List Char) :
      (xs ++ '%' :: rest).takeWhile isNameChar = xs.takeWhile isNameChar := by
    induction xs with
    | nil => rfl
    | cons x xs ih => by_cases hx : isNameChar x = true <;> simp [hx, ih]
  unfold tagName Text.trimStart
  induction content with
  | nil => rfl
  | cons c content ih =>
    by_cases hc : Text.isBlank c = true
    · simpa [List.dropWhile_cons, hc] using ih
    · simp only [List.cons_append, List.dropWhile_cons, hc]
      exact hstop (c :: content)

/-- The line break that belongs to a tag, and what follows it. -/
def lineBreakAfter (trim : Bool) (after : List Char) : List Char × List Char :=
  if trim then splitLineBreak after else ([], after)

/-- A line break that is not taken is not taken either if less text follows. -/
theorem lineBreakAfter_shorten {trim : Bool} {after rest : List Char}
    (h : rest <+: (lineBreakAfter trim after).2) :
    lineBreakAfter trim ((lineBreakAfter trim after).1 ++ rest) =
      ((lineBreakAfter trim after).1, rest) := by
  unfold lineBreakAfter at h ⊢
  split
  · rename_i htrim
    rw [if_pos htrim] at h
    unfold splitLineBreak at h ⊢
    split at h
    · rfl
    · rfl
    · rename_i hn hrn
      obtain ⟨t, ht⟩ := h
      have hafter : after = rest ++ t := ht.symm
      rw [List.nil_append]
      split
      · exact (hn _ hafter).elim
      · exact (hrn _ hafter).elim
      · rfl
  · rfl

/-- How a tag is cut off: its content, its name, and the line break behind it. -/
theorem cutTag_eq_ok_iff {trim : Bool} {cs source rest : List Char} {kind : PieceKind} :
    cutTag trim cs = .ok (kind, source, rest) ↔
      ∃ content after, cutTagContent (String.ofList (tagName content)) cs = .ok (content, after) ∧
        tagName content ≠ [] ∧
        kind = .tag (String.ofList (tagName content))
          (Text.trim ((Text.trimStart content).drop (tagName content).length)) ∧
        source = ['\x7b', '%'] ++ content ++ ['%', '\x7d'] ++ (lineBreakAfter trim after).1 ∧
        rest = (lineBreakAfter trim after).2 := by
  have hname {content after : List Char} {name : String}
      (hc : cutTagContent name cs = .ok (content, after)) :
      (Text.trimStart cs).takeWhile isNameChar = tagName content := by
    rw [cutTagContent_eq hc, List.append_assoc]
    exact tagName_append content ('\x7d' :: after)
  unfold cutTag
  constructor
  · intro h
    cases hc : cutTagContent (String.ofList ((Text.trimStart cs).takeWhile isNameChar)) cs with
    | error e => simp [hc, bind, Except.bind] at h
    | ok cut =>
      obtain ⟨content, after⟩ := cut
      have hn := hname hc
      rw [hn] at hc
      simp only [hn, hc, bind, Except.bind] at h
      split at h
      · simp at h
      · rename_i hne
        simp only [Except.ok.injEq, Prod.mk.injEq] at h
        obtain ⟨rfl, rfl, rfl⟩ := h
        exact ⟨content, after, hc, by simpa using hne, rfl, rfl, rfl⟩
  · rintro ⟨content, after, hc, hne, rfl, rfl, rfl⟩
    have hempty : (tagName content).isEmpty = false := by simpa using hne
    simp only [hname hc, hc, bind, Except.bind, hempty]
    rfl

/-! ## Pieces -/

/-- Text that begins with an opening delimiter still does so if more follows. -/
theorem atOpener_mono {cs ds : List Char} (hp : cs <+: ds) (h : atOpener cs = true) :
    atOpener ds = true := by
  obtain ⟨t, rfl⟩ := hp
  unfold atOpener at h ⊢
  split at h
  · exact h
  · simp at h

/-- Text up to an opening delimiter, or up to the end, is found again before less text. -/
theorem spanText_shorten {cs rest : List Char} (hp : rest <+: (spanText cs).2)
    (ho : rest = [] ∨ atOpener rest = true) :
    spanText ((spanText cs).1 ++ rest) = ((spanText cs).1, rest) := by
  induction cs with
  | nil =>
    have hrest : rest = [] := List.prefix_nil.1 hp
    subst hrest
    rfl
  | cons c cs ih =>
    rw [spanText] at hp ⊢
    split
    · rename_i hc
      rw [List.nil_append]
      rcases ho with rfl | ho
      · rfl
      · cases rest with
        | nil => rfl
        | cons d rest => rw [spanText, if_pos ho]
    · rename_i hc
      rw [if_neg hc] at hp
      have hne : ¬atOpener (c :: ((spanText cs).1 ++ rest)) = true := by
        intro ha
        refine hc (atOpener_mono ?_ ha)
        obtain ⟨t, ht⟩ := hp
        refine ⟨t, ?_⟩
        conv_rhs => rw [← spanText_append cs]
        rw [List.cons_append, List.append_assoc, ht]
      rw [List.cons_append, spanText, if_neg hne, ih hp]

/-- The three opening delimiters. -/
theorem opener_cases {cs : List Char} (h : atOpener cs = true) :
    (∃ inner, cs = '\x7b' :: '\x7b' :: inner) ∨ (∃ inner, cs = '\x7b' :: '%' :: inner) ∨
      ∃ inner, cs = '\x7b' :: '#' :: inner := by
  unfold atOpener at h
  split at h
  · rename_i c inner
    simp only [Bool.or_eq_true, beq_iff_eq] at h
    rcases h with (rfl | rfl) | rfl
    · exact .inl ⟨inner, rfl⟩
    · exact .inr (.inl ⟨inner, rfl⟩)
    · exact .inr (.inr ⟨inner, rfl⟩)
  · simp at h

theorem cutPiece_text (trim : Bool) {cs : List Char} (h : ¬atOpener cs = true) :
    cutPiece trim cs = .ok (.text, (spanText cs).1, (spanText cs).2) := by
  unfold cutPiece
  rw [if_neg h]

theorem cutPiece_emit (trim : Bool) (inner : List Char) :
    cutPiece trim ('\x7b' :: '\x7b' :: inner) = cutEmit inner := rfl

theorem cutPiece_tag (trim : Bool) (inner : List Char) :
    cutPiece trim ('\x7b' :: '%' :: inner) = cutTag trim inner := rfl

theorem cutPiece_comment (trim : Bool) (inner : List Char) :
    cutPiece trim ('\x7b' :: '#' :: inner) = cutComment inner := rfl

/-- How an emit is cut off. -/
theorem cutEmit_eq_ok_iff {cs source rest : List Char} {kind : PieceKind} :
    cutEmit cs = .ok (kind, source, rest) ↔
      ∃ content, cutOutsideQuotes '\x7d' '\x7d' .outside cs = .ok (content, rest) ∧
        Text.trim content ≠ [] ∧ kind = .emit (tighten (Text.trim content)) ∧
        source = ['\x7b', '\x7b'] ++ content ++ ['\x7d', '\x7d'] := by
  unfold cutEmit
  cases cutOutsideQuotes '\x7d' '\x7d' .outside cs with
  | error q => simp
  | ok cut =>
    obtain ⟨content, after⟩ := cut
    by_cases hc : Text.trim content = []
    · simp [hc]
    · simp only [List.isEmpty_iff, hc]
      constructor
      · intro h
        simp only [if_false, Except.ok.injEq, Prod.mk.injEq] at h
        obtain ⟨rfl, rfl, rfl⟩ := h
        exact ⟨content, rfl, hc, rfl, rfl⟩
      · rintro ⟨x, hx, _, rfl, rfl⟩
        cases hx
        rfl

/-- How a comment is cut off. -/
theorem cutComment_eq_ok_iff {cs source rest : List Char} {kind : PieceKind} :
    cutComment cs = .ok (kind, source, rest) ↔
      ∃ content, Text.cutAt? ['#', '\x7d'] cs = some (content, rest) ∧
        kind = .comment (Text.trim content) ∧
        source = ['\x7b', '#'] ++ content ++ ['#', '\x7d'] := by
  unfold cutComment
  cases Text.cutAt? ['#', '\x7d'] cs with
  | none => simp
  | some cut =>
    obtain ⟨content, after⟩ := cut
    constructor
    · intro h
      simp only [Except.ok.injEq, Prod.mk.injEq] at h
      obtain ⟨rfl, rfl, rfl⟩ := h
      exact ⟨content, rfl, rfl, rfl⟩
    · rintro ⟨x, hx, rfl, rfl⟩
      cases hx
      rfl

/-- An emit is cut off in the same way whatever follows. -/
theorem cutEmit_append {cs source after : List Char} {kind : PieceKind}
    (h : cutEmit cs = .ok (kind, source, after)) (trim : Bool) (rest : List Char) :
    cutPiece trim (source ++ rest) = .ok (kind, source, rest) := by
  obtain ⟨content, hc, hne, rfl, rfl⟩ := cutEmit_eq_ok_iff.1 h
  simp only [List.cons_append, List.nil_append, List.append_assoc]
  rw [cutPiece_emit, cutEmit_eq_ok_iff]
  exact ⟨content, cutOutsideQuotes_append hc rest, hne, rfl, rfl⟩

/-- A comment is cut off in the same way whatever follows. -/
theorem cutComment_append {cs source after : List Char} {kind : PieceKind}
    (h : cutComment cs = .ok (kind, source, after)) (trim : Bool) (rest : List Char) :
    cutPiece trim (source ++ rest) = .ok (kind, source, rest) := by
  obtain ⟨content, hc, rfl, rfl⟩ := cutComment_eq_ok_iff.1 h
  have hc' := cutAt?_append hc rest
  simp only [List.cons_append, List.nil_append, List.append_assoc] at hc' ⊢
  rw [cutPiece_comment, cutComment_eq_ok_iff]
  exact ⟨content, hc', rfl, rfl⟩

/-- A tag is cut off in the same way if less text follows. -/
theorem cutTag_shorten {trim : Bool} {cs source after rest : List Char} {kind : PieceKind}
    (h : cutTag trim cs = .ok (kind, source, after)) (hp : rest <+: after) :
    cutPiece trim (source ++ rest) = .ok (kind, source, rest) := by
  obtain ⟨content, behind, hc, hne, rfl, rfl, rfl⟩ := cutTag_eq_ok_iff.1 h
  have hc' := cutTagContent_append hc ((lineBreakAfter trim behind).1 ++ rest)
  have hbreak := lineBreakAfter_shorten hp
  simp only [List.cons_append, List.nil_append, List.append_assoc] at hc' ⊢
  rw [cutPiece_tag, cutTag_eq_ok_iff]
  exact ⟨content, _, hc', hne, rfl, by simp [hbreak], by rw [hbreak]⟩

/-- A piece at the front of a text is cut off in the same way if less text follows, provided that
after plain text the rest is empty or begins with an opening delimiter. -/
theorem cutPiece_shorten {trim : Bool} {cs source after rest : List Char} {kind : PieceKind}
    (h : cutPiece trim cs = .ok (kind, source, after)) (hp : rest <+: after)
    (ho : kind = .text → rest = [] ∨ atOpener rest = true) :
    cutPiece trim (source ++ rest) = .ok (kind, source, rest) := by
  by_cases hc : atOpener cs = true
  · rcases opener_cases hc with ⟨inner, rfl⟩ | ⟨inner, rfl⟩ | ⟨inner, rfl⟩
    · exact cutEmit_append h trim rest
    · exact cutTag_shorten h hp
    · exact cutComment_append h trim rest
  · rw [cutPiece_text trim hc] at h
    simp only [Except.ok.injEq, Prod.mk.injEq] at h
    obtain ⟨rfl, rfl, rfl⟩ := h
    have hne : ¬atOpener ((spanText cs).1 ++ rest) = true := by
      intro ha
      refine hc (atOpener_mono ?_ ha)
      obtain ⟨t, ht⟩ := hp
      exact ⟨t, by rw [List.append_assoc, ht, spanText_append]⟩
    rw [cutPiece_text trim hne, spanText_shorten hp (ho rfl)]

/-! ## Pieces one after the other -/

/-- The pieces of a text that begins at a byte of the template, each cut off the front of what the
ones before it leave. -/
inductive Cuts (trim : Bool) : Nat → List Char → List Piece → Prop where
  | nil {offset : Nat} : Cuts trim offset [] []
  | cons {offset : Nat} {cs source rest : List Char} {kind : PieceKind} {ps : List Piece}
      (hne : cs ≠ []) (hcut : cutPiece trim cs = .ok (kind, source, rest))
      (hrest : Cuts trim (offset + Text.utf8Length source) rest ps) :
      Cuts trim offset cs (⟨offset, source, kind⟩ :: ps)

/-- The pieces that are found are those cut off. -/
theorem cuts_of_piecesFrom {trim : Bool} {offset : Nat} {cs : List Char} {ps : List Piece}
    (h : piecesFrom trim offset cs = .ok ps) : Cuts trim offset cs ps := by
  fun_induction piecesFrom trim offset cs generalizing ps with
  | case1 =>
    cases h
    exact .nil
  | case2 => cases h
  | case3 offset c cs kind source rest hcut ih =>
    cases hr : piecesFrom trim (offset + Text.utf8Length source) rest with
    | error e => simp [hr, Except.map] at h
    | ok qs =>
      simp only [hr, Except.map, Except.ok.injEq] at h
      subst h
      exact .cons (by simp) hcut (ih hr)

/-- If a piece can be cut off, it is the first one. -/
theorem piecesFrom_of_cut {trim : Bool} {cs source rest : List Char} {kind : PieceKind}
    (hne : cs ≠ []) (hcut : cutPiece trim cs = .ok (kind, source, rest)) (offset : Nat) :
    piecesFrom trim offset cs =
      (piecesFrom trim (offset + Text.utf8Length source) rest).map
        (⟨offset, source, kind⟩ :: ·) := by
  cases cs with
  | nil => exact absurd rfl hne
  | cons c cs =>
    rw [piecesFrom]
    split
    · rename_i fault hfault
      rw [hcut] at hfault
      cases hfault
    · rename_i kind' source' rest' hcut'
      rw [hcut] at hcut'
      cases hcut'
      rfl

/-- If no piece can be cut off, there are no pieces. -/
theorem piecesFrom_of_fault {trim : Bool} {cs : List Char} {fault : Fault}
    (hne : cs ≠ []) (hcut : cutPiece trim cs = .error fault) (offset : Nat) :
    piecesFrom trim offset cs = .error ⟨offset, fault⟩ := by
  cases cs with
  | nil => exact absurd rfl hne
  | cons c cs =>
    rw [piecesFrom]
    split
    · rename_i fault' hfault
      rw [hcut] at hfault
      cases hfault
      rfl
    · rename_i kind source rest hcut'
      rw [hcut] at hcut'
      cases hcut'

/-- Pieces that can be cut off are found. -/
theorem Cuts.piecesFrom_eq {trim : Bool} {offset : Nat} {cs : List Char} {ps : List Piece}
    (h : Cuts trim offset cs ps) : piecesFrom trim offset cs = .ok ps := by
  induction h with
  | nil => rw [piecesFrom]
  | cons hne hcut _ ih =>
    rw [piecesFrom_of_cut hne hcut, ih]
    rfl

/-- The pieces of a text put together are the text. -/
theorem Cuts.sourceOf_eq {trim : Bool} {offset : Nat} {cs : List Char} {ps : List Piece}
    (h : Cuts trim offset cs ps) : sourceOf ps = cs := by
  induction h with
  | nil => rfl
  | cons _ hcut _ ih => rw [sourceOf_cons, ih, cutPiece_eq hcut]

theorem utf8Length_append (cs ds : List Char) :
    Text.utf8Length (cs ++ ds) = Text.utf8Length cs + Text.utf8Length ds := by
  induction cs with
  | nil => simp [Text.utf8Length]
  | cons c cs ih => simp [Text.utf8Length, ih, Nat.add_assoc]

/-- What follows plain text is nothing or an opening delimiter. -/
theorem spanText_rest (cs : List Char) :
    (spanText cs).2 = [] ∨ atOpener (spanText cs).2 = true := by
  induction cs with
  | nil => exact .inl rfl
  | cons c cs ih =>
    rw [spanText]
    split
    · rename_i hc
      exact .inr hc
    · exact ih

/-- A piece cut off at an opening delimiter begins with it. -/
theorem atOpener_source {trim : Bool} {cs source rest : List Char} {kind : PieceKind}
    (ho : atOpener cs = true) (h : cutPiece trim cs = .ok (kind, source, rest)) :
    atOpener source = true := by
  rcases opener_cases ho with ⟨inner, rfl⟩ | ⟨inner, rfl⟩ | ⟨inner, rfl⟩
  · obtain ⟨content, _, _, _, rfl⟩ := cutEmit_eq_ok_iff.1 h
    rfl
  · obtain ⟨content, after, _, _, _, rfl, _⟩ := cutTag_eq_ok_iff.1 h
    rfl
  · obtain ⟨content, _, _, rfl⟩ := cutComment_eq_ok_iff.1 h
    rfl

/-- A piece cut off at an opening delimiter is no plain text. -/
theorem kind_ne_text_of_atOpener {trim : Bool} {cs source rest : List Char} {kind : PieceKind}
    (ho : atOpener cs = true) (h : cutPiece trim cs = .ok (kind, source, rest)) :
    kind ≠ .text := by
  rintro rfl
  rcases opener_cases ho with ⟨inner, rfl⟩ | ⟨inner, rfl⟩ | ⟨inner, rfl⟩
  · obtain ⟨_, _, _, hk, _⟩ := cutEmit_eq_ok_iff.1 h
    cases hk
  · obtain ⟨_, _, _, _, hk, _⟩ := cutTag_eq_ok_iff.1 h
    cases hk
  · obtain ⟨_, _, hk, _⟩ := cutComment_eq_ok_iff.1 h
    cases hk

/-- Behind plain text stands nothing or an opening delimiter. -/
theorem rest_of_cutPiece_text {trim : Bool} {cs source rest : List Char}
    (h : cutPiece trim cs = .ok (.text, source, rest)) :
    rest = [] ∨ atOpener rest = true := by
  by_cases ho : atOpener cs = true
  · exact absurd rfl (kind_ne_text_of_atOpener ho h)
  · rw [cutPiece_text trim ho] at h
    cases h
    exact spanText_rest cs

/-- The first of several pieces are the pieces of the text they cover. -/
theorem Cuts.take {trim : Bool} {offset : Nat} {cs : List Char} {ps qs : List Piece}
    (h : Cuts trim offset cs (ps ++ qs)) : Cuts trim offset (sourceOf ps) ps := by
  induction ps generalizing offset cs with
  | nil => exact .nil
  | cons p ps ih =>
    cases h with
    | @cons _ _ source rest kind _ hne hcut hrest =>
      replace hrest : Cuts trim (offset + Text.utf8Length source) rest (ps ++ qs) := hrest
      have hsource : source ≠ [] := by
        cases cs with
        | nil => exact absurd rfl hne
        | cons c cs => exact cutPiece_source_ne_nil hcut
      have hprefix : sourceOf ps <+: rest := by
        rw [← hrest.sourceOf_eq, sourceOf_append]
        exact List.prefix_append _ _
      -- Behind plain text the next piece begins with an opening delimiter, and still does so.
      have hopener : kind = .text → sourceOf ps = [] ∨ atOpener (sourceOf ps) = true := by
        rintro rfl
        cases ps with
        | nil => exact .inl rfl
        | cons q ps =>
          right
          cases hrest with
          | cons hne' hcut' _ =>
            have ho := (rest_of_cutPiece_text hcut).resolve_left hne'
            exact atOpener_mono (List.prefix_append _ _) (atOpener_source ho hcut')
      exact .cons (by simp [hsource]) (cutPiece_shorten hcut hprefix hopener) (ih hrest)

/-- The last of several pieces are the pieces of the text they cover. -/
theorem Cuts.drop {trim : Bool} {offset : Nat} {cs : List Char} {ps qs : List Piece}
    (h : Cuts trim offset cs (ps ++ qs)) :
    Cuts trim (offset + Text.utf8Length (sourceOf ps)) (sourceOf qs) qs := by
  induction ps generalizing offset cs with
  | nil =>
    have hcs : sourceOf qs = cs := h.sourceOf_eq
    rw [hcs]
    exact h
  | cons p ps ih =>
    cases h with
    | cons hne hcut hrest =>
      rw [sourceOf_cons, utf8Length_append, ← Nat.add_assoc]
      exact ih hrest

/-- A piece of a text from which that many bytes before it are taken away. -/
def Piece.back (n : Nat) (p : Piece) : Piece := { p with start := p.start - n }

/-- The pieces of a text do not depend on where it stands, but for their places. -/
theorem Cuts.back {trim : Bool} {n offset : Nat} {cs : List Char} {ps : List Piece}
    (h : Cuts trim (n + offset) cs ps) : Cuts trim offset cs (ps.map (Piece.back n)) := by
  generalize hm : n + offset = m at h
  induction h generalizing offset with
  | nil => exact .nil
  | @cons m cs source rest kind ps hne hcut _ ih =>
    have hstart : Piece.back n ⟨m, source, kind⟩ = ⟨offset, source, kind⟩ := by
      simp only [Piece.back, ← hm, Nat.add_sub_cancel_left]
    rw [List.map_cons, hstart]
    exact .cons hne hcut (ih (by omega))

/-- Pieces that stand next to each other are the pieces of the text they cover. -/
theorem Cuts.segment {trim : Bool} {offset : Nat} {cs : List Char} {ps qs rs : List Piece}
    (h : Cuts trim offset cs (ps ++ qs ++ rs)) :
    ∃ n, Cuts trim 0 (sourceOf qs) (qs.map (Piece.back n)) := by
  have hqs : Cuts trim (offset + Text.utf8Length (sourceOf ps) + 0) (sourceOf qs) qs :=
    h.take.drop
  exact ⟨_, hqs.back⟩

end Stencil.Template
