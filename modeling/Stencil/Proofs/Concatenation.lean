import Stencil.Proofs.BodyText
import Stencil.Proofs.LineBreaks

/-!
# Templates put together

The reader looks ahead for the end of every piece, but what it finds there does not depend on what
stands behind. So two templates put together are cut (`pieces`) into the pieces of both, unless an
opening delimiter comes about at the seam: only plain text at the end of the first goes on with
plain text at the front of the second. Blocks are closed in each of them, so the actions are those
of both.
-/

namespace Stencil.Template

/-! ## The seam -/

/-- An opening delimiter comes about where two texts meet. -/
def OpensAcross (cs ds : List Char) : Prop :=
  cs.getLast? = some '\x7b' ∧ ∃ c ∈ ds.head?, c = '\x7b' ∨ c = '%' ∨ c = '#'

/-- What stands in front of a text makes no difference to the seam behind it. -/
theorem OpensAcross.append {cs ds : List Char} (h : OpensAcross cs ds) (before : List Char) :
    OpensAcross (before ++ cs) ds :=
  ⟨by simp [h.1], h.2⟩

/-- A text that is not empty begins with an opening delimiter if it does together with what
follows. -/
theorem atOpener_append {cs ds : List Char} (hseam : ¬OpensAcross cs ds) (hne : cs ≠ []) :
    atOpener (cs ++ ds) = atOpener cs := by
  match cs with
  | [c] =>
    have hone : atOpener [c] = false := by simp [atOpener]
    rw [hone, Bool.eq_false_iff]
    intro ho
    rcases opener_cases ho with ⟨inner, heq⟩ | ⟨inner, heq⟩ | ⟨inner, heq⟩ <;>
    · obtain ⟨rfl, rfl⟩ := List.cons.inj heq
      exact hseam ⟨rfl, by simp⟩
  | c :: d :: cs =>
    rw [List.cons_append, List.cons_append]
    unfold atOpener
    split <;> simp_all

/-- Plain text that stops at an opening delimiter stops there whatever follows. -/
theorem spanText_append_of_rest {cs ds : List Char} (hseam : ¬OpensAcross cs ds)
    (hrest : (spanText cs).2 ≠ []) :
    spanText (cs ++ ds) = ((spanText cs).1, (spanText cs).2 ++ ds) := by
  induction cs with
  | nil => exact absurd rfl hrest
  | cons c cs ih =>
    have hopener := atOpener_append hseam (by simp)
    by_cases ho : atOpener (c :: cs) = true
    · rw [spanText_of_opener ho, spanText_of_opener (hopener.trans ho)]
    · rw [spanText_cons ho] at hrest ⊢
      rw [List.cons_append, spanText_cons (by rwa [← List.cons_append, hopener]),
        ih (fun h => hseam (h.append [c])) hrest]

/-- Plain text that goes on to the end goes on with the plain text that follows. -/
theorem spanText_append_of_nil {cs ds : List Char} (hseam : ¬OpensAcross cs ds)
    (hrest : (spanText cs).2 = []) :
    spanText (cs ++ ds) = (cs ++ (spanText ds).1, (spanText ds).2) := by
  induction cs with
  | nil => rfl
  | cons c cs ih =>
    have ho : ¬atOpener (c :: cs) = true := fun ho => by
      rw [spanText_of_opener ho] at hrest
      simp at hrest
    rw [spanText_cons ho] at hrest
    rw [List.cons_append,
      spanText_cons (by rwa [← List.cons_append, atOpener_append hseam (by simp)]),
      ih (fun h => hseam (h.append [c])) hrest]
    rfl

/-- If no line break begins behind the seam, a trimmed tag takes the same line break as before. -/
theorem lineBreakAfter_append {trim : Bool} {ds : List Char}
    (hbreak : trim = true → ∀ c ∈ ds.head?, c ≠ '\n' ∧ c ≠ '\r') (after : List Char) :
    lineBreakAfter trim (after ++ ds) =
      ((lineBreakAfter trim after).1, (lineBreakAfter trim after).2 ++ ds) := by
  unfold lineBreakAfter
  split
  · rename_i htrim
    have hhead := hbreak htrim
    rcases splitLineBreak_cases after with ⟨behind, rfl⟩ | ⟨behind, rfl⟩ | hafter
    · rfl
    · rfl
    · -- No line break begins before the seam, and none across it.
      rcases splitLineBreak_cases (after ++ ds) with ⟨es, heq⟩ | ⟨es, heq⟩ | hboth
      · rcases List.append_eq_cons_iff.1 heq with ⟨rfl, rfl⟩ | ⟨behind, rfl, -⟩
        · simp at hhead
        · cases hafter
      · rcases List.append_eq_cons_iff.1 heq with ⟨rfl, rfl⟩ | ⟨behind, rfl, htail⟩
        · simp at hhead
        · rcases List.append_eq_cons_iff.1 htail.symm with ⟨rfl, rfl⟩ | ⟨behind, rfl, -⟩
          · simp at hhead
          · cases hafter
      · rw [hafter, hboth]
  · rfl

/-! ## One piece -/

/-- A tag is cut off in the same way whatever follows, but for the line break behind it. -/
theorem cutTag_append {trim : Bool} {cs ds source rest : List Char} {kind : PieceKind}
    (h : cutTag trim cs = .ok (kind, source, rest))
    (hbreak : trim = true → ∀ c ∈ ds.head?, c ≠ '\n' ∧ c ≠ '\r') :
    cutTag trim (cs ++ ds) = .ok (kind, source, rest ++ ds) := by
  obtain ⟨content, after, hc, hne, rfl, rfl, rfl⟩ := cutTag_eq_ok_iff.1 h
  have hc' := cutTagContent_append hc (after ++ ds)
  rw [← List.append_assoc, ← cutTagContent_eq hc] at hc'
  rw [cutTag_eq_ok_iff]
  exact ⟨content, after ++ ds, hc', hne, rfl, by rw [lineBreakAfter_append hbreak],
    by rw [lineBreakAfter_append hbreak]⟩

/-- The first piece of a text is the first one of a longer text, unless it is plain text up to the
end. -/
theorem cutPiece_append {trim : Bool} {cs ds source rest : List Char} {kind : PieceKind}
    (hne : cs ≠ []) (h : cutPiece trim cs = .ok (kind, source, rest))
    (hseam : ¬OpensAcross cs ds) (hbreak : trim = true → ∀ c ∈ ds.head?, c ≠ '\n' ∧ c ≠ '\r')
    (hrest : kind = .text → rest ≠ []) :
    cutPiece trim (cs ++ ds) = .ok (kind, source, rest ++ ds) := by
  by_cases ho : atOpener cs = true
  · have hcs : cs ++ ds = source ++ (rest ++ ds) := by rw [cutPiece_eq h, List.append_assoc]
    rcases opener_cases ho with ⟨inner, rfl⟩ | ⟨inner, rfl⟩ | ⟨inner, rfl⟩
    · rw [hcs]
      exact cutEmit_append h trim _
    · exact cutTag_append h hbreak
    · rw [hcs]
      exact cutComment_append h trim _
  · have ho' : ¬atOpener (cs ++ ds) = true := by rwa [atOpener_append hseam hne]
    rw [cutPiece_text trim ho] at h
    cases h
    rw [cutPiece_text trim ho', spanText_append_of_rest hseam (hrest rfl)]

/-! ## All pieces -/

/-- A piece before others. If it is plain text, it takes up plain text at the front of them. -/
def Piece.join (p : Piece) : List Piece → List Piece
  | [] => [p]
  | q :: qs =>
    if p.kind = .text ∧ q.kind = .text then { p with source := p.source ++ q.source } :: qs
    else p :: q :: qs

/-- One list and another behind it; how the last item of the first stands before the second is
given. -/
def joinLists {α : Type} (join : α → List α → List α) : List α → List α → List α
  | [], bs => bs
  | [a], bs => join a bs
  | a :: a' :: as, bs => a :: joinLists join (a' :: as) bs

section JoinLists

variable {α : Type} {join : α → List α → List α}

theorem joinLists_cons (a : α) {as : List α} (has : as ≠ []) (bs : List α) :
    joinLists join (a :: as) bs = a :: joinLists join as bs := by
  cases as with
  | nil => exact absurd rfl has
  | cons a' as => rfl

theorem joinLists_append (as : List α) {bs : List α} (hbs : bs ≠ []) (cs : List α) :
    joinLists join (as ++ bs) cs = as ++ joinLists join bs cs := by
  induction as with
  | nil => rfl
  | cons a as ih => rw [List.cons_append, joinLists_cons a (by simp [hbs]), ih, List.cons_append]

/-- An item that stands before others as it is makes no difference to what comes after it. -/
theorem joinLists_cons_of {a : α} {bs : List α} (ha : join a bs = a :: bs) (as : List α) :
    joinLists join (a :: as) bs = a :: joinLists join as bs := by
  cases as with
  | nil => exact ha
  | cons a' as => rfl

end JoinLists

/-- The pieces of one text and those of a text behind it. -/
def joinPieces : List Piece → List Piece → List Piece := joinLists Piece.join

/-- Plain text is taken up by plain text only. -/
theorem Piece.join_of_ne {p : Piece} {qs : List Piece}
    (h : p.kind = .text → ∀ q ∈ qs.head?, q.kind ≠ .text) : p.join qs = p :: qs := by
  cases qs with
  | nil => rfl
  | cons q qs => rw [join, if_neg fun ⟨hp, hq⟩ => h hp q rfl hq]

theorem joinPieces_cons_of_ne {p : Piece} (hp : p.kind ≠ .text) (ps qs : List Piece) :
    joinPieces (p :: ps) qs = p :: joinPieces ps qs :=
  joinLists_cons_of (Piece.join_of_ne fun h => absurd h hp) ps

/-- Where no plain text follows, the pieces are those of both texts as they are. -/
theorem joinPieces_of_head {qs : List Piece} (h : ∀ q ∈ qs.head?, q.kind ≠ .text)
    (ps : List Piece) : joinPieces ps qs = ps ++ qs := by
  induction ps with
  | nil => rfl
  | cons p ps ih =>
    rw [joinPieces, joinLists_cons_of (Piece.join_of_ne fun _ => h), ← joinPieces, ih,
      List.cons_append]

/-- Plain text up to the end of a text goes on in the text behind it. -/
theorem Cuts.join_text {trim : Bool} {offset : Nat} {cs ds : List Char} {qs : List Piece}
    (hne : cs ≠ []) (hcut : cutPiece trim cs = .ok (.text, cs, []))
    (hds : Cuts trim (offset + Text.utf8Length cs) ds qs) (hseam : ¬OpensAcross cs ds) :
    Cuts trim offset (cs ++ ds) (Piece.join ⟨offset, cs, .text⟩ qs) := by
  have ho : ¬atOpener cs = true := fun ho => kind_ne_text_of_atOpener ho hcut rfl
  rw [cutPiece_text trim ho] at hcut
  have hrest : (spanText cs).2 = [] := (Prod.mk.inj (Prod.mk.inj (Except.ok.inj hcut)).2).2
  have hcut' : cutPiece trim (cs ++ ds) =
      .ok (.text, cs ++ (spanText ds).1, (spanText ds).2) := by
    rw [cutPiece_text trim (by rwa [atOpener_append hseam hne]),
      spanText_append_of_nil hseam hrest]
  cases hds with
  | nil => exact .cons (by simp [hne]) (by simpa [spanText] using hcut') .nil
  | @cons _ _ source rest kind qs hne' hcutDs hqs =>
    by_cases hkind : kind = .text
    · subst hkind
      have hoDs : ¬atOpener ds = true := fun ho => kind_ne_text_of_atOpener ho hcutDs rfl
      rw [cutPiece_text trim hoDs] at hcutDs
      cases hcutDs
      rw [Piece.join, if_pos ⟨rfl, rfl⟩]
      refine .cons (by simp [hne]) hcut' ?_
      rwa [utf8Length_append, ← Nat.add_assoc]
    · have hoDs : atOpener ds = true := by
        by_contra hoDs
        rw [cutPiece_text trim hoDs] at hcutDs
        cases hcutDs
        exact hkind rfl
      rw [spanText_of_opener hoDs, List.append_nil] at hcut'
      rw [Piece.join_of_ne fun _ q hq => by cases hq; exact hkind]
      exact .cons (by simp [hne]) hcut' (.cons hne' hcutDs hqs)

/-- Two texts put together are cut into the pieces of both, if no opening delimiter comes about at
the seam and no line break behind it goes to a tag. -/
theorem Cuts.join {trim : Bool} {offset : Nat} {cs ds : List Char} {ps qs : List Piece}
    (hcs : Cuts trim offset cs ps) (hds : Cuts trim (offset + Text.utf8Length cs) ds qs)
    (hseam : ¬OpensAcross cs ds)
    (hbreak : trim = true → ∀ c ∈ ds.head?, c ≠ '\n' ∧ c ≠ '\r') :
    Cuts trim offset (cs ++ ds) (joinPieces ps qs) := by
  induction hcs with
  | nil => simpa [Text.utf8Length, joinPieces, joinLists] using hds
  | @cons offset cs source rest kind ps hne hcut hrest ih =>
    have hcs := cutPiece_eq hcut
    by_cases hlast : kind = .text ∧ rest = []
    · obtain ⟨rfl, rfl⟩ := hlast
      rw [List.append_nil] at hcs
      subst hcs
      cases hrest with
      | nil => exact .join_text hne hcut hds hseam
      | cons hne' => exact absurd rfl hne'
    · have hcut' := cutPiece_append hne hcut hseam hbreak fun hkind hnil => hlast ⟨hkind, hnil⟩
      rw [hcs, utf8Length_append, ← Nat.add_assoc] at hds
      have hrest' := ih hds fun h => hseam (hcs ▸ h.append source)
      have hjoin : joinPieces (⟨offset, source, kind⟩ :: ps) qs =
          ⟨offset, source, kind⟩ :: joinPieces ps qs := by
        cases hrest with
        | nil => exact Piece.join_of_ne fun hkind => absurd ⟨hkind, rfl⟩ hlast
        | cons => exact joinLists_cons _ (by simp) qs
      rw [hjoin]
      exact .cons (by simp [hne]) hcut' hrest'

/-! ## Derivations -/

/-- An action before others. If it is plain text, it takes up plain text at the front of them. -/
def Action.join : Action → List Action → List Action
  | .literal s, .literal t :: actions => .literal (s ++ t) :: actions
  | action, actions => action :: actions

/-- The actions of one template and those of a template behind it: plain text at the end of the
first and plain text at the front of the second are one literal. -/
def joinActions : List Action → List Action → List Action := joinLists Action.join

/-- Whether an action is plain text. -/
def Action.IsLiteral (a : Action) : Prop := ∃ text, a = .literal text

theorem Action.join_of_not_left {a : Action} (h : ¬a.IsLiteral) (actions : List Action) :
    a.join actions = a :: actions := by
  unfold join
  split
  · exact absurd ⟨_, rfl⟩ h
  · rfl

theorem Action.join_of_not_right (a : Action) {b : Action} (h : ¬b.IsLiteral)
    (actions : List Action) : a.join (b :: actions) = a :: b :: actions := by
  unfold join
  split
  · rename_i heq
    cases heq
    exact absurd ⟨_, rfl⟩ h
  · rfl

/-- Among the pieces that stand alone only plain text has its action. -/
theorem Piece.isLiteral_action_iff (p : Piece) : p.action.IsLiteral ↔ p.kind = .text := by
  unfold action
  cases p.kind with
  | text => simp [Action.IsLiteral]
  | emit | comment => simp [Action.IsLiteral]
  | tag name arguments =>
    dsimp only
    split <;> simp [Action.IsLiteral]

theorem Piece.Named.ne_text {p : Piece} {name : String} (h : p.Named name) : p.kind ≠ .text := by
  obtain ⟨arguments, hp⟩ := h
  simp [hp]

/-- The derivation of a piece that stands alone and, behind it, what another one derives. -/
def Sequence.after (p : Piece) (alone : p.Alone) : Sequence → Sequence
  | .single q alone' rest =>
    if p.kind = .text ∧ q.kind = .text then
      .single { p with source := p.source ++ q.source } alone rest
    else .single p alone (.single q alone' rest)
  | e => .single p alone e

theorem Sequence.pieces_after (p : Piece) (alone : p.Alone) (e : Sequence) :
    (e.after p alone).pieces = p.join e.pieces := by
  cases e with
  | nil => rfl
  | single q alone' rest =>
    rw [after, Sequence.pieces, Piece.join]
    split <;> rfl
  | block kind opening opens body closing closes rest =>
    refine (Piece.join_of_ne ?_).symm
    rintro - q ⟨⟩
    exact opens.ne_text
  | conditional opening opens given body more rest =>
    refine (Piece.join_of_ne ?_).symm
    rintro - q ⟨⟩
    exact opens.ne_text

theorem Sequence.actions_after (p : Piece) (alone : p.Alone) (e : Sequence) :
    (e.after p alone).actions = p.action.join e.actions := by
  cases e with
  | nil => cases h : p.action <;> simp [after, Sequence.actions, Action.join, h]
  | single q alone' rest =>
    rw [after, Sequence.actions]
    split
    · rename_i htext
      simp only [Sequence.actions, Piece.action, htext.1, htext.2, Action.join,
        String.ofList_append]
    · rename_i htext
      by_cases hp : p.kind = .text
      · have hq : ¬q.action.IsLiteral := fun hq => htext ⟨hp, q.isLiteral_action_iff.1 hq⟩
        exact (Action.join_of_not_right _ hq _).symm
      · have hp' : ¬p.action.IsLiteral := fun h => hp (p.isLiteral_action_iff.1 h)
        exact (Action.join_of_not_left hp' _).symm
  | block kind opening opens body closing closes rest =>
    refine (Action.join_of_not_right _ ?_ _).symm
    cases kind <;> simp [PlainBlock.part, BlockPart.action, Action.IsLiteral]
  | conditional opening opens given body more rest =>
    refine (Action.join_of_not_right _ ?_ _).symm
    simp [Action.IsLiteral]

/-- The derivation of what two derivations derive one after the other. -/
def Sequence.join : Sequence → Sequence → Sequence
  | .nil, e => e
  | .single p alone .nil, e => e.after p alone
  | .single p alone rest, e => .single p alone (rest.join e)
  | .block kind opening opens body closing closes rest, e =>
    .block kind opening opens body closing closes (rest.join e)
  | .conditional opening opens given body more rest, e =>
    .conditional opening opens given body more (rest.join e)

/-- What stands alone, with others behind it. -/
theorem Sequence.join_single (p : Piece) (alone : p.Alone) {rest : Sequence} (hrest : rest ≠ .nil)
    (e : Sequence) :
    (Sequence.single p alone rest).join e = .single p alone (rest.join e) := by
  cases rest with
  | nil => exact absurd rfl hrest
  | _ => rfl

/-- Only the empty sequence derives no pieces and has no actions. -/
theorem Sequence.nonempty_of_ne {d : Sequence} (h : d ≠ .nil) : d.pieces ≠ [] ∧ d.actions ≠ [] := by
  cases d with
  | nil => exact absurd rfl h
  | _ => simp [Sequence.pieces, Sequence.actions]

/-- The alternatives of a conditional end with a tag. -/
theorem Alternatives.pieces_eq_concat (t : Alternatives) :
    ∃ ps p, t.pieces = ps ++ [p] ∧ p.kind ≠ .text := by
  cases t with
  | endif p closes => exact ⟨[], p, rfl, closes.ne_text⟩
  | elif tag named given body more =>
    obtain ⟨ps, p, hps, hp⟩ := more.pieces_eq_concat
    exact ⟨tag :: (body.pieces ++ ps), p, by simp [Alternatives.pieces, hps], hp⟩
  | otherwise tag named body p closes =>
    exact ⟨tag :: body.pieces, p, rfl, closes.ne_text⟩

/-- Pieces behind a tag are joined with others as if they stood alone. -/
theorem joinPieces_behind {ps qs : List Piece} {p : Piece} (hp : p.kind ≠ .text)
    (rs : List Piece) : joinPieces (ps ++ p :: qs) rs = ps ++ p :: joinPieces qs rs := by
  rw [joinPieces, joinLists_append ps (by simp), ← joinPieces, joinPieces_cons_of_ne hp]

theorem Sequence.pieces_join (d e : Sequence) :
    (d.join e).pieces = joinPieces d.pieces e.pieces := by
  cases d with
  | nil => rfl
  | single p alone rest =>
    by_cases hrest : rest = .nil
    · subst hrest
      exact e.pieces_after p alone
    · rw [Sequence.join_single p alone hrest, Sequence.pieces, Sequence.pieces,
        rest.pieces_join e]
      exact (joinLists_cons p (Sequence.nonempty_of_ne hrest).1 _).symm
  | block kind opening opens body closing closes rest =>
    have hsplit : ((Sequence.block kind opening opens body closing closes rest).pieces =
      (opening :: body.pieces) ++ closing :: rest.pieces) := rfl
    rw [hsplit, joinPieces_behind closes.ne_text, ← rest.pieces_join e]
    rfl
  | conditional opening opens given body more rest =>
    obtain ⟨ps, p, hps, hp⟩ := more.pieces_eq_concat
    have hsplit : (Sequence.conditional opening opens given body more rest).pieces =
        (opening :: (body.pieces ++ ps)) ++ p :: rest.pieces := by
      simp [Sequence.pieces, hps]
    rw [hsplit, joinPieces_behind hp, ← rest.pieces_join e]
    simp [Sequence.join, Sequence.pieces, hps]

theorem Sequence.actions_join (d e : Sequence) :
    (d.join e).actions = joinActions d.actions e.actions := by
  cases d with
  | nil => rfl
  | single p alone rest =>
    by_cases hrest : rest = .nil
    · subst hrest
      exact e.actions_after p alone
    · rw [Sequence.join_single p alone hrest, Sequence.actions, Sequence.actions,
        rest.actions_join e]
      exact (joinLists_cons _ (Sequence.nonempty_of_ne hrest).2 _).symm
  | block kind opening opens body closing closes rest =>
    rw [Sequence.join, Sequence.actions, Sequence.actions, rest.actions_join e]
    refine (joinLists_cons_of (Action.join_of_not_left ?_ _) _).symm
    cases kind <;> simp [PlainBlock.part, BlockPart.action, Action.IsLiteral]
  | conditional opening opens given body more rest =>
    rw [Sequence.join, Sequence.actions, Sequence.actions, rest.actions_join e]
    refine (joinLists_cons_of (Action.join_of_not_left ?_ _) _).symm
    simp [Action.IsLiteral]

/-! ## Templates -/

/-- A piece of a text in front of which that many bytes are put. -/
def Piece.ahead (n : Nat) (p : Piece) : Piece := { p with start := n + p.start }

theorem Cuts.ahead {trim : Bool} {offset : Nat} {cs : List Char} {ps : List Piece}
    (h : Cuts trim offset cs ps) (n : Nat) :
    Cuts trim (n + offset) cs (ps.map (Piece.ahead n)) := by
  induction h with
  | nil => exact .nil
  | cons hne hcut _ ih => exact .cons hne hcut (by rwa [Nat.add_assoc])

/-- A text that compiles has a derivation wherever it stands. -/
theorem exists_cuts_of_compile {trim : Bool} {cs : List Char} {actions : List Action}
    (h : compile trim (String.ofList cs) = .ok actions) (offset : Nat) :
    ∃ d : Sequence, Cuts trim offset cs d.pieces ∧ d.actions = actions := by
  obtain ⟨d, hps, rfl⟩ := compile_eq_ok_iff.1 h
  rw [pieces, String.toList_ofList] at hps
  obtain ⟨e, hpieces, hactions⟩ := d.exists_map (f := Piece.ahead offset) fun _ => ⟨rfl, rfl⟩
  have hcuts := (cuts_of_piecesFrom hps).ahead offset
  rw [Nat.add_zero, ← hpieces] at hcuts
  exact ⟨e, hcuts, hactions⟩

/-- A text with a derivation compiles. -/
theorem compile_of_cuts {trim : Bool} {cs : List Char} {d : Sequence}
    (h : Cuts trim 0 cs d.pieces) : compile trim (String.ofList cs) = .ok d.actions := by
  rw [compile_eq_ok_iff]
  exact ⟨d, by rw [pieces, String.toList_ofList, h.piecesFrom_eq], rfl⟩

/-- Compiling is compositional. Two templates that compile also compile put together, unless an
opening delimiter comes about where they meet, and the actions are those of the first and then those
of the second, with the literals that meet made one. -/
theorem compile_append {first second : String} {before after : List Action}
    (hfirst : compile false first = .ok before) (hsecond : compile false second = .ok after)
    (hseam : ¬OpensAcross first.toList second.toList) :
    compile false (first ++ second) = .ok (joinActions before after) := by
  rw [← String.ofList_toList (s := first)] at hfirst
  rw [← String.ofList_toList (s := second)] at hsecond
  obtain ⟨d, hd, rfl⟩ := exists_cuts_of_compile hfirst 0
  obtain ⟨e, he, rfl⟩ := exists_cuts_of_compile hsecond (0 + Text.utf8Length first.toList)
  have hjoin := hd.join he hseam (by simp)
  rw [← d.pieces_join e, ← String.toList_append] at hjoin
  rw [← d.actions_join e, ← compile_of_cuts hjoin, String.ofList_toList]

/-- A brace that opens nothing is followed by text, behind a quoted delimiter and before a block. -/
theorem compile_append_brace :
    let first := "\x7b\x7b '\x7d\x7d' \x7d\x7dy\x7b"
    let second := "z\x7b% if c %\x7dw\x7b% endif %\x7d"
    let emit : Action := .instruction .replace [Token.parse "'\x7d\x7d'".toList false]
    let block : Action := .conditional [.mk [Token.parse ['c'] true] (.mk "w" [.literal "w"])] none
    compile false first = .ok [emit, .literal "y\x7b"] ∧
      compile false second = .ok [.literal "z", block] ∧
      ¬OpensAcross first.toList second.toList ∧
      compile false (first ++ second) = .ok [emit, .literal "y\x7bz", block] := by
  intro first second emit block
  have hfirst : compile false first = .ok [emit, .literal "y\x7b"] := by
    simp only [first, emit]
    cbv
  have hsecond : compile false second = .ok [.literal "z", block] := by
    simp only [second, block]
    cbv
  have hseam : ¬OpensAcross first.toList second.toList := by
    simp [OpensAcross, second]
  exact ⟨hfirst, hsecond, hseam, compile_append hfirst hsecond hseam⟩

end Stencil.Template
