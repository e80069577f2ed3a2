import Stencil.Proofs.Concatenation
import Stencil.Proofs.Spellings

/-!
# Blocks as they are written

A block is written as its tags in the order of the source, each followed by the text of the body it
opens. A body that compiles by itself compiles to the same actions inside a block, where the tags
around it are cut off as they are anywhere. So the text of a block compiles (`compile`) to that
block, however many parts it has and whatever its bodies hold.
-/

namespace Stencil.Template

/-! ## Tags -/

/-- A tag as it is written: what stands between its delimiters. -/
structure WrittenTag (name : String) where
  content : List Char
  named : tagName content = name.toList
  closes : ClosesQuotes content
  /-- The tag does not end before its content does. -/
  whole : ¬HoldsOutside '%' '\x7d' content

namespace WrittenTag

variable {name : String} (tag : WrittenTag name)

/-- The text of a tag. -/
def text : List Char := ['\x7b', '%'] ++ tag.content ++ ['%', '\x7d']

/-- What stands behind the name of a tag. -/
def arguments : List Char := Text.trim ((Text.trimStart tag.content).drop name.toList.length)

theorem atOpener_text : atOpener tag.text = true := rfl

/-- A tag that belongs to a block is cut off as one piece, with the line break behind it if it is
trimmed. -/
theorem cutPiece_text_append (hname : name ∈ openerNames ++ terminatorNames) (trim : Bool)
    (rest : List Char) :
    cutPiece trim (tag.text ++ rest) =
      .ok (.tag name tag.arguments, tag.text ++ (lineBreakAfter trim rest).1,
        (lineBreakAfter trim rest).2) := by
  have hplain : ∀ name ∈ openerNames ++ terminatorNames,
      isRawName name = false ∧ name.toList ≠ [] := by decide
  obtain ⟨hraw, hne⟩ := hplain name hname
  have hcut : cutOutsideQuotes '%' '\x7d' .outside (tag.content ++ '%' :: '\x7d' :: rest) =
      .ok (tag.content, rest) := by
    rw [cutOutsideQuotes_append_of_error (cutOutsideQuotes_of_closes tag.closes tag.whole)
      (by decide), cutOutsideQuotes, if_pos ⟨rfl, rfl, rfl⟩]
    simp [Except.map]
  have hcontent : cutTagContent name (tag.content ++ '%' :: '\x7d' :: rest) =
      .ok (tag.content, rest) := by
    rw [cutTagContent, if_neg (by simp [hraw]), hcut]
  have htext : tag.text ++ rest = '\x7b' :: '%' :: (tag.content ++ '%' :: '\x7d' :: rest) := by
    simp [text]
  rw [htext, cutPiece_tag, cutTag_eq_ok_iff]
  refine ⟨tag.content, rest, ?_, ?_, ?_, rfl, rfl⟩
  · rw [tag.named, String.ofList_toList, hcontent]
  · rw [tag.named]
    exact hne
  · rw [tag.named, String.ofList_toList, arguments]

/-- A tag that belongs to a block is a piece before those of the text behind it. -/
theorem cuts_append (hname : name ∈ openerNames ++ terminatorNames) {trim : Bool} (offset : Nat)
    (rest : List Char) {ps : List Piece}
    (hrest : Cuts trim (offset + Text.utf8Length (tag.text ++ (lineBreakAfter trim rest).1))
      (lineBreakAfter trim rest).2 ps) :
    Cuts trim offset (tag.text ++ rest)
      (⟨offset, tag.text ++ (lineBreakAfter trim rest).1, .tag name tag.arguments⟩ :: ps) :=
  .cons (by simp [text]) (tag.cutPiece_text_append hname trim rest) hrest

/-- A tag at the end of a text is its last piece. -/
theorem cuts_text (hname : name ∈ openerNames ++ terminatorNames) (trim : Bool) (offset : Nat) :
    ∃ p : Piece, p.Named name ∧ Cuts trim offset tag.text [p] := by
  have hbreak : lineBreakAfter trim [] = ([], []) := by cases trim <;> rfl
  have hrest : Cuts trim (offset + Text.utf8Length (tag.text ++ (lineBreakAfter trim []).1))
      (lineBreakAfter trim []).2 [] := by
    rw [hbreak]
    exact .nil
  have hcuts := tag.cuts_append hname offset [] hrest
  rw [List.append_nil] at hcuts
  exact ⟨_, ⟨_, rfl⟩, hcuts⟩

end WrittenTag

/-! ## Bodies -/

/-- The line break of a tag and what follows it make up the text behind the tag. -/
theorem lineBreakAfter_eq (trim : Bool) (after : List Char) :
    (lineBreakAfter trim after).1 ++ (lineBreakAfter trim after).2 = after := by
  unfold lineBreakAfter
  split
  · exact splitLineBreak_append after
  · rfl

/-- Where a text begins with an opening delimiter, its first piece is no plain text. -/
theorem Cuts.head_ne_text {trim : Bool} {offset : Nat} {cs : List Char} {ps : List Piece}
    (h : Cuts trim offset cs ps) (hopen : atOpener cs = true) : ∀ p ∈ ps.head?, p.kind ≠ .text := by
  cases h with
  | nil => simp
  | cons _ hcut _ =>
    rintro p ⟨⟩
    exact kind_ne_text_of_atOpener hopen hcut

/-- The text of a body as it is written behind a tag. -/
structure WrittenBody (trim : Bool) where
  text : List Char
  actions : List Action
  /-- What the tag in front leaves of the text compiles. -/
  compiles : compile trim (String.ofList (lineBreakAfter trim text).2) = .ok actions
  /-- There is no brace at the end, which would open an emit together with that of the next tag. -/
  last : text.getLast? ≠ some '\x7b'

namespace WrittenBody

variable {trim : Bool} (b : WrittenBody trim)

/-- The body of a block that is written so. -/
def body : Body := .mk (String.ofList (lineBreakAfter trim b.text).2) b.actions

/-- No opening delimiter comes about behind the body. -/
theorem not_opensAcross (ds : List Char) : ¬OpensAcross (lineBreakAfter trim b.text).2 ds := by
  intro h
  have hlast := (h.append (lineBreakAfter trim b.text).1).1
  rw [lineBreakAfter_eq] at hlast
  exact b.last hlast

/-- A body in which only a word is put out has one action. -/
theorem actions_of_emit {cs : List Char} (hcs : IsWord cs)
    (hemit : ¬HoldsOutside '\x7d' '\x7d' cs) (htext : b.text = emitOf cs) :
    b.actions = [.instruction .replace [Token.parse cs false]] := by
  have hbreak : (lineBreakAfter trim (emitOf cs)).2 = emitOf cs := by
    cases trim <;> rfl
  have hcompiles := b.compiles
  rw [htext, hbreak,
    compile_emitOf trim hcs (cutOutsideQuotes_of_closes hcs.closed hemit)] at hcompiles
  exact (Except.ok.inj hcompiles).symm

end WrittenBody

/-- A tag that opens a body, and that body. -/
structure WrittenPart (trim : Bool) (name : String) where
  tag : WrittenTag name
  body : WrittenBody trim

namespace WrittenPart

variable {trim : Bool} {name : String} (part : WrittenPart trim name)

/-- The text of a part of a block. -/
def text : List Char := part.tag.text ++ part.body.text

/-- Before a tag a part of a block is cut into its own tag and the pieces of its body. -/
theorem exists_cuts (hname : name ∈ openerNames ++ terminatorNames) {rest : List Char}
    (hrest : atOpener rest = true) (offset : Nat) :
    ∃ (p : Piece) (d : Sequence) (next : Nat),
      p.Named name ∧ p.arguments = part.tag.arguments ∧
      bodyOf d.pieces d.actions = part.body.body ∧
      ∀ ps, Cuts trim next rest ps →
        Cuts trim offset (part.text ++ rest) (p :: (d.pieces ++ ps)) := by
  have hhead : ∀ c ∈ rest.head?, c ≠ '\n' ∧ c ≠ '\r' := by
    rcases opener_cases hrest with ⟨inner, rfl⟩ | ⟨inner, rfl⟩ | ⟨inner, rfl⟩ <;> simp
  -- The tag takes the same line break as if nothing followed the body.
  have hbreak : lineBreakAfter trim (part.body.text ++ rest) =
      ((lineBreakAfter trim part.body.text).1, (lineBreakAfter trim part.body.text).2 ++ rest) :=
    lineBreakAfter_append (fun _ => hhead) part.body.text
  have hcompiles := part.body.compiles
  have hseam := part.body.not_opensAcross rest
  have hbody : part.body.body =
    .mk (String.ofList (lineBreakAfter trim part.body.text).2) part.body.actions := rfl
  generalize lineBreakAfter trim part.body.text = cut at hbreak hcompiles hseam hbody
  obtain ⟨lineBreak, behind⟩ := cut
  let start := offset + Text.utf8Length (part.tag.text ++ lineBreak)
  obtain ⟨d, hd, hactions⟩ := exists_cuts_of_compile hcompiles start
  refine ⟨⟨offset, part.tag.text ++ lineBreak, .tag name part.tag.arguments⟩, d,
    start + Text.utf8Length behind, ⟨_, rfl⟩, rfl, ?_, ?_⟩
  · rw [bodyOf, hd.sourceOf_eq, hactions, hbody]
  · intro ps hps
    have hjoin := hd.join hps hseam fun _ => hhead
    rw [joinPieces_of_head (hps.head_ne_text hrest)] at hjoin
    have hcuts := part.tag.cuts_append hname offset (part.body.text ++ rest)
      (by rw [hbreak]; exact hjoin)
    rw [hbreak] at hcuts
    rwa [text, List.append_assoc]

end WrittenPart

/-! ## Blocks with a single body -/

/-- A block with a single body as it is written. -/
structure WrittenBlock (trim : Bool) (kind : PlainBlock) where
  part : WrittenPart trim kind.name
  closing : WrittenTag ("end" ++ kind.name)

namespace WrittenBlock

variable {trim : Bool} {kind : PlainBlock} (block : WrittenBlock trim kind)

/-- The text of a block. -/
def text : List Char := block.part.text ++ block.closing.text

/-- The block that is written so. -/
def action : Action := (kind.part (tokens block.part.tag.arguments)).action block.part.body.body

/-- The text of a block compiles to the block. -/
theorem compile_text : compile trim (String.ofList block.text) = .ok [block.action] := by
  have hopens : kind.name ∈ openerNames ++ terminatorNames := by cases kind <;> decide
  have hcloses : "end" ++ kind.name ∈ openerNames ++ terminatorNames := by cases kind <;> decide
  obtain ⟨p, d, next, hp, harguments, hbody, hcuts⟩ :=
    block.part.exists_cuts hopens block.closing.atOpener_text 0
  obtain ⟨q, hq, hclosing⟩ := block.closing.cuts_text hcloses trim next
  let derivation : Sequence := .block kind p hp d q hq .nil
  have hactions : derivation.actions = [block.action] := by
    simp only [derivation, Sequence.actions, action, harguments, hbody]
  rw [← hactions]
  exact compile_of_cuts (hcuts [q] hclosing)

end WrittenBlock

/-! ## Conditionals -/

/-- A tag with a condition as it is written, and the body that it opens. -/
structure WrittenBranch (trim : Bool) (name : String) extends WrittenPart trim name where
  /-- There is a condition. -/
  given : ∃ c ∈ tag.arguments, Text.isBlank c = false

namespace WrittenBranch

variable {trim : Bool} {name : String} (b : WrittenBranch trim name)

/-- The branch that is written so. -/
def branch : Branch := .mk (conditionTokens b.tag.arguments) b.body.body

theorem hasArguments {p : Piece} (h : p.arguments = b.tag.arguments) : p.HasArguments := by
  rw [Piece.HasArguments, h]
  exact b.given

end WrittenBranch

/-- A conditional as it is written. -/
structure WrittenConditional (trim : Bool) where
  first : WrittenBranch trim "if"
  more : List (WrittenBranch trim "elif")
  otherwise : Option (WrittenPart trim "else")
  closing : WrittenTag "endif"

/-- The text of a conditional behind its first part. -/
def alternativesText {trim : Bool} (more : List (WrittenBranch trim "elif"))
    (otherwise : Option (WrittenPart trim "else")) (closing : WrittenTag "endif") : List Char :=
  more.flatMap (·.text) ++ (otherwise.elim [] (·.text) ++ closing.text)

theorem atOpener_alternativesText {trim : Bool} (more : List (WrittenBranch trim "elif"))
    (otherwise : Option (WrittenPart trim "else")) (closing : WrittenTag "endif") :
    atOpener (alternativesText more otherwise closing) = true := by
  cases more with
  | cons b more => rfl
  | nil => cases otherwise <;> rfl

/-- Wherever they stand, the alternatives of a conditional are cut as they are written. -/
theorem exists_alternatives {trim : Bool} (more : List (WrittenBranch trim "elif"))
    (otherwise : Option (WrittenPart trim "else")) (closing : WrittenTag "endif") (offset : Nat) :
    ∃ t : Alternatives, Cuts trim offset (alternativesText more otherwise closing) t.pieces ∧
      t.branches = more.map (·.branch) ∧ t.last = otherwise.map (·.body.body) := by
  induction more generalizing offset with
  | nil =>
    cases otherwise with
    | none =>
      obtain ⟨q, hq, hclosing⟩ := closing.cuts_text (by decide) trim offset
      exact ⟨.endif q hq, hclosing, rfl, rfl⟩
    | some part =>
      obtain ⟨p, d, next, hp, -, hbody, hcuts⟩ :=
        part.exists_cuts (by decide) closing.atOpener_text offset
      obtain ⟨q, hq, hclosing⟩ := closing.cuts_text (by decide) trim next
      exact ⟨.otherwise p hp d q hq, hcuts [q] hclosing, rfl, congrArg some hbody⟩
  | cons b more ih =>
    obtain ⟨p, d, next, hp, harguments, hbody, hcuts⟩ :=
      b.exists_cuts (by decide) (atOpener_alternativesText more otherwise closing) offset
    obtain ⟨t, ht, hbranches, hlast⟩ := ih next
    have htext : alternativesText (b :: more) otherwise closing =
        b.text ++ alternativesText more otherwise closing := by simp [alternativesText]
    refine ⟨.elif p hp (b.hasArguments harguments) d t, ?_, ?_, hlast⟩
    · rw [htext]
      exact hcuts t.pieces ht
    · simp only [Alternatives.branches, harguments, hbody, hbranches]
      rfl

namespace WrittenConditional

variable {trim : Bool} (w : WrittenConditional trim)

/-- The text of a conditional. -/
def text : List Char :=
  w.first.text ++ w.more.flatMap (·.text) ++ w.otherwise.elim [] (·.text) ++ w.closing.text

/-- The branches with conditions, in order. -/
def branches : List Branch := w.first.branch :: w.more.map (·.branch)

/-- The body without a condition. -/
def last : Option Body := w.otherwise.map (·.body.body)

/-- The conditional that is written so. -/
def action : Action := .conditional w.branches w.last

/-- The text of a conditional compiles to the conditional. -/
theorem compile_text : compile trim (String.ofList w.text) = .ok [w.action] := by
  obtain ⟨p, d, next, hp, harguments, hbody, hcuts⟩ :=
    w.first.exists_cuts (by decide) (atOpener_alternativesText w.more w.otherwise w.closing) 0
  obtain ⟨t, ht, hbranches, hlast⟩ := exists_alternatives w.more w.otherwise w.closing next
  let derivation : Sequence := .conditional p hp (w.first.hasArguments harguments) d t .nil
  have hactions : derivation.actions = [w.action] := by
    simp only [derivation, Sequence.actions, harguments, hbody, hbranches, hlast]
    rfl
  have hpieces : derivation.pieces = p :: (d.pieces ++ t.pieces) := by
    simp [derivation, Sequence.pieces]
  have htext : w.text = w.first.text ++ alternativesText w.more w.otherwise w.closing := by
    simp [text, alternativesText]
  rw [← hactions, htext]
  refine compile_of_cuts ?_
  rw [hpieces]
  exact hcuts t.pieces ht

end WrittenConditional

end Stencil.Template
