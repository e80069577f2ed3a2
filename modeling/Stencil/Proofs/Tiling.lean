import Mathlib
import Stencil.Proofs.Pieces

/-!
# The pieces of a template tile it

Every `Piece` covers the bytes between its bounds, the next piece begins where it ends, and the
bounds never fall inside a character. Plain text holds no opening delimiter, and what is not plain
text stands between the delimiters of its kind.
-/

namespace Stencil.Template

/-! ## Bytes and characters -/

/-- Counting the bytes of a text character by character gives the size of the string. -/
theorem utf8Length_eq_utf8ByteSize (cs : List Char) :
    Text.utf8Length cs = (String.ofList cs).utf8ByteSize := by
  induction cs with
  | nil => rfl
  | cons c cs ih =>
    have hcons : String.ofList (c :: cs) = String.singleton c ++ String.ofList cs := by
      rw [String.singleton_eq_ofList, ← String.ofList_append, List.singleton_append]
    rw [Text.utf8Length, ih, hcons, String.utf8ByteSize_append, String.utf8ByteSize_singleton]

/-- A text that is not empty has at least one byte. -/
theorem utf8Length_pos {cs : List Char} (h : cs ≠ []) : 0 < Text.utf8Length cs := by
  cases cs with
  | nil => exact absurd rfl h
  | cons c cs =>
    have := c.utf8Size_pos
    rw [Text.utf8Length]
    omega

/-- The byte after the first part of a text is a character boundary. -/
theorem isValid_utf8Length {s : String} {before after : List Char}
    (h : s.toList = before ++ after) :
    String.Pos.Raw.IsValid s ⟨Text.utf8Length before⟩ := by
  have hs : s = String.ofList before ++ String.ofList after := by
    rw [← String.ofList_append, ← h, String.ofList_toList]
  rw [String.Pos.Raw.isValid_iff_exists_append]
  exact ⟨_, _, hs, by rw [utf8Length_eq_utf8ByteSize]; rfl⟩

/-- The bytes between the bounds of a part of a text are the bytes of that part. -/
theorem extract_toByteArray {s : String} {before part after : List Char}
    (h : s.toList = before ++ part ++ after) :
    s.toByteArray.extract (Text.utf8Length before)
      (Text.utf8Length before + Text.utf8Length part) = (String.ofList part).toByteArray := by
  have hs : s = String.ofList before ++ String.ofList part ++ String.ofList after := by
    rw [← String.ofList_append, ← String.ofList_append, ← h, String.ofList_toList]
  have hsize (cs : List Char) : Text.utf8Length cs = (String.ofList cs).toByteArray.size :=
    utf8Length_eq_utf8ByteSize cs
  rw [hs, String.toByteArray_append, String.toByteArray_append, hsize, hsize,
    ← ByteArray.size_append, ByteArray.extract_append_size_left, ByteArray.size_append]
  exact ByteArray.extract_append_eq_right rfl rfl

/-! ## What a piece covers -/

/-- The opening delimiters. -/
def openers : List (List Char) := [['\x7b', '\x7b'], ['\x7b', '%'], ['\x7b', '#']]

/-- The text of a piece is as its kind has it: plain text holds no opening delimiter; anything else
stands between its own delimiters, behind which only a trimmed tag has anything, namely at most one
line break. -/
def Piece.Delimited (trim : Bool) (p : Piece) : Prop :=
  match p.kind with
  | .text => ∀ opener ∈ openers, ¬opener <:+: p.source
  | .emit _ => ∃ content, p.source = ['\x7b', '\x7b'] ++ content ++ ['\x7d', '\x7d']
  | .comment _ => ∃ content, p.source = ['\x7b', '#'] ++ content ++ ['#', '\x7d']
  | .tag .. => ∃ content lineBreak,
    p.source = ['\x7b', '%'] ++ content ++ ['%', '\x7d'] ++ lineBreak ∧
      (lineBreak = [] ∨ trim = true ∧ (lineBreak = ['\n'] ∨ lineBreak = ['\r', '\n']))

/-- Nowhere in the text up to the first opening delimiter does one begin. -/
theorem not_atOpener_of_suffix {cs part : List Char} (h : part <:+ (spanText cs).1) :
    ¬atOpener part = true := by
  induction cs with
  | nil =>
    rw [List.suffix_nil.1 h]
    simp [atOpener]
  | cons c cs ih =>
    rw [spanText] at h
    split at h
    · rw [List.suffix_nil.1 h]
      simp [atOpener]
    · rename_i hc
      rcases List.suffix_cons_iff.1 h with rfl | h
      · -- An opening delimiter at the front of the text is one at the front of the whole.
        intro ha
        refine hc (atOpener_mono ⟨(spanText cs).2, ?_⟩ ha)
        rw [List.cons_append, spanText_append]
      · exact ih h

/-- The text up to the first opening delimiter holds none. -/
theorem not_opener_infix_spanText (cs : List Char) {opener : List Char} (ho : opener ∈ openers) :
    ¬opener <:+: (spanText cs).1 := by
  rintro ⟨before, after, h⟩
  have hsuffix : opener ++ after <:+ (spanText cs).1 := ⟨before, by rw [← h, List.append_assoc]⟩
  refine not_atOpener_of_suffix hsuffix ?_
  simp only [openers, List.mem_cons, List.not_mem_nil, or_false] at ho
  rcases ho with rfl | rfl | rfl <;> rfl

/-- What a trimmed tag takes is a line break. -/
theorem lineBreakAfter_cases (trim : Bool) (after : List Char) :
    (lineBreakAfter trim after).1 = [] ∨
      trim = true ∧ ((lineBreakAfter trim after).1 = ['\n'] ∨
        (lineBreakAfter trim after).1 = ['\r', '\n']) := by
  unfold lineBreakAfter splitLineBreak
  split
  · rename_i htrim
    split
    · exact .inr ⟨htrim, .inl rfl⟩
    · exact .inr ⟨htrim, .inr rfl⟩
    · exact .inl rfl
  · exact .inl rfl

/-- A piece that is cut off is as its kind has it. -/
theorem delimited_of_cutPiece {trim : Bool} {cs source rest : List Char} {kind : PieceKind}
    {offset : Nat} (h : cutPiece trim cs = .ok (kind, source, rest)) :
    Piece.Delimited trim ⟨offset, source, kind⟩ := by
  by_cases ho : atOpener cs = true
  · rcases opener_cases ho with ⟨inner, rfl⟩ | ⟨inner, rfl⟩ | ⟨inner, rfl⟩
    · obtain ⟨content, _, _, rfl, rfl⟩ := cutEmit_eq_ok_iff.1 h
      exact ⟨content, rfl⟩
    · obtain ⟨content, after, _, _, rfl, rfl, _⟩ := cutTag_eq_ok_iff.1 h
      exact ⟨content, _, rfl, lineBreakAfter_cases trim after⟩
    · obtain ⟨content, _, rfl, rfl⟩ := cutComment_eq_ok_iff.1 h
      exact ⟨content, rfl⟩
  · rw [cutPiece_text trim ho] at h
    cases h
    exact fun opener => not_opener_infix_spanText cs

/-! ## Where the pieces stand -/

/-- The pieces of a template tile it. -/
structure Tiles (trim : Bool) (template : String) (ps : List Piece) : Prop where
  /-- Only the empty template has no pieces. -/
  eq_nil_iff : ps = [] ↔ template = ""
  first : ∀ p ∈ ps.head?, p.start = 0
  /-- Every piece begins where the one before it ends. -/
  adjacent : ps.IsChain fun p q => q.start = p.stop
  last : ∀ p ∈ ps.getLast?, p.stop = template.utf8ByteSize
  nonempty : ∀ p ∈ ps, p.start < p.stop
  boundaries : ∀ p ∈ ps, String.Pos.Raw.IsValid template ⟨p.start⟩ ∧
    String.Pos.Raw.IsValid template ⟨p.stop⟩
  /-- The text of a piece has the bytes between its bounds. -/
  source : ∀ p ∈ ps,
    template.toByteArray.extract p.start p.stop = (String.ofList p.source).toByteArray
  delimited : ∀ p ∈ ps, p.Delimited trim
  /-- Plain text is not followed by plain text. -/
  separated : ps.IsChain fun p q => p.kind = .text → q.kind ≠ .text

section Cuts

variable {trim : Bool} {offset : Nat} {cs : List Char} {ps : List Piece}

/-- The first piece stands at the beginning. -/
theorem Cuts.start_eq {p : Piece} (h : Cuts trim offset cs (p :: ps)) : p.start = offset := by
  cases h
  rfl

/-- The pieces follow each other without a gap. -/
theorem Cuts.adjacent (h : Cuts trim offset cs ps) : ps.IsChain fun p q => q.start = p.stop := by
  induction h with
  | nil => exact .nil
  | @cons offset cs source rest kind ps hne hcut hrest ih =>
    refine ih.cons fun q hq => ?_
    obtain ⟨qs, rfl⟩ := List.head?_eq_some_iff.1 hq
    exact hrest.start_eq

/-- The last piece ends where the text ends. -/
theorem Cuts.stop_getLast (h : Cuts trim offset cs ps) {p : Piece} (hp : ps.getLast? = some p) :
    p.stop = offset + Text.utf8Length cs := by
  obtain ⟨qs, rfl⟩ := List.getLast?_eq_some_iff.1 hp
  have hdrop : p.start = offset + Text.utf8Length (sourceOf qs) := h.drop.start_eq
  have hcs : sourceOf qs ++ p.source = cs := by
    rw [← h.sourceOf_eq, sourceOf_append, sourceOf_cons, sourceOf_nil, List.append_nil]
  rw [Piece.stop, hdrop, ← hcs, utf8Length_append, Nat.add_assoc]

/-- A piece stands where its text stands. -/
theorem Cuts.exists_of_mem (h : Cuts trim offset cs ps) {p : Piece} (hp : p ∈ ps) :
    ∃ before after, cs = before ++ p.source ++ after ∧
      p.start = offset + Text.utf8Length before := by
  obtain ⟨qs, rs, rfl⟩ := List.append_of_mem hp
  refine ⟨sourceOf qs, sourceOf rs, ?_, h.drop.start_eq⟩
  rw [← h.sourceOf_eq, sourceOf_append, sourceOf_cons, List.append_assoc]

/-- Every piece has been cut off the front of some text. -/
theorem Cuts.cut_of_mem (h : Cuts trim offset cs ps) {p : Piece} (hp : p ∈ ps) :
    ∃ ds rest, ds ≠ [] ∧ cutPiece trim ds = .ok (p.kind, p.source, rest) := by
  induction h with
  | nil => cases hp
  | cons hne hcut hrest ih =>
    rcases List.mem_cons.1 hp with rfl | hp
    · exact ⟨_, _, hne, hcut⟩
    · exact ih hp

theorem Cuts.source_ne_nil (h : Cuts trim offset cs ps) {p : Piece} (hp : p ∈ ps) :
    p.source ≠ [] := by
  obtain ⟨ds, rest, hne, hcut⟩ := h.cut_of_mem hp
  cases ds with
  | nil => exact absurd rfl hne
  | cons d ds => exact cutPiece_source_ne_nil hcut

/-- Behind plain text stands an opening delimiter, where no plain text begins. -/
theorem Cuts.separated (h : Cuts trim offset cs ps) :
    ps.IsChain fun p q => p.kind = .text → q.kind ≠ .text := by
  induction h with
  | nil => exact .nil
  | @cons offset cs source rest kind ps hne hcut hrest ih =>
    refine ih.cons fun q hq hkind => ?_
    obtain rfl : kind = .text := hkind
    obtain ⟨qs, rfl⟩ := List.head?_eq_some_iff.1 hq
    cases hrest with
    | cons hne' hcut' _ =>
      exact kind_ne_text_of_atOpener ((rest_of_cutPiece_text hcut).resolve_left hne') hcut'

end Cuts

/-- Whenever a template is cut into pieces, these tile it (`Tiles`). -/
theorem tiles_of_pieces {trim : Bool} {template : String} {ps : List Piece}
    (h : pieces trim template = .ok ps) : Tiles trim template ps := by
  have hcuts : Cuts trim 0 template.toList ps := cuts_of_piecesFrom h
  have hplace : ∀ p ∈ ps, ∃ before after, template.toList = before ++ p.source ++ after ∧
      p.start = Text.utf8Length before := fun p hp => by
    obtain ⟨before, after, hcs, hstart⟩ := hcuts.exists_of_mem hp
    exact ⟨before, after, hcs, by rw [hstart, Nat.zero_add]⟩
  constructor
  case eq_nil_iff =>
    rw [← String.toList_eq_nil_iff]
    constructor
    · rintro rfl
      exact hcuts.sourceOf_eq.symm
    · intro hempty
      rw [hempty] at hcuts
      cases hcuts with
      | nil => rfl
      | cons hne => exact absurd rfl hne
  case first =>
    intro p hp
    obtain ⟨qs, rfl⟩ := List.head?_eq_some_iff.1 hp
    exact hcuts.start_eq
  case adjacent => exact hcuts.adjacent
  case last =>
    intro p hp
    rw [hcuts.stop_getLast hp, Nat.zero_add, utf8Length_eq_utf8ByteSize, String.ofList_toList]
  case nonempty =>
    intro p hp
    have := utf8Length_pos (hcuts.source_ne_nil hp)
    rw [Piece.stop]
    omega
  case boundaries =>
    intro p hp
    obtain ⟨before, after, hcs, hstart⟩ := hplace p hp
    rw [Piece.stop, hstart, ← utf8Length_append]
    exact ⟨isValid_utf8Length (by rw [hcs, List.append_assoc]), isValid_utf8Length hcs⟩
  case source =>
    intro p hp
    obtain ⟨before, after, hcs, hstart⟩ := hplace p hp
    rw [Piece.stop, hstart]
    exact extract_toByteArray hcs
  case delimited =>
    intro p hp
    obtain ⟨ds, rest, -, hcut⟩ := hcuts.cut_of_mem hp
    exact delimited_of_cutPiece hcut
  case separated => exact hcuts.separated

/-- Two-byte text, a tag that takes a line break of two characters, and a quoted delimiter. -/
theorem tiles_of_pieces_lineBreak :
    let template := "é\x7b% if x %\x7d\r\n\x7b\x7b '\x7d\x7d' \x7d\x7d"
    let ps : List Piece := [
      ⟨0, ['é'], .text⟩,
      ⟨2, "\x7b% if x %\x7d\r\n".toList, .tag "if" ['x']⟩,
      ⟨14, "\x7b\x7b '\x7d\x7d' \x7d\x7d".toList, .emit "'\x7d\x7d'".toList⟩]
    pieces true template = .ok ps ∧ Tiles true template ps := by
  intro template ps
  have h : pieces true template = .ok ps := by
    simp only [template, ps]
    cbv
  exact ⟨h, tiles_of_pieces h⟩

end Stencil.Template
