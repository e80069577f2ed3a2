import Stencil.Template.Error
import Stencil.Template.Quote
import Stencil.Text.Split

/-!
# Pieces of a template

Template text is cut into pieces: plain text, emits between double braces, tags between braces
with percent signs, and comments between braces with number signs. Each piece keeps the text it
covers, so the pieces of a template put together are the template, and the place of a piece is the
number of bytes before it.
-/

namespace Stencil.Template

/-- What a piece is. -/
inductive PieceKind where
  /-- Plain text. -/
  | text
  /-- The content of an emit, without blanks outside quotes. -/
  | emit (content : List Char)
  /-- A tag's name and the rest of its content. -/
  | tag (name : String) (arguments : List Char)
  /-- The content of a comment. -/
  | comment (content : List Char)
  deriving DecidableEq, Repr

/-- A piece, the byte at which it begins and the text it covers. -/
structure Piece where
  start : Nat
  source : List Char
  kind : PieceKind
  deriving DecidableEq, Repr

/-- The byte at which a piece ends. -/
def Piece.stop (p : Piece) : Nat := p.start + Text.utf8Length p.source

/-- Whether a text begins with the opening delimiter of an emit, a tag or a comment. -/
def atOpener : List Char → Bool
  | '\x7b' :: c :: _ => c == '\x7b' || c == '%' || c == '#'
  | _ => false

/-- The text up to the first opening delimiter, and what follows. -/
def spanText : List Char → List Char × List Char
  | [] => ([], [])
  | c :: cs =>
    if atOpener (c :: cs) then ([], c :: cs)
    else
      let (text, rest) := spanText cs
      (c :: text, rest)

/-- Whether a character belongs to the name of a tag. -/
def isNameChar (c : Char) : Bool := !Text.isBlank c && c != '%'

/-- Whether the content of the tags with this name is kept as it is. Such content may hold stray
quotes. -/
def isRawName (name : String) : Bool := name = "comment" || name = "copy" || name = "ignore"

/-- A single line break at the start of a text, and what follows it. -/
def splitLineBreak : List Char → List Char × List Char
  | '\n' :: cs => (['\n'], cs)
  | '\r' :: '\n' :: cs => (['\r', '\n'], cs)
  | cs => ([], cs)

/-- The fault of a tag that is not closed: it lies in the quote that is open at the end, if one
is. -/
def unclosed (q : Quote) : Fault := if q = .outside then .unclosedTag else .unclosedString

/-- A piece cut off the front of a text: its kind, its text, and the text behind it. -/
abbrev Cut := PieceKind × List Char × List Char

/-- Cuts off a comment; the text is what follows its opening delimiter. -/
def cutComment (cs : List Char) : Except Fault Cut :=
  match Text.cutAt? ['#', '\x7d'] cs with
  | none => .error .unclosedTag
  | some (content, rest) =>
    .ok (.comment (Text.trim content), ['\x7b', '#'] ++ content ++ ['#', '\x7d'], rest)

/-- Cuts off an emit; the text is what follows its opening delimiter. -/
def cutEmit (cs : List Char) : Except Fault Cut :=
  match cutOutsideQuotes '\x7d' '\x7d' .outside cs with
  | .error q => .error (unclosed q)
  | .ok (content, rest) =>
    let trimmed := Text.trim content
    if trimmed.isEmpty then .error .emptyTag
    else .ok (.emit (tighten trimmed), ['\x7b', '\x7b'] ++ content ++ ['\x7d', '\x7d'], rest)

/-- The content of a tag and what follows its closing delimiter. Reference: `find_close`. -/
def cutTagContent (name : String) (cs : List Char) : Except Fault (List Char × List Char) :=
  if isRawName name then
    match Text.cutAt? ['%', '\x7d'] cs with
    | none => .error .unclosedTag
    | some cut => .ok cut
  else
    match cutOutsideQuotes '%' '\x7d' .outside cs with
    | .error q => .error (unclosed q)
    | .ok cut => .ok cut

/-- Cuts off a tag; the text is what follows its opening delimiter. With `trim` a line break right
after the tag belongs to it. Reference: `next_piece`, `trim_blocks`. -/
def cutTag (trim : Bool) (cs : List Char) : Except Fault Cut := do
  let name := (Text.trimStart cs).takeWhile isNameChar
  let (content, after) ← cutTagContent (String.ofList name) cs
  if name.isEmpty then .error .emptyTag
  else
    let arguments := Text.trim ((Text.trimStart content).drop name.length)
    let (lineBreak, rest) := if trim then splitLineBreak after else ([], after)
    .ok (.tag (String.ofList name) arguments,
      ['\x7b', '%'] ++ content ++ ['%', '\x7d'] ++ lineBreak, rest)

/-- Cuts the first piece off a text that is not empty. Reference: `next_piece`. -/
def cutPiece (trim : Bool) (cs : List Char) : Except Fault Cut :=
  if atOpener cs then
    match cs with
    | _ :: '\x7b' :: inner => cutEmit inner
    | _ :: '%' :: inner => cutTag trim inner
    | _ :: _ :: inner => cutComment inner
    | _ => .error .emptyTag
  else
    let (text, rest) := spanText cs
    .ok (.text, text, rest)

/-! ## Nothing is lost -/

/-- Cutting at a needle loses nothing but the needle. -/
theorem cutAt?_eq {needle cs before after : List Char}
    (h : Text.cutAt? needle cs = some (before, after)) : cs = before ++ needle ++ after := by
  induction cs generalizing before after with
  | nil =>
    rw [Text.cutAt?] at h
    split at h
    · simp_all
    · simp at h
  | cons c cs ih =>
    rw [Text.cutAt?] at h
    split at h
    · rename_i hp
      obtain ⟨t, ht⟩ := List.isPrefixOf_iff_prefix.1 hp
      simp only [Option.some.injEq, Prod.mk.injEq] at h
      obtain ⟨rfl, rfl⟩ := h
      simp [← ht]
    · obtain ⟨⟨x, y⟩, hx, hxy⟩ := Option.map_eq_some_iff.1 h
      simp only [Prod.mk.injEq] at hxy
      obtain ⟨rfl, rfl⟩ := hxy
      simp [ih hx]

/-- The text before the first opener and the rest make up the whole. -/
theorem spanText_append (cs : List Char) : (spanText cs).1 ++ (spanText cs).2 = cs := by
  induction cs with
  | nil => rfl
  | cons c cs ih =>
    rw [spanText]
    split
    · rfl
    · simpa using ih

/-- A line break and what follows it make up the whole. -/
theorem splitLineBreak_append (cs : List Char) :
    (splitLineBreak cs).1 ++ (splitLineBreak cs).2 = cs := by
  unfold splitLineBreak
  split <;> simp

/-- The content of a tag, its closing delimiter and the rest make up the whole. -/
theorem cutTagContent_eq {name : String} {cs content rest : List Char}
    (h : cutTagContent name cs = .ok (content, rest)) :
    cs = content ++ ['%', '\x7d'] ++ rest := by
  unfold cutTagContent at h
  split at h
  · split at h
    · simp at h
    · rename_i hc
      simp only [Except.ok.injEq] at h
      subst h
      exact cutAt?_eq hc
  · split at h
    · simp at h
    · rename_i hc
      simp only [Except.ok.injEq] at h
      subst h
      simpa using cutOutsideQuotes_eq hc

/-- The piece cut off and the rest make up the text. -/
theorem cutPiece_eq {trim : Bool} {cs source rest : List Char} {kind : PieceKind}
    (h : cutPiece trim cs = .ok (kind, source, rest)) : cs = source ++ rest := by
  unfold cutPiece at h
  split at h
  · rename_i ho
    unfold atOpener at ho
    split at ho
    · rename_i c inner
      split at h
      · rename_i inner' heq
        simp only [List.cons.injEq] at heq
        obtain ⟨_, rfl, rfl⟩ := heq
        unfold cutEmit at h
        split at h
        · simp at h
        · rename_i hc
          dsimp only at h
          split at h
          · simp at h
          · simp only [Except.ok.injEq, Prod.mk.injEq] at h
            obtain ⟨_, rfl, rfl⟩ := h
            simp [cutOutsideQuotes_eq hc]
      · rename_i inner' heq
        simp only [List.cons.injEq] at heq
        obtain ⟨_, rfl, rfl⟩ := heq
        simp only [cutTag, bind, Except.bind] at h
        split at h
        · simp at h
        · rename_i r hc
          obtain ⟨content, after⟩ := r
          dsimp only at h
          split at h
          · simp at h
          · simp only [Except.ok.injEq, Prod.mk.injEq] at h
            obtain ⟨_, rfl, rfl⟩ := h
            cases trim with
            | false => simp [cutTagContent_eq hc]
            | true =>
              have := splitLineBreak_append after
              simp [cutTagContent_eq hc, this]
      · rename_i x y inner' hne hne' heq
        simp only [List.cons.injEq] at heq
        obtain ⟨rfl, rfl, rfl⟩ := heq
        have hy : c = '#' := by
          simp only [Bool.or_eq_true, beq_iff_eq] at ho
          rcases ho with (rfl | rfl) | rfl
          · exact absurd rfl hne
          · exact absurd rfl hne'
          · rfl
        subst hy
        unfold cutComment at h
        split at h
        · simp at h
        · rename_i hc
          simp only [Except.ok.injEq, Prod.mk.injEq] at h
          obtain ⟨_, rfl, rfl⟩ := h
          simp [cutAt?_eq hc]
      · simp at h
    · simp at ho
  · simp only [Except.ok.injEq, Prod.mk.injEq] at h
    obtain ⟨_, rfl, rfl⟩ := h
    exact (spanText_append cs).symm

/-- A piece covers at least one character. -/
theorem cutPiece_source_ne_nil {trim : Bool} {c : Char} {cs source rest : List Char}
    {kind : PieceKind} (h : cutPiece trim (c :: cs) = .ok (kind, source, rest)) : source ≠ [] := by
  unfold cutPiece at h
  split at h
  · split at h
    · unfold cutEmit at h
      split at h
      · simp at h
      · dsimp only at h
        split at h
        · simp at h
        · simp only [Except.ok.injEq, Prod.mk.injEq] at h
          obtain ⟨_, rfl, _⟩ := h
          simp
    · simp only [cutTag, bind, Except.bind] at h
      split at h
      · simp at h
      · split at h
        · simp at h
        · simp only [Except.ok.injEq, Prod.mk.injEq] at h
          obtain ⟨_, rfl, _⟩ := h
          simp
    · unfold cutComment at h
      split at h
      · simp at h
      · simp only [Except.ok.injEq, Prod.mk.injEq] at h
        obtain ⟨_, rfl, _⟩ := h
        simp
    · simp at h
  · rename_i ho
    simp only [Except.ok.injEq, Prod.mk.injEq] at h
    obtain ⟨_, rfl, _⟩ := h
    simp [spanText, ho]

/-- What is left after a piece is shorter than the text before it. -/
theorem cutPiece_rest_length_lt {trim : Bool} {c : Char} {cs source rest : List Char}
    {kind : PieceKind} (h : cutPiece trim (c :: cs) = .ok (kind, source, rest)) :
    rest.length < (c :: cs).length := by
  have hs := cutPiece_source_ne_nil h
  rw [cutPiece_eq h, List.length_append]
  have := List.length_pos_iff.2 hs
  omega

/-! ## All pieces -/

/-- The pieces of a text that begins at a byte of the template. -/
def piecesFrom (trim : Bool) (offset : Nat) (cs : List Char) : Except Error (List Piece) :=
  match cs with
  | [] => .ok []
  | c :: cs =>
    match _h : cutPiece trim (c :: cs) with
    | .error fault => .error ⟨offset, fault⟩
    | .ok (kind, source, rest) =>
      (piecesFrom trim (offset + Text.utf8Length source) rest).map (⟨offset, source, kind⟩ :: ·)
termination_by cs.length
decreasing_by exact cutPiece_rest_length_lt _h

/-- The pieces of a template. Reference: `tokenize`. -/
def pieces (trim : Bool) (template : String) : Except Error (List Piece) :=
  piecesFrom trim 0 template.toList

end Stencil.Template
