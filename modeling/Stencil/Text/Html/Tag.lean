import Stencil.Text.Case
import Stencil.Text.Layout
import Stencil.Text.Substitute

/-!
# Tags of HTML

HTML text consists of tags, which reach from `<` to the next `>`, and of what stands between them.
`stripTags` removes the tags; `truncateHtml` shortens the text between them and closes the tags
that are open where it is cut.
-/

namespace Stencil.Text

/-- Removes one tag. Reference: `TAG`. -/
def tagRule : Rule
  | '<' :: cs =>
    let inside := cs.takeWhile (· != '>')
    if inside.length < cs.length then some ([], inside.length + 2) else none
  | _ => none

/-- A text without its tags until none is left. Reference: `strip_tags`. -/
def stripTags (cs : List Char) : List Char :=
  let stripped := substitute tagRule cs
  if stripped.length < cs.length then stripTags stripped else cs
termination_by cs.length

/-- A piece of HTML text. -/
inductive HtmlPiece where
  /-- From `<` to `>`. -/
  | tag (source : List Char)
  /-- Text without `<`, or a `<` that no `>` follows. -/
  | text (source : List Char)
  deriving DecidableEq, Repr

/-- The text of a piece. -/
def HtmlPiece.source : HtmlPiece → List Char
  | .tag source => source
  | .text source => source

/-- The pieces of a text. Reference: `TAG_OR_TEXT`. -/
def htmlPieces (cs : List Char) : List HtmlPiece :=
  match cs with
  | [] => []
  | c :: rest =>
    if c = '<' then
      match _h : rest.dropWhile (· != '>') with
      | [] => .text ['<'] :: htmlPieces rest
      | close :: after =>
        .tag ('<' :: rest.takeWhile (· != '>') ++ [close]) :: htmlPieces after
    else
      .text (c :: rest.takeWhile (· != '<')) :: htmlPieces (rest.dropWhile (· != '<'))
termination_by cs.length
decreasing_by
  all_goals simp only [List.length_cons]
  · omega
  · have := (List.dropWhile_suffix (l := rest) (· != '>')).length_le
    simp only [_h, List.length_cons] at this
    omega
  · exact Nat.lt_succ_of_le (List.dropWhile_suffix _).length_le

/-- What a tag does to the tags that are open. -/
inductive TagEffect where
  | opens (name : List Char)
  | closes (name : List Char)
  /-- Nothing: the tag is no element, closes itself, or has no content. -/
  | none
  deriving DecidableEq, Repr

/-- The elements that have no content. Reference: `VOID_TAGS`. -/
def voidElements : List String :=
  ["area", "base", "br", "col", "embed", "hr", "img", "input", "link", "meta", "param", "source",
    "track", "wbr"]

/-- The name at the front of a text: a letter, then letters, digits and hyphens of ASCII.
Reference: `TAG_NAME`. -/
def elementName (cs : List Char) : List Char :=
  match cs with
  | [] => []
  | c :: rest => if c.isAlpha then c :: rest.takeWhile fun d => d.isAlphanum || d == '-' else []

/-- The effect of a tag. -/
def tagEffect (source : List Char) : TagEffect :=
  let inside := trimStart (source.drop 1)
  let (closing, afterSlash) := match inside with
    | '/' :: rest => (true, trimStart rest)
    | rest => (false, rest)
  let name := lower (elementName afterSlash)
  if name.isEmpty then .none
  else if closing then .closes name
  else if "/>".toList.isSuffixOf source || voidElements.contains (String.ofList name) then .none
  else .opens name

/-- The open tags after a tag, innermost first. A closing tag also closes the tags inside its own;
without an opening tag it does nothing. Reference: `track_tag`. -/
def trackTag (opened : List (List Char)) (source : List Char) : List (List Char) :=
  match tagEffect source with
  | .opens name => name :: opened
  | .closes name =>
    if opened.contains name then (opened.dropWhile (· != name)).drop 1 else opened
  | .none => opened

/-- How text is measured. -/
inductive Measure where
  | chars
  | words
  deriving DecidableEq, Repr

/-- The size of a text. -/
def Measure.size : Measure → List Char → Nat
  | .chars, cs => cs.length
  | .words, cs => (Text.words cs).length

/-- The text up to the end of its `n`-th word; `inWord` says whether a word is being read. -/
def takeWords : (n : Nat) → (inWord : Bool) → List Char → List Char
  | _, _, [] => []
  | n, inWord, c :: cs =>
    if isBlank c then
      if n = 0 then [] else c :: takeWords n false cs
    else if inWord then c :: takeWords n true cs
    else match n with
      | 0 => []
      | n + 1 => c :: takeWords n true cs

/-- The front of a text of a given size. -/
def Measure.take : Measure → Nat → List Char → List Char
  | .chars, n, cs => cs.take n
  | .words, 0, _ => []
  | .words, n, cs => takeWords n false cs

/-- The sign of a cut: a word is followed by a blank. -/
def Measure.ellipsis : Measure → List Char
  | .chars => [Text.ellipsis]
  | .words => [' ', Text.ellipsis]

/-- Closing tags for open tags. -/
def closers (opened : List (List Char)) : List Char :=
  opened.flatMap fun name => ['<', '/'] ++ name ++ ['>']

/-- Copies pieces while `budget` lasts, then cuts. -/
def cutPieces (m : Measure) : (budget : Nat) → (opened : List (List Char)) → List HtmlPiece →
    List Char
  | _, _, [] => []
  | budget, opened, .tag source :: rest =>
    source ++ cutPieces m budget (trackTag opened source) rest
  | budget, opened, .text source :: rest =>
    if m.size source ≤ budget then source ++ cutPieces m (budget - m.size source) opened rest
    else m.take budget source ++ m.ellipsis ++ closers opened

/-- The size of the text between the tags. -/
def textSize (m : Measure) : List HtmlPiece → Nat
  | [] => 0
  | .tag _ :: pieces => textSize m pieces
  | .text source :: pieces => m.size source + textSize m pieces

/-- HTML text of at most a given size between its tags. The ellipsis counts as a character, but not
as a word. Reference: `truncate_html`. -/
def truncateHtml (m : Measure) (limit : Int) (cs : List Char) : List Char :=
  if limit ≤ 0 then []
  else
    let pieces := htmlPieces cs
    if textSize m pieces ≤ limit.toNat then cs
    else
      let budget := match m with
        | .chars => limit.toNat - 1
        | .words => limit.toNat
      cutPieces m budget [] pieces

/-! ## Line breaks -/

/-- A text with its line separator turned into break elements. Where the separator is a newline, a
backslash with the letter `n` counts as one. Reference: `line_breaks_br`. -/
def breakLines (separator cs : List Char) : List Char :=
  let cs := if separator = ['\n'] then replaceAll ['\\', 'n'] ['\n'] cs else cs
  replaceAll separator "<br>".toList cs

/-- A text with its paragraphs marked up. Where the paragraph separator is two newlines, twice a
backslash with the letter `n` counts as one. Reference: `line_breaks`. -/
def breakParagraphs (paragraph separator cs : List Char) : List Char :=
  let cs := if paragraph = ['\n', '\n'] then
    replaceAll ['\\', 'n', '\\', 'n'] ['\n', '\n'] cs else cs
  (splitBy paragraph cs).flatMap fun part =>
    "<p>".toList ++ breakLines separator part ++ "</p>".toList

end Stencil.Text
