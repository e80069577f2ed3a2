import Stencil.Text.Split

/-!
# Laying out text

Padding to a width, cutting to a number of characters or words, wrapping lines, and the keys of a
telephone.
-/

namespace Stencil.Text

/-! ## Padding -/

/-- A text centred in a width. Of an odd number of fill characters the larger half stands on the
left if the width is odd, else on the right. Reference: `center`. -/
def center (fill : Char) (width : Nat) (cs : List Char) : List Char :=
  if width ≤ cs.length then cs
  else
    let margin := width - cs.length
    let left := margin / 2 + (if margin % 2 = 1 ∧ width % 2 = 1 then 1 else 0)
    List.replicate left fill ++ cs ++ List.replicate (margin - left) fill

/-- A text at the left of a width. Reference: `ljust`. -/
def ljust (fill : Char) (width : Nat) (cs : List Char) : List Char :=
  cs ++ List.replicate (width - cs.length) fill

/-- A text at the right of a width. Reference: `rjust`. -/
def rjust (fill : Char) (width : Nat) (cs : List Char) : List Char :=
  List.replicate (width - cs.length) fill ++ cs

/-! ## Cutting -/

/-- The sign of an omission. -/
def ellipsis : Char := '…'

/-- A text of at most so many characters, the ellipsis of a cut included.
Reference: `truncate_chars`. -/
def truncateChars (limit : Int) (cs : List Char) : List Char :=
  if limit ≤ 0 then []
  else if cs.length ≤ limit.toNat then cs
  else cs.take (limit.toNat - 1) ++ [ellipsis]

/-- The first words of a text, one blank apart; an ellipsis stands for the others.
Reference: `truncate_words`. -/
def truncateWords (limit : Int) (cs : List Char) : List Char :=
  if limit ≤ 0 then []
  else
    let all := words cs
    if all.length > limit.toNat then joinWith [' '] (all.take limit.toNat) ++ [' ', ellipsis]
    else joinWith [' '] all

/-! ## Wrapping -/

/-- The index of the last character equal to `c`. -/
def lastIndexOf? (c : Char) (cs : List Char) : Option Nat :=
  (cs.reverse.findIdx? (· == c)).map fun i => cs.length - 1 - i

/-- Where a line that is longer than the width is broken: at the last space that leaves at most
`width` characters before it, else at the first space there is. -/
def breakIndex? (width : Nat) (line : List Char) : Option Nat :=
  match lastIndexOf? ' ' (line.take (width + 1)) with
  | some i => some i
  | none => line.findIdx? (· == ' ')

/-- A line with line breaks in place of some of its spaces. -/
def wrapLine (width : Nat) (line : List Char) : List Char :=
  if _h : width < line.length then
    match breakIndex? width line with
    | some i => line.take i ++ '\n' :: wrapLine width (line.drop (i + 1))
    | none => line
  else line
termination_by line.length
decreasing_by simp only [List.length_drop]; omega

/-- The lines of a text, each with the line break that ends it. -/
def linesInclusive : List Char → List (List Char)
  | [] => []
  | c :: cs =>
    if c = '\n' then [c] :: linesInclusive cs
    else match linesInclusive cs with
      | [] => [[c]]
      | line :: lines => (c :: line) :: lines

/-- A text whose lines are broken at spaces to fit a width. A width that is not positive leaves it
alone. Reference: `word_wrap`. -/
def wordWrap (width : Int) (cs : List Char) : List Char :=
  if width ≤ 0 then cs else (linesInclusive cs).flatMap (wrapLine width.toNat)

/-! ## Telephone keys -/

/-- The telephone key of a letter. Reference: `phone2numeric`. -/
def phoneKey (c : Char) : Char :=
  let l := c.toLower
  if l < 'a' ∨ 'z' < l then c
  else if l ≤ 'c' then '2'
  else if l ≤ 'f' then '3'
  else if l ≤ 'i' then '4'
  else if l ≤ 'l' then '5'
  else if l ≤ 'o' then '6'
  else if l ≤ 's' then '7'
  else if l ≤ 'v' then '8'
  else '9'

end Stencil.Text
