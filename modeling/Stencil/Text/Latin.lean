import Stencil.Text.Digit
import Stencil.Text.Latin.Table
import Stencil.Text.Split

/-!
# Writing text in Latin letters

Every character has a piece of ASCII text that stands for it. Characters of ASCII stand for
themselves.
-/

namespace Stencil.Text

/-- The piece of a block for a code point. -/
def LatinBlock.piece? (block : LatinBlock) (n : Nat) : Option (List Char) :=
  if n < block.first then none
  else (splitOn '|' block.pieces.toList)[n - block.first]?

/-- The last block that does not begin behind a code point; blocks are in order. -/
def latinBlock? (n : Nat) : Option LatinBlock :=
  latinBlocks.foldl (fun found block => if block.first ≤ n then some block else found) none

/-- The reading of an ideograph, with a capital and a space behind it. -/
def latinReading? (c : Char) : Option (List Char) :=
  (latinReadings.find? fun (_, cs) => cs.toList.contains c).map fun (reading, _) =>
    reading.toList ++ [' ']

/-- The name of a pictograph, with a space behind it. -/
def latinName? (c : Char) : Option (List Char) :=
  (latinNames.lookup c).map fun name => name.toList ++ [' ']

/-- The first letters of Korean syllables. -/
def hangulInitials : List String :=
  ["g", "gg", "n", "d", "dd", "r", "m", "b", "bb", "s", "ss", "", "j", "jj", "ch", "k", "t", "p",
    "h"]

/-- The vowels of Korean syllables. -/
def hangulVowels : List String :=
  ["a", "ae", "ya", "yae", "eo", "e", "yeo", "ye", "o", "wa", "wae", "oe", "yo", "u", "weo", "we",
    "wi", "yu", "eu", "yi", "i"]

/-- The last letters of Korean syllables. -/
def hangulFinals : List String :=
  ["", "g", "gg", "gs", "n", "nj", "nh", "d", "l", "lg", "lm", "lb", "ls", "lt", "lp", "lh", "m",
    "b", "bs", "s", "ss", "ng", "j", "c", "k", "t", "p", "h"]

/-- A Korean syllable of an index: its first letter, its vowel and its last letter. -/
def hangulSyllable (index : Nat) : List Char :=
  let part (names : List String) (i : Nat) : List Char := (names[i]?.getD "").toList
  part hangulInitials (index / 588) ++ part hangulVowels (index / 28 % 21) ++
    part hangulFinals (index % 28)

/-- A letter among the styled alphabets of mathematics, which follow each other without a gap. -/
def styledLetter (index : Nat) : Char :=
  if index % 52 < 26 then Char.ofNat (65 + index % 52) else Char.ofNat (71 + index % 52)

/-- What stands for a character outside ASCII; nothing for a character without a reading. -/
def latinForeign (c : Char) : List Char :=
  let n := c.toNat
  if 0xAC00 ≤ n ∧ n ≤ 0xD7A3 then hangulSyllable (n - 0xAC00)
  else if 0xFF01 ≤ n ∧ n ≤ 0xFF5E then [Char.ofNat (n - 0xFEE0)]
  else if 0x1D400 ≤ n ∧ n ≤ 0x1D6A3 then [styledLetter (n - 0x1D400)]
  else
    let known := latinReading? c <|> latinName? c <|> (latinBlock? n).bind (·.piece? n)
    known.getD (match digitValue? c with
      | some d => [Char.ofNat (48 + d)]
      | none => [])

/-- A text with a piece of ASCII in place of every other character. -/
def latin (cs : List Char) : List Char :=
  cs.flatMap fun c => if c.toNat < 128 then [c] else latinForeign c

end Stencil.Text
