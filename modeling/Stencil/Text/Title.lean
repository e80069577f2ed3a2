import Stencil.Text.Case
import Stencil.Text.Digit
import Stencil.Text.Substitute

/-!
# Title case

Every word begins with an upper case letter and goes on in lower case. A letter after an
apostrophe or a digit belongs to the word before it.
-/

namespace Stencil.Text

/-- The letters of a text in title case; `inWord` says whether a letter precedes. -/
def titleLetters : (inWord : Bool) → List Char → List Char
  | _, [] => []
  | inWord, c :: cs =>
    let isLetter := isCaseLetter c
    let mapped := if isLetter then (if inWord then lowerChar c else upperChar c) else [c]
    mapped ++ titleLetters isLetter cs

/-- Whether a character is a lower case letter of ASCII. -/
def isAsciiLower (c : Char) : Bool := 'a' ≤ c && c ≤ 'z'

/-- Whether a character is an upper case letter of ASCII. -/
def isAsciiUpper (c : Char) : Bool := 'A' ≤ c && c ≤ 'Z'

/-- Lowers a capital after a small letter and an apostrophe. Reference: `TITLE_APOSTROPHE`. -/
def apostropheRule : Rule
  | a :: '\'' :: b :: _ =>
    if isAsciiLower a && isAsciiUpper b then some ([a, '\'', b.toLower], 3) else none
  | _ => none

/-- Lowers a capital after a digit. Reference: `TITLE_DIGIT`. -/
def digitRule : Rule
  | a :: b :: _ => if isDecimalDigit a && isAsciiUpper b then some ([a, b.toLower], 2) else none
  | _ => none

/-- A text in title case. Reference: `title`. -/
def title (cs : List Char) : List Char :=
  substitute digitRule (substitute apostropheRule (titleLetters false cs))

end Stencil.Text
