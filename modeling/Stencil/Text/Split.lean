import Stencil.Text.Blank

/-!
# Cutting and joining text

Splitting at a character, looking for a needle, and joining. A text is a list of characters, so
each of these recurses on the list.
-/

namespace Stencil.Text

/-- The parts of a text between the characters satisfying `p`; the empty text has one empty
part. -/
def splitWhere (p : Char → Bool) : List Char → List (List Char)
  | [] => [[]]
  | c :: cs =>
    if p c then [] :: splitWhere p cs
    else match splitWhere p cs with
      | [] => [[c]]
      | part :: parts => (c :: part) :: parts

/-- The parts of a text between the occurrences of one character. -/
def splitOn (sep : Char) (cs : List Char) : List (List Char) := splitWhere (· == sep) cs

/-- The words of a text: its maximal runs without a blank. -/
def words (cs : List Char) : List (List Char) :=
  (splitWhere isBlank cs).filter (!·.isEmpty)

/-- The parts joined with a separator between neighbours. -/
def joinWith (sep : List Char) : List (List Char) → List Char
  | [] => []
  | [part] => part
  | part :: parts => part ++ sep ++ joinWith sep parts

/-- The text before the first occurrence of a needle and the text after it. -/
def cutAt? (needle : List Char) : List Char → Option (List Char × List Char)
  | [] => if needle.isEmpty then some ([], []) else none
  | c :: cs =>
    if needle.isPrefixOf (c :: cs) then some ([], (c :: cs).drop needle.length)
    else (cutAt? needle cs).map fun (before, after) => (c :: before, after)

/-- Whether a needle occurs in a text. -/
def contains (needle cs : List Char) : Bool := (cutAt? needle cs).isSome

/-- The number of bytes a text takes in UTF-8. -/
def utf8Length : List Char → Nat
  | [] => 0
  | c :: cs => c.utf8Size + utf8Length cs

end Stencil.Text
