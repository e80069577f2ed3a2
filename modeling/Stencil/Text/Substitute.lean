import Stencil.Text.Split

/-!
# Substitution by a rule

A rule looks at the front of a text; where it applies it says what to put there and how many
characters that replaces. Substitution tries the rule from left to right and goes on behind each
replacement.
-/

namespace Stencil.Text

/-- A rule: the new text and how many characters it stands for. -/
abbrev Rule := List Char → Option (List Char × Nat)

/-- Applies a rule to the end of a text, of which the first `skip` characters have been replaced. -/
def substituteFrom (rule : Rule) : (skip : Nat) → List Char → List Char
  | _, [] => []
  | skip + 1, _ :: cs => substituteFrom rule skip cs
  | 0, c :: cs =>
    match rule (c :: cs) with
    | some (new, length) => new ++ substituteFrom rule (length - 1) cs
    | none => c :: substituteFrom rule 0 cs

/-- A text with a rule applied wherever it applies. -/
def substitute (rule : Rule) (cs : List Char) : List Char := substituteFrom rule 0 cs

/-- The rule that replaces a needle. -/
def replaceRule (needle replacement : List Char) : Rule := fun cs =>
  if needle.isPrefixOf cs then some (replacement, needle.length) else none

/-- Every occurrence of the needle replaced, from the left and without overlap. An empty needle
occurs between all characters and at both ends. -/
def replaceAll (needle replacement cs : List Char) : List Char :=
  if needle.isEmpty then replacement ++ cs.flatMap fun c => c :: replacement
  else substitute (replaceRule needle replacement) cs

/-- The parts of the end of a text between the occurrences of a needle, the first `skip` characters
belonging to an occurrence. -/
def splitByFrom (needle : List Char) : (skip : Nat) → List Char → List (List Char)
  | _, [] => [[]]
  | skip + 1, _ :: cs => splitByFrom needle skip cs
  | 0, c :: cs =>
    if needle.isPrefixOf (c :: cs) then [] :: splitByFrom needle (needle.length - 1) cs
    else match splitByFrom needle 0 cs with
      | [] => [[c]]
      | part :: parts => (c :: part) :: parts

/-- The parts of a text between the occurrences of a needle that is not empty. -/
def splitBy (needle cs : List Char) : List (List Char) := splitByFrom needle 0 cs

/-- Maps the words of the end of a text; `word` is the word being read. -/
def mapWordsFrom (f : List Char → List Char) : (word : List Char) → List Char → List Char
  | word, [] => if word.isEmpty then [] else f word
  | word, c :: cs =>
    if isBlank c then (if word.isEmpty then [] else f word) ++ c :: mapWordsFrom f [] cs
    else mapWordsFrom f (word ++ [c]) cs

/-- A text with every word mapped and all blanks kept. -/
def mapWords (f : List Char → List Char) (cs : List Char) : List Char := mapWordsFrom f [] cs

end Stencil.Text
