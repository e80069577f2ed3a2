import Stencil.Text.Case
import Stencil.Text.Latin

/-!
# Slugs

A slug is a text fit for an address: small letters, digits and underscores of ASCII in runs that
single hyphens join. How a text is written in ASCII first is a parameter of `slugBy`.
-/

namespace Stencil.Text

/-- Whether a character joins words in a slug: a hyphen or a blank. -/
def isSlugGap (c : Char) : Bool := c == '-' || isBlank c

/-- Whether a character of ASCII stays in a slug. -/
def isSlugWord (c : Char) : Bool := c.isAlphanum || c == '_'

/-- A text with every run of characters that join words turned into one hyphen. -/
def joinGaps : (afterGap : Bool) → List Char → List Char
  | _, [] => []
  | afterGap, c :: cs =>
    if isSlugGap c then (if afterGap then [] else ['-']) ++ joinGaps true cs
    else c :: joinGaps false cs

/-- The slug of a text that a function writes in ASCII. -/
def slugBy (write : List Char → List Char) (cs : List Char) : List Char :=
  let kept := (lower (write cs)).filter fun c => isSlugWord c || isSlugGap c
  dropBothWhile (fun c => c == '-' || c == '_') (joinGaps false (trim kept))

/-- The slug of a text. Reference: `slugify`. -/
def slug (cs : List Char) : List Char := slugBy latin cs

end Stencil.Text
