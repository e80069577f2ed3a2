import Stencil.Text.Case
import Stencil.Text.Html.Entity
import Stencil.Text.Layout

/-!
# Links in plain text

Words that look like an address of the web or of mail become links. Punctuation around a word does
not belong to the address.
-/

namespace Stencil.Text

/-- What kind of address a word is. -/
inductive Address where
  /-- An address with its protocol. -/
  | url
  /-- A name of a host, possibly with a path. -/
  | host
  | mail
  deriving DecidableEq, Repr

/-- Whether a character may stand in the name of a host, the dot included. -/
def isHostChar (c : Char) : Bool := c.isAlphanum || c == '.' || c == '-'

/-- The endings of hosts that are links without a protocol. -/
def bareDomains : List String := ["com", "edu", "gov", "int", "mil", "net", "org"]

/-- Whether a word is a host with one of the known endings, possibly followed by a path.
Reference: `BARE_DOMAIN`. -/
def isBareDomain (cs : List Char) : Bool :=
  let host := cs.takeWhile (· != '/')
  let labels := splitOn '.' host
  let before := host.take (host.length - 1 - (labels.getLast?.getD []).length)
  1 < labels.length && bareDomains.contains (String.ofList (labels.getLast?.getD [])) &&
    (match before with
      | [] => false
      | c :: _ => c.isAlphanum) && before.all isHostChar

/-- Whether a character may stand before the sign of a mail address. -/
def isMailChar (c : Char) : Bool := c.isAlphanum || "._%+-".toList.contains c

/-- Whether a word is a mail address: a name, the sign, and at least two labels, the last of
letters. Reference: `EMAIL`. -/
def isMail (cs : List Char) : Bool :=
  match splitOn '@' cs with
  | [name, host] =>
    let labels := splitOn '.' host
    let last := labels.getLast?.getD []
    !name.isEmpty && name.all isMailChar && 1 < labels.length &&
      labels.all (fun label => !label.isEmpty && label.all fun c => c.isAlphanum || c == '-') &&
      2 ≤ last.length && last.all Char.isAlpha
  | _ => false

/-- The kind of address a word is, if any. -/
def address? (core : List Char) : Option Address :=
  let lowered := lower core
  if "http://".toList.isPrefixOf lowered || "https://".toList.isPrefixOf lowered then some .url
  else if "www.".toList.isPrefixOf lowered || isBareDomain core then some .host
  else if !core.contains ':' && isMail core then some .mail
  else none

/-- The text of a link, shortened to a number of characters. Reference: `trim_url`. -/
def linkText (limit : Option Int) (cs : List Char) : List Char :=
  match limit with
  | some n => if (cs.length : Int) > n then cs.take (max n 1 - 1).toNat ++ [ellipsis] else cs
  | none => cs

/-- A link to an address. -/
def link (kind : Address) (limit : Option Int) (core : List Char) : List Char :=
  let shown := escape (linkText limit core)
  match kind with
  | .url =>
    "<a href=\"".toList ++ escape core ++ "\" rel=\"nofollow\">".toList ++ shown ++ "</a>".toList
  | .host =>
    "<a href=\"http://".toList ++ escape core ++ "\" rel=\"nofollow\">".toList ++ shown ++
      "</a>".toList
  | .mail => "<a href=\"mailto:".toList ++ escape core ++ "\">".toList ++ shown ++ "</a>".toList

/-- Punctuation that may precede an address. Reference: `LEADING`. -/
def isLeadingMark (c : Char) : Bool := "(<[\"'".toList.contains c

/-- Punctuation that may follow an address. Reference: `TRAILING`. -/
def isTrailingMark (c : Char) : Bool := ".,:;!)>]\"'".toList.contains c

/-- A word turned into a link if it is an address. -/
def linkWord (limit : Option Int) (word : List Char) : List Char :=
  let lead := word.takeWhile isLeadingMark
  let body := word.dropWhile isLeadingMark
  let core := dropEndWhile isTrailingMark body
  match address? core with
  | some kind => lead ++ link kind limit core ++ body.drop core.length
  | none => word

/-- A text whose addresses are links. Reference: `urlize`. -/
def linkAddresses (limit : Option Int) (cs : List Char) : List Char := mapWords (linkWord limit) cs

end Stencil.Text
