import Stencil.Filter.Date
import Stencil.Filter.Find
import Stencil.Filter.Format
import Stencil.Filter.Number
import Stencil.Filter.Parameter
import Stencil.Filter.Sequence
import Stencil.Filter.Slice
import Stencil.Filter.Sort
import Stencil.Filter.Text
import Stencil.Text.Escape
import Stencil.Text.Html.Link
import Stencil.Text.Html.Script
import Stencil.Text.Html.Tag
import Stencil.Text.Slug
import Stencil.Text.Title

/-!
# Applying filters

A filter runs with one argument for each of its parameters and always has an answer; what it
cannot do is told by events. Two filters depend on more than their input: the present, from which
spans of time are measured, and the choice of a random item.
-/

namespace Stencil

/-- What filters take from outside. -/
structure Surroundings where
  /-- The present. -/
  now : Date.Moment
  /-- An index below a given number. -/
  pick : Nat → Nat

namespace Filter

/-- Runs a filter with up to three arguments, null standing for those it does not have. -/
def run (s : Surroundings) (f : Filter) (value a b c : Value) : Logged Value :=
  let onText := mapText f.name value
  let counted := mapCounted f.name value a
  match f with
  | .add => addValues value a
  | .divisibleBy => divisible value a
  | .fileSizeFormat => fileSize value
  | .floatFormat => floatFormatValue value a
  | .getDigit => digitAt value a
  | .addSlashes => onText Text.addSlashes
  | .capFirst => onText Text.capFirst
  | .capitalize => onText Text.capitalize
  | .center => padText f.name value a b Text.center
  | .ljust => padText f.name value a b Text.ljust
  | .rjust => padText f.name value a b Text.rjust
  | .cut => onText (Text.replaceAll a.displayChars [])
  | .lower => onText Text.lower
  | .upper => onText Text.upper
  | .title => onText Text.title
  | .phone2numeric => onText (List.map Text.phoneKey)
  | .post => onText (· ++ a.displayChars)
  | .pre => onText (a.displayChars ++ ·)
  | .slugify => onText Text.slug
  | .stringFormat => stringFormatValue value a.display
  | .truncateChars => counted Text.truncateChars
  | .truncateWords => counted Text.truncateWords
  | .wordCount => do
    let cs ← text? f.name value
    pure (match cs with
      | some cs => .int (Text.words cs).length
      | none => .null)
  | .wordWrap => counted Text.wordWrap
  | .pluralize => pure (.str (String.ofList (pluralEnding value a.displayChars)))
  | .yesNo => pure (choose value a.displayChars)
  | .lineNumbers => lineNumbersValue value a b c
  | .default => pure (if value.isTruthy then value else a)
  | .defaultIfNone => pure (if value.type == .null then a else value)
  | .dictSort => sortValue value a b
  | .dictSortReversed => sortValue value a (.str "reverse")
  | .first => pickItem f.name value List.head?
  | .last => pickItem f.name value List.getLast?
  | .random => pickItem f.name value fun items => items[s.pick items.length]?
  | .join => joinValue value a.displayChars b.displayChars
  | .length => lengthValue value a
  | .lengthIs => lengthIsValue value a
  | .makeList => makeListValue value
  | .slice => sliceValue value a.display
  | .unorderedList => unorderedListValue value
  | .find => findValue value a b
  | .findAll => findAllValue value a b
  | .pprint => pure (.str (String.ofList (value.indented 0)))
  | .safe | .safeSeq => pure value
  | .escape => onText Text.escape
  | .forceEscape => onText Text.forceEscape
  | .escapeJs => onText Text.escapeScript
  | .unescape => onText Text.unescape
  | .lineBreaks => onText (Text.breakParagraphs a.displayChars b.displayChars)
  | .lineBreaksBr => onText (Text.breakLines a.displayChars)
  | .stripTags => onText Text.stripTags
  | .urlEncode => onText (Text.percentEncode a.displayChars)
  | .iriEncode => onText Text.iriEncode
  | .urlize => onText (Text.linkAddresses none)
  | .urlizeTrunc => counted fun n => Text.linkAddresses (some n)
  | .truncateCharsHtml => counted (Text.truncateHtml .chars)
  | .truncateWordsHtml => counted (Text.truncateHtml .words)
  | .jsonScript =>
    pure (.str (String.ofList (Text.scriptElement a.displayChars value.compact)))
  | .date | .time => dateValue f.name value a b
  | .timeSince => spanValue f.name s.now value a fun m reference => reference.since m
  | .timeUntil => spanValue f.name s.now value a fun m reference => m.since reference

/-- Applies a filter to a value, with the arguments that were given. Reference: `apply`. -/
def apply (s : Surroundings) (f : Filter) (value : Value) (given : List Value) : Logged Value := do
  let args ← f.resolveArguments given
  f.run s value (args.getD 0 .null) (args.getD 1 .null) (args.getD 2 .null)

end Filter

end Stencil
