/-!
# Filters by name

The filters that a template can apply to a value. What each does stands in the modules beside
this one.
-/

namespace Stencil

/-- A filter. -/
inductive Filter where
  | add
  | addSlashes
  | capFirst
  | capitalize
  | center
  | cut
  | date
  | default
  | defaultIfNone
  | dictSort
  | dictSortReversed
  | divisibleBy
  | escape
  | escapeJs
  | fileSizeFormat
  | first
  | floatFormat
  | forceEscape
  | getDigit
  | iriEncode
  | join
  | jsonScript
  | last
  | length
  | lengthIs
  | lineBreaks
  | lineBreaksBr
  | lineNumbers
  | ljust
  | lower
  | makeList
  | phone2numeric
  | pluralize
  | post
  | pprint
  | pre
  | random
  | rjust
  | safe
  | safeSeq
  | slice
  | slugify
  | stringFormat
  | stripTags
  | time
  | timeSince
  | timeUntil
  | title
  | truncateChars
  | truncateCharsHtml
  | truncateWords
  | truncateWordsHtml
  | unescape
  | unorderedList
  | upper
  | urlEncode
  | urlize
  | urlizeTrunc
  | find
  | findAll
  | wordCount
  | wordWrap
  | yesNo
  deriving DecidableEq, Repr

namespace Filter

/-- The word that templates write for a filter. -/
def name : Filter → String
  | .add => "add"
  | .addSlashes => "addslashes"
  | .capFirst => "capfirst"
  | .capitalize => "capitalize"
  | .center => "center"
  | .cut => "cut"
  | .date => "date"
  | .default => "default"
  | .defaultIfNone => "default_if_none"
  | .dictSort => "dictsort"
  | .dictSortReversed => "dictsortreversed"
  | .divisibleBy => "divisibleby"
  | .escape => "escape"
  | .escapeJs => "escapejs"
  | .fileSizeFormat => "filesizeformat"
  | .first => "first"
  | .floatFormat => "floatformat"
  | .forceEscape => "force_escape"
  | .getDigit => "get_digit"
  | .iriEncode => "iriencode"
  | .join => "join"
  | .jsonScript => "json_script"
  | .last => "last"
  | .length => "length"
  | .lengthIs => "length_is"
  | .lineBreaks => "linebreaks"
  | .lineBreaksBr => "linebreaksbr"
  | .lineNumbers => "linenumbers"
  | .ljust => "ljust"
  | .lower => "lower"
  | .makeList => "make_list"
  | .phone2numeric => "phone2numeric"
  | .pluralize => "pluralize"
  | .post => "post"
  | .pprint => "pprint"
  | .pre => "pre"
  | .random => "random"
  | .rjust => "rjust"
  | .safe => "safe"
  | .safeSeq => "safeseq"
  | .slice => "slice"
  | .slugify => "slugify"
  | .stringFormat => "stringformat"
  | .stripTags => "striptags"
  | .time => "time"
  | .timeSince => "timesince"
  | .timeUntil => "timeuntil"
  | .title => "title"
  | .truncateChars => "truncatechars"
  | .truncateCharsHtml => "truncatechars_html"
  | .truncateWords => "truncatewords"
  | .truncateWordsHtml => "truncatewords_html"
  | .unescape => "unescape"
  | .unorderedList => "unordered_list"
  | .upper => "upper"
  | .urlEncode => "urlencode"
  | .urlize => "urlize"
  | .urlizeTrunc => "urlizetrunc"
  | .find => "where"
  | .findAll => "whereall"
  | .wordCount => "wordcount"
  | .wordWrap => "wordwrap"
  | .yesNo => "yesno"

/-- All filters, in order of their names. -/
def all : List Filter := [
  .add, .addSlashes, .capFirst, .capitalize, .center, .cut, .date, .default, .defaultIfNone,
  .dictSort, .dictSortReversed, .divisibleBy, .escape, .escapeJs, .fileSizeFormat, .first,
  .floatFormat, .forceEscape, .getDigit, .iriEncode, .join, .jsonScript, .last, .length,
  .lengthIs, .lineBreaks, .lineBreaksBr, .lineNumbers, .ljust, .lower, .makeList,
  .phone2numeric, .pluralize, .post, .pprint, .pre, .random, .rjust, .safe, .safeSeq, .slice,
  .slugify, .stringFormat, .stripTags, .time, .timeSince, .timeUntil, .title, .truncateChars,
  .truncateCharsHtml, .truncateWords, .truncateWordsHtml, .unescape, .unorderedList, .upper,
  .urlEncode, .urlize, .urlizeTrunc, .find, .findAll, .wordCount, .wordWrap, .yesNo]

/-- The filter of a name. Reference: `from_name`. -/
def ofName? (name : String) : Option Filter := all.find? (·.name == name)

/-- Whether the answer of a filter is a truth value. Reference: `is_boolean`. -/
def isBoolean : Filter → Bool
  | .divisibleBy | .lengthIs => true
  | _ => false

end Filter

end Stencil
