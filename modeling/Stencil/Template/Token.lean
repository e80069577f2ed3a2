import Stencil.Filter.Basic
import Stencil.Template.Quote

/-!
# Tokens

A token is one word of a tag's arguments, or the whole content of an emit:

    primary [":" argument] ("|" filter (":" argument)*)*

The primary and the arguments are quoted literals or bare names. What a name stands for is decided
when the template is rendered.
-/

namespace Stencil.Template

/-- What the value of a token is. -/
inductive TokenKind where
  /-- The decoded content of quotes. -/
  | literal
  /-- A bare word: a path, a number or an operator. -/
  | name
  /-- The content of a raw tag. -/
  | verbatim
  deriving DecidableEq, Repr

/-- An argument of a token or of a filter. -/
structure Argument where
  kind : TokenKind
  value : String
  deriving DecidableEq, Repr

/-- One link of a filter chain. -/
structure FilterCall where
  name : String
  arguments : List Argument
  deriving DecidableEq, Repr

/-- A word of a tag, taken apart. -/
structure Token where
  /-- The text the token was read from. -/
  source : String
  kind : TokenKind
  value : String
  /-- Whether the token stands in a condition, where operator words are not names. -/
  inCondition : Bool
  argument : Option Argument
  filters : List FilterCall
  deriving DecidableEq, Repr

/-- The words and symbols of conditions that are not data. Reference: `OPERATORS`. -/
def operatorWords : List String :=
  ["+", "-", "*", "/", "//", "%", "**", "&", "^", "~", "|", "in", "is", "not", "<<", ">>", "<",
    "<=", "==", "!=", ">=", ">", "True", "False", "and", "or", "None", "(", ")"]

/-- Whether a word is an operator of conditions. Reference: `is_operator`. -/
def isOperatorWord (word : String) : Bool := operatorWords.contains word

/-- Whether the filter of a call answers with a truth value; a name that is no filter has none. -/
def FilterCall.isBoolean (call : FilterCall) : Bool :=
  (Filter.ofName? call.name).any Filter.isBoolean

namespace Token

/-- Whether the token is an operator of its condition. -/
def isOperator (t : Token) : Bool := t.inCondition && t.kind == .name && isOperatorWord t.value

/-- Whether the token has filters. Reference: `is_filtered`. -/
def isFiltered (t : Token) : Bool := !t.filters.isEmpty

/-- Whether the last filter of the token answers with a truth value.
Reference: `ends_in_boolean_filter`. -/
def endsInBooleanFilter (t : Token) : Bool :=
  match t.filters.getLast? with
  | some call => call.isBoolean
  | none => false

/-- Whether a character ends a bare word. -/
def isDelimiter (c : Char) : Bool := c == ':' || c == '|'

/-- The bare text up to a delimiter, and the rest. Reference: `bare`. -/
def bare (cs : List Char) : List Char × List Char :=
  (cs.takeWhile (!isDelimiter ·), cs.dropWhile (!isDelimiter ·))

/-- What a backslash and the character after it stand for: a line break, a tab, the character
itself if it is a quote or a backslash, and otherwise both characters. -/
def unescape (c : Char) : List Char :=
  if c = 'n' then ['\n']
  else if c = 't' then ['\t']
  else if c = '\\' ∨ c = '\'' ∨ c = '"' then [c]
  else ['\\', c]

/-- Decodes quoted text up to the closing mark, and gives the rest. Reference: `unquote`. -/
def unquote? (mark : Char) : List Char → Option (List Char × List Char)
  | [] => none
  | c :: cs =>
    if c = mark then some ([], cs)
    else if c = '\\' then
      match cs with
      | [] => none
      | d :: ds => (unquote? mark ds).map fun (value, rest) => (unescape d ++ value, rest)
    else (unquote? mark cs).map fun (value, rest) => (c :: value, rest)

/-- The primary or an argument at the front of a text, and the rest. Text between a closing quote
and the next delimiter is dropped; a quote that is not closed makes the word a name.
Reference: `segment`. -/
def segment (cs : List Char) : Argument × List Char :=
  let asName := (⟨.name, String.ofList (bare cs).1⟩, (bare cs).2)
  match cs with
  | [] => asName
  | c :: rest =>
    if isQuoteMark c then
      match unquote? c rest with
      | some (value, after) => (⟨.literal, String.ofList value⟩, (bare after).2)
      | none => asName
    else asName

/-- Bare text leaves no more than there was. -/
theorem length_bare_le (cs : List Char) : (bare cs).2.length ≤ cs.length :=
  (List.dropWhile_suffix _).length_le

/-- Quoted text leaves less than there was. -/
theorem length_unquote?_lt {mark : Char} {cs value rest : List Char}
    (h : unquote? mark cs = some (value, rest)) : rest.length < cs.length := by
  fun_induction unquote? mark cs generalizing value rest <;> simp_all <;> grind

/-- A segment leaves no more than there was. -/
theorem length_segment_le (cs : List Char) : (segment cs).2.length ≤ cs.length := by
  unfold segment
  split
  · exact length_bare_le []
  · rename_i c rest
    split
    · split
      · rename_i value after h
        have := length_unquote?_lt h
        have := length_bare_le after
        simp only [List.length_cons]
        omega
      · exact length_bare_le _
    · exact length_bare_le _

/-- The arguments at the front of a text, each after a colon, and the rest. -/
def arguments (cs : List Char) : List Argument × List Char :=
  match cs with
  | ':' :: rest =>
    let (others, after) := arguments (segment rest).2
    ((segment rest).1 :: others, after)
  | cs => ([], cs)
termination_by cs.length
decreasing_by exact Nat.lt_succ_of_le (length_segment_le _)

/-- Arguments leave no more than there was. -/
theorem length_arguments_le (cs : List Char) : (arguments cs).2.length ≤ cs.length := by
  fun_induction arguments cs with
  | case1 rest others after h ih =>
    have := length_segment_le rest
    rw [h] at ih
    simp only [List.length_cons] at *
    omega
  | case2 => exact Nat.le_refl _

/-- The filter calls at the front of a text, each after a bar. -/
def filterCalls (cs : List Char) : List FilterCall :=
  match cs with
  | '|' :: rest =>
    let args := arguments (bare rest).2
    ⟨String.ofList (bare rest).1, args.1⟩ :: filterCalls args.2
  | _ => []
termination_by cs.length
decreasing_by
  exact Nat.lt_succ_of_le (Nat.le_trans (length_arguments_le _) (length_bare_le _))

/-- The content of a raw tag as a token. -/
def ofRaw (source : String) (inCondition : Bool) : Token :=
  ⟨source, .verbatim, source, inCondition, none, []⟩

/-- Reads a token. In a condition a text that is an operator word is that operator, also where it
would read as an empty filter chain. Of several arguments of the primary the first counts.
Reference: `parse`. -/
def parse (source : List Char) (inCondition : Bool) : Token :=
  let text := String.ofList source
  if inCondition && isOperatorWord text then ⟨text, .name, text, inCondition, none, []⟩
  else
    let (primary, rest) := segment source
    let (args, chain) := arguments rest
    ⟨text, primary.kind, primary.value, inCondition, args.head?, filterCalls chain⟩

end Token

end Stencil.Template
