import Stencil.Proofs.Literals

/-!
# The grammar of tokens

A token is written as its primary, an argument behind a colon, and filters with their arguments
behind bars. What can be written so is a tree of segments, each of which is a literal, with any
text, or a name. Printing a tree and reading the text (`Token.parse`) gives the tree back, whichever
quotes its literals stand in: every segment ends where the next separator stands, also if it holds
separators itself.
-/

namespace Stencil

/-- The filters whose answer is a truth value. -/
theorem Filter.isBoolean_iff {f : Filter} :
    f.isBoolean = true ↔ f = .divisibleBy ∨ f = .lengthIs := by
  cases f <;> decide

namespace Template

/-! ## Segments -/

/-- Whether a text has no separator. -/
def isPlain (text : String) : Bool := text.toList.all (!Token.isDelimiter ·)

/-- Whether a text can be written without quotes: it has no separator and does not begin with a
quote. -/
def isBareName (text : String) : Bool := isPlain text && !text.toList.head?.any isQuoteMark

theorem isPlain_iff {text : String} :
    isPlain text = true ↔ ∀ c ∈ text.toList, Token.isDelimiter c = false := by
  simp [isPlain]

theorem isBareName_iff {text : String} :
    isBareName text = true ↔ (∀ c ∈ text.toList, Token.isDelimiter c = false) ∧
      ∀ c ∈ text.toList.head?, isQuoteMark c = false := by
  rw [isBareName, Bool.and_eq_true, isPlain_iff, Bool.not_eq_true', Option.any_eq_false]
  simp

/-- The primary of a token or one of the arguments: any text in quotes, or a name. -/
inductive Segment where
  | literal (mark : Char) (hmark : isQuoteMark mark = true) (text : String)
  | name (text : String) (hname : isBareName text = true)

/-- A character inside quotes, with a backslash before it if it is a backslash or the quote. -/
def escapedIn (mark c : Char) : List Char := if c = '\\' ∨ c = mark then ['\\', c] else [c]

namespace Segment

/-- The text of a segment as it is written. -/
def print : Segment → List Char
  | .literal mark _ text => mark :: (text.toList.flatMap (escapedIn mark) ++ [mark])
  | .name text _ => text.toList

/-- What a segment is read as. -/
def argument : Segment → Argument
  | .literal _ _ text => ⟨.literal, text⟩
  | .name text _ => ⟨.name, text⟩

end Segment

/-- Segments behind colons. -/
def printArguments (segments : List Segment) : List Char :=
  segments.flatMap fun segment => ':' :: segment.print

/-! ## Trees -/

/-- A filter with its arguments. -/
structure FilterTree where
  name : String
  plain : isPlain name = true
  arguments : List Segment

namespace FilterTree

/-- A filter behind a bar. -/
def print (f : FilterTree) : List Char := '|' :: (f.name.toList ++ printArguments f.arguments)

/-- The call a filter is read as. -/
def call (f : FilterTree) : FilterCall := ⟨f.name, f.arguments.map Segment.argument⟩

end FilterTree

/-- All that can be written in a token. -/
structure TokenTree where
  primary : Segment
  argument : Option Segment
  filters : List FilterTree

namespace TokenTree

/-- The text of a token. -/
def print (t : TokenTree) : List Char :=
  t.primary.print ++ (printArguments t.argument.toList ++ t.filters.flatMap FilterTree.print)

/-- The token itself, in a condition or elsewhere. -/
def token (t : TokenTree) (inCondition : Bool) : Token where
  source := String.ofList t.print
  kind := t.primary.argument.kind
  value := t.primary.argument.value
  inCondition := inCondition
  argument := t.argument.map Segment.argument
  filters := t.filters.map FilterTree.call

end TokenTree

/-! ## Reading -/

/-- Decoding takes the backslashes of a literal away again and stops at its closing quote. -/
theorem unquote?_escapedIn {mark : Char} (hmark : isQuoteMark mark = true) (cs rest : List Char) :
    Token.unquote? mark (cs.flatMap (escapedIn mark) ++ mark :: rest) = some (cs, rest) := by
  refine unquote?_flatMap (mark_ne_backslash hmark) ?_ cs rest
  intro c
  unfold escapedIn
  split
  · rename_i hc
    refine .inr ⟨rfl, ?_⟩
    rcases hc with rfl | rfl
    · exact .inl rfl
    · exact .inr (isQuoteMark_iff.1 hmark)
  · rename_i hc
    rw [not_or] at hc
    exact .inl ⟨rfl, hc.2, hc.1⟩

/-- A segment is read as what it is, and no further than it goes. -/
theorem Segment.segment_print (s : Segment) {rest : List Char}
    (hrest : ∀ c ∈ rest.head?, Token.isDelimiter c = true) :
    Token.segment (s.print ++ rest) = (s.argument, rest) := by
  cases s with
  | literal mark hmark text =>
    show Token.segment (mark :: (text.toList.flatMap (escapedIn mark) ++ [mark] ++ rest)) = _
    rw [List.append_assoc]
    exact segment_of_unquote? hmark (unquote?_escapedIn hmark text.toList rest) hrest
  | name text hname =>
    show Token.segment (text.toList ++ rest) = _
    obtain ⟨hplain, hhead⟩ := isBareName_iff.1 hname
    rw [segment_append hplain hhead hrest, String.ofList_toList]
    rfl

/-- Behind a segment there is nothing, or a separator. -/
theorem head?_printArguments (segments : List Segment) {rest : List Char}
    (hrest : ∀ c ∈ rest.head?, Token.isDelimiter c = true) :
    ∀ c ∈ (printArguments segments ++ rest).head?, Token.isDelimiter c = true := by
  cases segments with
  | nil => exact hrest
  | cons s segments => exact isDelimiter_of_mem_head? rfl _

theorem head?_printFilters (filters : List FilterTree) :
    ∀ c ∈ (filters.flatMap FilterTree.print).head?, c = '|' := by
  cases filters with
  | nil => simp
  | cons f filters =>
    rintro c ⟨⟩
    rfl

theorem isDelimiter_printFilters (filters : List FilterTree) :
    ∀ c ∈ (filters.flatMap FilterTree.print).head?, Token.isDelimiter c = true := by
  intro c hc
  rw [head?_printFilters filters c hc]
  rfl

/-- Arguments are read up to the next filter. -/
theorem arguments_print (segments : List Segment) (filters : List FilterTree) :
    Token.arguments (printArguments segments ++ filters.flatMap FilterTree.print) =
      (segments.map Segment.argument, filters.flatMap FilterTree.print) := by
  induction segments with
  | nil =>
    rw [printArguments, List.flatMap_nil, List.nil_append, Token.arguments]
    · rfl
    · rintro rest heq
      have hcolon := head?_printFilters filters ':' (by rw [heq]; rfl)
      cases hcolon
  | cons s segments ih =>
    have hnext := head?_printArguments segments (isDelimiter_printFilters filters)
    rw [printArguments, List.flatMap_cons, ← printArguments, List.append_assoc, List.cons_append,
      Token.arguments, s.segment_print hnext]
    simp only [ih, List.map_cons]

/-- Filters are read to the end. -/
theorem filterCalls_print (filters : List FilterTree) :
    Token.filterCalls (filters.flatMap FilterTree.print) = filters.map FilterTree.call := by
  induction filters with
  | nil =>
    rw [List.flatMap_nil, Token.filterCalls]
    · rfl
    · simp
  | cons f filters ih =>
    have hnext := head?_printArguments f.arguments (isDelimiter_printFilters filters)
    rw [List.flatMap_cons, FilterTree.print, List.cons_append, List.append_assoc, Token.filterCalls,
      bare_append (isPlain_iff.1 f.plain) hnext]
    simp only [arguments_print, ih, String.ofList_toList, List.map_cons]
    rfl

/-- A call has a truth value exactly if it names one of these filters. -/
theorem FilterCall.isBoolean_iff (call : FilterCall) :
    call.isBoolean = true ↔ call.name = "divisibleby" ∨ call.name = "length_is" := by
  rw [FilterCall.isBoolean, Option.any_eq_true]
  constructor
  · rintro ⟨filter, hfilter, hboolean⟩
    have hname : filter.name = call.name := by simpa using List.find?_some hfilter
    rw [← hname]
    rcases Filter.isBoolean_iff.1 hboolean with rfl | rfl
    · exact .inl rfl
    · exact .inr rfl
  · rintro (hname | hname) <;> rw [hname]
    · exact ⟨.divisibleBy, rfl, rfl⟩
    · exact ⟨.lengthIs, rfl, rfl⟩

/-- Reading the text of a token gives the token back (`Token.parse`), whatever its segments are: any
text in either quotes, or a name. In a condition a text that is an operator as a whole is that
operator instead. The token is an operator exactly if it stands in a condition and its primary is an
operator without quotes, and a call has a truth value exactly if it names one of the two filters
that do. -/
theorem parse_print (t : TokenTree) (inCondition : Bool)
    (hwhole : ¬(inCondition = true ∧ isOperatorWord (String.ofList t.print) = true)) :
    let token := Token.parse t.print inCondition
    token = t.token inCondition ∧
      (token.isOperator = true ↔ inCondition = true ∧ t.primary.argument.kind = .name ∧
        isOperatorWord t.primary.argument.value = true) ∧
      ∀ call ∈ token.filters,
        call.isBoolean = true ↔ call.name = "divisibleby" ∨ call.name = "length_is" := by
  intro token
  have htoken : token = t.token inCondition := by
    have hnext := head?_printArguments t.argument.toList (isDelimiter_printFilters t.filters)
    have hargument : (t.argument.toList.map Segment.argument).head? =
        t.argument.map Segment.argument := by
      cases t.argument <;> rfl
    rw [← Bool.and_eq_true, Bool.not_eq_true] at hwhole
    simp only [token, Token.parse, hwhole, Bool.false_eq_true, if_false]
    simp only [TokenTree.print, t.primary.segment_print hnext, arguments_print, filterCalls_print,
      hargument, TokenTree.token]
  refine ⟨htoken, ?_, fun call _ => call.isBoolean_iff⟩
  rw [htoken]
  simp [Token.isOperator, TokenTree.token, and_assoc]

/-- An operator word with an argument that holds both separators, both quotes and a backslash, and
two filters, of which the first has an empty name and an empty literal as its arguments. -/
def separatorTree : TokenTree where
  primary := .name "in" rfl
  argument := some (.literal '"' rfl ":|'\"\\")
  filters := [⟨"length_is", rfl, [.name "" rfl, .literal '\'' rfl ""]⟩, ⟨"", rfl, []⟩]

theorem parse_print_separators :
    let text := "in:\":|'\\\"\\\\\"|length_is::''|"
    ¬(true = true ∧ isOperatorWord (String.ofList separatorTree.print) = true) ∧
      Token.parse text.toList true =
        ⟨text, .name, "in", true, some ⟨.literal, ":|'\"\\"⟩,
          [⟨"length_is", [⟨.name, ""⟩, ⟨.literal, ""⟩]⟩, ⟨"", []⟩]⟩ := by
  intro text
  have htext : text = String.ofList separatorTree.print := by decide
  have hwhole : ¬(true = true ∧ isOperatorWord (String.ofList separatorTree.print) = true) := by
    decide
  refine ⟨hwhole, ?_⟩
  rw [htext, String.toList_ofList, (parse_print separatorTree true hwhole).1]
  rfl

end Template

end Stencil
