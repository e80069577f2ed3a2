import Stencil.Text.Blank

/-!
# Quotes inside tags

Three readers of a tag have to know which characters stand inside quotes: the search for the
closing delimiter, the split into words and the removal of blanks. All of them follow one
automaton. Either quote opens; only the same quote closes, and a backslash protects the character
after it.
-/

namespace Stencil.Template

/-- Where a character stands with respect to quotes. -/
inductive Quote where
  | outside
  /-- Inside the quote that this character opened. -/
  | inside (mark : Char)
  /-- After a backslash inside that quote. -/
  | escaped (mark : Char)
  deriving DecidableEq, Repr

/-- Whether a character opens a quote. -/
def isQuoteMark (c : Char) : Bool := c == '"' || c == '\''

/-- The state after one more character. -/
def Quote.step : Quote → Char → Quote
  | .outside, c => if isQuoteMark c then .inside c else .outside
  | .inside mark, c =>
    if c = '\\' then .escaped mark else if c = mark then .outside else .inside mark
  | .escaped mark, _ => .inside mark

/-- The state after a text. -/
def Quote.run (q : Quote) (cs : List Char) : Quote := cs.foldl Quote.step q

/-- A text cut at the first `a` followed by `b` outside quotes: what stands before them and what
after. Without them the state at the end is given back. Reference: `find_close`. -/
def cutOutsideQuotes (a b : Char) : Quote → List Char → Except Quote (List Char × List Char)
  | q, [] => .error q
  | q, c :: cs =>
    if q = .outside ∧ c = a ∧ cs.head? = some b then .ok ([], cs.tail)
    else (cutOutsideQuotes a b (q.step c) cs).map fun (before, after) => (c :: before, after)

/-- Cutting loses nothing but the two characters at the cut. -/
theorem cutOutsideQuotes_eq {a b : Char} {q : Quote} {cs before after : List Char}
    (h : cutOutsideQuotes a b q cs = .ok (before, after)) : cs = before ++ a :: b :: after := by
  induction cs generalizing q before after with
  | nil => simp [cutOutsideQuotes] at h
  | cons c cs ih =>
    rw [cutOutsideQuotes] at h
    split at h
    · rename_i hc
      obtain ⟨_, rfl, hb⟩ := hc
      cases cs with
      | nil => simp at hb
      | cons d ds => simp_all
    · cases hr : cutOutsideQuotes a b (q.step c) cs with
      | error e => simp [hr, Except.map] at h
      | ok r =>
        obtain ⟨x, y⟩ := r
        simp only [hr, Except.map, Except.ok.injEq, Prod.mk.injEq] at h
        obtain ⟨rfl, rfl⟩ := h
        simp [ih hr]

/-- The first words are cut at blanks outside quotes. With `parens` a parenthesis outside quotes is
a word of its own. `word` is the word being read. Reference: `split_words`. -/
def splitFrom (parens : Bool) : Quote → (word : List Char) → List Char → List (List Char)
  | _, word, [] => if word.isEmpty then [] else [word]
  | q, word, c :: cs =>
    let flush (rest : List (List Char)) := if word.isEmpty then rest else word :: rest
    if q = .outside ∧ Text.isBlank c then flush (splitFrom parens .outside [] cs)
    else if q = .outside ∧ parens ∧ (c = '(' ∨ c = ')') then
      flush ([c] :: splitFrom parens .outside [] cs)
    else splitFrom parens (q.step c) (word ++ [c]) cs

/-- The words of a tag's arguments. Reference: `split_arguments`. -/
def splitArguments (cs : List Char) : List (List Char) := splitFrom false .outside [] cs

/-- The words of a condition, parentheses apart. Reference: `split_condition`. -/
def splitCondition (cs : List Char) : List (List Char) := splitFrom true .outside [] cs

/-- A text without its blanks outside quotes. Reference: `tighten`. -/
def tighten (cs : List Char) : List Char := (splitArguments cs).flatten

end Stencil.Template
