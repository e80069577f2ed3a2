import Stencil.Proofs.Composition
import Stencil.Proofs.Words

/-!
# Every text can be written as a literal

With a backslash before its quotes and backslashes (`addSlashes`) any text can stand between quotes
of either kind. The three readers of quotes agree on such a literal: the search for the end of a tag
and the split into words pass over it, and decoding gives the text back. So the literal as an emit,
or as the argument of a tag, renders to the text, and as the argument of a filter it is read as the
text.
-/

namespace Stencil

/-! ## Backslashes -/

namespace Text

/-- Replacing a single character replaces it wherever it stands. -/
theorem replaceAll_singleton (needle : Char) (replacement cs : List Char) :
    replaceAll [needle] replacement cs =
      cs.flatMap fun c => if c = needle then replacement else [c] := by
  rw [replaceAll, if_neg (by simp), substitute]
  induction cs with
  | nil => rfl
  | cons c cs ih =>
    rw [substituteFrom, replaceRule, List.flatMap_cons, ← ih]
    by_cases hc : c = needle
    · subst hc
      simp
    · have hnot : [needle].isPrefixOf (c :: cs) = false := by
        rw [List.isPrefixOf, beq_eq_false_iff_ne.2 (Ne.symm hc), Bool.false_and]
      simp [hnot, hc]

/-- A character with a backslash before it if it is a quote or a backslash. -/
def slashed (c : Char) : List Char :=
  if c = '\\' ∨ c = '"' ∨ c = '\'' then ['\\', c] else [c]

/-- The three replacements do not get into each other's way. -/
theorem addSlashes_eq_flatMap (cs : List Char) : addSlashes cs = cs.flatMap slashed := by
  rw [addSlashes, replaceAll_singleton, replaceAll_singleton, replaceAll_singleton,
    List.flatMap_assoc, List.flatMap_assoc]
  congr 1
  funext c
  -- Backslashes are replaced first, so those written before quotes are not doubled.
  unfold slashed
  by_cases hslash : c = '\\'
  · subst hslash
    rfl
  · by_cases hdouble : c = '"'
    · subst hdouble
      rfl
    · by_cases hsingle : c = '\''
      · subst hsingle
        rfl
      · simp [hslash, hdouble, hsingle]

end Text

namespace Template

/-! ## Literals -/

/-- A text as a literal between two quotes. -/
def quoted (mark : Char) (cs : List Char) : List Char := mark :: (Text.addSlashes cs ++ [mark])

theorem avoids_slashed (mark : Char) (p : Char → Bool) (c : Char) :
    (Quote.inside mark).Avoids p (Text.slashed c) := by
  unfold Text.slashed
  split
  · exact ⟨by simp, by simp [Quote.step], trivial⟩
  · exact ⟨by simp, trivial⟩

theorem unquote?_mark (mark : Char) (rest : List Char) :
    Token.unquote? mark (mark :: rest) = some ([], rest) := by
  cases rest <;> simp [Token.unquote?]

theorem unquote?_cons {mark c : Char} (hmark : c ≠ mark) (hslash : c ≠ '\\') (cs : List Char) :
    Token.unquote? mark (c :: cs) =
      (Token.unquote? mark cs).map fun cut => (c :: cut.1, cut.2) := by
  cases cs <;> simp [Token.unquote?, hmark, hslash]

/-- Decoding takes the backslashes away that were written before characters, if these are the ones
that a backslash protects, and stops at the closing mark. -/
theorem unquote?_flatMap {mark : Char} (hmark : mark ≠ '\\') {f : Char → List Char}
    (hf : ∀ c, (f c = [c] ∧ c ≠ mark ∧ c ≠ '\\') ∨
      (f c = ['\\', c] ∧ (c = '\\' ∨ c = '"' ∨ c = '\''))) (cs rest : List Char) :
    Token.unquote? mark (cs.flatMap f ++ mark :: rest) = some (cs, rest) := by
  induction cs with
  | nil => exact unquote?_mark mark rest
  | cons c cs ih =>
    rw [List.flatMap_cons, List.append_assoc]
    rcases hf c with ⟨hself, hmark', hslash⟩ | ⟨hwritten, hc⟩
    · rw [hself, List.singleton_append, unquote?_cons hmark' hslash, ih]
      rfl
    · have hself : Token.unescape c = [c] := by rcases hc with rfl | rfl | rfl <;> rfl
      simp [hwritten, Token.unquote?, hmark.symm, ih, hself]

section Readers

variable {mark : Char} (hmark : isQuoteMark mark = true)
include hmark

theorem mark_ne_backslash : mark ≠ '\\' := by
  rintro rfl
  exact absurd hmark (by decide)

/-- Inside quotes a character with its backslash ends nothing. -/
theorem run_slashed (c : Char) : (Quote.inside mark).run (Text.slashed c) = .inside mark := by
  unfold Text.slashed
  split
  · rfl
  · rename_i hc
    simp only [not_or] at hc
    have hne : c ≠ mark := by
      rintro rfl
      exact (isQuoteMark_iff.1 hmark).elim hc.2.1 hc.2.2
    simp [Quote.step, hc.1, hne]

/-- A text with its backslashes stays inside the quotes around it. -/
theorem inside_addSlashes (p : Char → Bool) (cs : List Char) :
    (Quote.inside mark).Avoids p (Text.addSlashes cs) ∧
      (Quote.inside mark).run (Text.addSlashes cs) = .inside mark := by
  rw [Text.addSlashes_eq_flatMap]
  induction cs with
  | nil => exact ⟨trivial, rfl⟩
  | cons c cs ih =>
    rw [List.flatMap_cons, Quote.avoids_append, Quote.run_append, run_slashed hmark]
    exact ⟨⟨avoids_slashed mark p c, ih.1⟩, ih.2⟩

/-- Nothing but its two marks can be seen of a literal from outside. -/
theorem avoids_quoted {p : Char → Bool} (hp : p mark = false) (cs : List Char) :
    Quote.outside.Avoids p (quoted mark cs) := by
  have hstep : Quote.outside.step mark = .inside mark := by simp [Quote.step, hmark]
  refine ⟨fun _ => hp, ?_⟩
  rw [hstep, Quote.avoids_append, (inside_addSlashes hmark p cs).2]
  exact ⟨(inside_addSlashes hmark p cs).1, by simp, trivial⟩

/-- A literal closes its quotes. -/
theorem run_quoted (cs : List Char) : Quote.outside.run (quoted mark cs) = .outside := by
  have hstep : Quote.outside.step mark = .inside mark := by simp [Quote.step, hmark]
  rw [quoted, Quote.run_cons, hstep, Quote.run_append,
    (inside_addSlashes hmark (fun _ => true) cs).2]
  simp [Quote.step, mark_ne_backslash hmark]

/-- Behind text without blanks and quotes a literal ends a word. -/
theorem isWord_append_quoted {before : List Char}
    (hbefore : ∀ c ∈ before, Text.isBlank c = false ∧ isQuoteMark c = false) (cs : List Char) :
    IsWord (before ++ quoted mark cs) := by
  have hblank : Text.isBlank mark = false := by
    rcases isQuoteMark_iff.1 hmark with rfl | rfl <;> decide
  have hrun := Quote.run_outside fun c hc => (hbefore c hc).2
  refine ⟨by simp [quoted], ?_, ?_, ?_⟩
  · rw [Quote.avoids_append, hrun]
    exact ⟨Quote.avoids_of_forall fun c hc => (hbefore c hc).1, avoids_quoted hmark hblank cs⟩
  · rw [Quote.run_append, hrun, run_quoted hmark]
  · intro c hc
    rw [quoted, ← List.cons_append, ← List.append_assoc, List.getLast?_concat] at hc
    obtain rfl := Option.some.inj hc
    exact hblank

/-- A literal holds no delimiter outside quotes. -/
theorem cutOutsideQuotes_append_quoted {a b : Char} (ha : isQuoteMark a = false)
    {before : List Char} (hbefore : ∀ c ∈ before, c ≠ a ∧ isQuoteMark c = false)
    (cs : List Char) :
    cutOutsideQuotes a b .outside (before ++ quoted mark cs) = .error .outside := by
  have hne : (mark == a) = false := by
    rw [beq_eq_false_iff_ne]
    rintro rfl
    simp [hmark] at ha
  have hrun := Quote.run_outside fun c hc => (hbefore c hc).2
  have havoids : Quote.outside.Avoids (· == a) (before ++ quoted mark cs) := by
    rw [Quote.avoids_append, hrun]
    exact ⟨Quote.avoids_of_forall fun c hc => by simp [(hbefore c hc).1],
      avoids_quoted hmark hne cs⟩
  rw [cutOutsideQuotes_of_avoids havoids, Quote.run_append, hrun, run_quoted hmark]

/-- Decoding takes the backslashes away again and stops at the closing mark. -/
theorem unquote?_addSlashes (cs rest : List Char) :
    Token.unquote? mark (Text.addSlashes cs ++ mark :: rest) = some (cs, rest) := by
  rw [Text.addSlashes_eq_flatMap]
  refine unquote?_flatMap (mark_ne_backslash hmark) ?_ cs rest
  intro c
  unfold Text.slashed
  split
  · rename_i hc
    exact .inr ⟨rfl, hc⟩
  · rename_i hc
    simp only [not_or] at hc
    refine .inl ⟨rfl, ?_, hc.1⟩
    rintro rfl
    exact (isQuoteMark_iff.1 hmark).elim hc.2.1 hc.2.2

/-- Before a delimiter, or at the end, quotes are read as the text decoded from them. -/
theorem segment_of_unquote? {body : List Char} {s : String} {rest : List Char}
    (hbody : Token.unquote? mark (body ++ mark :: rest) = some (s.toList, rest))
    (hrest : ∀ c ∈ rest.head?, Token.isDelimiter c = true) :
    Token.segment (mark :: (body ++ mark :: rest)) = (⟨.literal, s⟩, rest) := by
  have hbare : (Token.bare rest).2 = rest := by
    cases rest with
    | nil => rfl
    | cons c rest => simp [Token.bare, hrest c rfl]
  rw [Token.segment]
  simp only [hmark, if_true, hbody, String.ofList_toList, hbare]

/-- So is a literal. -/
theorem segment_quoted (s : String) {rest : List Char}
    (hrest : ∀ c ∈ rest.head?, Token.isDelimiter c = true) :
    Token.segment (quoted mark s.toList ++ rest) = (⟨.literal, s⟩, rest) := by
  have htext : quoted mark s.toList ++ rest =
      mark :: (Text.addSlashes s.toList ++ mark :: rest) := by simp [quoted]
  rw [htext]
  exact segment_of_unquote? hmark (unquote?_addSlashes hmark s.toList rest) hrest

end Readers

/-! ## Literals as tokens and as arguments -/

theorem isDelimiter_of_mem_head? {d : Char} (hd : Token.isDelimiter d = true) (cs : List Char) :
    ∀ c ∈ (d :: cs).head?, Token.isDelimiter c = true := by
  rintro c ⟨⟩
  exact hd

/-- Bare text ends before a delimiter or with the text. -/
theorem bare_append {cs rest : List Char} (h : ∀ c ∈ cs, Token.isDelimiter c = false)
    (hrest : ∀ c ∈ rest.head?, Token.isDelimiter c = true) :
    Token.bare (cs ++ rest) = (cs, rest) := by
  have hkeep : ∀ c ∈ cs, (!Token.isDelimiter c) = true := fun c hc => by simp [h c hc]
  rw [Token.bare, List.takeWhile_append_of_pos hkeep, List.dropWhile_append_of_pos hkeep]
  cases rest with
  | nil => simp
  | cons d rest => simp [hrest d rfl]

/-- Text that does not begin with a quote is read as a name. -/
theorem segment_append {cs rest : List Char} (h : ∀ c ∈ cs, Token.isDelimiter c = false)
    (hhead : ∀ c ∈ cs.head?, isQuoteMark c = false)
    (hrest : ∀ c ∈ rest.head?, Token.isDelimiter c = true) :
    Token.segment (cs ++ rest) = (⟨.name, String.ofList cs⟩, rest) := by
  have hbare := bare_append h hrest
  have hfirst : ∀ c ∈ (cs ++ rest).head?, isQuoteMark c = false := by
    cases cs with
    | nil =>
      intro c hc
      have hdelimiter := hrest c hc
      rw [← Bool.not_eq_true, isQuoteMark_iff]
      rintro (rfl | rfl) <;> exact absurd hdelimiter (by decide)
    | cons c cs => exact hhead
  unfold Token.segment
  rw [hbare]
  split
  · rfl
  · rename_i c tail heq
    have hc : isQuoteMark c = false := hfirst c (by rw [heq]; rfl)
    rw [if_neg (by simp [hc])]

/-- An operator of conditions has no colon. -/
theorem isOperatorWord_of_colon {cs : List Char} (h : ':' ∈ cs) :
    isOperatorWord (String.ofList cs) = false := by
  have hwords : ∀ word ∈ operatorWords, ':' ∉ word.toList := by decide
  rw [← Bool.not_eq_true, isOperatorWord, List.contains_iff_mem]
  intro hmem
  exact hwords _ hmem (by rwa [String.toList_ofList])

section Tokens

variable {mark : Char} (hmark : isQuoteMark mark = true)
include hmark

/-- A literal by itself is a token with its text as the value. -/
theorem parse_quoted (s : String) :
    Token.parse (quoted mark s.toList) false =
      ⟨String.ofList (quoted mark s.toList), .literal, s, false, none, []⟩ := by
  have hnone : ∀ c ∈ ([] : List Char).head?, Token.isDelimiter c = true := by simp
  have hsegment := segment_quoted hmark s hnone
  rw [List.append_nil] at hsegment
  simp [Token.parse, hsegment, Token.arguments, Token.filterCalls]

/-- Wherever the arguments of a filter are read, a literal is read as its text. -/
theorem arguments_quoted (s : String) {rest : List Char}
    (hrest : ∀ c ∈ rest.head?, Token.isDelimiter c = true) :
    Token.arguments (':' :: (quoted mark s.toList ++ rest)) =
      (⟨.literal, s⟩ :: (Token.arguments rest).1, (Token.arguments rest).2) := by
  rw [Token.arguments, segment_quoted hmark s hrest]

/-- The first filter of a token with a literal as its first argument. -/
theorem filters_parse_quoted (s : String) (inCondition : Bool) {primary name rest : List Char}
    (hprimary : ∀ c ∈ primary, Token.isDelimiter c = false)
    (hhead : ∀ c ∈ primary.head?, isQuoteMark c = false)
    (hname : ∀ c ∈ name, Token.isDelimiter c = false)
    (hrest : ∀ c ∈ rest.head?, Token.isDelimiter c = true) :
    (Token.parse (primary ++ '|' :: (name ++ ':' :: (quoted mark s.toList ++ rest)))
        inCondition).filters =
      ⟨String.ofList name, ⟨.literal, s⟩ :: (Token.arguments rest).1⟩ ::
        Token.filterCalls (Token.arguments rest).2 := by
  have hword : isOperatorWord (String.ofList
      (primary ++ '|' :: (name ++ ':' :: (quoted mark s.toList ++ rest)))) = false :=
    isOperatorWord_of_colon (by simp)
  have hnone (cs : List Char) : Token.arguments ('|' :: cs) = ([], '|' :: cs) := by
    rw [Token.arguments]
    simp
  rw [Token.parse]
  simp only [hword, Bool.and_false, Bool.false_eq_true, if_false]
  rw [segment_append hprimary hhead (isDelimiter_of_mem_head? rfl _)]
  simp only [hnone]
  rw [Token.filterCalls, bare_append hname (isDelimiter_of_mem_head? rfl _)]
  simp only [arguments_quoted hmark s hrest]

end Tokens

/-! ## Literals in templates -/

/-- A template that only puts out a token renders to the text of the token's value. -/
theorem render_replace (env : Render.Env) {template : String} {t : Token}
    (hcompile : compile env.config.trimBlocks template = .ok [.instruction .replace [t]])
    (dataset : Dataset) :
    env.render template dataset =
      env.resolve (.of (Fields.merge [] dataset)) t >>= fun value => pure (.ok value.display) := by
  rw [env.render_of_compile hcompile, env.renderAt_singleton (Nat.zero_le _) _ _ rfl]
  refine Logged.eq_of rfl ?_
  simp [Render.Env.output]

/-- A literal puts out its text, whatever the dataset. -/
theorem render_literal (env : Render.Env) {template source s : String}
    (hcompile : compile env.config.trimBlocks template =
      .ok [.instruction .replace [⟨source, .literal, s, false, none, []⟩]]) (dataset : Dataset) :
    env.render template dataset = pure (.ok s) := by
  have hdisplay : (Value.str s).display = s := by simp [Value.display, Value.displayChars]
  rw [render_replace env hcompile]
  exact Logged.eq_of (congrArg Except.ok hdisplay) rfl

/-- A character of bare words in templates: no blank, no quote, no delimiter of tokens, and none
with which the end of a tag begins. -/
def isBareChar (c : Char) : Bool :=
  !Text.isBlank c && !isQuoteMark c && !Token.isDelimiter c && c != '\x7d' && c != '%'

theorem isBareChar_iff {c : Char} :
    isBareChar c = true ↔ Text.isBlank c = false ∧ isQuoteMark c = false ∧
      Token.isDelimiter c = false ∧ c ≠ '\x7d' ∧ c ≠ '%' := by
  simp [isBareChar, and_assoc]

/-- The word of a bare word and a filter with a literal as its argument. -/
def filteredWord (primary name literal : List Char) : List Char :=
  primary ++ '|' :: (name ++ ':' :: literal)

/-- A word that ends with a literal is the only token of the emit of it and of the tag that puts out
its value. -/
theorem compile_append_quoted (trim : Bool) {mark : Char} (hmark : isQuoteMark mark = true)
    {before : List Char} (hbefore : ∀ c ∈ before,
      Text.isBlank c = false ∧ isQuoteMark c = false ∧ c ≠ '\x7d' ∧ c ≠ '%')
    (cs : List Char) {template : String}
    (h : template ∈ [String.ofList (emitOf (before ++ quoted mark cs)),
      String.ofList (tagOf "replace".toList (before ++ quoted mark cs))]) :
    compile trim template =
      .ok [.instruction .replace [Token.parse (before ++ quoted mark cs) false]] := by
  have hword : IsWord (before ++ quoted mark cs) :=
    isWord_append_quoted hmark (fun c hc => ⟨(hbefore c hc).1, (hbefore c hc).2.1⟩) cs
  rw [List.mem_pair] at h
  rcases h with rfl | rfl
  · refine compile_emitOf trim hword (cutOutsideQuotes_append_quoted hmark rfl ?_ cs)
    exact fun c hc => ⟨(hbefore c hc).2.2.1, (hbefore c hc).2.1⟩
  · refine compile_replaceTagOf trim hword (cutOutsideQuotes_append_quoted hmark rfl ?_ cs)
    exact fun c hc => ⟨(hbefore c hc).2.2.2, (hbefore c hc).2.1⟩

/-- Every text can be written as a `literal` between quotes of either kind. The emit of the literal
and the tag that puts out its value are one action, and render to the text without any event,
whatever the settings and the dataset. As an argument of a filter the literal is read as the text,
in every token and behind every filter name, also within templates. -/
theorem literal_of_text (trim : Bool) (s : String) {mark : Char} (hmark : isQuoteMark mark = true) :
    let literal := quoted mark s.toList
    (∀ template ∈ [String.ofList (emitOf literal), String.ofList (tagOf "replace".toList literal)],
      compile trim template =
          .ok [.instruction .replace [⟨String.ofList literal, .literal, s, false, none, []⟩]] ∧
        ∀ (env : Render.Env) (dataset : Dataset), env.render template dataset = pure (.ok s)) ∧
    (∀ rest : List Char, (∀ c ∈ rest.head?, Token.isDelimiter c = true) →
      Token.arguments (':' :: (literal ++ rest)) =
        (⟨.literal, s⟩ :: (Token.arguments rest).1, (Token.arguments rest).2)) ∧
    (∀ (inCondition : Bool) (primary name rest : List Char),
      (∀ c ∈ primary ++ name, Token.isDelimiter c = false) →
      (∀ c ∈ primary.head?, isQuoteMark c = false) →
      (∀ c ∈ rest.head?, Token.isDelimiter c = true) →
      (Token.parse (filteredWord primary name (literal ++ rest)) inCondition).filters =
        ⟨String.ofList name, ⟨.literal, s⟩ :: (Token.arguments rest).1⟩ ::
          Token.filterCalls (Token.arguments rest).2) ∧
    ∀ primary name : List Char, (∀ c ∈ primary ++ name, isBareChar c = true) →
      let word := filteredWord primary name literal
      (Token.parse word false).filters = [⟨String.ofList name, [⟨.literal, s⟩]⟩] ∧
        ∀ template ∈ [String.ofList (emitOf word), String.ofList (tagOf "replace".toList word)],
          compile trim template = .ok [.instruction .replace [Token.parse word false]] := by
  intro literal
  have hnone : ∀ c ∈ ([] : List Char).head?, Token.isDelimiter c = true := by simp
  refine ⟨?_, ?_, ?_, ?_⟩
  · intro template htemplate
    have hcompile (trim : Bool) : compile trim template =
        .ok [.instruction .replace [⟨String.ofList literal, .literal, s, false, none, []⟩]] := by
      have hbefore : ∀ c ∈ ([] : List Char),
          Text.isBlank c = false ∧ isQuoteMark c = false ∧ c ≠ '\x7d' ∧ c ≠ '%' := by simp
      rw [← parse_quoted hmark s]
      exact compile_append_quoted trim hmark hbefore s.toList htemplate
    exact ⟨hcompile trim, fun env dataset => render_literal env (hcompile _) dataset⟩
  · intro rest hrest
    exact arguments_quoted hmark s hrest
  · intro inCondition primary name rest hwords hhead hrest
    exact filters_parse_quoted hmark s inCondition
      (fun c hc => hwords c (List.mem_append_left _ hc)) hhead
      (fun c hc => hwords c (List.mem_append_right _ hc)) hrest
  · intro primary name hwords word
    have hbare (c : Char) (hc : c ∈ primary ++ name) := isBareChar_iff.1 (hwords c hc)
    constructor
    · have hfilters := filters_parse_quoted hmark s false
        (fun c hc => (hbare c (List.mem_append_left _ hc)).2.2.1)
        (fun c hc => (hbare c (List.mem_append_left _ (List.mem_of_mem_head? hc))).2.1)
        (fun c hc => (hbare c (List.mem_append_right _ hc)).2.2.1) hnone
      rw [List.append_nil] at hfilters
      rw [show word = primary ++ '|' :: (name ++ ':' :: quoted mark s.toList) from rfl, hfilters]
      simp [Token.arguments, Token.filterCalls]
    · -- What stands before the literal is free of everything that its readers look for.
      have hsplit : word = (primary ++ '|' :: (name ++ [':'])) ++ literal := by
        simp [word, filteredWord]
      rw [hsplit]
      intro template htemplate
      refine compile_append_quoted trim hmark (fun c hc => ?_) s.toList htemplate
      have hcases : c = '|' ∨ c = ':' ∨ c ∈ primary ++ name := by
        simp only [List.mem_append, List.mem_cons, List.not_mem_nil, or_false] at hc ⊢
        rcases hc with hc | hc | hc | hc <;> simp [hc]
      rcases hcases with rfl | rfl | hc
      · decide
      · decide
      · exact ⟨(hbare c hc).1, (hbare c hc).2.1, (hbare c hc).2.2.2⟩

/-- A text with blanks at its ends, both ends of tags, both quotes, a line break, and a backslash
before the letter of one. -/
theorem literal_of_delimiters :
    let s := " \x7d\x7d%\x7d|:'\"\\n\n "
    let template := "\x7b\x7b ' \x7d\x7d%\x7d|:\\'\\\"\\\\n\n ' \x7d\x7d"
    isQuoteMark '\'' = true ∧
      compile true template = .ok [.instruction .replace
        [⟨"' \x7d\x7d%\x7d|:\\'\\\"\\\\n\n '", .literal, s, false, none, []⟩]] ∧
      ∀ (env : Render.Env) (dataset : Dataset), env.render template dataset = pure (.ok s) := by
  intro s template
  have hmark : isQuoteMark '\'' = true := rfl
  have htemplate : template = String.ofList (emitOf (quoted '\'' s.toList)) := by
    simp only [template, s]
    decide
  have hliteral := (literal_of_text true s hmark).1 template (by simp [htemplate])
  have hsource : String.ofList (quoted '\'' s.toList) = "' \x7d\x7d%\x7d|:\\'\\\"\\\\n\n '" := by
    simp only [s]
    decide
  rw [hsource] at hliteral
  exact ⟨hmark, hliteral⟩

end Template

end Stencil
