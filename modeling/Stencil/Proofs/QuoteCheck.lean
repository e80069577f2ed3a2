import Stencil.Proofs.Literals
import Stencil.Proofs.Tiling

/-!
# Quotes that are left open

A template does not compile if a quote of an emit or of a tag is left open at its end. Tokens are
read from these later (`Token.parse`), and find quotes only where a part of a token begins. So the
check rules out that such a quote is left open if the quotes of the word open nowhere else. Where
they open inside a bare word or inside the name of a tag, a part of a token can be left open though
every quote that the check has seen is closed.
-/

namespace Stencil.Template

/-! ## Texts that close their quotes -/

/-- Every quote of a text is closed in it. -/
def ClosesQuotes (cs : List Char) : Prop := Quote.outside.run cs = .outside

instance (cs : List Char) : Decidable (ClosesQuotes cs) := inferInstanceAs (Decidable (_ = _))

theorem ClosesQuotes.append {cs ds : List Char} (hcs : ClosesQuotes cs) (hds : ClosesQuotes ds) :
    ClosesQuotes (cs ++ ds) := by
  rw [ClosesQuotes, Quote.run_append, hcs, hds]

/-- Behind a text that closes its quotes, quotes are closed as if the rest stood alone. -/
theorem ClosesQuotes.of_append {cs ds : List Char} (hcs : ClosesQuotes cs)
    (h : ClosesQuotes (cs ++ ds)) : ClosesQuotes ds := by
  rwa [ClosesQuotes, Quote.run_append, hcs] at h

/-- A quote is open only if it was opened by a quote mark. -/
def Quote.Opened : Quote → Prop
  | .outside => True
  | .inside mark | .escaped mark => isQuoteMark mark = true

theorem Quote.opened_step {q : Quote} (h : q.Opened) (c : Char) : (q.step c).Opened := by
  cases q with
  | outside =>
    rw [step]
    split_ifs with hc
    · exact hc
    · trivial
  | inside mark =>
    rw [step]
    split_ifs
    · exact h
    · trivial
    · exact h
  | escaped mark => exact h

theorem Quote.opened_run {q : Quote} (h : q.Opened) (cs : List Char) : (q.run cs).Opened := by
  induction cs generalizing q with
  | nil => exact h
  | cons c cs ih => exact ih (opened_step h c)

/-- Blanks open no quote. -/
theorem closesQuotes_of_blank {bs : List Char} (h : ∀ b ∈ bs, Text.isBlank b = true) :
    ClosesQuotes bs :=
  Quote.run_outside fun b hb => not_isQuoteMark_of_isBlank (h b hb)

/-- Blanks close no quote. -/
theorem Quote.eq_outside_of_run_blank {q : Quote} (hq : q.Opened) {bs : List Char}
    (hbs : ∀ b ∈ bs, Text.isBlank b = true) (h : q.run bs = .outside) : q = .outside := by
  induction bs generalizing q with
  | nil => exact h
  | cons b bs ih =>
    have hb : isQuoteMark b = false := not_isQuoteMark_of_isBlank (hbs b (by simp))
    have hstep : q.step b = .outside :=
      ih (opened_step hq b) (fun c hc => hbs c (by simp [hc])) h
    cases q with
    | outside => rfl
    | inside mark =>
      have hmark : b ≠ mark := by
        rintro rfl
        rw [Opened, hb] at hq
        cases hq
      rw [step, if_neg hmark] at hstep
      split at hstep <;> cases hstep
    | escaped mark => cases hstep

theorem ClosesQuotes.trimStart {cs : List Char} (h : ClosesQuotes cs) :
    ClosesQuotes (Text.trimStart cs) := by
  have hblank : ∀ b ∈ cs.takeWhile Text.isBlank, Text.isBlank b = true :=
    fun b hb => List.mem_takeWhile_imp hb
  rw [← List.takeWhile_append_dropWhile (p := Text.isBlank) (l := cs)] at h
  exact (closesQuotes_of_blank hblank).of_append h

theorem ClosesQuotes.trimEnd {cs : List Char} (h : ClosesQuotes cs) :
    ClosesQuotes (Text.trimEnd cs) := by
  have hblank : ∀ b ∈ (cs.reverse.takeWhile Text.isBlank).reverse, Text.isBlank b = true := by
    intro b hb
    exact List.mem_takeWhile_imp (List.mem_reverse.1 hb)
  have hends : Text.trimEnd cs ++ (cs.reverse.takeWhile Text.isBlank).reverse = cs := by
    rw [Text.trimEnd, Text.dropEndWhile, ← List.reverse_append, List.takeWhile_append_dropWhile,
      List.reverse_reverse]
  rw [ClosesQuotes, ← hends, Quote.run_append] at h
  have hopened : (Quote.outside.run (Text.trimEnd cs)).Opened :=
    Quote.opened_run (q := .outside) trivial _
  exact Quote.eq_outside_of_run_blank hopened hblank h

/-- Trimming takes away blanks that stand outside quotes. -/
theorem ClosesQuotes.trim {cs : List Char} (h : ClosesQuotes cs) : ClosesQuotes (Text.trim cs) :=
  h.trimStart.trimEnd

/-- The words of a text that closes its quotes close theirs. `word` is the word being read. -/
theorem closesQuotes_of_mem_splitFrom {parens : Bool} {q : Quote} {word cs : List Char}
    (hword : Quote.outside.run word = q) (hcs : q.run cs = .outside) :
    ∀ w ∈ splitFrom parens q word cs, ClosesQuotes w := by
  induction q, word, cs using split_induction parens with
  | nil q word =>
    rw [splitFrom_nil]
    exact forall_mem_putWord (hword.trans hcs) (List.forall_mem_nil _)
  | blank word c cs hc ih =>
    rw [Quote.run_cons, step_of_isBlank hc] at hcs
    rw [splitFrom_blank hc]
    exact forall_mem_putWord hword (ih rfl hcs)
  | paren word c cs hparens hc ih =>
    subst hparens
    rw [Quote.run_cons, step_of_isParen hc] at hcs
    rw [splitFrom_paren hc]
    exact forall_mem_putWord hword (List.forall_mem_cons.2 ⟨step_of_isParen hc, ih rfl hcs⟩)
  | grow q word c cs hc ih =>
    rw [splitFrom_grow hc]
    exact ih (by rw [Quote.run_append, hword]; rfl) hcs

theorem ClosesQuotes.words {cs : List Char} (h : ClosesQuotes cs) (parens : Bool) :
    ∀ w ∈ splitFrom parens .outside [] cs, ClosesQuotes w :=
  closesQuotes_of_mem_splitFrom rfl h

/-- Without its blanks outside quotes a text still closes its quotes. -/
theorem ClosesQuotes.tighten {cs : List Char} (h : ClosesQuotes cs) :
    ClosesQuotes (tighten cs) := by
  have hwords : ∀ w ∈ splitArguments cs, ClosesQuotes w := h.words false
  rw [Template.tighten]
  generalize splitArguments cs = words at hwords
  induction words with
  | nil => rfl
  | cons w words ih =>
    rw [List.forall_mem_cons] at hwords
    rw [List.flatten_cons]
    exact hwords.1.append (ih hwords.2)

/-! ## What the check says about a piece -/

/-- The closing delimiter that is found stands outside quotes. -/
theorem run_of_cutOutsideQuotes {a b : Char} {q : Quote} {cs before after : List Char}
    (h : cutOutsideQuotes a b q cs = .ok (before, after)) : q.run before = .outside := by
  induction cs generalizing q before with
  | nil => cases h
  | cons c cs ih =>
    rw [cutOutsideQuotes] at h
    split at h
    · rename_i hc
      cases h
      exact hc.1
    · cases hcut : cutOutsideQuotes a b (q.step c) cs with
      | error e => simp [hcut, Except.map] at h
      | ok cut =>
        obtain ⟨content, rest⟩ := cut
        rw [hcut] at h
        cases h
        show (q.step c).run content = .outside
        exact ih hcut

/-- The content of an emit closes its quotes. -/
theorem closesQuotes_of_cutPiece_emit {trim : Bool} {cs content source rest : List Char}
    (h : cutPiece trim cs = .ok (.emit content, source, rest)) : ClosesQuotes content := by
  by_cases ho : atOpener cs = true
  · rcases opener_cases ho with ⟨inner, rfl⟩ | ⟨inner, rfl⟩ | ⟨inner, rfl⟩
    · obtain ⟨text, hcut, -, hkind, -⟩ := cutEmit_eq_ok_iff.1 h
      cases hkind
      have hclosed : ClosesQuotes text := run_of_cutOutsideQuotes hcut
      exact hclosed.trim.tighten
    · obtain ⟨_, _, _, _, hkind, _, _⟩ := cutTag_eq_ok_iff.1 h
      cases hkind
    · obtain ⟨_, _, hkind, _⟩ := cutComment_eq_ok_iff.1 h
      cases hkind
  · rw [cutPiece_text trim ho] at h
    cases h

/-- The arguments of a tag close their quotes if its name does, unless the tag keeps its content. -/
theorem closesQuotes_of_cutPiece_tag {trim : Bool} {cs arguments source rest : List Char}
    {name : String} (h : cutPiece trim cs = .ok (.tag name arguments, source, rest))
    (hraw : ¬isRawName name = true) (hname : ClosesQuotes name.toList) :
    ClosesQuotes arguments := by
  by_cases ho : atOpener cs = true
  · rcases opener_cases ho with ⟨inner, rfl⟩ | ⟨inner, rfl⟩ | ⟨inner, rfl⟩
    · obtain ⟨_, _, _, hkind, _⟩ := cutEmit_eq_ok_iff.1 h
      cases hkind
    · obtain ⟨content, after, hcut, -, hkind, -⟩ := cutTag_eq_ok_iff.1 h
      cases hkind
      rw [cutTagContent, if_neg hraw] at hcut
      rw [String.toList_ofList] at hname
      have hclosed : ClosesQuotes content := by
        split at hcut
        · cases hcut
        · rename_i heq
          cases hcut
          exact run_of_cutOutsideQuotes heq
      obtain ⟨rest, hrest⟩ : tagName content <+: Text.trimStart content :=
        List.takeWhile_prefix _
      have hcontent : ClosesQuotes (tagName content ++ rest) := hrest ▸ hclosed.trimStart
      rw [← hrest, List.drop_left]
      exact (hname.of_append hcontent).trim
    · obtain ⟨_, _, hkind, _⟩ := cutComment_eq_ok_iff.1 h
      cases hkind
  · rw [cutPiece_text trim ho] at h
    cases h

/-! ## What a token finds -/

/-- A part of a token that begins with a quote and is a name, since the quote is not closed. -/
def Argument.IsOpenQuote (a : Argument) : Prop :=
  a.kind = .name ∧ ∃ c ∈ a.value.toList.head?, isQuoteMark c = true

/-- The primary of a token as a part like the others. -/
def Token.primary (t : Token) : Argument := ⟨t.kind, t.value⟩

/-- The primary of a token, its argument, and the arguments of its filters. -/
def Token.parts (t : Token) : List Argument :=
  t.primary :: (t.argument.toList ++ t.filters.flatMap FilterCall.arguments)

/-- Quotes open only where a part of a token can begin: behind a colon, and at the front of the text
if that is the front of a part. -/
def Quote.OpensAtParts : Quote → (front : Bool) → List Char → Prop
  | _, _, [] => True
  | q, front, c :: cs =>
    (q = .outside → isQuoteMark c = true → front = true) ∧ (q.step c).OpensAtParts (c == ':') cs

instance : (q : Quote) → (front : Bool) → (cs : List Char) → Decidable (q.OpensAtParts front cs)
  | _, _, [] => inferInstanceAs (Decidable True)
  | q, _, c :: cs =>
    have : Decidable ((q.step c).OpensAtParts (c == ':') cs) :=
      instDecidableOpensAtParts (q.step c) (c == ':') cs
    inferInstanceAs (Decidable (_ ∧ _))

/-- A text, at the front of a part or behind one, whose quotes are closed and open only where a part
can begin. -/
structure Orderly (front : Bool) (cs : List Char) : Prop where
  closed : ClosesQuotes cs
  opens : Quote.outside.OpensAtParts front cs

/-- Where decoding stops quotes are closed, and no others have been opened. -/
theorem outside_of_unquote? {mark : Char} (hslash : mark ≠ '\\') {cs value rest : List Char}
    (h : Token.unquote? mark cs = some (value, rest)) :
    (Quote.inside mark).run cs = Quote.outside.run rest ∧
      ∀ front, (Quote.inside mark).OpensAtParts front cs →
        Quote.outside.OpensAtParts (mark == ':') rest := by
  fun_induction Token.unquote? mark cs generalizing value rest with
  | case1 => cases h
  | case2 cs =>
    cases h
    have hstep : (Quote.inside mark).step mark = .outside := by simp [Quote.step, hslash]
    refine ⟨by rw [Quote.run_cons, hstep], ?_⟩
    rintro front ⟨-, hopens⟩
    rwa [hstep] at hopens
  | case3 => cases h
  | case4 hmark d ds ih =>
    obtain ⟨⟨text, after⟩, hcut, heq⟩ := Option.map_eq_some_iff.1 h
    cases heq
    obtain ⟨hrun, hopens⟩ := ih hcut
    refine ⟨hrun, ?_⟩
    rintro front ⟨-, -, hrest⟩
    exact hopens _ hrest
  | case5 c cs hmark hbackslash ih =>
    obtain ⟨⟨text, after⟩, hcut, heq⟩ := Option.map_eq_some_iff.1 h
    cases heq
    obtain ⟨hrun, hopens⟩ := ih hcut
    have hstep : (Quote.inside mark).step c = .inside mark := by
      simp [Quote.step, hmark, hbackslash]
    refine ⟨by rw [Quote.run_cons, hstep, hrun], ?_⟩
    rintro front ⟨-, hrest⟩
    rw [hstep] at hrest
    exact hopens _ hrest

/-- Quotes that cannot be decoded are not closed. -/
theorem run_ne_outside_of_unquote?_eq_none {mark : Char} {cs : List Char}
    (h : Token.unquote? mark cs = none) : (Quote.inside mark).run cs ≠ .outside := by
  fun_induction Token.unquote? mark cs with
  | case1 => simp
  | case2 => cases h
  | case3 => simp [Quote.step]
  | case4 hmark d ds ih => exact ih (Option.map_eq_none_iff.1 h)
  | case5 c cs hmark hbackslash ih =>
    have hstep : (Quote.inside mark).step c = .inside mark := by
      simp [Quote.step, hmark, hbackslash]
    rw [Quote.run_cons, hstep]
    exact ih (Option.map_eq_none_iff.1 h)

/-- In a text that closes its quotes a segment is a literal if it begins with a quote, and else a
name. -/
theorem ClosesQuotes.segment_cases {cs : List Char} (h : ClosesQuotes cs) :
    (∃ mark body value after, cs = mark :: body ∧ isQuoteMark mark = true ∧
        Token.unquote? mark body = some (value, after) ∧
        Token.segment cs = (⟨.literal, String.ofList value⟩, (Token.bare after).2)) ∨
      (∀ c ∈ cs.head?, isQuoteMark c = false) ∧
        Token.segment cs = (⟨.name, String.ofList (Token.bare cs).1⟩, (Token.bare cs).2) := by
  cases cs with
  | nil => exact .inr ⟨by simp, rfl⟩
  | cons c body =>
    cases hc : isQuoteMark c with
    | false =>
      right
      refine ⟨?_, ?_⟩
      · rintro d ⟨⟩
        exact hc
      · simp [Token.segment, hc]
    | true =>
      left
      cases hvalue : Token.unquote? c body with
      | none =>
        have hstep : Quote.outside.step c = .inside c := by simp [Quote.step, hc]
        rw [ClosesQuotes, Quote.run_cons, hstep] at h
        exact absurd h (run_ne_outside_of_unquote?_eq_none hvalue)
      | some cut =>
        obtain ⟨value, after⟩ := cut
        exact ⟨c, body, value, after, rfl, hc, hvalue, by simp [Token.segment, hc, hvalue]⟩

/-- So it is not left open. -/
theorem ClosesQuotes.not_isOpenQuote_segment {cs : List Char} (h : ClosesQuotes cs) :
    ¬(Token.segment cs).1.IsOpenQuote := by
  rintro ⟨hkind, c, hc, hquote⟩
  rcases h.segment_cases with ⟨mark, body, value, after, -, -, -, hsegment⟩ | ⟨hhead, hsegment⟩
  · rw [hsegment] at hkind
    cases hkind
  · rw [hsegment, String.toList_ofList, Token.bare, List.head?_takeWhile] at hc
    have hfirst : c ∈ cs.head? := (Option.mem_filter_iff.1 hc).1
    exact absurd hquote (by simp [hhead c hfirst])

namespace Orderly

/-- Behind bare text up to a delimiter a text is orderly as before. -/
theorem bare {cs : List Char} (h : Orderly false cs) : Orderly false (Token.bare cs).2 := by
  induction cs with
  | nil => exact h
  | cons c cs ih =>
    cases hc : Token.isDelimiter c with
    | true =>
      have hstop : (Token.bare (c :: cs)).2 = c :: cs := by simp [Token.bare, hc]
      rwa [hstop]
    | false =>
      have hnext : (Token.bare (c :: cs)).2 = (Token.bare cs).2 := by simp [Token.bare, hc]
      obtain ⟨hclosed, hquote, hopens⟩ := h
      have hstep : Quote.outside.step c = .outside := by
        rw [Quote.step, if_neg]
        intro hmark
        cases hquote rfl hmark
      have hcolon : (c == ':') = false := by
        rw [beq_eq_false_iff_ne]
        rintro rfl
        cases hc
      rw [ClosesQuotes, Quote.run_cons, hstep] at hclosed
      rw [hstep, hcolon] at hopens
      rw [hnext]
      exact ih ⟨hclosed, hopens⟩

/-- So it is behind a segment at the front of it. -/
theorem segment {cs : List Char} (h : Orderly true cs) : Orderly false (Token.segment cs).2 := by
  rcases h.closed.segment_cases with ⟨mark, body, value, after, rfl, hmark, hvalue, hsegment⟩ |
    ⟨hhead, hsegment⟩
  · have hstep : Quote.outside.step mark = .inside mark := by simp [Quote.step, hmark]
    have hcolon : (mark == ':') = false := by
      rw [beq_eq_false_iff_ne]
      rintro rfl
      cases hmark
    obtain ⟨hclosed, -, hopens⟩ := h
    obtain ⟨hrun, hrest⟩ := outside_of_unquote? (mark_ne_backslash hmark) hvalue
    rw [ClosesQuotes, Quote.run_cons, hstep, hrun] at hclosed
    rw [hstep] at hopens
    rw [hsegment]
    exact bare ⟨hclosed, hcolon ▸ hrest _ hopens⟩
  · have hname : Orderly false cs := by
      obtain ⟨hclosed, hopens⟩ := h
      refine ⟨hclosed, ?_⟩
      cases cs with
      | nil => trivial
      | cons c cs =>
        refine ⟨fun _ hquote => ?_, hopens.2⟩
        rw [hhead c rfl] at hquote
        cases hquote
    rw [hsegment]
    exact hname.bare

/-- Behind a colon a part begins. -/
theorem of_colon {cs : List Char} (h : Orderly false (':' :: cs)) : Orderly true cs :=
  ⟨h.closed, h.opens.2⟩

theorem of_bar {cs : List Char} (h : Orderly false ('|' :: cs)) : Orderly false cs :=
  ⟨h.closed, h.opens.2⟩

/-- No argument is left open, and behind the arguments a text is orderly as before. -/
theorem arguments {cs : List Char} (h : Orderly false cs) :
    (∀ a ∈ (Token.arguments cs).1, ¬a.IsOpenQuote) ∧ Orderly false (Token.arguments cs).2 := by
  fun_induction Token.arguments cs with
  | case1 body others after hothers ih =>
    have hbody : Orderly true body := h.of_colon
    obtain ⟨harguments, hrest⟩ := ih hbody.segment
    rw [hothers] at harguments hrest
    exact ⟨List.forall_mem_cons.2 ⟨hbody.closed.not_isOpenQuote_segment, harguments⟩, hrest⟩
  | case2 cs => exact ⟨by simp, h⟩

/-- No argument of a filter is left open. -/
theorem filterCalls {cs : List Char} (h : Orderly false cs) :
    ∀ call ∈ Token.filterCalls cs, ∀ a ∈ call.arguments, ¬a.IsOpenQuote := by
  fun_induction Token.filterCalls cs with
  | case1 body args ih =>
    obtain ⟨harguments, hrest⟩ := h.of_bar.bare.arguments
    rw [List.forall_mem_cons]
    exact ⟨harguments, ih hrest⟩
  | case2 => simp

end Orderly

/-- An operator of conditions does not begin with a quote. -/
theorem not_isOpenQuote_operator {word : String} (h : isOperatorWord word = true) :
    ¬(⟨.name, word⟩ : Argument).IsOpenQuote := by
  have hwords : ∀ word ∈ operatorWords, word.toList.head?.any isQuoteMark = false := by decide
  rintro ⟨-, hquote⟩
  rw [isOperatorWord, List.contains_iff_mem] at h
  have hany : word.toList.head?.any isQuoteMark = true := (Option.any_eq_true _ _).2 hquote
  rw [hwords word h] at hany
  cases hany

theorem Token.source_parse (cs : List Char) (inCondition : Bool) :
    (Token.parse cs inCondition).source = String.ofList cs := by
  rw [Token.parse]
  dsimp only
  split <;> rfl

/-- The primary of a word that closes its quotes is not left open. -/
theorem ClosesQuotes.not_isOpenQuote_primary {cs : List Char} (h : ClosesQuotes cs)
    (inCondition : Bool) : ¬(Token.parse cs inCondition).primary.IsOpenQuote := by
  rw [Token.parse]
  dsimp only
  split
  · rename_i hoperator
    rw [Bool.and_eq_true] at hoperator
    exact not_isOpenQuote_operator hoperator.2
  · exact h.not_isOpenQuote_segment

/-- No part of an orderly word is left open. -/
theorem Orderly.not_isOpenQuote_of_mem_parts {cs : List Char} (h : Orderly true cs)
    (inCondition : Bool) : ∀ a ∈ (Token.parse cs inCondition).parts, ¬a.IsOpenQuote := by
  rw [Token.parts, List.forall_mem_cons]
  refine ⟨h.closed.not_isOpenQuote_primary inCondition, ?_⟩
  rw [Token.parse]
  dsimp only
  split
  · simp
  · obtain ⟨harguments, hrest⟩ := h.segment.arguments
    intro a ha
    rw [List.mem_append, List.mem_flatMap] at ha
    rcases ha with ha | ⟨call, hcall, ha⟩
    · exact harguments a (List.mem_of_mem_head? (Option.mem_toList.1 ha))
    · exact hrest.filterCalls call hcall a ha

/-! ## Compiled templates -/

/-- The tokens that a traversal meets at once. -/
def Visit.tokens : Visit → List Token
  | .action (.instruction _ arguments) | .forLoop arguments | .filterBlock arguments => arguments
  | .branch _ condition => condition
  | _ => []

/-- Names of tags that the program does not know may hold quotes; those of this one are closed. -/
def Visit.ClosesName (v : Visit) : Prop :=
  ∀ name arguments, v = .action (.instruction (.unknown name) arguments) →
    ClosesQuotes name.toList

/-- The names of the tags that the program knows hold no quotes. -/
theorem ofName_eq_unknown_or_closesQuotes (name : String) :
    TagRole.ofName name = .instruction (.unknown name) ∨ ClosesQuotes name.toList := by
  unfold TagRole.ofName
  split
  all_goals first | exact .inr (by decide) | exact .inl rfl

/-- A tag whose content is kept has no tokens. -/
theorem exists_raw_of_isRawName {name : String} (h : isRawName name = true) :
    ∃ kind, TagRole.ofName name = .raw kind := by
  simp only [isRawName, Bool.or_eq_true, decide_eq_true_eq] at h
  rcases h with (rfl | rfl) | rfl
  · exact ⟨.comment, rfl⟩
  · exact ⟨.copy, rfl⟩
  · exact ⟨.ignore, rfl⟩

/-- Tokens that a tag leaves are words of its arguments, and then the tag does not keep its content
and its name closes its quotes, if that is so of the names that the program does not know. -/
theorem tokens_of_visit?_tag {p : Piece} {name : String} {arguments : List Char}
    (hkind : p.kind = .tag name arguments) {v : Visit} (hv : p.visit? = some v)
    (hname : v.ClosesName) {t : Token} (ht : t ∈ v.tokens) :
    ¬isRawName name = true ∧ ClosesQuotes name.toList ∧
      (t ∈ tokens arguments ∨ t ∈ conditionTokens arguments) := by
  rw [Piece.visit?, hkind] at hv
  dsimp only at hv
  split_ifs at hv with hfor hfilter hif helse hend
  · cases hv
    subst hfor
    exact ⟨by decide, by decide, .inl ht⟩
  · cases hv
    subst hfilter
    exact ⟨by decide, by decide, .inl ht⟩
  · cases hv
    rcases hif with rfl | rfl
    · exact ⟨by decide, by decide, .inr ht⟩
    · exact ⟨by decide, by decide, .inr ht⟩
  · cases hv
    cases ht
  · cases hv
    rw [Piece.action, hkind] at hname ht
    dsimp only at hname ht
    have hraw : ¬isRawName name = true := by
      intro hraw
      obtain ⟨kind, hrole⟩ := exists_raw_of_isRawName hraw
      rw [hrole] at ht
      cases ht
    have hwords : t ∈ tokens arguments := by
      split at ht
      · cases ht
      · exact ht
      · exact ht
    refine ⟨hraw, ?_, .inl hwords⟩
    rcases ofName_eq_unknown_or_closesQuotes name with hunknown | hcloses
    · rw [hunknown] at hname
      exact hname name _ rfl
    · exact hcloses

/-- A token of a compiled template is read from a word that closes its quotes, unless the name of
its tag leaves a quote open. -/
theorem exists_word_of_mem_tokens {trim : Bool} {template : String} {actions : List Action}
    (h : compile trim template = .ok actions) {v : Visit} (hv : v ∈ actionVisits actions)
    (hname : v.ClosesName) {t : Token} (ht : t ∈ v.tokens) :
    ∃ word inCondition, ClosesQuotes word ∧ t = Token.parse word inCondition := by
  obtain ⟨d, hpieces, rfl⟩ := compile_eq_ok_iff.1 h
  rw [d.visits_actions, List.mem_filterMap] at hv
  obtain ⟨p, hp, hv⟩ := hv
  obtain ⟨ds, rest, -, hcut⟩ := (cuts_of_piecesFrom hpieces).cut_of_mem hp
  cases hkind : p.kind with
  | text | comment content =>
    simp only [Piece.visit?, Piece.action, hkind, Option.some.injEq] at hv
    subst hv
    cases ht
  | emit content =>
    simp only [Piece.visit?, Piece.action, hkind, Option.some.injEq] at hv
    subst hv
    rw [hkind] at hcut
    exact ⟨content, false, closesQuotes_of_cutPiece_emit hcut, List.mem_singleton.1 ht⟩
  | tag name arguments =>
    rw [hkind] at hcut
    obtain ⟨hraw, hcloses, hwords⟩ := tokens_of_visit?_tag hkind hv hname ht
    have harguments := closesQuotes_of_cutPiece_tag hcut hraw hcloses
    rcases hwords with hwords | hwords
    · obtain ⟨word, hword, rfl⟩ := List.mem_map.1 hwords
      exact ⟨word, false, harguments.words false word hword, rfl⟩
    · obtain ⟨word, hword, rfl⟩ := List.mem_map.1 hwords
      exact ⟨word, true, harguments.words true word hword, rfl⟩

/-- In a compiled template every token, of emits, tags and conditions at any depth, comes from a
text that closes its quotes (`ClosesQuotes`), and its primary is not left open, unless the name of
the tag leaves a quote open. If the quotes of the text open only where its parts can begin, then
none of its parts is left open: what begins with a quote is a literal. -/
theorem quotes_closed_in_compiled {trim : Bool} {template : String} {actions : List Action}
    (h : compile trim template = .ok actions) {v : Visit} (hv : v ∈ actionVisits actions)
    (hname : v.ClosesName) {t : Token} (ht : t ∈ v.tokens) :
    ClosesQuotes t.source.toList ∧ ¬t.primary.IsOpenQuote ∧
      (Quote.outside.OpensAtParts true t.source.toList → ∀ a ∈ t.parts, ¬a.IsOpenQuote) := by
  obtain ⟨word, inCondition, hcloses, rfl⟩ := exists_word_of_mem_tokens h hv hname ht
  rw [Token.source_parse, String.toList_ofList]
  refine ⟨hcloses, hcloses.not_isOpenQuote_primary inCondition, ?_⟩
  intro hopens
  exact Orderly.not_isOpenQuote_of_mem_parts ⟨hcloses, hopens⟩ inCondition

/-- A text without blanks that closes its quotes is one word. -/
theorem isWord_of_all {cs : List Char} (hne : cs ≠ []) (hblank : cs.all (!Text.isBlank ·) = true)
    (hcloses : ClosesQuotes cs) : IsWord cs := by
  have hnone : ∀ c ∈ cs, Text.isBlank c = false := by simpa using hblank
  exact ⟨hne, Quote.avoids_of_forall hnone, hcloses,
    fun c hc => hnone c (List.mem_of_mem_getLast? hc)⟩

/-- The argument of a filter in quotes, with a colon and a quote in it. -/
theorem quotes_closed_in_compiled_filter :
    let word := "x|f:'\":'".toList
    let token := Token.parse word false
    compile true (String.ofList (emitOf word)) = .ok [.instruction .replace [token]] ∧
      Quote.outside.OpensAtParts true token.source.toList ∧ ∀ a ∈ token.parts, ¬a.IsOpenQuote := by
  intro word token
  have hcompile : compile true (String.ofList (emitOf word)) =
      .ok [.instruction .replace [token]] :=
    compile_emitOf true (isWord_of_all (by decide) (by decide) (by decide)) rfl
  have hopens : Quote.outside.OpensAtParts true token.source.toList := by
    rw [Token.source_parse, String.toList_ofList]
    decide
  have hname : Visit.ClosesName (.action (.instruction .replace [token])) := by
    intro name arguments heq
    cases heq
  have hparts := (quotes_closed_in_compiled hcompile (List.mem_singleton.2 rfl) hname
    (List.mem_singleton.2 rfl)).2.2 hopens
  exact ⟨hcompile, hopens, hparts⟩

/-- A quote inside the primary and one at the front of the argument pass for the two ends of quotes,
but the argument is read as a name that begins with a quote. -/
theorem quotes_not_closed_in_argument :
    ¬∀ (trim : Bool) (template : String) (actions : List Action) (v : Visit) (t : Token),
      compile trim template = .ok actions → v ∈ actionVisits actions → t ∈ v.tokens →
        ∀ a ∈ t.parts, ¬a.IsOpenQuote := by
  intro hclosed
  have hword : IsWord "a'b:'c".toList := isWord_of_all (by decide) (by decide) (by decide)
  have hparse : Token.parse "a'b:'c".toList false =
      ⟨"a'b:'c", .name, "a'b", false, some ⟨.name, "'c"⟩, []⟩ := by
    simp [Token.parse, Token.segment, Token.arguments, Token.filterCalls, Token.bare,
      Token.unquote?, Token.isDelimiter, isQuoteMark]
  have hcompile := compile_emitOf true hword rfl
  rw [hparse] at hcompile
  refine hclosed _ _ _ _ _ hcompile (List.mem_singleton.2 rfl) (List.mem_singleton.2 rfl)
    ⟨.name, "'c"⟩ ?_ ⟨rfl, '\'', rfl, rfl⟩
  simp [Token.parts]

end Stencil.Template
