import Stencil.Proofs.QuoteCheck

/-!
# The value of a word has two spellings

A word between double braces (`cutEmit`) and the same word as the argument of the tag `replace` are
cut off, cut up and read in different ways. What both ways look for are blanks, quotes and closing
delimiters, so they agree on every word that has no blank and no closing delimiter outside its
quotes.
-/

namespace Stencil.Template

/-! ## Delimiters outside quotes -/

/-- Two characters stand next to each other outside the quotes of a text. -/
def HoldsOutside (a b : Char) (cs : List Char) : Prop :=
  ∃ before after, cs = before ++ a :: b :: after ∧ ClosesQuotes before

/-- Wherever they stand, the search finds them there or before. -/
theorem exists_cutOutsideQuotes {a b : Char} {q : Quote} {before : List Char}
    (h : q.run before = .outside) (after : List Char) :
    ∃ cut, cutOutsideQuotes a b q (before ++ a :: b :: after) = .ok cut := by
  induction before generalizing q with
  | nil => exact ⟨([], after), by rw [List.nil_append, cutOutsideQuotes, if_pos ⟨h, rfl, rfl⟩]; rfl⟩
  | cons c before ih =>
    obtain ⟨cut, hcut⟩ := ih h
    rw [List.cons_append, cutOutsideQuotes]
    split
    · exact ⟨_, rfl⟩
    · exact ⟨_, by rw [hcut]; rfl⟩

theorem holdsOutside_iff {a b : Char} {cs : List Char} :
    HoldsOutside a b cs ↔ (cutOutsideQuotes a b .outside cs).isOk = true := by
  constructor
  · rintro ⟨before, after, rfl, h⟩
    obtain ⟨cut, hcut⟩ := exists_cutOutsideQuotes h after
    rw [hcut]
    rfl
  · intro h
    cases hcut : cutOutsideQuotes a b .outside cs with
    | error q => simp [hcut, Except.isOk, Except.toBool] at h
    | ok cut =>
      exact ⟨cut.1, cut.2, cutOutsideQuotes_eq hcut, run_of_cutOutsideQuotes hcut⟩

instance (a b : Char) (cs : List Char) : Decidable (HoldsOutside a b cs) :=
  decidable_of_iff _ holdsOutside_iff.symm

/-- The search that finds no closing delimiter ends in the state behind the text. -/
theorem eq_run_of_cutOutsideQuotes {a b : Char} {q q' : Quote} {cs : List Char}
    (h : cutOutsideQuotes a b q cs = .error q') : q' = q.run cs := by
  induction cs generalizing q with
  | nil =>
    cases h
    rfl
  | cons c cs ih =>
    rw [cutOutsideQuotes] at h
    split at h
    · cases h
    · cases hcut : cutOutsideQuotes a b (q.step c) cs with
      | error e =>
        rw [hcut] at h
        cases h
        exact ih hcut
      | ok cut => simp [hcut, Except.map] at h

/-- In a text that closes its quotes no closing delimiter is found if none stands outside them. -/
theorem cutOutsideQuotes_of_closes {a b : Char} {cs : List Char} (hcloses : ClosesQuotes cs)
    (h : ¬HoldsOutside a b cs) : cutOutsideQuotes a b .outside cs = .error .outside := by
  cases hcut : cutOutsideQuotes a b .outside cs with
  | error q => rw [eq_run_of_cutOutsideQuotes hcut, hcloses]
  | ok cut => exact absurd (holdsOutside_iff.2 (by rw [hcut]; rfl)) h

/-! ## Words -/

/-- A text without blanks outside quotes that closes its quotes is one word. -/
theorem isWord_of_avoids {cs : List Char} (hne : cs ≠ [])
    (hblank : Quote.outside.Avoids Text.isBlank cs) (hcloses : ClosesQuotes cs) : IsWord cs := by
  refine ⟨hne, hblank, hcloses, fun c hc => ?_⟩
  obtain ⟨ds, rfl⟩ := List.getLast?_eq_some_iff.1 hc
  by_contra hc
  rw [Bool.not_eq_false] at hc
  -- A blank closes no quote, so one at the end would stand outside quotes.
  rw [ClosesQuotes, Quote.run_append] at hcloses
  have hds : Quote.outside.run ds = .outside :=
    Quote.eq_outside_of_run_blank (Quote.opened_run (q := .outside) trivial ds)
      (List.forall_mem_singleton.2 hc) hcloses
  rw [Quote.avoids_append, hds] at hblank
  simp [hblank.2.1 rfl] at hc

/-- Putting out the value of a word is one construct. A word without blanks outside quotes, with its
quotes closed and without the end of an emit or of a tag outside them, compiles to the same single
action as an emit and as the argument of the tag `replace`, and both render alike against every
dataset, to the text of the value of its one token. -/
theorem emit_eq_replaceTag {cs : List Char} (hne : cs ≠ [])
    (hblank : Quote.outside.Avoids Text.isBlank cs) (hcloses : ClosesQuotes cs)
    (hemit : ¬HoldsOutside '\x7d' '\x7d' cs) (htag : ¬HoldsOutside '%' '\x7d' cs) :
    let emit := String.ofList (emitOf cs)
    let tag := String.ofList (tagOf "replace".toList cs)
    let token := Token.parse cs false
    (∀ trim, compile trim emit = .ok [.instruction .replace [token]] ∧
      compile trim tag = .ok [.instruction .replace [token]]) ∧
    ∀ (env : Render.Env) (dataset : Dataset),
      env.render emit dataset = env.render tag dataset ∧
      env.render emit dataset =
        env.resolve (.of (Fields.merge [] dataset)) token >>= fun value =>
          pure (.ok value.display) := by
  intro emit tag token
  have hword := isWord_of_avoids hne hblank hcloses
  have hcompileEmit (trim : Bool) : compile trim emit = .ok [.instruction .replace [token]] :=
    compile_emitOf trim hword (cutOutsideQuotes_of_closes hcloses hemit)
  have hcompileTag (trim : Bool) : compile trim tag = .ok [.instruction .replace [token]] :=
    compile_replaceTagOf trim hword (cutOutsideQuotes_of_closes hcloses htag)
  refine ⟨fun trim => ⟨hcompileEmit trim, hcompileTag trim⟩, fun env dataset => ⟨?_, ?_⟩⟩
  · rw [render_replace env (hcompileEmit _), render_replace env (hcompileTag _)]
  · exact render_replace env (hcompileEmit _) dataset

/-- A literal with a blank, both closing delimiters and a protected quote in it, behind a filter. -/
theorem emit_eq_replaceTag_filter :
    let word := "x|default:'\\' \x7d\x7d%\x7d'".toList
    let token : Token :=
      ⟨"x|default:'\\' \x7d\x7d%\x7d'", .name, "x", false, none,
        [⟨"default", [⟨.literal, "' \x7d\x7d%\x7d"⟩]⟩]⟩
    Quote.outside.Avoids Text.isBlank word ∧ ClosesQuotes word ∧
      ¬HoldsOutside '\x7d' '\x7d' word ∧ ¬HoldsOutside '%' '\x7d' word ∧
      compile true "\x7b\x7b x|default:'\\' \x7d\x7d%\x7d' \x7d\x7d" =
        .ok [.instruction .replace [token]] ∧
      compile true "\x7b% replace x|default:'\\' \x7d\x7d%\x7d' %\x7d" =
        .ok [.instruction .replace [token]] := by
  intro word token
  have hblank : Quote.outside.Avoids Text.isBlank word := by decide
  have hcloses : ClosesQuotes word := by decide
  have hemit : ¬HoldsOutside '\x7d' '\x7d' word := by decide
  have htag : ¬HoldsOutside '%' '\x7d' word := by decide
  have htoken : Token.parse word false = token := by
    simp only [word, token]
    cbv
  have hcompile := (emit_eq_replaceTag (by decide) hblank hcloses hemit htag).1 true
  rw [htoken] at hcompile
  exact ⟨hblank, hcloses, hemit, htag, hcompile⟩

end Stencil.Template
