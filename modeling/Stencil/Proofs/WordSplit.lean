import Stencil.Proofs.QuoteCheck

/-!
# How a text is split into words

Arguments are split at the blanks outside quotes (`splitArguments`), and conditions at the same
places and around parentheses (`splitCondition`). Quotes are opened and closed alike in both, so the
words of a condition are those of the arguments taken further apart, and either put together are the
text without its blanks outside quotes. Only the last word can leave a quote open. So the words with
spaces between them are split into the same words again.
-/

namespace Stencil.Template

open Text (isBlank joinWith)

/-! ## What a text has outside quotes -/

/-- The characters of a text, each with where it stands. -/
def Quote.places : Quote → List Char → List (Quote × Char)
  | _, [] => []
  | q, c :: cs => (q, c) :: (q.step c).places cs

/-- Whether a character is a blank outside quotes. -/
def isGap (place : Quote × Char) : Bool := place.1 == .outside && isBlank place.2

/-- A text from some place on without its blanks outside quotes. -/
def Quote.withoutGaps (q : Quote) (cs : List Char) : List Char :=
  ((q.places cs).filter (!isGap ·)).map Prod.snd

/-! ## The words put together -/

theorem putWord_append (word : List Char) (words others : List (List Char)) :
    putWord word (words ++ others) = putWord word words ++ others := by
  unfold putWord
  split_ifs <;> rfl

theorem flatten_putWord (word : List Char) (words : List (List Char)) :
    (putWord word words).flatten = word ++ words.flatten := by
  unfold putWord
  split_ifs with hword
  · rw [List.isEmpty_iff.1 hword, List.nil_append]
  · rfl

/-- The words are the text without its blanks outside quotes. -/
theorem flatten_splitFrom (parens : Bool) (q : Quote) (word cs : List Char) :
    (splitFrom parens q word cs).flatten = word ++ q.withoutGaps cs := by
  induction q, word, cs using split_induction parens with
  | nil q word => rw [splitFrom_nil, flatten_putWord]; rfl
  | blank word c cs hc ih =>
    have hgap : isGap (.outside, c) = true := by simp [isGap, hc]
    rw [splitFrom_blank hc, flatten_putWord, ih]
    simp [Quote.withoutGaps, Quote.places, hgap, step_of_isBlank hc]
  | paren word c cs hparens hc ih =>
    subst hparens
    have hgap : isGap (.outside, c) = false := by simp [isGap, isBlank_of_isParen hc]
    rw [splitFrom_paren hc, flatten_putWord, List.flatten_cons, ih]
    simp [Quote.withoutGaps, Quote.places, hgap, step_of_isParen hc]
  | grow q word c cs hc ih =>
    have hgap : isGap (q, c) = false := by
      rw [← Bool.not_eq_true, isGap, Bool.and_eq_true, beq_iff_eq]
      rintro ⟨hq, hblank⟩
      have hnot := (endsWord_eq_false_iff.1 (hc hq)).1
      simp [hblank] at hnot
    rw [splitFrom_grow hc, ih]
    simp [Quote.withoutGaps, Quote.places, hgap]

/-! ## Cutting at blanks -/

/-- A blank outside quotes stands between the words before it and the words behind it. -/
theorem splitFrom_append_blank {parens : Bool} {q : Quote} {word front : List Char}
    (hfront : q.run front = .outside) {b : Char} (hb : isBlank b = true) (back : List Char) :
    splitFrom parens q word (front ++ b :: back) =
      splitFrom parens q word front ++ splitFrom parens .outside [] back := by
  induction q, word, front using split_induction parens with
  | nil q word =>
    obtain rfl : q = .outside := hfront
    rw [List.nil_append, splitFrom_blank hb, splitFrom_nil, ← putWord_append,
      List.nil_append]
  | blank word c front hc ih =>
    rw [Quote.run_cons, step_of_isBlank hc] at hfront
    rw [List.cons_append, splitFrom_blank hc, splitFrom_blank hc, ih hfront,
      putWord_append]
  | paren word c front hparens hc ih =>
    subst hparens
    rw [Quote.run_cons, step_of_isParen hc] at hfront
    rw [List.cons_append, splitFrom_paren hc, splitFrom_paren hc, ih hfront,
      ← List.cons_append, putWord_append]
  | grow q word c front hc ih =>
    rw [List.cons_append, splitFrom_grow hc, splitFrom_grow hc, ih hfront]

/-! ## Words in a row -/

/-- A word that is split no further: a parenthesis where these stand alone, or a text in which no
character outside quotes ends a word. -/
structure Unsplit (parens : Bool) (w : List Char) : Prop where
  ne_nil : w ≠ []
  whole : (parens = true ∧ ∃ c, isParen c = true ∧ w = [c]) ∨
    Quote.outside.Avoids (endsWord parens) w

theorem Unsplit.split_eq {parens : Bool} {w : List Char} (h : Unsplit parens w) :
    splitFrom parens .outside [] w = [w] := by
  rcases h.whole with ⟨rfl, c, hc, rfl⟩ | havoids
  · rw [splitFrom_paren hc]
    rfl
  · exact splitFrom_of_avoids h.ne_nil havoids

/-- Words of which none but the last leaves a quote open. -/
inductive Row (parens : Bool) : List (List Char) → Prop
  | nil : Row parens []
  | last {w : List Char} : Unsplit parens w → Row parens [w]
  | cons {w : List Char} {ws : List (List Char)} : Unsplit parens w → ClosesQuotes w →
      Row parens ws → Row parens (w :: ws)

namespace Row

variable {parens : Bool} {ws : List (List Char)}

theorem unsplit (h : Row parens ws) : ∀ w ∈ ws, Unsplit parens w := by
  induction h with
  | nil => simp
  | last hw => simpa using hw
  | cons hw _ _ ih => exact List.forall_mem_cons.2 ⟨hw, ih⟩

theorem putWord {word : List Char} (hword : Quote.outside.Avoids (endsWord parens) word)
    (hclosed : ClosesQuotes word) (h : Row parens ws) : Row parens (putWord word ws) := by
  unfold Template.putWord
  split_ifs with hempty
  · exact h
  · exact .cons ⟨mt List.isEmpty_iff.2 hempty, .inr hword⟩ hclosed h

/-- With a space between its words a row is split into them again. -/
theorem split_joinWith (h : Row parens ws) :
    splitFrom parens .outside [] (joinWith [' '] ws) = ws := by
  induction h with
  | nil => rfl
  | last hw => exact hw.split_eq
  | @cons w ws hw hclosed hws ih =>
    cases ws with
    | nil => exact hw.split_eq
    | cons v vs =>
      have hblank : isBlank ' ' = true := rfl
      have hjoin : joinWith [' '] (w :: v :: vs) = w ++ ' ' :: joinWith [' '] (v :: vs) :=
        (List.append_cons w ' ' _).symm
      rw [hjoin, splitFrom_append_blank hclosed hblank, hw.split_eq, ih, List.singleton_append]

end Row

/-- The words of a text are a row. `word` is the word being read: it has not ended, and its quotes
are those that the text begins in. -/
theorem row_splitFrom {parens : Bool} {q : Quote} {word : List Char}
    (hword : Quote.outside.Avoids (endsWord parens) word) (hq : Quote.outside.run word = q)
    (cs : List Char) : Row parens (splitFrom parens q word cs) := by
  induction q, word, cs using split_induction parens with
  | nil q word =>
    rw [splitFrom_nil, putWord]
    split_ifs with hempty
    · exact .nil
    · exact .last ⟨mt List.isEmpty_iff.2 hempty, .inr hword⟩
  | blank word c cs hc ih =>
    rw [splitFrom_blank hc]
    exact (ih trivial rfl).putWord hword hq
  | paren word c cs hparens hc ih =>
    subst hparens
    rw [splitFrom_paren hc]
    have hrest : Row true ([c] :: splitFrom true .outside [] cs) :=
      .cons ⟨List.cons_ne_nil _ _, .inl ⟨rfl, c, hc, rfl⟩⟩ (step_of_isParen hc) (ih trivial rfl)
    exact hrest.putWord hword hq
  | grow q word c cs hc ih =>
    rw [splitFrom_grow hc]
    refine ih (Quote.avoids_append.2 ⟨hword, ?_⟩) ?_
    · rw [hq]
      exact ⟨hc, trivial⟩
    · rw [Quote.run_append, hq]
      rfl

theorem row_words (parens : Bool) (cs : List Char) : Row parens (splitFrom parens .outside [] cs) :=
  have hword : Quote.outside.Avoids (endsWord parens) [] := trivial
  row_splitFrom hword rfl cs

/-! ## Conditions and arguments -/

theorem flatMap_putWord (word : List Char) (words : List (List Char)) :
    (putWord word words).flatMap splitCondition =
      splitCondition word ++ words.flatMap splitCondition := by
  unfold putWord
  split_ifs with hword
  · rw [List.isEmpty_iff.1 hword]
    rfl
  · rfl

/-- A condition is split where arguments are, and then each of its words again. -/
theorem splitCondition_append {q : Quote} {word : List Char} (hq : Quote.outside.run word = q)
    (cs : List Char) :
    splitCondition (word ++ cs) = (splitFrom false q word cs).flatMap splitCondition := by
  induction q, word, cs using split_induction false with
  | nil q word =>
    rw [splitFrom_nil, flatMap_putWord, List.flatMap_nil]
    simp only [List.append_nil]
  | blank word c cs hc ih =>
    rw [splitCondition, splitFrom_append_blank hq hc, splitFrom_blank hc, flatMap_putWord,
      ← ih rfl]
    rfl
  | paren word c cs hparens hc ih => cases hparens
  | grow q word c cs hc ih =>
    rw [splitFrom_grow hc, ← ih (by rw [Quote.run_append, hq]; rfl), List.append_assoc,
      List.singleton_append]

theorem splitCondition_eq_flatMap (cs : List Char) :
    splitCondition cs = (splitArguments cs).flatMap splitCondition :=
  splitCondition_append (Quote.run_nil .outside) cs

/-- What a split into words gives: words that are not empty, that together are the text without its
blanks outside quotes, and that a space between them keeps apart. -/
structure SplitsWords (split : List Char → List (List Char)) (cs : List Char) : Prop where
  ne_nil : ∀ w ∈ split cs, w ≠ []
  flatten : (split cs).flatten = Quote.outside.withoutGaps cs
  again : split (joinWith [' '] (split cs)) = split cs

theorem splitsWords_splitFrom (parens : Bool) (cs : List Char) :
    SplitsWords (splitFrom parens .outside []) cs where
  ne_nil w hw := ((row_words _ cs).unsplit w hw).ne_nil
  flatten := flatten_splitFrom parens .outside [] cs
  again := (row_words _ cs).split_joinWith

/-- The words that a condition has in a word of the arguments are that word. -/
theorem flatten_splitCondition {w cs : List Char} (hw : w ∈ splitArguments cs) :
    (splitCondition w).flatten = w := by
  have hwhole : splitArguments w = [w] :=
    ((row_words _ cs).unsplit w hw).split_eq
  calc (splitCondition w).flatten
    _ = Quote.outside.withoutGaps w := flatten_splitFrom true .outside [] w
    _ = (splitArguments w).flatten := (flatten_splitFrom false .outside [] w).symm
    _ = w := by rw [hwhole, List.flatten_singleton]

/-- Whatever quotes a text has, closed or not, its arguments and its condition are split
(`splitArguments`, `splitCondition`) into words that are not empty, that together are the text
without its blanks outside quotes, and that a space between them keeps apart. A word of the
condition is one parenthesis or has none outside quotes, and the words of the arguments are made of
runs of the words of the condition. -/
theorem split_words (cs : List Char) :
    SplitsWords splitArguments cs ∧ SplitsWords splitCondition cs ∧
      (∀ w ∈ splitCondition cs, w = ['('] ∨ w = [')'] ∨ Quote.outside.Avoids isParen w) ∧
      ∃ runs : List (List (List Char)), (∀ run ∈ runs, run ≠ []) ∧
        runs.flatten = splitCondition cs ∧ runs.map List.flatten = splitArguments cs := by
  refine ⟨splitsWords_splitFrom false cs, splitsWords_splitFrom true cs, ?_,
    (splitArguments cs).map splitCondition, ?_, ?_, ?_⟩
  · intro w hw
    rcases ((row_words _ cs).unsplit w hw).whole with ⟨-, c, hc, rfl⟩ | havoids
    · rcases isParen_iff.1 hc with rfl | rfl
      · exact .inl rfl
      · exact .inr (.inl rfl)
    · exact .inr (.inr (havoids.mono fun c hc => (endsWord_eq_false_iff.1 hc).2 rfl))
  · intro run hrun
    obtain ⟨w, hw, rfl⟩ := List.mem_map.1 hrun
    intro hnil
    have hflatten := flatten_splitCondition hw
    rw [hnil, List.flatten_nil] at hflatten
    exact (splitsWords_splitFrom false cs).ne_nil w hw hflatten.symm
  · rw [← List.flatMap_def]
    exact (splitCondition_eq_flatMap cs).symm
  · rw [List.map_map]
    refine (List.map_congr_left fun w hw => flatten_splitCondition hw).trans ?_
    rw [List.map_id']

/-- Parentheses without blanks around them, a quote with an escape in it, and one left open. -/
example :
    splitArguments "if(a b)\"c\\\" (d\" or'e f)".toList =
        ["if(a", "b)\"c\\\" (d\"", "or'e f)"].map String.toList ∧
      splitCondition "if(a b)\"c\\\" (d\" or'e f)".toList =
        ["if", "(", "a", "b", ")", "\"c\\\" (d\"", "or'e f)"].map String.toList := by
  cbv

end Stencil.Template
