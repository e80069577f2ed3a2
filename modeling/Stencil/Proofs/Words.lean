import Stencil.Proofs.BodyText

/-!
# Texts that are one word

The search for the end of a tag (`cutOutsideQuotes`), the split into words (`splitFrom`) and the
removal of blanks (`tighten`) read a text with the same automaton of quotes. So what they do to a
text depends only on the characters that it has outside quotes: if these are neither blanks nor the
end of a tag, then the text is one word, and the emit or the tag it stands in is one piece.
-/

namespace Stencil

/-! ## Trimming -/

namespace Text

/-- Between blanks a text whose ends are no blanks is what is left by trimming. -/
theorem trim_between {before cs after : List Char} (hbefore : ∀ c ∈ before, isBlank c = true)
    (hafter : ∀ c ∈ after, isBlank c = true) (hhead : ∀ c ∈ cs.head?, isBlank c = false)
    (hlast : ∀ c ∈ cs.getLast?, isBlank c = false) : trim (before ++ cs ++ after) = cs := by
  have hstart : trimStart (before ++ cs ++ after) = trimStart (cs ++ after) := by
    rw [trimStart, List.append_assoc, List.dropWhile_append_of_pos hbefore]
    rfl
  rw [trim, hstart]
  -- The end is trimmed like the front, in the reversed text; only an empty text has no end.
  cases hcs : cs with
  | nil =>
    have hnone : trimStart after = [] := by
      have hdrop : (after ++ []).dropWhile isBlank = [] := List.dropWhile_append_of_pos hafter
      rwa [List.append_nil] at hdrop
    rw [List.nil_append, hnone]
    rfl
  | cons c ds =>
    have hc : isBlank c = false := hhead c (by simp [hcs])
    have hkeep : trimStart (c :: ds ++ after) = c :: ds ++ after := by simp [trimStart, hc]
    have hreverse : (c :: ds).reverse.dropWhile isBlank = (c :: ds).reverse := by
      cases hr : (c :: ds).reverse with
      | nil => rfl
      | cons d es =>
        have hd : isBlank d = false :=
          hlast d (by rw [hcs, List.getLast?_eq_head?_reverse, hr]; rfl)
        simp [hd]
    rw [hkeep, trimEnd, dropEndWhile, List.reverse_append,
      List.dropWhile_append_of_pos (by simpa using hafter), hreverse, List.reverse_reverse]

end Text

namespace Template

/-! ## Characters outside quotes -/

/-- No character of a text that stands outside quotes satisfies `p`. -/
def Quote.Avoids (p : Char → Bool) : Quote → List Char → Prop
  | _, [] => True
  | q, c :: cs => (q = .outside → p c = false) ∧ (q.step c).Avoids p cs

instance Quote.decidableAvoids (p : Char → Bool) :
    (q : Quote) → (cs : List Char) → Decidable (q.Avoids p cs)
  | _, [] => inferInstanceAs (Decidable True)
  | q, c :: cs =>
    have := decidableAvoids p (q.step c) cs
    inferInstanceAs (Decidable (_ ∧ _))

@[simp] theorem Quote.run_nil (q : Quote) : q.run [] = q := rfl

@[simp] theorem Quote.run_cons (q : Quote) (c : Char) (cs : List Char) :
    q.run (c :: cs) = (q.step c).run cs := rfl

theorem Quote.run_append (q : Quote) (cs ds : List Char) :
    q.run (cs ++ ds) = (q.run cs).run ds := by
  rw [run, run, run, List.foldl_append]

theorem Quote.avoids_append {p : Char → Bool} {q : Quote} {cs ds : List Char} :
    q.Avoids p (cs ++ ds) ↔ q.Avoids p cs ∧ (q.run cs).Avoids p ds := by
  induction cs generalizing q with
  | nil => simp [Avoids]
  | cons c cs ih => simp [Avoids, ih, and_assoc]

/-- Outside quotes a text without quotes stays there. -/
theorem Quote.run_outside {cs : List Char} (h : ∀ c ∈ cs, isQuoteMark c = false) :
    Quote.outside.run cs = .outside := by
  induction cs with
  | nil => rfl
  | cons c cs ih =>
    have hc : Quote.outside.step c = .outside := by simp [step, h c (by simp)]
    rw [run_cons, hc]
    exact ih fun d hd => h d (by simp [hd])

/-- A text that has no such character has none outside quotes. -/
theorem Quote.avoids_of_forall {p : Char → Bool} {q : Quote} {cs : List Char}
    (h : ∀ c ∈ cs, p c = false) : q.Avoids p cs := by
  induction cs generalizing q with
  | nil => trivial
  | cons c cs ih => exact ⟨fun _ => h c (by simp), ih fun d hd => h d (by simp [hd])⟩

theorem Quote.Avoids.mono {p p' : Char → Bool} (hp : ∀ c, p c = false → p' c = false) {q : Quote}
    {cs : List Char} (h : q.Avoids p cs) : q.Avoids p' cs := by
  induction cs generalizing q with
  | nil => trivial
  | cons c cs ih => exact ⟨fun hq => hp c (h.1 hq), ih h.2⟩

/-- Without the first character of a delimiter outside quotes there is no delimiter. -/
theorem cutOutsideQuotes_of_avoids {a b : Char} {q : Quote} {cs : List Char}
    (h : q.Avoids (· == a) cs) : cutOutsideQuotes a b q cs = .error (q.run cs) := by
  induction cs generalizing q with
  | nil => rfl
  | cons c cs ih =>
    have hc : ¬(q = .outside ∧ c = a ∧ cs.head? = some b) := fun ⟨hq, hca, _⟩ => by
      simpa [hca] using h.1 hq
    rw [cutOutsideQuotes, if_neg hc, ih h.2]
    rfl

/-- Behind a text without a delimiter the search goes on, unless the next character is the second
one of a delimiter. -/
theorem cutOutsideQuotes_append_of_error {a b d : Char} {q q' : Quote} {cs : List Char}
    (h : cutOutsideQuotes a b q cs = .error q') (hd : d ≠ b) (ds : List Char) :
    cutOutsideQuotes a b q (cs ++ d :: ds) =
      (cutOutsideQuotes a b q' (d :: ds)).map fun cut => (cs ++ cut.1, cut.2) := by
  induction cs generalizing q with
  | nil =>
    obtain rfl : q = q' := by simpa [cutOutsideQuotes] using h
    rw [List.nil_append]
    cases cutOutsideQuotes a b q (d :: ds) <;> rfl
  | cons c cs ih =>
    rw [cutOutsideQuotes] at h
    split at h
    · cases h
    · rename_i hc
      -- The character behind the text does not make a delimiter of its last one.
      have hc' : ¬(q = .outside ∧ c = a ∧ (cs ++ d :: ds).head? = some b) := by
        cases cs with
        | nil => simp [hd]
        | cons e cs => exact hc
      cases hr : cutOutsideQuotes a b (q.step c) cs with
      | ok cut => simp [hr, Except.map] at h
      | error r =>
        obtain rfl : r = q' := by simpa [hr, Except.map] using h
        rw [List.cons_append, cutOutsideQuotes, if_neg hc', ih hr]
        cases cutOutsideQuotes a b r (d :: ds) <;> rfl

/-! ## Steps of the split -/

/-- Whether a character is a parenthesis. -/
def isParen (c : Char) : Bool := c == '(' || c == ')'

theorem isParen_iff {c : Char} : isParen c = true ↔ c = '(' ∨ c = ')' := by
  simp [isParen]

/-- Whether a character that stands outside quotes ends a word. -/
def endsWord (parens : Bool) (c : Char) : Bool := Text.isBlank c || (parens && isParen c)

theorem endsWord_eq_false_iff {parens : Bool} {c : Char} :
    endsWord parens c = false ↔ Text.isBlank c = false ∧ (parens = true → isParen c = false) := by
  cases parens <;> simp [endsWord]

/-- There are two quotes. -/
theorem isQuoteMark_iff {c : Char} : isQuoteMark c = true ↔ c = '"' ∨ c = '\'' := by
  simp [isQuoteMark]

theorem not_isQuoteMark_of_isBlank {c : Char} (h : Text.isBlank c = true) :
    isQuoteMark c = false := by
  rw [← Bool.not_eq_true, isQuoteMark_iff]
  rintro (rfl | rfl) <;> exact absurd h (by decide)

theorem isBlank_of_isParen {c : Char} (h : isParen c = true) : Text.isBlank c = false := by
  rcases isParen_iff.1 h with rfl | rfl <;> decide

theorem step_of_isBlank {c : Char} (h : Text.isBlank c = true) :
    Quote.outside.step c = .outside := by
  rw [Quote.step, not_isQuoteMark_of_isBlank h]
  rfl

theorem step_of_isParen {c : Char} (h : isParen c = true) : Quote.outside.step c = .outside := by
  rcases isParen_iff.1 h with rfl | rfl <;> rfl

/-- Words with a word in front of them, unless it is empty. -/
def putWord (word : List Char) (words : List (List Char)) : List (List Char) :=
  if word.isEmpty then words else word :: words

theorem forall_mem_putWord {p : List Char → Prop} {word : List Char} {words : List (List Char)}
    (hword : p word) (hwords : ∀ w ∈ words, p w) : ∀ w ∈ putWord word words, p w := by
  unfold putWord
  split_ifs
  · exact hwords
  · exact List.forall_mem_cons.2 ⟨hword, hwords⟩

theorem splitFrom_nil (parens : Bool) (q : Quote) (word : List Char) :
    splitFrom parens q word [] = putWord word [] := rfl

/-- A blank ends the word before it. -/
theorem splitFrom_blank {parens : Bool} {c : Char} (hc : Text.isBlank c = true)
    (word cs : List Char) :
    splitFrom parens .outside word (c :: cs) = putWord word (splitFrom parens .outside [] cs) := by
  rw [splitFrom, if_pos ⟨rfl, hc⟩]
  rfl

/-- Where parentheses stand alone, so does one, and it is a word itself. -/
theorem splitFrom_paren {c : Char} (hc : isParen c = true) (word cs : List Char) :
    splitFrom true .outside word (c :: cs) =
      putWord word ([c] :: splitFrom true .outside [] cs) := by
  have hblank : ¬(Quote.outside = .outside ∧ Text.isBlank c = true) := by
    simp [isBlank_of_isParen hc]
  rw [splitFrom, if_neg hblank, if_pos ⟨rfl, rfl, isParen_iff.1 hc⟩]
  rfl

/-- A character that ends no word goes on with the word before it. -/
theorem splitFrom_grow {parens : Bool} {q : Quote} {c : Char}
    (hc : q = .outside → endsWord parens c = false) (word cs : List Char) :
    splitFrom parens q word (c :: cs) = splitFrom parens (q.step c) (word ++ [c]) cs := by
  have hblank : ¬(q = .outside ∧ Text.isBlank c = true) := by
    rintro ⟨hq, hblank⟩
    have hnot := (endsWord_eq_false_iff.1 (hc hq)).1
    simp [hblank] at hnot
  have hparen : ¬(q = .outside ∧ parens = true ∧ (c = '(' ∨ c = ')')) := by
    rintro ⟨hq, hparens, hparen⟩
    have hnot := (endsWord_eq_false_iff.1 (hc hq)).2 hparens
    simp [isParen_iff.2 hparen] at hnot
  rw [splitFrom, if_neg hblank, if_neg hparen]

/-- Induction along the split of a text: a character is a blank or a parenthesis that ends the word
before it, or else the word goes on with it. -/
theorem split_induction (parens : Bool) {motive : Quote → List Char → List Char → Prop}
    (nil : ∀ q word, motive q word [])
    (blank : ∀ word c cs, Text.isBlank c = true → motive .outside [] cs →
      motive .outside word (c :: cs))
    (paren : ∀ word c cs, parens = true → isParen c = true → motive .outside [] cs →
      motive .outside word (c :: cs))
    (grow : ∀ q word c cs, (q = .outside → endsWord parens c = false) →
      motive (q.step c) (word ++ [c]) cs → motive q word (c :: cs))
    (q : Quote) (word cs : List Char) : motive q word cs := by
  induction cs generalizing q word with
  | nil => exact nil q word
  | cons c cs ih =>
    by_cases hends : q = .outside ∧ endsWord parens c = true
    · obtain ⟨rfl, hends⟩ := hends
      rw [endsWord, Bool.or_eq_true, Bool.and_eq_true] at hends
      rcases hends with hblank | ⟨hparens, hparen⟩
      · exact blank word c cs hblank (ih _ _)
      · exact paren word c cs hparens hparen (ih _ _)
    · refine grow q word c cs (fun hq => ?_) (ih _ _)
      rw [← Bool.not_eq_true]
      exact fun hc => hends ⟨hq, hc⟩

/-- A text in which no character outside quotes ends a word goes on with the word before it. -/
theorem splitFrom_append_of_avoids {parens : Bool} {q : Quote} {cs : List Char}
    (h : q.Avoids (endsWord parens) cs) (word ds : List Char) :
    splitFrom parens q word (cs ++ ds) = splitFrom parens (q.run cs) (word ++ cs) ds := by
  induction cs generalizing q word with
  | nil => simp
  | cons c cs ih =>
    rw [List.cons_append, splitFrom_grow h.1, ih h.2, Quote.run_cons, List.append_assoc,
      List.singleton_append]

/-- Such a text is one word, unless it is empty. -/
theorem splitFrom_of_avoids {parens : Bool} {cs : List Char} (hne : cs ≠ [])
    (h : Quote.outside.Avoids (endsWord parens) cs) : splitFrom parens .outside [] cs = [cs] := by
  have hsplit := splitFrom_append_of_avoids h [] []
  rw [List.append_nil, List.nil_append] at hsplit
  rw [hsplit, splitFrom]
  simp [hne]

/-- In arguments only blanks end words. -/
theorem avoids_endsWord_false {q : Quote} {cs : List Char} :
    q.Avoids (endsWord false) cs ↔ q.Avoids Text.isBlank cs := by
  have hends : endsWord false = Text.isBlank := by
    funext c
    rw [endsWord, Bool.false_and, Bool.or_false]
  rw [hends]

/-! ## Words -/

/-- A text that is one word: not empty, without blanks outside quotes, and with all its quotes
closed. -/
structure IsWord (cs : List Char) : Prop where
  ne_nil : cs ≠ []
  avoids : Quote.outside.Avoids Text.isBlank cs
  closed : Quote.outside.run cs = .outside
  last : ∀ c ∈ cs.getLast?, Text.isBlank c = false

namespace IsWord

variable {cs : List Char} (h : IsWord cs)
include h

theorem head : ∀ c ∈ cs.head?, Text.isBlank c = false := by
  intro c hc
  obtain ⟨ds, rfl⟩ := List.head?_eq_some_iff.1 hc
  exact h.avoids.1 rfl

theorem splitArguments_eq : splitArguments cs = [cs] :=
  splitFrom_of_avoids h.ne_nil (avoids_endsWord_false.2 h.avoids)

theorem tighten_eq : tighten cs = cs := by
  rw [tighten, h.splitArguments_eq, List.flatten_singleton]

theorem trim_eq {before after : List Char} (hbefore : ∀ c ∈ before, Text.isBlank c = true)
    (hafter : ∀ c ∈ after, Text.isBlank c = true) : Text.trim (before ++ cs ++ after) = cs :=
  Text.trim_between hbefore hafter h.head h.last

end IsWord

/-! ## Templates of one piece -/

/-- A template that is one piece, which stands alone, compiles to the action of that piece. -/
theorem compile_of_cutPiece {trim : Bool} {cs : List Char} {kind : PieceKind} (hne : cs ≠ [])
    (hcut : cutPiece trim cs = .ok (kind, cs, [])) (halone : (⟨0, cs, kind⟩ : Piece).Alone) :
    compile trim (String.ofList cs) = .ok [(⟨0, cs, kind⟩ : Piece).action] := by
  have hpieces : pieces trim (String.ofList cs) = .ok [⟨0, cs, kind⟩] := by
    rw [pieces, String.toList_ofList]
    exact (Cuts.cons hne hcut .nil).piecesFrom_eq
  rw [compile_eq_ok_iff]
  exact ⟨.single ⟨0, cs, kind⟩ halone .nil, hpieces, rfl⟩

/-- The emit of a text. -/
def emitOf (cs : List Char) : List Char :=
  ['\x7b', '\x7b', ' '] ++ cs ++ [' ', '\x7d', '\x7d']

/-- The tag of some name with a text as its arguments. -/
def tagOf (name cs : List Char) : List Char :=
  ['\x7b', '%', ' '] ++ name ++ [' '] ++ cs ++ [' ', '%', '\x7d']

/-- Between blanks a text without a delimiter is found up to the delimiter behind it. -/
theorem cutOutsideQuotes_between {a b : Char} (ha : a ≠ ' ') (hb : b ≠ ' ') {cs : List Char}
    (hopen : cutOutsideQuotes a b .outside cs = .error .outside) :
    cutOutsideQuotes a b .outside (' ' :: (cs ++ [' ', a, b])) =
      .ok (' ' :: (cs ++ [' ']), []) := by
  have hstep : Quote.outside.step ' ' = .outside := rfl
  have hend : cutOutsideQuotes a b .outside [' ', a, b] = .ok ([' '], []) := by
    rw [cutOutsideQuotes, if_neg (by simp [ha.symm]), hstep, cutOutsideQuotes, if_pos (by simp)]
    rfl
  rw [cutOutsideQuotes, if_neg (by simp [ha.symm]), hstep,
    cutOutsideQuotes_append_of_error hopen hb.symm, hend]
  rfl

/-- The emit of a word that holds no end of an emit is one action. -/
theorem compile_emitOf (trim : Bool) {cs : List Char} (h : IsWord cs)
    (hopen : cutOutsideQuotes '\x7d' '\x7d' .outside cs = .error .outside) :
    compile trim (String.ofList (emitOf cs)) =
      .ok [.instruction .replace [Token.parse cs false]] := by
  have hblank : ∀ c ∈ [' '], Text.isBlank c = true := List.forall_mem_singleton.2 rfl
  have htrim : Text.trim (' ' :: (cs ++ [' '])) = cs := h.trim_eq hblank hblank
  have hcut : cutPiece trim (emitOf cs) = .ok (.emit cs, emitOf cs, []) := by
    rw [emitOf, List.append_assoc]
    simp only [List.cons_append, List.nil_append]
    rw [cutPiece_emit, cutEmit_eq_ok_iff]
    refine ⟨_, cutOutsideQuotes_between (by decide) (by decide) hopen, ?_, ?_, ?_⟩
    · rw [htrim]
      exact h.ne_nil
    · rw [htrim, h.tighten_eq]
    · simp
  exact compile_of_cutPiece (by simp [emitOf]) hcut trivial

/-- What can stand as the name of a tag without opening a quote. -/
def isPlainNameChar (c : Char) : Bool := isNameChar c && !isQuoteMark c

section Tags

variable {name cs : List Char} (hne : name ≠ []) (hname : ∀ c ∈ name, isPlainNameChar c = true)
include hname

theorem isNameChar_of_mem_name : ∀ c ∈ name, isNameChar c = true := by
  intro c hc
  have hplain := hname c hc
  rw [isPlainNameChar, Bool.and_eq_true] at hplain
  exact hplain.1

include hne

/-- The name of a tag is followed by its arguments. -/
theorem trimStart_tagContent (rest : List Char) :
    Text.trimStart (' ' :: (name ++ rest)) = name ++ rest := by
  obtain ⟨c, ds, rfl⟩ := List.exists_cons_of_ne_nil hne
  have hc : Text.isBlank c = false := by
    have hnameChar := isNameChar_of_mem_name hname c (by simp)
    rw [isNameChar, Bool.and_eq_true, Bool.not_eq_true'] at hnameChar
    exact hnameChar.1
  have hblank : Text.isBlank ' ' = true := rfl
  simp [Text.trimStart, hblank, hc]

theorem tagName_tagContent (rest : List Char) :
    tagName (' ' :: (name ++ ' ' :: rest)) = name := by
  rw [tagName, trimStart_tagContent hne hname,
    List.takeWhile_append_of_pos (isNameChar_of_mem_name hname)]
  have hblank : isNameChar ' ' = false := rfl
  simp [hblank]

/-- The tag of a word that holds no end of a tag is one piece. -/
theorem cutPiece_tagOf (trim : Bool) (hraw : isRawName (String.ofList name) = false)
    (h : IsWord cs) (hopen : cutOutsideQuotes '%' '\x7d' .outside cs = .error .outside) :
    cutPiece trim (tagOf name cs) = .ok (.tag (String.ofList name) cs, tagOf name cs, []) := by
  have hfree : Quote.outside.Avoids (· == '%') name := Quote.avoids_of_forall fun c hc => by
    have hnameChar := isNameChar_of_mem_name hname c hc
    simp_all [isNameChar]
  have hquotes : Quote.outside.run name = .outside := Quote.run_outside fun c hc => by
    have hplain := hname c hc
    simp_all [isPlainNameChar]
  -- The name opens no quote, so the search comes to the arguments as if they stood alone.
  have hnameOpen : cutOutsideQuotes '%' '\x7d' .outside name = .error .outside := by
    rw [cutOutsideQuotes_of_avoids hfree, hquotes]
  have hsearch : cutOutsideQuotes '%' '\x7d' .outside
      (' ' :: (name ++ ' ' :: (cs ++ [' ', '%', '\x7d']))) =
        .ok (' ' :: (name ++ ' ' :: (cs ++ [' '])), []) := by
    have hstep : Quote.outside.step ' ' = .outside := rfl
    rw [cutOutsideQuotes, if_neg (by simp), hstep,
      cutOutsideQuotes_append_of_error hnameOpen (by decide),
      cutOutsideQuotes_between (by decide) (by decide) hopen]
    rfl
  have htag := tagName_tagContent hne hname (cs ++ [' '])
  have harguments : Text.trim
      ((Text.trimStart (' ' :: (name ++ ' ' :: (cs ++ [' '])))).drop name.length) = cs := by
    have hblank : ∀ c ∈ [' '], Text.isBlank c = true := List.forall_mem_singleton.2 rfl
    rw [trimStart_tagContent hne hname, List.drop_left]
    exact h.trim_eq hblank hblank
  have hcontent : cutTagContent (String.ofList name)
      (' ' :: (name ++ ' ' :: (cs ++ [' ', '%', '\x7d']))) =
        .ok (' ' :: (name ++ ' ' :: (cs ++ [' '])), []) := by
    rw [cutTagContent, if_neg (by simp [hraw]), hsearch]
  have hsource : tagOf name cs =
      '\x7b' :: '%' :: ' ' :: (name ++ ' ' :: (cs ++ [' ', '%', '\x7d'])) := by
    simp [tagOf]
  have hbreak : lineBreakAfter trim [] = ([], []) := by cases trim <;> rfl
  rw [hsource, cutPiece_tag, cutTag_eq_ok_iff]
  refine ⟨' ' :: (name ++ ' ' :: (cs ++ [' '])), [], ?_, ?_, ?_, ?_, ?_⟩
  · rw [htag]
    exact hcontent
  · rw [htag]
    exact hne
  · rw [htag, harguments]
  · simp [hbreak]
  · rw [hbreak]

end Tags

/-- The tag that puts out the value of a word is one action, the one that the emit of it is. -/
theorem compile_replaceTagOf (trim : Bool) {cs : List Char} (h : IsWord cs)
    (hopen : cutOutsideQuotes '%' '\x7d' .outside cs = .error .outside) :
    compile trim (String.ofList (tagOf "replace".toList cs)) =
      .ok [.instruction .replace [Token.parse cs false]] := by
  have hne : "replace".toList ≠ [] := by decide
  have hname : ∀ c ∈ "replace".toList, isPlainNameChar c = true :=
    List.all_eq_true.1 (by decide)
  have hcut := cutPiece_tagOf hne hname trim rfl h hopen
  have haction : (⟨0, tagOf "replace".toList cs, .tag "replace" cs⟩ : Piece).action =
      .instruction .replace [Token.parse cs false] := by
    show Action.instruction .replace (tokens cs) = _
    rw [tokens, h.splitArguments_eq]
    rfl
  rw [← haction]
  refine compile_of_cutPiece (by simp [tagOf]) hcut ?_
  show "replace" ∉ openerNames ∧ "replace" ∉ terminatorNames
  decide

end Template

end Stencil
