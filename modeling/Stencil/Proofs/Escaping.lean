import Stencil.Proofs.Encoding

/-!
# Escaped text

Escaping (`forceEscape`) writes five characters as references, and reading them back takes one pass
for each of the five. A pass that comes before the ampersands are read, or reads them, takes back
exactly what escaping wrote. A pass that comes after them also reads the references that the text
itself spelled out. The passes for both quotes come after them, so escaping what is escaped already
(`escape`) keeps every text but those that spell out the reference of a quote. Reading all
references from left to right in one go (`unescape`) always gives the text back.
-/

namespace Stencil.Text

/-! ## Special characters -/

/-- The characters that are escaped, in the order in which their references are read back. -/
def specials : List Char := ['<', '>', '&', '"', '\'']

/-- The pass that reads the references of one character. -/
def readReference (d : Char) (cs : List Char) : List Char := replaceAll (escapeChar d) [d] cs

/-- One pass after the other. -/
def readReferences (marks cs : List Char) : List Char :=
  marks.foldl (fun text d => readReference d text) cs

theorem escapeChar_of_not_mem {c : Char} (h : c ∉ specials) : escapeChar c = [c] := by
  simp only [specials, List.mem_cons, List.not_mem_nil, or_false, not_or] at h
  simp [escapeChar, h]

/-- A reference is an ampersand and a name without special characters. -/
theorem exists_name {c : Char} (h : c ∈ specials) :
    ∃ name, escapeChar c = '&' :: name ∧ name ≠ [] ∧ ∀ x ∈ name, x ∉ specials := by
  simp only [specials, List.mem_cons, List.not_mem_nil, or_false] at h
  rcases h with rfl | rfl | rfl | rfl | rfl
  · exact ⟨['l', 't', ';'], by decide, by decide, by simp [specials]⟩
  · exact ⟨['g', 't', ';'], by decide, by decide, by simp [specials]⟩
  · exact ⟨['a', 'm', 'p', ';'], by decide, by decide, by simp [specials]⟩
  · exact ⟨['q', 'u', 'o', 't', ';'], by decide, by decide, by simp [specials]⟩
  · exact ⟨['#', 'x', '2', '7', ';'], by decide, by decide, by simp [specials]⟩

theorem ampersand_not_mem {name : List Char} (h : ∀ x ∈ name, x ∉ specials) : '&' ∉ name :=
  fun hmem => h '&' hmem (by decide)

theorem escapeChar_ne_nil (c : Char) : escapeChar c ≠ [] := by
  by_cases h : c ∈ specials
  · obtain ⟨name, hname, -⟩ := exists_name h
    rw [hname]
    exact List.cons_ne_nil _ _
  · rw [escapeChar_of_not_mem h]
    exact List.cons_ne_nil _ _

theorem head?_escapeChar {c : Char} (h : c ∈ specials) : (escapeChar c).head? = some '&' := by
  obtain ⟨name, hname, -⟩ := exists_name h
  rw [hname, List.head?_cons]

/-- A reference is longer than what it stands for. -/
theorem length_lt_escapeChar {c : Char} (h : c ∈ specials) :
    [c].length < (escapeChar c).length := by
  obtain ⟨name, hname, hne, -⟩ := exists_name h
  rw [hname]
  exact Nat.succ_lt_succ (List.length_pos_of_ne_nil hne)

/-- No reference is the beginning of another one. -/
theorem not_isPrefix_escapeChar {c d : Char} (hc : c ∈ specials) (hd : d ∈ specials) (hne : d ≠ c)
    (rest : List Char) : ¬escapeChar d <+: escapeChar c ++ rest := by
  simp only [specials, List.mem_cons, List.not_mem_nil, or_false] at hc hd
  rcases hc with rfl | rfl | rfl | rfl | rfl <;> rcases hd with rfl | rfl | rfl | rfl | rfl <;>
    simp [escapeChar] at hne ⊢

/-- Reading the references of one character passes over those of the others. -/
theorem readReference_escapeChar_append {c d : Char} (hc : c ∈ specials) (hd : d ∈ specials)
    (hne : d ≠ c) (rest : List Char) :
    readReference d (escapeChar c ++ rest) = escapeChar c ++ readReference d rest := by
  have hfront := not_isPrefix_escapeChar hc hd hne rest
  obtain ⟨name, hname, -, hplain⟩ := exists_name hc
  rw [hname, List.cons_append] at hfront ⊢
  rw [readReference, replaceAll_cons (escapeChar_ne_nil d) hfront,
    replaceAll_append_of_not_mem (escapeChar_ne_nil d) (head?_escapeChar hd) _
      (ampersand_not_mem hplain)]
  rfl

/-- What does not begin with an ampersand is kept. -/
theorem readReference_cons {c d : Char} (hd : d ∈ specials) (hc : c ≠ '&') (cs : List Char) :
    readReference d (c :: cs) = c :: readReference d cs := by
  have hother : '&' ∉ [c] := by
    rw [List.mem_singleton]
    exact hc.symm
  exact replaceAll_append_of_not_mem (escapeChar_ne_nil d) (head?_escapeChar hd) [d] hother cs

/-- A pass leaves exactly those texts alone that do not hold the reference. -/
theorem readReference_eq_self_iff {d : Char} (hd : d ∈ specials) {cs : List Char} :
    readReference d cs = cs ↔ ¬escapeChar d <:+: cs :=
  replaceAll_eq_self_iff (escapeChar_ne_nil d) (length_lt_escapeChar hd)

/-- So do two passes with the texts that hold neither reference. -/
theorem readReference_readReference_eq_self_iff {d e : Char} (hd : d ∈ specials)
    (he : e ∈ specials) {cs : List Char} :
    readReference e (readReference d cs) = cs ↔
      ¬escapeChar d <:+: cs ∧ ¬escapeChar e <:+: cs := by
  constructor
  · intro hsame
    -- The second pass cannot make up for what the first one takes away.
    have hkept : ¬escapeChar d <:+: cs := by
      intro hholds
      have hless : (readReference d cs).length < cs.length :=
        length_replaceAll_lt (escapeChar_ne_nil d) (length_lt_escapeChar hd) hholds
      have hagain : (readReference e (readReference d cs)).length ≤ (readReference d cs).length :=
        length_replaceAll_le (escapeChar_ne_nil e) (length_lt_escapeChar he) _
      rw [hsame] at hagain
      omega
    rw [(readReference_eq_self_iff hd).2 hkept, readReference_eq_self_iff he] at hsame
    exact ⟨hkept, hsame⟩
  · rintro ⟨hfirst, hsecond⟩
    rw [(readReference_eq_self_iff hd).2 hfirst, (readReference_eq_self_iff he).2 hsecond]

/-! ## Texts that are escaped in part -/

/-- A text in which some of the special characters are escaped. -/
def escapeAmong (marks cs : List Char) : List Char :=
  cs.flatMap fun c => if c ∈ marks then escapeChar c else [c]

@[simp] theorem escapeAmong_nil (marks : List Char) : escapeAmong marks [] = [] := rfl

theorem escapeAmong_cons_of_mem {marks : List Char} {c : Char} (h : c ∈ marks) (cs : List Char) :
    escapeAmong marks (c :: cs) = escapeChar c ++ escapeAmong marks cs := by
  rw [escapeAmong, List.flatMap_cons, if_pos h]
  rfl

theorem escapeAmong_cons_of_not_mem {marks : List Char} {c : Char} (h : c ∉ marks)
    (cs : List Char) : escapeAmong marks (c :: cs) = c :: escapeAmong marks cs := by
  rw [escapeAmong, List.flatMap_cons, if_neg h]
  rfl

theorem escapeAmong_append_of_not_mem {marks before : List Char} (h : ∀ c ∈ before, c ∉ marks)
    (cs : List Char) : escapeAmong marks (before ++ cs) = before ++ escapeAmong marks cs := by
  induction before with
  | nil => rfl
  | cons b before ih =>
    rw [List.forall_mem_cons] at h
    rw [List.cons_append, escapeAmong_cons_of_not_mem h.1, ih h.2, List.cons_append]

/-- Escaping everything is escaping all special characters, in whatever order they are listed. -/
theorem escapeAmong_perm_specials {marks : List Char} (hperm : marks.Perm specials)
    (cs : List Char) : escapeAmong marks cs = forceEscape cs := by
  rw [escapeAmong, forceEscape]
  congr 1
  funext c
  split_ifs with h
  · rfl
  · rw [escapeChar_of_not_mem fun hmem => h (hperm.mem_iff.2 hmem)]

/-- Without any character to escape a text is as it was. -/
theorem escapeAmong_none (cs : List Char) : escapeAmong [] cs = cs := by
  simp [escapeAmong]

theorem escapeAmong_cons (marks : List Char) (c : Char) (cs : List Char) :
    escapeAmong marks (c :: cs) = escapeAmong marks [c] ++ escapeAmong marks cs := by
  simp [escapeAmong]

section Passes

variable {d : Char} {marks : List Char} (hsub : d :: marks ⊆ specials) (hd : d ∉ marks)
include hsub

/-- Escaping puts nothing in front of a text that begins without an ampersand. -/
theorem prefix_of_prefix_escapeAmong {part cs : List Char} (hpart : '&' ∉ part)
    (h : part <+: escapeAmong (d :: marks) cs) : part <+: cs := by
  induction part generalizing cs with
  | nil => exact List.nil_prefix
  | cons p part ih =>
    cases cs with
    | nil => exact absurd (List.prefix_nil.1 h) (List.cons_ne_nil _ _)
    | cons c cs =>
      rw [List.mem_cons, not_or] at hpart
      by_cases hc : c ∈ d :: marks
      · obtain ⟨name, hname, -⟩ := exists_name (hsub hc)
        rw [escapeAmong_cons_of_mem hc, hname, List.cons_append, List.cons_prefix_cons] at h
        exact absurd h.1.symm hpart.1
      · rw [escapeAmong_cons_of_not_mem hc, List.cons_prefix_cons] at h
        rw [List.cons_prefix_cons]
        exact ⟨h.1, ih hpart.2 h.2⟩

include hd

/-- A pass goes on behind a character that is escaped, and reads it if it is the one looked for. -/
theorem readReference_escapeAmong_cons {c : Char} (hc : c ∈ d :: marks) (cs : List Char) :
    readReference d (escapeAmong (d :: marks) (c :: cs)) =
      escapeAmong marks [c] ++ readReference d (escapeAmong (d :: marks) cs) := by
  rw [escapeAmong_cons_of_mem hc]
  by_cases hsame : c = d
  · subst hsame
    rw [readReference, replaceAll_append (escapeChar_ne_nil c), escapeAmong_cons_of_not_mem hd]
    rfl
  · have hmark : c ∈ marks := List.mem_of_ne_of_mem hsame hc
    rw [readReference_escapeChar_append (hsub hc) (hsub List.mem_cons_self) (Ne.symm hsame),
      escapeAmong_cons_of_mem hmark, escapeAmong_nil, List.append_nil]

/-- As long as ampersands are escaped, a pass reads back one kind of character. -/
theorem readReference_escapeAmong (hescaped : '&' ∈ d :: marks) (cs : List Char) :
    readReference d (escapeAmong (d :: marks) cs) = escapeAmong marks cs := by
  induction cs with
  | nil => exact replaceAll_nil (escapeChar_ne_nil d) [d]
  | cons c cs ih =>
    by_cases hc : c ∈ d :: marks
    · rw [readReference_escapeAmong_cons hsub hd hc, ih, ← escapeAmong_cons]
    · have hother : c ≠ '&' := fun heq => hc (heq ▸ hescaped)
      have hmark : c ∉ marks := List.not_mem_of_not_mem_cons hc
      rw [escapeAmong_cons_of_not_mem hc, escapeAmong_cons_of_not_mem hmark,
        readReference_cons (hsub List.mem_cons_self) hother, ih]

/-- Once they are not, the pass reads the references that the text spelled out as well. -/
theorem readReference_escapeAmong_of_bare (hbare : '&' ∉ d :: marks) (cs : List Char) :
    readReference d (escapeAmong (d :: marks) cs) = escapeAmong marks (readReference d cs) := by
  obtain ⟨name, hname, -, hplain⟩ := exists_name (hsub List.mem_cons_self)
  have hneedle : escapeChar d ≠ [] := escapeChar_ne_nil d
  induction cs using needle_induction hneedle with
  | nil => rw [escapeAmong_nil, readReference, replaceAll_nil hneedle, escapeAmong_nil]
  | replaced rest ih =>
    have hkept : ∀ c ∈ escapeChar d, c ∉ d :: marks := by
      rw [hname, List.forall_mem_cons]
      exact ⟨hbare, fun c hc hmem => hplain c hc (hsub hmem)⟩
    have hread (text : List Char) :
        readReference d (escapeChar d ++ text) = d :: readReference d text :=
      replaceAll_append hneedle [d] text
    rw [escapeAmong_append_of_not_mem hkept, hread, hread, escapeAmong_cons_of_not_mem hd, ih]
  | kept c cs hfront ih =>
    have hread : readReference d (c :: cs) = c :: readReference d cs :=
      replaceAll_cons hneedle hfront [d]
    by_cases hc : c ∈ d :: marks
    · rw [readReference_escapeAmong_cons hsub hd hc, ih, hread, ← escapeAmong_cons]
    · -- Escaping what follows does not make up a reference that was not there.
      have hstays : ¬escapeChar d <+: c :: escapeAmong (d :: marks) cs := by
        intro hstarts
        apply hfront
        rw [hname, List.cons_prefix_cons] at hstarts ⊢
        exact ⟨hstarts.1,
          prefix_of_prefix_escapeAmong hsub (ampersand_not_mem hplain) hstarts.2⟩
      have hmark : c ∉ marks := List.not_mem_of_not_mem_cons hc
      rw [escapeAmong_cons_of_not_mem hc, hread, escapeAmong_cons_of_not_mem hmark, ← ih]
      exact replaceAll_cons hneedle hstays [d]

end Passes

/-- Passes before that of the ampersands take back what was escaped. -/
theorem readReferences_escapeAmong {first rest : List Char} (hsub : first ++ rest ⊆ specials)
    (hnodup : (first ++ rest).Nodup) (hescaped : '&' ∈ rest) (cs : List Char) :
    readReferences first (escapeAmong (first ++ rest) cs) = escapeAmong rest cs := by
  induction first with
  | nil => rfl
  | cons d first ih =>
    rw [List.cons_append] at hsub hnodup
    have hlater : '&' ∈ d :: (first ++ rest) := by simp [hescaped]
    have hstep := readReference_escapeAmong hsub (List.nodup_cons.1 hnodup).1 hlater cs
    rw [readReferences, List.foldl_cons, List.cons_append, hstep]
    exact ih (List.subset_of_cons_subset hsub) (List.nodup_cons.1 hnodup).2

/-- Passes after it read the text at the same time. -/
theorem readReferences_escapeAmong_of_bare {first rest : List Char}
    (hsub : first ++ rest ⊆ specials) (hnodup : (first ++ rest).Nodup)
    (hbare : '&' ∉ first ++ rest) (cs : List Char) :
    readReferences first (escapeAmong (first ++ rest) cs) =
      escapeAmong rest (readReferences first cs) := by
  induction first generalizing cs with
  | nil => rfl
  | cons d first ih =>
    rw [List.cons_append] at hsub hnodup hbare
    have hstep := readReference_escapeAmong_of_bare hsub (List.nodup_cons.1 hnodup).1 hbare cs
    rw [readReferences, List.foldl_cons, List.cons_append, hstep]
    exact ih (List.subset_of_cons_subset hsub) (List.nodup_cons.1 hnodup).2
      (List.not_mem_of_not_mem_cons hbare) _

/-! ## Reading back -/

/-- With the ampersands read last an escaped text is read back, so no two texts are escaped
alike. -/
theorem readReferences_forceEscape (cs : List Char) :
    readReferences ['<', '>', '"', '\'', '&'] (forceEscape cs) = cs := by
  have hperm : (['<', '>', '"', '\''] ++ ['&']).Perm specials := by decide
  calc readReferences ['<', '>', '"', '\'', '&'] (forceEscape cs)
      = readReference '&' (readReferences ['<', '>', '"', '\'']
          (escapeAmong (['<', '>', '"', '\''] ++ ['&']) cs)) := by
        rw [escapeAmong_perm_specials hperm]
        rfl
    _ = readReference '&' (escapeAmong ['&'] cs) := by
        rw [readReferences_escapeAmong hperm.subset (by decide) (by decide)]
    _ = cs := by
        rw [readReference_escapeAmong (by decide) (by decide) (by decide), escapeAmong_none]

theorem forceEscape_injective : Function.Injective forceEscape :=
  Function.LeftInverse.injective readReferences_forceEscape

/-- In the order in which the references are read it is read back but for the references of quotes
that it spelled out. -/
theorem readBasicReferences_forceEscape (cs : List Char) :
    readBasicReferences (forceEscape cs) = readReference '\'' (readReference '"' cs) := by
  have hperm : (['<', '>'] ++ ['&', '"', '\'']).Perm specials := .refl _
  calc readBasicReferences (forceEscape cs)
      = readReferences ['"', '\''] (readReference '&'
          (readReferences ['<', '>'] (escapeAmong (['<', '>'] ++ ['&', '"', '\'']) cs))) := by
        rw [escapeAmong_perm_specials hperm]
        rfl
    _ = readReferences ['"', '\''] (readReference '&' (escapeAmong ['&', '"', '\''] cs)) := by
        rw [readReferences_escapeAmong hperm.subset (by decide) (by decide)]
    _ = readReferences ['"', '\''] (escapeAmong (['"', '\''] ++ []) cs) := by
        rw [readReference_escapeAmong (by decide) (by decide) (by decide)]
        rfl
    _ = readReferences ['"', '\''] cs := by
        rw [readReferences_escapeAmong_of_bare (by decide) (by decide) (by decide),
          escapeAmong_none]

/-- No text that was read back spells out the reference of a quote. -/
theorem not_infix_readBasicReferences (cs : List Char) :
    ¬escapeChar '"' <:+: readBasicReferences cs ∧
      ¬escapeChar '\'' <:+: readBasicReferences cs := by
  have hdouble := not_infix_replaceAll (escapeChar_ne_nil '"') (d := '"') (by decide)
  have hsingle := not_infix_replaceAll (escapeChar_ne_nil '\'') (d := '\'') (by decide)
  -- The last pass reads the single quotes, and puts together nothing that holds none.
  exact ⟨fun h => hdouble _ (infix_of_infix_replaceAll (escapeChar_ne_nil '\'') (by decide) h),
    hsingle _⟩

/-! ## What escaped text looks like -/

/-- Of the special characters only ampersands are left. -/
theorem eq_of_mem_forceEscape {c : Char} {cs : List Char} (h : c ∈ forceEscape cs)
    (hc : c ∈ specials) : c = '&' := by
  rw [forceEscape, List.mem_flatMap] at h
  obtain ⟨x, -, hx⟩ := h
  by_cases hspecial : x ∈ specials
  · obtain ⟨name, hname, -, hplain⟩ := exists_name hspecial
    rw [hname, List.mem_cons] at hx
    exact hx.resolve_right fun hmem => hplain c hmem hc
  · rw [escapeChar_of_not_mem hspecial, List.mem_singleton] at hx
    exact absurd (hx ▸ hc) hspecial

/-- Each of these ampersands begins a reference. -/
theorem exists_reference_of_suffix {cs rest : List Char} (h : '&' :: rest <:+ forceEscape cs) :
    ∃ d ∈ specials, escapeChar d <+: '&' :: rest := by
  have hspecial {c : Char} (hc : '&' ∈ escapeChar c) : c ∈ specials := by
    by_contra hplain
    rw [escapeChar_of_not_mem hplain, List.mem_singleton] at hc
    subst hc
    exact hplain (by decide)
  have hmark (c : Char) (hc : '&' ∈ escapeChar c) :
      ∃ name, escapeChar c = '&' :: name ∧ '&' ∉ name := by
    obtain ⟨name, hname, -, hplain⟩ := exists_name (hspecial hc)
    exact ⟨name, hname, ampersand_not_mem hplain⟩
  obtain ⟨d, hd, hstarts⟩ := exists_code_of_suffix hmark h
  exact ⟨d, hspecial hd, hstarts⟩

/-- Escaped text holds no angle bracket and no quote, every ampersand in it begins one of the five
references, and escaping it once more changes nothing. -/
theorem escape_safe_and_idempotent (cs : List Char) :
    (∀ c ∈ escape cs, c ≠ '<' ∧ c ≠ '>' ∧ c ≠ '"' ∧ c ≠ '\'') ∧
      (∀ rest, '&' :: rest <:+ escape cs →
        ∃ reference ∈ ["&amp;", "&lt;", "&gt;", "&quot;", "&#x27;"],
          reference.toList <+: '&' :: rest) ∧
      escape (escape cs) = escape cs := by
  refine ⟨?_, ?_, ?_⟩
  · intro c hc
    refine ⟨?_, ?_, ?_, ?_⟩ <;>
      · rintro rfl
        exact absurd (eq_of_mem_forceEscape hc (by decide)) (by decide)
  · intro rest hrest
    obtain ⟨d, hd, hstarts⟩ := exists_reference_of_suffix hrest
    simp only [specials, List.mem_cons, List.not_mem_nil, or_false] at hd
    rcases hd with rfl | rfl | rfl | rfl | rfl <;> exact ⟨_, by simp, hstarts⟩
  · obtain ⟨hdouble, hsingle⟩ := not_infix_readBasicReferences cs
    rw [escape, escape, readBasicReferences_forceEscape,
      (readReference_readReference_eq_self_iff (by decide) (by decide)).2 ⟨hdouble, hsingle⟩]

/-- Escaping what is escaped already reads the references of quotes that the text spelled out, the
single quotes after the double ones. It keeps the text exactly if there are none. -/
theorem escape_forceEscape_eq_unless_quotes (cs : List Char) :
    escape (forceEscape cs) = forceEscape
        (replaceAll "&#x27;".toList ['\''] (replaceAll "&quot;".toList ['"'] cs)) ∧
      (escape (forceEscape cs) = forceEscape cs ↔
        ¬"&quot;".toList <:+: cs ∧ ¬"&#x27;".toList <:+: cs) := by
  have hread : escape (forceEscape cs) =
      forceEscape (readReference '\'' (readReference '"' cs)) := by
    rw [escape, readBasicReferences_forceEscape]
  refine ⟨hread, ?_⟩
  rw [hread, forceEscape_injective.eq_iff]
  exact readReference_readReference_eq_self_iff (by decide) (by decide)

/-- The text that shows the reference of a quote is escaped to one that shows the quote. -/
theorem escape_forceEscape_of_quote :
    ¬∀ cs : List Char, escape (forceEscape cs) = forceEscape cs := by
  intro hkept
  have hquote := hkept "&quot;".toList
  revert hquote
  decide

/-! ## References by name and by number -/

/-- A reference is read wherever it stands. -/
theorem referenceRule_append {body : List Char} {c : Char}
    (hbody : body.all (fun x => x.isAlphanum || x == '#') = true)
    (hc : referenceChar? body = some c) (rest : List Char) :
    referenceRule ('&' :: (body ++ ';' :: rest)) = some ([c], body.length + 2) := by
  have htake : (body ++ ';' :: rest).takeWhile (fun x => x.isAlphanum || x == '#') = body := by
    rw [List.takeWhile_append_of_pos (List.all_eq_true.1 hbody),
      List.takeWhile_cons_of_neg (by decide), List.append_nil]
  simp only [referenceRule, htake, List.drop_left, hc]
  rfl

/-- What escaping writes for a special character is a reference to it. -/
theorem exists_body {c : Char} (h : c ∈ specials) :
    ∃ body, escapeChar c = '&' :: (body ++ [';']) ∧
      body.all (fun x => x.isAlphanum || x == '#') = true ∧ referenceChar? body = some c := by
  simp only [specials, List.mem_cons, List.not_mem_nil, or_false] at h
  rcases h with rfl | rfl | rfl | rfl | rfl
  · exact ⟨['l', 't'], rfl, rfl, rfl⟩
  · exact ⟨['g', 't'], rfl, rfl, rfl⟩
  · exact ⟨['a', 'm', 'p'], rfl, rfl, rfl⟩
  · exact ⟨['q', 'u', 'o', 't'], rfl, rfl, rfl⟩
  · exact ⟨['#', 'x', '2', '7'], rfl, rfl, rfl⟩

/-- Nothing but an ampersand begins a reference. -/
theorem referenceRule_cons {c : Char} (h : c ≠ '&') (rest : List Char) :
    referenceRule (c :: rest) = none := by
  rw [referenceRule]
  simpa using h

theorem readsBack_escapeChar : ReadsBack referenceRule escapeChar := by
  intro c rest
  by_cases hc : c ∈ specials
  · obtain ⟨body, hcode, hbody, hread⟩ := exists_body hc
    left
    rw [hcode]
    refine ⟨List.cons_ne_nil _ _, ?_⟩
    simpa using referenceRule_append hbody hread rest
  · right
    have hbare : c ≠ '&' := by
      rintro rfl
      exact hc (by decide)
    exact ⟨escapeChar_of_not_mem hc, referenceRule_cons hbare rest⟩

/-- Reading the references of an escaped text gives the text back, whatever references the text
itself spells out. -/
theorem unescape_forceEscape (cs : List Char) : unescape (forceEscape cs) = cs :=
  readsBack_escapeChar.substitute_flatMap cs

end Stencil.Text
