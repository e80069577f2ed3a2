import Stencil.Proofs.HtmlPieces

/-!
# Open elements

The tags of a text open and close elements (`trackTag`). What a tag does depends on how it is
spelled (`TagSource`): whether it has a name, a slash before the name, a slash at its end, and
whether the name is one of the `voidElements`. The names of the open elements are kept in lower
case, which is how a closing tag is read as well, so the `closer` of the innermost open element
closes that element and no other. The `closers` of all of them, written from the innermost to the
outermost, leave none open.

Reference: `track_tag`, `TAG_NAME`.
-/

namespace Stencil.Text

open scoped List

/-! ## Names of elements -/

/-- A character of an element name, but for its first one. -/
def isNameRest (c : Char) : Bool := c.isAlphanum || c == '-'

/-- A name as it is kept for an open element: read from a tag, in lower case. -/
structure IsElementName (name : List Char) : Prop where
  ne_nil : name ≠ []
  elementName_eq : elementName name = name
  lower_eq : lower name = name

theorem elementName_cons {c : Char} (hc : c.isAlpha = true) (cs : List Char) :
    elementName (c :: cs) = c :: cs.takeWhile isNameRest :=
  if_pos hc

/-- A text begins with a name of an element, which goes on as far as it can. -/
structure NameBefore (name after : List Char) : Prop where
  exists_cons : ∃ c rest, name = c :: rest ∧ c.isAlpha = true ∧ ∀ d ∈ rest, isNameRest d = true
  stops : ∀ d ∈ after.head?, isNameRest d = false

/-- A text begins with the name that is read from it, if there is one. -/
theorem exists_nameBefore {cs : List Char} (h : elementName cs ≠ []) :
    ∃ after, cs = elementName cs ++ after ∧ NameBefore (elementName cs) after := by
  cases cs with
  | nil => exact absurd rfl h
  | cons c cs =>
    by_cases hc : c.isAlpha = true
    · rw [elementName_cons hc]
      refine ⟨cs.dropWhile isNameRest, ?_, ⟨c, _, rfl, hc, fun d hd => List.mem_takeWhile_imp hd⟩,
        ?_⟩
      · rw [List.cons_append, List.takeWhile_append_dropWhile]
      · intro d hd
        have hstop := List.head?_dropWhile_not isNameRest cs
        rw [Option.mem_def.1 hd] at hstop
        simpa using hstop
    · exact absurd (if_neg hc) h

theorem IsElementName.exists_cons {name : List Char} (h : IsElementName name) :
    ∃ c rest, name = c :: rest ∧ c.isAlpha = true ∧ ∀ d ∈ rest, isNameRest d = true := by
  obtain ⟨after, -, hbefore⟩ := exists_nameBefore (h.elementName_eq.symm ▸ h.ne_nil)
  rw [← h.elementName_eq]
  exact hbefore.exists_cons

theorem isNameRest_of_isAlpha {c : Char} (h : c.isAlpha = true) : isNameRest c = true := by
  simp [isNameRest, Char.isAlphanum, h]

theorem isNameRest_toLower {c : Char} (h : isNameRest c = true) :
    isNameRest c.toLower = true := by
  by_cases hupper : c.isUpper = true
  · apply isNameRest_of_isAlpha
    rw [Char.isAlpha_toLower_eq_isAlpha, Char.isAlpha, hupper, Bool.true_or]
  · rwa [Char.toLower_eq_of_not_isUpper hupper]

theorem toNat_lt_of_isNameRest {c : Char} (h : isNameRest c = true) : c.toNat < 128 := by
  simp only [isNameRest, Char.isAlphanum, Char.isAlpha, Char.isUpper, Char.isLower, Char.isDigit,
    Bool.or_eq_true, Bool.and_eq_true, decide_eq_true_eq, beq_iff_eq, ge_iff_le,
    UInt32.le_iff_toNat_le] at h
  rcases h with (((⟨-, h⟩ | ⟨-, h⟩) | ⟨-, h⟩) | rfl)
  · exact Nat.lt_of_le_of_lt h (by decide)
  · exact Nat.lt_of_le_of_lt h (by decide)
  · exact Nat.lt_of_le_of_lt h (by decide)
  · decide

theorem lower_eq_map {name : List Char} (h : ∀ d ∈ name, isNameRest d = true) :
    lower name = name.map Char.toLower :=
  lowerFrom_of_ascii (fun d hd => toNat_lt_of_isNameRest (h d hd)) []

theorem isElementName_lower {cs : List Char} (h : lower (elementName cs) ≠ []) :
    IsElementName (lower (elementName cs)) := by
  by_cases hnone : elementName cs = []
  · rw [hnone] at h
    exact absurd rfl h
  · obtain ⟨after, -, hbefore⟩ := exists_nameBefore hnone
    obtain ⟨c, rest, hname, hc, hrest⟩ := hbefore.exists_cons
    have hall : ∀ d ∈ c :: rest, isNameRest d = true :=
      List.forall_mem_cons.2 ⟨isNameRest_of_isAlpha hc, hrest⟩
    have hlower : lower (elementName cs) = c.toLower :: rest.map Char.toLower := by
      rw [hname, lower_eq_map hall, List.map_cons]
    have hmapped : ∀ d ∈ rest.map Char.toLower, isNameRest d = true := by
      intro d hd
      obtain ⟨e, he, rfl⟩ := List.mem_map.1 hd
      exact isNameRest_toLower (hrest e he)
    have hfirst : c.toLower.isAlpha = true := by
      rwa [Char.isAlpha_toLower_eq_isAlpha]
    rw [hlower] at h ⊢
    refine ⟨h, ?_, ?_⟩
    · rw [elementName_cons hfirst, List.takeWhile_eq_self_iff.2 hmapped]
    · have hnames : ∀ d ∈ c.toLower :: rest.map Char.toLower, isNameRest d = true :=
        List.forall_mem_cons.2 ⟨isNameRest_of_isAlpha hfirst, hmapped⟩
      rw [lower_eq_map hnames]
      simp

/-! ## Spelling of tags -/

/-- The source of a tag with a name. Blanks may stand before the name, and for a closing tag there
is a slash among them. -/
inductive TagSource : (closing : Bool) → (name source : List Char) → Prop where
  | opening {blanks name after : List Char} (hblanks : ∀ c ∈ blanks, isBlank c = true)
      (hname : NameBefore name after) : TagSource false name ('<' :: (blanks ++ (name ++ after)))
  | closing {outer inner name after : List Char} (houter : ∀ c ∈ outer, isBlank c = true)
      (hinner : ∀ c ∈ inner, isBlank c = true) (hname : NameBefore name after) :
      TagSource true name ('<' :: (outer ++ '/' :: (inner ++ (name ++ after))))

theorem isBlank_of_isAlpha {c : Char} (h : c.isAlpha = true) : isBlank c = false := by
  have hascii : ∀ n < 128, (Char.ofNat n).isAlpha = true → isBlank (Char.ofNat n) = false := by
    decide
  have hc := hascii c.toNat (toNat_lt_of_isNameRest (isNameRest_of_isAlpha h))
  rw [Char.ofNat_toNat] at hc
  exact hc h

theorem trimStart_append {blanks : List Char} (h : ∀ c ∈ blanks, isBlank c = true)
    (cs : List Char) : trimStart (blanks ++ cs) = trimStart cs :=
  List.dropWhile_append_of_pos h

namespace NameBefore

variable {name after : List Char}

theorem elementName_append (h : NameBefore name after) : elementName (name ++ after) = name := by
  obtain ⟨c, rest, rfl, hc, hrest⟩ := h.exists_cons
  have hafter : after.takeWhile isNameRest = [] := by
    cases after with
    | nil => rfl
    | cons d ds => exact List.takeWhile_cons_of_neg (by simp [h.stops d rfl])
  rw [List.cons_append, elementName_cons hc, List.takeWhile_append_of_pos hrest, hafter,
    List.append_nil]

theorem trimStart_eq (h : NameBefore name after) : trimStart (name ++ after) = name ++ after := by
  obtain ⟨c, rest, rfl, hc, -⟩ := h.exists_cons
  rw [List.cons_append, trimStart, List.dropWhile_cons_of_neg (by simp [isBlank_of_isAlpha hc])]

theorem lower_ne_nil (h : NameBefore name after) : lower name ≠ [] := by
  obtain ⟨c, rest, rfl, hc, hrest⟩ := h.exists_cons
  rw [lower_eq_map (List.forall_mem_cons.2 ⟨isNameRest_of_isAlpha hc, hrest⟩)]
  exact List.cons_ne_nil _ _

end NameBefore

theorem TagSource.tagEffect_closing {name source : List Char} (h : TagSource true name source) :
    tagEffect source = .closes (lower name) := by
  cases h with
  | @closing outer inner name after houter hinner hname =>
    have hslash : trimStart (List.drop 1 ('<' :: (outer ++ '/' :: (inner ++ (name ++ after))))) =
        '/' :: (inner ++ (name ++ after)) := trimStart_append houter _
    have hinside : trimStart (inner ++ (name ++ after)) = name ++ after := by
      rw [trimStart_append hinner, hname.trimStart_eq]
    rw [tagEffect]
    simp only [hslash, hinside, hname.elementName_append,
      List.isEmpty_eq_false_iff.2 hname.lower_ne_nil, Bool.false_eq_true, if_false, if_true]

theorem TagSource.tagEffect_opening {name source : List Char} (h : TagSource false name source) :
    tagEffect source =
      if "/>".toList <:+ source ∨ String.ofList (lower name) ∈ voidElements then .none
      else .opens (lower name) := by
  cases h with
  | @opening blanks name after hblanks hname =>
    have hinside : trimStart (List.drop 1 ('<' :: (blanks ++ (name ++ after)))) =
        name ++ after := by
      rw [List.drop_succ_cons, List.drop_zero, trimStart_append hblanks, hname.trimStart_eq]
    obtain ⟨c, rest, hcons, hc, -⟩ := hname.exists_cons
    have hslash : ∀ tail, name ++ after ≠ '/' :: tail := by
      rintro tail htail
      rw [hcons, List.cons_append] at htail
      obtain rfl := (List.cons.inj htail).1
      exact absurd hc (by decide)
    -- The rewriting finds `hslash` by itself where the second arm of the match is to be taken.
    rw [tagEffect]
    simp only [hinside, hname.elementName_append, List.isEmpty_eq_false_iff.2 hname.lower_ne_nil,
      Bool.false_eq_true, if_false, Bool.or_eq_true, List.isSuffixOf_iff_suffix,
      List.contains_iff_mem]

theorem exists_blanks (cs : List Char) :
    ∃ blanks, (∀ c ∈ blanks, isBlank c = true) ∧ cs = blanks ++ trimStart cs :=
  ⟨cs.takeWhile isBlank, fun _ hc => List.mem_takeWhile_imp hc,
    List.takeWhile_append_dropWhile.symm⟩

theorem lower_elementName_isEmpty {cs : List Char} (h : elementName cs = []) :
    (lower (elementName cs)).isEmpty = true := by
  rw [h]
  rfl

/-- A tag that is spelled in neither way has no effect. -/
theorem tagSource_or_tagEffect_eq_none (cs : List Char) :
    (∃ closing name, TagSource closing name ('<' :: cs)) ∨ tagEffect ('<' :: cs) = .none := by
  obtain ⟨outer, houter, hcs⟩ := exists_blanks cs
  by_cases hslash : ∃ tail, trimStart cs = '/' :: tail
  · obtain ⟨tail, hslash⟩ := hslash
    obtain ⟨inner, hinner, htail⟩ := exists_blanks tail
    by_cases hname : elementName (trimStart tail) = []
    · right
      rw [tagEffect]
      simp only [List.drop_succ_cons, List.drop_zero, hslash, lower_elementName_isEmpty hname,
        if_true]
    · left
      obtain ⟨after, hafter, hbefore⟩ := exists_nameBefore hname
      rw [hcs, hslash, htail, hafter]
      exact ⟨true, _, .closing houter hinner hbefore⟩
  · have hother : ∀ tail, trimStart cs ≠ '/' :: tail := not_exists.1 hslash
    by_cases hname : elementName (trimStart cs) = []
    · right
      rw [tagEffect]
      simp only [List.drop_succ_cons, List.drop_zero, lower_elementName_isEmpty hname, if_true]
    · left
      obtain ⟨after, hafter, hbefore⟩ := exists_nameBefore hname
      rw [hcs, hafter]
      exact ⟨false, _, .opening houter hbefore⟩

/-- A tag without a name does nothing. -/
theorem trackTag_of_nameless {cs : List Char}
    (h : ∀ closing name, ¬ TagSource closing name ('<' :: cs)) (opened : List (List Char)) :
    trackTag opened ('<' :: cs) = opened := by
  rcases tagSource_or_tagEffect_eq_none cs with ⟨closing, name, hsource⟩ | hnone
  · exact absurd hsource (h closing name)
  · rw [trackTag, hnone]

section Spelled

variable {name source : List Char} {opened inner outer : List (List Char)}

/-- A tag without a slash before its name opens an element. -/
theorem TagSource.trackTag_opening (h : TagSource false name source)
    (hslash : ¬ "/>".toList <:+ source) (hvoid : String.ofList (lower name) ∉ voidElements) :
    trackTag opened source = lower name :: opened := by
  rw [trackTag, h.tagEffect_opening, if_neg (not_or.2 ⟨hslash, hvoid⟩)]

/-- It opens none if it ends in a slash or if the element has no content. -/
theorem TagSource.trackTag_void (h : TagSource false name source)
    (hvoid : "/>".toList <:+ source ∨ String.ofList (lower name) ∈ voidElements) :
    trackTag opened source = opened := by
  rw [trackTag, h.tagEffect_opening, if_pos hvoid]

/-- A tag with a slash before its name closes the innermost element of this name and the elements
that are open inside it. -/
theorem TagSource.trackTag_closing (h : TagSource true name source) (hinner : lower name ∉ inner) :
    trackTag (inner ++ lower name :: outer) source = outer := by
  have hopened : (inner ++ lower name :: outer).contains (lower name) = true := by
    simp
  have hdrop : ∀ n ∈ inner, (n != lower name) = true := by
    intro n hn
    exact bne_iff_ne.2 fun heq => hinner (heq ▸ hn)
  rw [trackTag, h.tagEffect_closing]
  simp only
  rw [if_pos hopened, List.dropWhile_append_of_pos hdrop, List.dropWhile_cons_of_neg (by simp)]
  rfl

/-- If no element of its name is open, it does nothing. -/
theorem TagSource.trackTag_stray (h : TagSource true name source) (hname : lower name ∉ opened) :
    trackTag opened source = opened := by
  have hopened : ¬ opened.contains (lower name) = true := by
    rwa [List.contains_iff_mem]
  rw [trackTag, h.tagEffect_closing]
  exact if_neg hopened

end Spelled

/-! ## Open elements -/

/-- The elements that are open behind some pieces, innermost first, if some were open before. -/
def openAfter : List (List Char) → List HtmlPiece → List (List Char)
  | opened, [] => opened
  | opened, .tag source :: ps => openAfter (trackTag opened source) ps
  | opened, .text _ :: ps => openAfter opened ps

@[simp] theorem openAfter_nil (opened : List (List Char)) : openAfter opened [] = opened := rfl

@[simp] theorem openAfter_tag (opened : List (List Char)) (source : List Char)
    (ps : List HtmlPiece) :
    openAfter opened (.tag source :: ps) = openAfter (trackTag opened source) ps := rfl

@[simp] theorem openAfter_text (opened : List (List Char)) (source : List Char)
    (ps : List HtmlPiece) : openAfter opened (.text source :: ps) = openAfter opened ps := rfl

theorem openAfter_append (opened : List (List Char)) (ps qs : List HtmlPiece) :
    openAfter opened (ps ++ qs) = openAfter (openAfter opened ps) qs := by
  induction ps generalizing opened with
  | nil => rfl
  | cons p ps ih => cases p <;> exact ih _

theorem openAfter_textPieces (opened : List (List Char)) (part : List Char) :
    openAfter opened (textPieces part) = opened := by
  unfold textPieces
  split <;> rfl

/-- An element that a tag opens has a name. -/
theorem isElementName_of_opens {source name : List Char} (h : tagEffect source = .opens name) :
    IsElementName name := by
  unfold tagEffect at h
  simp only at h
  split_ifs at h with hempty hclosing hvoid
  obtain rfl := TagEffect.opens.inj h
  exact isElementName_lower (List.isEmpty_eq_false_iff.1 (Bool.eq_false_of_not_eq_true hempty))

/-- A tag leaves only elements open that have names. -/
theorem isElementName_of_mem_trackTag {opened : List (List Char)} {source : List Char}
    (h : ∀ name ∈ opened, IsElementName name) :
    ∀ name ∈ trackTag opened source, IsElementName name := by
  unfold trackTag
  split
  · rename_i name heffect
    exact List.forall_mem_cons.2 ⟨isElementName_of_opens heffect, h⟩
  · split
    · intro name hname
      exact h name ((List.dropWhile_suffix _).subset (List.mem_of_mem_drop hname))
    · exact h
  · exact h

/-- So do the tags of a text. -/
theorem isElementName_of_mem_openAfter {opened : List (List Char)} {ps : List HtmlPiece}
    (h : ∀ name ∈ opened, IsElementName name) :
    ∀ name ∈ openAfter opened ps, IsElementName name := by
  induction ps generalizing opened with
  | nil => exact h
  | cons p ps ih =>
    cases p with
    | tag source => exact ih (isElementName_of_mem_trackTag h)
    | text source => exact ih h

/-! ## Closing tags -/

theorem not_mem_of_isElementName {name : List Char} (h : IsElementName name) : '>' ∉ name := by
  obtain ⟨c, rest, rfl, hc, hrest⟩ := h.exists_cons
  intro hmem
  have hall : ∀ d ∈ c :: rest, isNameRest d = true :=
    List.forall_mem_cons.2 ⟨isNameRest_of_isAlpha hc, hrest⟩
  exact absurd (hall '>' hmem) (by decide)

/-- The closing tag of an element. -/
def closer (name : List Char) : List Char := ['<', '/'] ++ name ++ ['>']

theorem tagSource_closer {name : List Char} (h : IsElementName name) :
    TagSource true name (closer name) := by
  have hafter : ∀ d ∈ ['>'].head?, isNameRest d = false := by
    rintro d ⟨⟩
    decide
  exact .closing (List.forall_mem_nil _) (List.forall_mem_nil _) ⟨h.exists_cons, hafter⟩

/-- The closing tag of the innermost element closes that element. -/
theorem trackTag_closer {name : List Char} (h : IsElementName name) (opened : List (List Char)) :
    trackTag (name :: opened) (closer name) = opened := by
  have hclosed : trackTag ([] ++ lower name :: opened) (closer name) = opened :=
    (tagSource_closer h).trackTag_closing List.not_mem_nil
  rwa [h.lower_eq] at hclosed

/-- The closing tags that are written consist of one tag for each open element. -/
theorem consistsOf_closers {opened : List (List Char)} (h : ∀ name ∈ opened, IsElementName name) :
    ConsistsOf (closers opened) (opened.map fun name => .tag (closer name)) := by
  induction opened with
  | nil => exact .nil
  | cons name opened ih =>
    rw [List.forall_mem_cons] at h
    have hinside : '>' ∉ '/' :: name := by
      rw [List.mem_cons, not_or]
      exact ⟨by decide, not_mem_of_isElementName h.1⟩
    have htag := ConsistsOf.tag hinside (ih h.2)
    simpa [closers, closer] using htag

/-- Behind them no element is open. -/
theorem openAfter_closers {opened : List (List Char)} (h : ∀ name ∈ opened, IsElementName name) :
    openAfter opened (htmlPieces (closers opened)) = [] := by
  rw [(consistsOf_closers h).htmlPieces_eq]
  induction opened with
  | nil => rfl
  | cons name opened ih =>
    rw [List.forall_mem_cons] at h
    rw [List.map_cons, openAfter_tag, trackTag_closer h.1]
    exact ih h.2

end Stencil.Text
