import Stencil.Proofs.BlockCheck
import Stencil.Proofs.Tiling

/-!
# Where faults lie

A template that does not compile has one `Error`, which lies at the byte where a tag, an emit or a
comment begins. If cutting the template into pieces fails, that is the piece that cannot be cut off.
If the blocks do not fit, it is the tag that cannot be read where it stands, or the opening tag of a
block that nothing closes. What is open at some place is told by the tags before it alone.
-/

namespace Stencil.Template

/-! ## Places in a template -/

/-- At this byte of a template an opening delimiter begins. -/
def OpenerAt (template : String) (offset : Nat) : Prop :=
  ∃ before rest, template.toList = before ++ rest ∧ Text.utf8Length before = offset ∧
    atOpener rest = true

/-- At this byte of a template a tag with this name begins: behind the opening delimiter and blanks,
the name comes first. -/
def TagAt (template : String) (offset : Nat) (name : String) : Prop :=
  ∃ before rest, template.toList = before ++ '\x7b' :: '%' :: rest ∧
    Text.utf8Length before = offset ∧ String.ofList (tagName rest) = name

theorem TagAt.openerAt {template : String} {offset : Nat} {name : String}
    (h : TagAt template offset name) : OpenerAt template offset := by
  obtain ⟨before, rest, htext, hoffset, -⟩ := h
  exact ⟨before, _, htext, hoffset, rfl⟩

/-- The text of a tag begins with its opening delimiter and has its name in front. -/
theorem source_of_cutPiece_tag {trim : Bool} {cs source rest arguments : List Char} {name : String}
    (h : cutPiece trim cs = .ok (.tag name arguments, source, rest)) :
    ∃ content behind, source = '\x7b' :: '%' :: (content ++ '%' :: behind) ∧
      name = String.ofList (tagName content) := by
  by_cases ho : atOpener cs = true
  · rcases opener_cases ho with ⟨inner, rfl⟩ | ⟨inner, rfl⟩ | ⟨inner, rfl⟩
    · obtain ⟨content, _, _, hkind, _⟩ := cutEmit_eq_ok_iff.1 h
      cases hkind
    · obtain ⟨content, after, _, _, hkind, rfl, _⟩ := cutTag_eq_ok_iff.1 h
      cases hkind
      exact ⟨content, '\x7d' :: (lineBreakAfter trim after).1, by simp, rfl⟩
    · obtain ⟨content, _, hkind, _⟩ := cutComment_eq_ok_iff.1 h
      cases hkind
  · rw [cutPiece_text trim ho] at h
    cases h

/-- Where a piece is a tag, a tag with its name begins in the template. -/
theorem tagAt_of_named {trim : Bool} {template : String} {ps : List Piece}
    (h : pieces trim template = .ok ps) {p : Piece} (hp : p ∈ ps) {name : String}
    (hname : p.Named name) : TagAt template p.start name := by
  have hcuts : Cuts trim 0 template.toList ps := cuts_of_piecesFrom h
  obtain ⟨before, after, htext, hstart⟩ := hcuts.exists_of_mem hp
  obtain ⟨ds, rest, -, hcut⟩ := hcuts.cut_of_mem hp
  obtain ⟨arguments, hkind⟩ := hname
  rw [hkind] at hcut
  obtain ⟨content, behind, hsource, rfl⟩ := source_of_cutPiece_tag hcut
  refine ⟨before, content ++ '%' :: (behind ++ after), ?_, by rw [hstart, Nat.zero_add], ?_⟩
  · rw [htext, hsource]
    simp
  · rw [tagName_append]

/-! ## Pieces that cannot be cut off -/

/-- What can be wrong with a piece by itself. -/
def cutFaults : List Fault := [.unclosedTag, .unclosedString, .emptyTag]

theorem unclosed_mem (q : Quote) : unclosed q ∈ cutFaults := by
  unfold unclosed
  split <;> decide

theorem cutTagContent_error {name : String} {cs : List Char} {fault : Fault}
    (h : cutTagContent name cs = .error fault) : fault ∈ cutFaults := by
  unfold cutTagContent at h
  split at h
  · split at h <;> cases h
    decide
  · split at h <;> cases h
    exact unclosed_mem _

/-- Only what begins with an opening delimiter cannot be cut off. -/
theorem cutPiece_error {trim : Bool} {cs : List Char} {fault : Fault}
    (h : cutPiece trim cs = .error fault) : atOpener cs = true ∧ fault ∈ cutFaults := by
  by_cases ho : atOpener cs = true
  · refine ⟨ho, ?_⟩
    rcases opener_cases ho with ⟨inner, rfl⟩ | ⟨inner, rfl⟩ | ⟨inner, rfl⟩
    · rw [cutPiece_emit, cutEmit] at h
      split at h
      · cases h
        exact unclosed_mem _
      · dsimp only at h
        split at h <;> cases h
        decide
    · rw [cutPiece_tag, cutTag] at h
      cases hc : cutTagContent (String.ofList ((Text.trimStart inner).takeWhile isNameChar))
          inner with
      | error fault' =>
        simp only [hc, bind, Except.bind, Except.error.injEq] at h
        exact h ▸ cutTagContent_error hc
      | ok cut =>
        simp only [hc, bind, Except.bind] at h
        split at h <;> cases h
        decide
    · rw [cutPiece_comment, cutComment] at h
      split at h <;> cases h
      decide
  · rw [cutPiece_text trim ho] at h
    cases h

/-- Cutting into pieces fails at the opening delimiter of a piece. -/
theorem piecesFrom_error {trim : Bool} {offset : Nat} {cs : List Char} {e : Error}
    (h : piecesFrom trim offset cs = .error e) :
    (∃ before rest, cs = before ++ rest ∧ e.offset = offset + Text.utf8Length before ∧
      atOpener rest = true) ∧ e.fault ∈ cutFaults := by
  fun_induction piecesFrom trim offset cs with
  | case1 => cases h
  | case2 offset c cs fault hcut =>
    cases h
    obtain ⟨hopen, hfault⟩ := cutPiece_error hcut
    exact ⟨⟨[], c :: cs, rfl, rfl, hopen⟩, hfault⟩
  | case3 offset c cs kind source rest hcut ih =>
    cases hr : piecesFrom trim (offset + Text.utf8Length source) rest with
    | ok ps => simp [hr, Except.map] at h
    | error e' =>
      rw [hr] at h
      obtain rfl : e' = e := Except.error.inj h
      obtain ⟨⟨before, behind, rfl, hoffset, hopen⟩, hfault⟩ := ih hr
      refine ⟨⟨source ++ before, behind, ?_, ?_, hopen⟩, hfault⟩
      · rw [cutPiece_eq hcut, List.append_assoc]
      · rw [hoffset, utf8Length_append, Nat.add_assoc]

/-! ## Open tags -/

/-- The names of the tags that close blocks. -/
def closerNames : List String := ["endif", "endfor", "endfilter"]

/-- What a piece does to the opening tags of the blocks that are open, innermost first. -/
def Piece.nest (p : Piece) (tags : List Piece) : List Piece :=
  match p.kind with
  | .tag name _ =>
    if name ∈ openerNames then p :: tags else if name ∈ closerNames then tags.tail else tags
  | _ => tags

/-- The opening tags of the blocks that are open behind some pieces, innermost first. -/
def openTags (ps : List Piece) : List Piece := ps.foldl (fun tags p => p.nest tags) []

/-- Among some pieces one closes the block that another opens: behind the pieces before it, that
block is the innermost one. -/
def Closes (ps : List Piece) (opening closing : Piece) : Prop :=
  ∃ before after name, ps = before ++ closing :: after ∧ name ∈ closerNames ∧
    closing.Named name ∧ (openTags before).head? = some opening

section Nesting

variable {p : Piece} (tags : List Piece)

theorem nest_alone (h : p.Alone) : p.nest tags = tags := by
  have hcloser : ∀ name ∈ closerNames, name ∈ terminatorNames := by decide
  unfold Piece.Alone at h
  unfold Piece.nest
  split
  · rename_i name arguments hkind
    rw [hkind] at h
    rw [if_neg h.1, if_neg fun hname => h.2 (hcloser name hname)]
  · rfl

theorem nest_opener {name : String} (h : p.Named name) (hname : name ∈ openerNames) :
    p.nest tags = p :: tags := by
  obtain ⟨arguments, hkind⟩ := h
  simp only [Piece.nest, hkind, if_pos hname]

theorem nest_closer {name : String} (h : p.Named name) (hname : name ∈ closerNames) :
    p.nest tags = tags.tail := by
  have hopen : ∀ name ∈ closerNames, name ∉ openerNames := by decide
  obtain ⟨arguments, hkind⟩ := h
  simp only [Piece.nest, hkind, if_neg (hopen name hname), if_pos hname]

theorem nest_branch {name : String} (h : p.Named name) (hname : name = "elif" ∨ name = "else") :
    p.nest tags = tags := by
  obtain ⟨arguments, hkind⟩ := h
  rcases hname with rfl | rfl <;> simp [Piece.nest, hkind, openerNames, closerNames]

/-- A piece adds itself to the open tags or leaves out the innermost one. -/
theorem nest_sublist (p : Piece) : (p.nest tags).Sublist (p :: tags) := by
  unfold Piece.nest
  split
  · split
    · exact List.Sublist.refl _
    · split
      · exact (List.tail_sublist tags).trans (List.sublist_cons_self p tags)
      · exact List.sublist_cons_self p tags
  · exact List.sublist_cons_self p tags

end Nesting

/-- What is open behind some pieces was open before them or is among them. -/
theorem foldl_nest_sublist (ps tags : List Piece) :
    (ps.foldl (fun tags p => p.nest tags) tags).Sublist (ps.reverse ++ tags) := by
  induction ps generalizing tags with
  | nil => exact List.Sublist.refl _
  | cons p ps ih =>
    rw [List.reverse_cons, List.append_assoc, List.singleton_append]
    exact (ih (p.nest tags)).trans ((nest_sublist tags p).append_left ps.reverse)

theorem openTags_sublist (ps : List Piece) : (openTags ps).Sublist ps.reverse := by
  rw [openTags]
  simpa using foldl_nest_sublist ps []

theorem openTags_append (ps : List Piece) (q : Piece) (qs : List Piece) :
    openTags (ps ++ q :: qs) = qs.foldl (fun tags p => p.nest tags) (q.nest (openTags ps)) := by
  rw [openTags, List.foldl_append, List.foldl_cons]
  rfl

/-- A block that is open behind all pieces is closed by none of them. -/
theorem not_closes_of_mem_openTags {ps : List Piece} (hnodup : ps.Nodup) {opening : Piece}
    (h : opening ∈ openTags ps) (closing : Piece) : ¬Closes ps opening closing := by
  rintro ⟨before, after, name, rfl, hname, hclosing, hhead⟩
  obtain ⟨tags, htags⟩ := List.head?_eq_some_iff.1 hhead
  obtain ⟨hbefore, -, hdisjoint⟩ := List.nodup_append.1 hnodup
  have hsublist : (opening :: tags).Sublist before.reverse := htags ▸ openTags_sublist before
  have hreverse : before.reverse.Nodup := List.pairwise_reverse.2 (hbefore.imp Ne.symm)
  have hout : opening ∉ tags := (List.nodup_cons.1 (hsublist.nodup hreverse)).1
  have hmem : opening ∈ before := by simpa using hsublist.subset (List.mem_cons_self)
  -- Behind the closing tag the block is not open, and it cannot be opened once more.
  rw [openTags_append, htags, nest_closer _ hclosing hname, List.tail_cons] at h
  rcases List.mem_append.1 ((foldl_nest_sublist after tags).subset h) with h | h
  · exact hdisjoint opening hmem opening (List.mem_cons_of_mem _ (List.mem_reverse.1 h)) rfl
  · exact hout h

/-- The pieces of a template begin one behind the other, so no piece is there twice. -/
theorem Cuts.nodup {trim : Bool} {offset : Nat} {cs : List Char} {ps : List Piece}
    (h : Cuts trim offset cs ps) : ps.Nodup := by
  induction h with
  | nil => exact .nil
  | @cons offset cs source rest kind ps hne hcut hrest ih =>
    refine List.nodup_cons.2 ⟨fun hmem => ?_, ih⟩
    obtain ⟨before, after, -, hstart⟩ := hrest.exists_of_mem hmem
    have hsource : source ≠ [] := (Cuts.cons hne hcut hrest).source_ne_nil List.mem_cons_self
    have hpos := utf8Length_pos hsource
    have hsame : offset = offset + Text.utf8Length source + Text.utf8Length before := hstart
    omega

/-! ## Blocks that do not fit -/

/-- A frame is that of the block that a tag opens. -/
structure Frame.Of (frame : Frame) (p : Piece) : Prop where
  start : frame.start = p.start
  named : p.Named frame.name
  opener : frame.name ∈ openerNames

/-- A tag that ends a part of a block closes it or, in a conditional, begins another branch. -/
theorem Frame.checkTag_eq_ok {frame : Frame} {rest frames : List Frame} {start : Nat}
    {name : String} {arguments : List Char}
    (h : frame.checkTag rest start name arguments = .ok frames) :
    name = frame.closer ∧ frames = rest ∨
      (name = "elif" ∨ name = "else") ∧ ∃ ended, frames = { frame with ended } :: rest := by
  unfold checkTag at h
  split at h
  · rename_i hclose
    exact .inl ⟨hclose, (Except.ok.inj h).symm⟩
  · split at h
    · rename_i hbranch
      split at h
      · cases h
      · split at h
        · cases h
        · exact .inr ⟨hbranch.2, _, (Except.ok.inj h).symm⟩
    · cases h

/-- The frames remain those of the tags of the open blocks. -/
theorem forall₂_of_check {frames frames' : List Frame} {tags : List Piece} {p : Piece}
    (hframes : List.Forall₂ Frame.Of frames tags) (h : check frames p = .ok frames') :
    List.Forall₂ Frame.Of frames' (p.nest tags) := by
  rcases p.alone_or_opens_or_terminates with halone | ⟨kind, hopen⟩ | hif |
    ⟨name, hname, arguments, hkind⟩
  · rw [check_alone halone] at h
    cases h
    rwa [nest_alone tags halone]
  · rw [check_open hopen] at h
    cases h
    have hopener : kind.name ∈ openerNames := by cases kind <;> decide
    rw [nest_opener tags hopen hopener]
    exact .cons ⟨rfl, hopen, hopener⟩ hframes
  · rw [check_if hif] at h
    split at h <;> cases h
    have hopener : "if" ∈ openerNames := by decide
    rw [nest_opener tags hif hopener]
    exact .cons ⟨rfl, hif, hopener⟩ hframes
  · rw [check_terminator hkind hname] at h
    cases hframes with
    | nil => cases h
    | @cons frame opening rest tags hof hrest =>
      rcases Frame.checkTag_eq_ok h with ⟨rfl, rfl⟩ | ⟨hbranch, ended, rfl⟩
      · -- The frame names the closing tag, so the tag that goes is the one of the frame.
        have hcloser : ∀ name ∈ openerNames, "end" ++ name ∈ closerNames := by decide
        rw [nest_closer _ ⟨arguments, hkind⟩ (hcloser _ hof.opener)]
        exact hrest
      · rw [nest_branch _ ⟨arguments, hkind⟩ hbranch]
        exact .cons ⟨hof.start, hof.named, hof.opener⟩ hrest

/-- What is wrong with a tag where some tags are open. -/
def Piece.Blamed (p : Piece) (tags : List Piece) : Fault → Prop
  | .unexpectedClose name => p.Named name ∧ tags = []
  | .mismatched expected found => p.Named found ∧
    ∃ opening name, tags.head? = some opening ∧ opening.Named name ∧ expected = "end" ++ name
  | .elseNotLast => (p.Named "elif" ∨ p.Named "else") ∧
    ∃ opening, tags.head? = some opening ∧ opening.Named "if"
  | .missingArguments name => p.Named name ∧ ¬p.HasArguments
  | _ => False

/-- Blank arguments are none. -/
theorem not_hasArguments {p : Piece} (h : p.arguments.all Text.isBlank = true) :
    ¬p.HasArguments := by
  rintro ⟨c, hc, hblank⟩
  rw [List.all_eq_true.1 h c hc] at hblank
  cases hblank

/-- The check of a tag that ends a part of the innermost block fails through that tag. -/
theorem Frame.checkTag_eq_error {frame : Frame} {rest : List Frame} {opening p : Piece}
    {tags : List Piece} {name : String} {arguments : List Char} {e : Error}
    (hof : frame.Of opening) (hkind : p.kind = .tag name arguments)
    (h : frame.checkTag rest p.start name arguments = .error e) :
    e.offset = p.start ∧ p.Blamed (opening :: tags) e.fault := by
  have hnamed : p.Named name := ⟨arguments, hkind⟩
  have harguments : p.arguments = arguments := by simp only [Piece.arguments, hkind]
  unfold checkTag at h
  split at h
  · cases h
  · split at h
    · rename_i hbranch
      obtain ⟨hif, hbranch⟩ := hbranch
      split at h
      · cases h
        refine ⟨rfl, ?_, opening, rfl, hif ▸ hof.named⟩
        rcases hbranch with rfl | rfl
        · exact .inl hnamed
        · exact .inr hnamed
      · split at h <;> cases h
        rename_i hblank
        exact ⟨rfl, hnamed, not_hasArguments (harguments ▸ hblank.2)⟩
    · cases h
      exact ⟨rfl, hnamed, opening, frame.name, rfl, hof.named, rfl⟩

/-- The check of a piece fails through that piece. -/
theorem blamed_of_check {frames : List Frame} {tags : List Piece} {p : Piece} {e : Error}
    (hframes : List.Forall₂ Frame.Of frames tags) (h : check frames p = .error e) :
    e.offset = p.start ∧ p.Blamed tags e.fault := by
  rcases p.alone_or_opens_or_terminates with halone | ⟨kind, hopen⟩ | hif |
    ⟨name, hname, arguments, hkind⟩
  · rw [check_alone halone] at h
    cases h
  · rw [check_open hopen] at h
    cases h
  · rw [check_if hif] at h
    split at h <;> cases h
    rename_i hblank
    exact ⟨rfl, hif, not_hasArguments hblank⟩
  · rw [check_terminator hkind hname] at h
    cases hframes with
    | nil =>
      cases h
      exact ⟨rfl, ⟨arguments, hkind⟩, rfl⟩
    | cons hof hrest => exact Frame.checkTag_eq_error hof hkind h

/-- If all checks pass, the frames are those of the open tags behind. -/
theorem forall₂_of_checks {ps : List Piece} {frames frames' : List Frame} {tags : List Piece}
    (hframes : List.Forall₂ Frame.Of frames tags) (h : ps.foldlM check frames = .ok frames') :
    List.Forall₂ Frame.Of frames' (ps.foldl (fun tags p => p.nest tags) tags) := by
  induction ps generalizing frames tags with
  | nil =>
    obtain rfl : frames = frames' := Except.ok.inj h
    exact hframes
  | cons p ps ih =>
    rw [List.foldlM_cons] at h
    cases hp : check frames p with
    | error e => rw [hp] at h; cases h
    | ok inner =>
      rw [hp] at h
      exact ih (forall₂_of_check hframes hp) h

/-- If a check fails, then through a piece with the tags that are open there. -/
theorem exists_blamed_of_checks {ps : List Piece} {frames : List Frame} {tags : List Piece}
    {e : Error} (hframes : List.Forall₂ Frame.Of frames tags)
    (h : ps.foldlM check frames = .error e) :
    ∃ before p after, ps = before ++ p :: after ∧ e.offset = p.start ∧
      p.Blamed (before.foldl (fun tags p => p.nest tags) tags) e.fault := by
  -- As long as checks pass, the frames stay those of the open tags, so the first that fails tells.
  induction ps generalizing frames tags with
  | nil => cases h
  | cons p ps ih =>
    rw [List.foldlM_cons] at h
    cases hp : check frames p with
    | error e' =>
      rw [hp] at h
      obtain rfl : e' = e := Except.error.inj h
      exact ⟨[], p, ps, rfl, blamed_of_check hframes hp⟩
    | ok inner =>
      rw [hp] at h
      obtain ⟨before, q, after, rfl, hblamed⟩ := ih (forall₂_of_check hframes hp) h
      exact ⟨p :: before, q, after, rfl, hblamed⟩

/-- Blocks that do not fit have a piece at fault where other tags are open, or else a tag that is
open behind all pieces. -/
theorem blamed_of_checkAll {ps : List Piece} {e : Error} (h : checkAll ps = .error e) :
    (∃ before p after, ps = before ++ p :: after ∧ e.offset = p.start ∧
      p.Blamed (openTags before) e.fault) ∨
    ∃ p name, (openTags ps).head? = some p ∧ e.offset = p.start ∧ p.Named name ∧
      e.fault = .unclosedBlock name := by
  rw [checkAll] at h
  cases hps : ps.foldlM check [] with
  | error e' =>
    rw [hps] at h
    obtain rfl : e' = e := Except.error.inj h
    exact .inl (exists_blamed_of_checks .nil hps)
  | ok frames =>
    rw [hps] at h
    have hframes : List.Forall₂ Frame.Of frames (openTags ps) := forall₂_of_checks .nil hps
    generalize openTags ps = tags at hframes ⊢
    cases hframes with
    | nil => cases h
    | @cons frame p frames tags hof hrest =>
      obtain rfl : ⟨frame.start, .unclosedBlock frame.name⟩ = e := Except.error.inj h
      exact .inr ⟨p, frame.name, rfl, hof.start, hof.named, rfl⟩

/-! ## Errors of templates -/

/-- What begins at the byte of an error: the piece that cannot be cut off, or the tag that the fault
names. -/
def Error.Located (template : String) (e : Error) : Prop :=
  match e.fault with
  | .unclosedTag | .unclosedString | .emptyTag => OpenerAt template e.offset
  | .unclosedBlock name | .unexpectedClose name | .mismatched _ name | .missingArguments name =>
    TagAt template e.offset name
  | .elseNotLast => TagAt template e.offset "elif" ∨ TagAt template e.offset "else"

theorem Error.Located.openerAt {template : String} {e : Error} (h : e.Located template) :
    OpenerAt template e.offset := by
  unfold Located at h
  cases hfault : e.fault with
  | unclosedTag | unclosedString | emptyTag =>
    rw [hfault] at h
    exact h
  | unclosedBlock name | unexpectedClose name | mismatched expected name | missingArguments name =>
    rw [hfault] at h
    exact h.openerAt
  | elseNotLast =>
    rw [hfault] at h
    exact h.elim TagAt.openerAt TagAt.openerAt

/-- An error says truly where it lies and what is wrong there. -/
structure Error.Truthful (trim : Bool) (template : String) (e : Error) : Prop where
  opener : OpenerAt template e.offset
  located : e.Located template
  /-- The closing tag expected is that of the innermost block that is open where the error lies. -/
  mismatched : ∀ expected found, e.fault = .mismatched expected found →
    ∃ before p after opening name, pieces trim template = .ok (before ++ p :: after) ∧
      e.offset = p.start ∧ (openTags before).head? = some opening ∧ opening.Named name ∧
      expected = "end" ++ name
  /-- No tag closes the block that is opened where the error lies. -/
  unclosed : ∀ name, e.fault = .unclosedBlock name →
    ∃ ps opening, pieces trim template = .ok ps ∧ opening ∈ ps ∧ e.offset = opening.start ∧
      opening.Named name ∧ ∀ closing, ¬Closes ps opening closing
  /-- Trimming makes no difference. -/
  trimming : ∀ trim', compile trim' template = .error e

namespace Error.Truthful

variable {trim : Bool} {template : String} {e : Error} (h : compile trim template = .error e)
include h

/-- A piece that cannot be cut off has no part in blocks. -/
theorem of_pieces (hps : pieces trim template = .error e) : e.Truthful trim template := by
  obtain ⟨⟨before, rest, htext, hoffset, hopen⟩, hfault⟩ := piecesFrom_error hps
  have hopener : OpenerAt template e.offset :=
    ⟨before, rest, htext, by rw [hoffset, Nat.zero_add], hopen⟩
  simp only [cutFaults, List.mem_cons, List.not_mem_nil, or_false] at hfault
  have hlocated : e.Located template := by
    unfold Error.Located
    rcases hfault with hfault | hfault | hfault <;> rw [hfault] <;> exact hopener
  refine ⟨hopener, hlocated, ?_, ?_, compile_error_trim h⟩
  · intro expected found hmismatched
    simp [hmismatched] at hfault
  · intro name hunclosed
    simp [hunclosed] at hfault

/-- A tag that cannot be read where it stands is the one that the fault names. -/
theorem of_blamed {before after : List Piece} {p : Piece}
    (hps : pieces trim template = .ok (before ++ p :: after)) (hoffset : e.offset = p.start)
    (hblamed : p.Blamed (openTags before) e.fault) : e.Truthful trim template := by
  have htag (name : String) (hname : p.Named name) : TagAt template e.offset name :=
    hoffset ▸ tagAt_of_named hps (by simp) hname
  have hlocated : e.Located template := by
    unfold Error.Located
    cases hfault : e.fault with
    | unclosedTag | unclosedString | emptyTag | unclosedBlock name =>
      rw [hfault] at hblamed
      exact hblamed.elim
    | unexpectedClose name | mismatched expected name | missingArguments name =>
      rw [hfault] at hblamed
      exact htag name hblamed.1
    | elseNotLast =>
      rw [hfault] at hblamed
      exact hblamed.1.imp (htag "elif") (htag "else")
  refine ⟨hlocated.openerAt, hlocated, ?_, ?_, compile_error_trim h⟩
  · intro expected found hmismatched
    rw [hmismatched] at hblamed
    obtain ⟨-, opening, name, hhead, hnamed, rfl⟩ := hblamed
    exact ⟨before, p, after, opening, name, hps, hoffset, hhead, hnamed, rfl⟩
  · intro name hunclosed
    rw [hunclosed] at hblamed
    exact hblamed.elim

/-- A tag that is open behind all pieces is not closed by any of them. -/
theorem of_open {ps : List Piece} {opening : Piece} {name : String}
    (hps : pieces trim template = .ok ps) (hopen : opening ∈ openTags ps)
    (hoffset : e.offset = opening.start) (hnamed : opening.Named name)
    (hfault : e.fault = .unclosedBlock name) : e.Truthful trim template := by
  have hmem : opening ∈ ps := List.mem_reverse.1 ((openTags_sublist ps).subset hopen)
  have hlocated : e.Located template := by
    unfold Error.Located
    rw [hfault]
    exact hoffset ▸ tagAt_of_named hps hmem hnamed
  refine ⟨hlocated.openerAt, hlocated, ?_, ?_, compile_error_trim h⟩
  · intro expected found hmismatched
    rw [hfault] at hmismatched
    cases hmismatched
  · intro name' hunclosed
    rw [hfault] at hunclosed
    cases hunclosed
    have hnodup : ps.Nodup := (cuts_of_piecesFrom hps).nodup
    exact ⟨ps, opening, hps, hmem, hoffset, hnamed, not_closes_of_mem_openTags hnodup hopen⟩

end Error.Truthful

/-- The error of a template that does not compile is truthful (`Error.Truthful`): it lies where a
tag, an emit or a comment begins; the tag there has the name that the fault gives; a closing tag
that is expected is that of the innermost open block; a block that is said not to be closed has no
closing tag; and the error is the same with and without trimming. -/
theorem truthful_of_compile_error {trim : Bool} {template : String} {e : Error}
    (h : compile trim template = .error e) : e.Truthful trim template := by
  have hcheck : pieces trim template >>= checkAll = .error e := by
    rw [← compile_check, h]
    rfl
  cases hps : pieces trim template with
  | error e' =>
    rw [hps] at hcheck
    obtain rfl : e' = e := Except.error.inj hcheck
    exact .of_pieces h hps
  | ok ps =>
    rw [hps] at hcheck
    rcases blamed_of_checkAll hcheck with ⟨before, p, after, rfl, hoffset, hblamed⟩ |
      ⟨opening, name, hhead, hoffset, hnamed, hfault⟩
    · exact .of_blamed h hps hoffset hblamed
    · exact .of_open h hps (List.mem_of_mem_head? hhead) hoffset hnamed hfault

/-- A loop is closed where a conditional in it is open, behind a character of two bytes. -/
theorem truthful_of_endfor_in_if :
    let template := "é\x7b% for a in b %\x7d\x7b% if c %\x7dx\x7b% endfor %\x7d"
    let e : Error := ⟨29, .mismatched "endif" "endfor"⟩
    compile true template = .error e ∧ e.Truthful true template := by
  intro template e
  have h : compile true template = .error e := by
    simp only [template, e]
    cbv
  exact ⟨h, truthful_of_compile_error h⟩

end Stencil.Template
