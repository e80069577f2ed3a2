import Stencil.Proofs.Grammar

/-!
# The block reader accepts the grammar of blocks

Reading the pieces of a derivation adds its actions to the innermost body, whatever blocks are open
around it. Conversely, pieces that can be read up to the end of all open blocks begin with the
pieces of a derivation. So a list of pieces compiles (`Reading.ofPieces`) if and only if the grammar
derives it (`Sequence`), and then the actions are those of its only derivation.
-/

namespace Stencil.Template

/-! ## Blank arguments -/

/-- The word being read ends up among the words. -/
theorem splitFrom_ne_nil (parens : Bool) (q : Quote) {word : List Char} (hw : word ≠ [])
    (cs : List Char) : splitFrom parens q word cs ≠ [] := by
  induction cs generalizing q word with
  | nil => simp [splitFrom, hw]
  | cons c cs ih =>
    rw [splitFrom]
    have hword : word.isEmpty = false := by simpa using hw
    split
    · simp [hword]
    · split
      · simp [hword]
      · exact ih _ (by simp)

/-- A text has no words only if it is blank. -/
theorem splitFrom_eq_nil_iff (parens : Bool) (cs : List Char) :
    splitFrom parens .outside [] cs = [] ↔ ∀ c ∈ cs, Text.isBlank c = true := by
  induction cs with
  | nil => simp [splitFrom]
  | cons c cs ih =>
    rw [splitFrom]
    by_cases hc : Text.isBlank c = true
    · simpa [hc] using ih
    · rw [if_neg (by simp [hc])]
      have hne : ¬∀ d ∈ c :: cs, Text.isBlank d = true := fun h => hc (h c (by simp))
      split
      · simp [hc]
      · exact iff_of_false (splitFrom_ne_nil _ _ (by simp) _) hne

/-- A condition has tokens exactly if it is not blank. -/
theorem conditionTokens_ne_nil_iff (p : Piece) :
    conditionTokens p.arguments ≠ [] ↔ p.HasArguments := by
  rw [conditionTokens, Ne, List.map_eq_nil_iff, splitCondition, splitFrom_eq_nil_iff]
  simp [Piece.HasArguments]

/-- A condition that is not blank is read as its tokens. -/
theorem condition_eq_ok {p : Piece} (h : p.HasArguments) (name : String) (offset : Nat) :
    condition name offset p.arguments = .ok (conditionTokens p.arguments) := by
  have hne := (conditionTokens_ne_nil_iff p).2 h
  rw [conditionTokens] at hne ⊢
  rw [condition]
  split
  · contradiction
  · simp_all

/-- A condition that can be read is not blank. -/
theorem hasArguments_of_condition {p : Piece} {name : String} {offset : Nat} {ts : List Token}
    (h : condition name offset p.arguments = .ok ts) :
    p.HasArguments ∧ ts = conditionTokens p.arguments := by
  rw [condition] at h
  split at h
  · simp at h
  · rename_i heq
    simp only [Except.ok.injEq] at h
    have hts : conditionTokens p.arguments = ts := heq.trans h
    exact ⟨(conditionTokens_ne_nil_iff p).1 (by simp [hts, ← h]), hts.symm⟩

/-! ## One step -/

/-- The names of tags by their roles. -/
theorem TagRole.ofName_cases (name : String) :
    (name ∉ openerNames ∧ name ∉ terminatorNames ∧
        ((∃ kind, TagRole.ofName name = .raw kind) ∨
          ∃ kind, TagRole.ofName name = .instruction kind)) ∨
      (name = "for" ∧ TagRole.ofName name = .openFor) ∨
      (name = "filter" ∧ TagRole.ofName name = .openFilter) ∨
      (name = "if" ∧ TagRole.ofName name = .openIf) ∨
      (name = "elif" ∧ TagRole.ofName name = .elif) ∨
      (name = "else" ∧ TagRole.ofName name = .otherwise) ∨
      (name ∈ ["endif", "endfor", "endfilter"] ∧ TagRole.ofName name = .close) := by
  unfold TagRole.ofName
  split <;> simp_all [openerNames, terminatorNames]

/-- Only one name goes on to a branch with a condition. -/
theorem TagRole.name_of_ofName_elif {name : String} (h : TagRole.ofName name = .elif) :
    name = "elif" := by
  unfold TagRole.ofName at h
  split at h <;> simp_all

/-- Only one name goes on to the branch without a condition. -/
theorem TagRole.name_of_ofName_otherwise {name : String} (h : TagRole.ofName name = .otherwise) :
    name = "else" := by
  unfold TagRole.ofName at h
  split at h <;> simp_all

namespace Reading

/-- A piece that stands alone adds its action. -/
theorem step_alone {p : Piece} (h : p.Alone) (r : Reading) :
    r.step p = .ok (r.add p.source p.action) := by
  unfold step Piece.action
  unfold Piece.Alone at h
  cases hk : p.kind with
  | text => rfl
  | emit content => rfl
  | comment content => rfl
  | tag name arguments =>
    rw [hk] at h
    have hnames := h
    simp only [openerNames, terminatorNames, List.mem_cons, not_or] at hnames
    rcases TagRole.ofName_cases name with ⟨_, _, ⟨kind, hr⟩ | ⟨kind, hr⟩⟩ | hr
    · simp [readTag, hr]
    · simp [readTag, hr]
    · simp_all

/-- The tag that opens a block with a single body. -/
theorem step_open {p : Piece} {kind : PlainBlock} (h : p.Named kind.name) (r : Reading) :
    r.step p = .ok (r.openBlock p (kind.part (tokens p.arguments))) := by
  obtain ⟨arguments, hp⟩ := h
  cases kind <;> simp [step, Piece.arguments, hp, readTag, PlainBlock.name, PlainBlock.part,
    TagRole.ofName]

/-- The tag that opens a conditional. -/
theorem step_if {p : Piece} (h : p.Named "if") (ha : p.HasArguments) (r : Reading) :
    r.step p = .ok (r.openBlock p (.branch [] (conditionTokens p.arguments))) := by
  obtain ⟨arguments, hp⟩ := h
  have harg : p.arguments = arguments := by simp [Piece.arguments, hp]
  have hc := condition_eq_ok ha "if" p.start
  rw [harg] at hc ⊢
  simp [step, hp, readTag, TagRole.ofName, hc, bind, Except.bind]

/-- A tag that ends a part of a block is read as one of the innermost block. -/
theorem step_terminator {p : Piece} {name : String} {arguments : List Char}
    (hp : p.kind = .tag name arguments) (hn : name ∈ terminatorNames) (draft : Draft)
    (block : OpenBlock) (rest : List OpenBlock) :
    step ⟨draft, block :: rest⟩ p =
      continueBlock ⟨draft, block :: rest⟩ p name arguments block rest := by
  simp only [step, hp, readTag]
  simp only [terminatorNames, List.mem_cons, List.not_mem_nil, or_false] at hn
  rcases hn with rfl | rfl | rfl | rfl | rfl <;> rfl

/-- The tag that closes the innermost block. -/
theorem step_close {p : Piece} {block : OpenBlock} (h : p.Named block.part.closer)
    (draft : Draft) (rest : List OpenBlock) :
    step ⟨draft, block :: rest⟩ p = .ok (closeBlock ⟨draft, block :: rest⟩ p block rest) := by
  obtain ⟨arguments, hp⟩ := h
  have hn : block.part.closer ∈ terminatorNames := by
    cases block.part <;> simp [BlockPart.closer, BlockPart.opener, terminatorNames]
  rw [step_terminator hp hn, continueBlock, if_pos rfl]

/-- A further branch with a condition. -/
theorem step_elif {p : Piece} (h : p.Named "elif") (ha : p.HasArguments) (draft around : Draft)
    (start : Nat) (earlier : List Branch) (cond : List Token) (rest : List OpenBlock) :
    step ⟨draft, ⟨start, .branch earlier cond, around⟩ :: rest⟩ p =
      .ok (nextPart ⟨draft, ⟨start, .branch earlier cond, around⟩ :: rest⟩ p
        ⟨start, .branch earlier cond, around⟩ rest
        (.branch (earlier ++ [.mk cond draft.body]) (conditionTokens p.arguments))) := by
  obtain ⟨arguments, hp⟩ := h
  have harg : p.arguments = arguments := by simp [Piece.arguments, hp]
  have hc := condition_eq_ok ha "elif" p.start
  rw [harg] at hc ⊢
  rw [step_terminator hp (by simp [terminatorNames]), continueBlock]
  simp [BlockPart.closer, BlockPart.opener, TagRole.ofName, hc, bind, Except.bind]

/-- The branch without a condition. -/
theorem step_otherwise {p : Piece} (h : p.Named "else") (draft around : Draft) (start : Nat)
    (earlier : List Branch) (cond : List Token) (rest : List OpenBlock) :
    step ⟨draft, ⟨start, .branch earlier cond, around⟩ :: rest⟩ p =
      .ok (nextPart ⟨draft, ⟨start, .branch earlier cond, around⟩ :: rest⟩ p
        ⟨start, .branch earlier cond, around⟩ rest
        (.otherwise (earlier ++ [.mk cond draft.body]))) := by
  obtain ⟨arguments, hp⟩ := h
  rw [step_terminator hp (by simp [terminatorNames]), continueBlock]
  simp [BlockPart.closer, BlockPart.opener, TagRole.ofName]

end Reading

/-! ## Reading a derivation -/

/-- Reads pieces in order. -/
def Reading.run (r : Reading) (ps : List Piece) : Except Error Reading := ps.foldlM Reading.step r

theorem Reading.run_nil (r : Reading) : r.run [] = .ok r := rfl

theorem Reading.run_cons {r r' : Reading} {p : Piece} (h : r.step p = .ok r') (ps : List Piece) :
    r.run (p :: ps) = r'.run ps := by
  simp [Reading.run, List.foldlM_cons, h, bind, Except.bind]

theorem Reading.run_append {r r' : Reading} {ps : List Piece} (h : r.run ps = .ok r')
    (qs : List Piece) : r.run (ps ++ qs) = r'.run qs := by
  unfold Reading.run at h ⊢
  rw [List.foldlM_append, h]
  rfl

/-- A reading whose innermost body has got the pieces of a derivation. -/
def Reading.advance (r : Reading) (d : Sequence) : Reading :=
  ⟨⟨r.draft.source ++ sourceOf d.pieces, r.draft.actions ++ d.actions⟩, r.blocks⟩

mutual

/-- Reading a sequence adds its actions to the innermost body. -/
theorem Sequence.run_pieces (d : Sequence) (r : Reading) : r.run d.pieces = .ok (r.advance d) := by
  match d with
  | .nil => simp [Sequence.pieces, Sequence.actions, Reading.run_nil, Reading.advance]
  | .single p alone rest =>
    rw [Sequence.pieces, Reading.run_cons (Reading.step_alone alone r), rest.run_pieces]
    simp [Reading.advance, Reading.add, Sequence.pieces, Sequence.actions]
  | .block kind opening opens body closing closes rest =>
    rw [Sequence.pieces, Reading.run_cons (Reading.step_open opens r),
      Reading.run_append (body.run_pieces _)]
    have hclose : closing.Named (kind.part (tokens opening.arguments)).closer := by
      cases kind <;> exact closes
    rw [Reading.advance, Reading.openBlock,
      Reading.run_cons (Reading.step_close (by exact hclose) _ _), rest.run_pieces]
    simp [Reading.advance, Reading.closeBlock, Draft.empty, Draft.body, bodyOf, Sequence.pieces,
      Sequence.actions]
  | .conditional opening opens given body more rest =>
    rw [Sequence.pieces, Reading.run_cons (Reading.step_if opens given r),
      Reading.run_append (body.run_pieces _)]
    rw [Reading.advance, Reading.openBlock, Reading.run_append (more.run_pieces _ _ _ _ _ _),
      rest.run_pieces]
    simp [Reading.advance, Draft.empty, Draft.body, bodyOf, Sequence.pieces, Sequence.actions]

/-- Reading the alternatives of a conditional closes it. -/
theorem Alternatives.run_pieces (t : Alternatives) (draft around : Draft) (start : Nat)
    (earlier : List Branch) (cond : List Token) (rest : List OpenBlock) :
    Reading.run ⟨draft, ⟨start, .branch earlier cond, around⟩ :: rest⟩ t.pieces =
      .ok ⟨⟨around.source ++ draft.source ++ sourceOf t.pieces,
        around.actions ++
          [.conditional (earlier ++ .mk cond draft.body :: t.branches) t.last]⟩, rest⟩ := by
  match t with
  | .endif closing closes =>
    rw [Alternatives.pieces, Reading.run_cons (Reading.step_close (by exact closes) _ _),
      Reading.run_nil]
    simp [Reading.closeBlock, BlockPart.action, Alternatives.branches, Alternatives.last]
  | .elif tag named given body more =>
    rw [Alternatives.pieces,
      Reading.run_cons (Reading.step_elif named given _ _ _ _ _ _),
      Reading.run_append (body.run_pieces _), Reading.advance, Reading.nextPart,
      more.run_pieces]
    simp [Draft.empty, Draft.body, bodyOf, Alternatives.branches, Alternatives.last]
  | .otherwise tag named body closing closes =>
    rw [Alternatives.pieces, Reading.run_cons (Reading.step_otherwise named _ _ _ _ _ _),
      Reading.run_append (body.run_pieces _), Reading.advance, Reading.nextPart,
      Reading.run_cons (Reading.step_close (by exact closes) _ _), Reading.run_nil]
    simp [Reading.closeBlock, BlockPart.action, Draft.empty, Draft.body, bodyOf,
      Alternatives.branches, Alternatives.last]

end

/-! ## A derivation of what has been read -/

/-- Every piece stands alone, opens a block or ends a part of one. -/
theorem Piece.alone_or_opens_or_terminates (p : Piece) :
    p.Alone ∨ (∃ kind : PlainBlock, p.Named kind.name) ∨ p.Named "if" ∨ p.Terminates := by
  cases hk : p.kind with
  | tag name arguments =>
    have hnamed : p.Named name := ⟨arguments, hk⟩
    by_cases ht : name ∈ terminatorNames
    · exact .inr (.inr (.inr ⟨name, ht, hnamed⟩))
    · by_cases ho : name ∈ openerNames
      · simp only [openerNames, List.mem_cons, List.not_mem_nil, or_false] at ho
        rcases ho with rfl | rfl | rfl
        · exact .inr (.inl ⟨.forLoop, hnamed⟩)
        · exact .inr (.inl ⟨.filterBlock, hnamed⟩)
        · exact .inr (.inr (.inl hnamed))
      · left
        unfold Piece.Alone
        rw [hk]
        exact ⟨ho, ht⟩
  | _ =>
    left
    unfold Piece.Alone
    rw [hk]
    trivial

namespace Reading

/-- If pieces can be read, so can the first of them, and the others after it. -/
theorem run_cons_eq_ok {r r' : Reading} {p : Piece} {ps : List Piece}
    (h : r.run (p :: ps) = .ok r') : ∃ r₁, r.step p = .ok r₁ ∧ r₁.run ps = .ok r' := by
  cases hs : r.step p with
  | error e => simp [run, List.foldlM_cons, hs, bind, Except.bind] at h
  | ok r₁ => exact ⟨r₁, rfl, (run_cons hs ps).symm.trans h⟩

/-- What can be read after the pieces of a sequence. -/
theorem run_of_run_append {r r' : Reading} {d : Sequence} {ps : List Piece}
    (h : r.run (d.pieces ++ ps) = .ok r') : (r.advance d).run ps = .ok r' :=
  (run_append (d.run_pieces r) ps).symm.trans h

/-- The tag of a condition that can be read has arguments. -/
theorem hasArguments_of_step_if {r r' : Reading} {p : Piece} (h : p.Named "if")
    (hs : r.step p = .ok r') : p.HasArguments := by
  obtain ⟨arguments, hp⟩ := h
  have harg : p.arguments = arguments := by simp [Piece.arguments, hp]
  simp only [step, hp, readTag, TagRole.ofName] at hs
  cases hc : condition "if" p.start arguments with
  | error e => simp [hc, bind, Except.bind] at hs
  | ok ts => exact (hasArguments_of_condition (harg ▸ hc)).1

/-- A tag that ends a part of a block cannot be read outside of blocks. -/
theorem blocks_ne_nil_of_step {r r' : Reading} {p : Piece} (h : p.Terminates)
    (hs : r.step p = .ok r') : r.blocks ≠ [] := by
  obtain ⟨name, hn, arguments, hp⟩ := h
  intro hb
  simp only [step, hp, readTag, hb] at hs
  simp only [terminatorNames, List.mem_cons, List.not_mem_nil, or_false] at hn
  rcases hn with rfl | rfl | rfl | rfl | rfl <;> simp [TagRole.ofName] at hs

/-- A tag that ends a part of the innermost block closes it or, in a conditional, begins another
branch. -/
theorem terminator_cases {draft : Draft} {block : OpenBlock} {rest : List OpenBlock}
    {p : Piece} {r' : Reading} (h : p.Terminates) (hs : step ⟨draft, block :: rest⟩ p = .ok r') :
    p.Named block.part.closer ∨
      ∃ earlier cond, block.part = .branch earlier cond ∧
        (p.Named "elif" ∧ p.HasArguments ∨ p.Named "else") := by
  obtain ⟨name, hn, arguments, hp⟩ := h
  have harg : p.arguments = arguments := by simp [Piece.arguments, hp]
  rw [step_terminator hp hn, continueBlock] at hs
  by_cases hclose : name = block.part.closer
  · exact .inl ⟨arguments, hclose ▸ hp⟩
  · rw [if_neg hclose] at hs
    split at hs
    · rename_i earlier cond hpart hrole
      have hname := TagRole.name_of_ofName_elif hrole
      cases hc : condition "elif" p.start arguments with
      | error e => simp [hc, bind, Except.bind] at hs
      | ok ts =>
        have hgiven := (hasArguments_of_condition (harg ▸ hc)).1
        exact .inr ⟨earlier, cond, hpart, .inl ⟨⟨arguments, hname ▸ hp⟩, hgiven⟩⟩
    · rename_i earlier cond hpart hrole
      have hname := TagRole.name_of_ofName_otherwise hrole
      exact .inr ⟨earlier, cond, hpart, .inr ⟨arguments, hname ▸ hp⟩⟩
    · simp at hs
    · simp at hs
    · simp at hs

end Reading

mutual

/-- Pieces that are read up to the end of all blocks begin with a sequence, and go on, if at all,
with a tag that ends a part of a block. The induction is on a bound for their number. -/
theorem Sequence.exists_of_run {n : Nat} {r r' : Reading} {ps : List Piece} (hn : ps.length ≤ n)
    (h : r.run ps = .ok r') (hb : r'.blocks = []) :
    ∃ (d : Sequence) (rest : List Piece), ps = d.pieces ++ rest ∧ Follows rest := by
  match n, ps with
  | _, [] => exact ⟨.nil, [], rfl, Follows.nil⟩
  | n + 1, p :: ps =>
    obtain ⟨r₁, hs, hr⟩ := Reading.run_cons_eq_ok h
    have hn' : ps.length ≤ n := by simpa using hn
    rcases p.alone_or_opens_or_terminates with ha | ⟨kind, ho⟩ | hi | ht
    · obtain ⟨d, rest, rfl, hrest⟩ := Sequence.exists_of_run hn' hr hb
      exact ⟨.single p ha d, rest, rfl, hrest⟩
    · -- What stops the body has to close the block, as a block with a single body has no branches.
      obtain ⟨body, more, rfl, hmore⟩ := Sequence.exists_of_run hn' hr hb
      rw [List.length_append] at hn'
      have hafter := Reading.run_of_run_append hr
      rw [Reading.step_open ho, Except.ok.injEq] at hs
      subst hs
      match more with
      | [] =>
        simp only [Reading.run_nil, Except.ok.injEq] at hafter
        simp [← hafter, Reading.advance, Reading.openBlock] at hb
      | q :: qs =>
        obtain ⟨r₂, hq, hr₂⟩ := Reading.run_cons_eq_ok hafter
        have hclose : q.Named ("end" ++ kind.name) := by
          rcases Reading.terminator_cases (hmore q rfl) hq with h | ⟨_, _, hpart, _⟩
          · cases kind <;> exact h
          · cases kind <;> simp [PlainBlock.part] at hpart
        rw [List.length_cons] at hn'
        have hlength : qs.length ≤ n := by omega
        obtain ⟨d, rest, rfl, hrest⟩ := Sequence.exists_of_run hlength hr₂ hb
        exact ⟨.block kind p ho body q hclose d, rest, by simp [Sequence.pieces], hrest⟩
    · -- What stops the body begins the alternatives, behind which the sequence goes on.
      obtain ⟨body, more, rfl, hmore⟩ := Sequence.exists_of_run hn' hr hb
      rw [List.length_append] at hn'
      have hafter := Reading.run_of_run_append hr
      have hgiven := Reading.hasArguments_of_step_if hi hs
      rw [Reading.step_if hi hgiven, Except.ok.injEq] at hs
      subst hs
      have hlength : more.length ≤ n := by omega
      obtain ⟨t, qs, rfl⟩ := Alternatives.exists_of_run hlength hmore hafter hb
      rw [List.length_append] at hlength
      rw [Reading.advance, Reading.openBlock,
        Reading.run_append (t.run_pieces _ _ _ _ _ _)] at hafter
      have hlength' : qs.length ≤ n := by omega
      obtain ⟨d, rest, rfl, hrest⟩ := Sequence.exists_of_run hlength' hafter hb
      exact ⟨.conditional p hi hgiven body t d, rest, by simp [Sequence.pieces], hrest⟩
    · exact ⟨.nil, p :: ps, rfl, ht.follows ps⟩

/-- What is read inside a conditional begins with the alternatives that close it. -/
theorem Alternatives.exists_of_run {n : Nat} {draft around : Draft} {start : Nat}
    {earlier : List Branch} {cond : List Token} {blocks : List OpenBlock} {r' : Reading}
    {ps : List Piece} (hn : ps.length ≤ n) (hps : Follows ps)
    (h : Reading.run ⟨draft, ⟨start, .branch earlier cond, around⟩ :: blocks⟩ ps = .ok r')
    (hb : r'.blocks = []) :
    ∃ (t : Alternatives) (qs : List Piece), ps = t.pieces ++ qs := by
  match n, ps with
  | _, [] =>
    simp only [Reading.run_nil, Except.ok.injEq] at h
    simp [← h] at hb
  | n + 1, p :: ps =>
    obtain ⟨r₁, hs, hr⟩ := Reading.run_cons_eq_ok h
    have hn' : ps.length ≤ n := by simpa using hn
    rcases Reading.terminator_cases (hps p rfl) hs with hc | ⟨_, _, _, ⟨he, hgiven⟩ | ho⟩
    · exact ⟨.endif p hc, ps, rfl⟩
    · obtain ⟨body, more, rfl, hmore⟩ := Sequence.exists_of_run hn' hr hb
      rw [List.length_append] at hn'
      have hafter := Reading.run_of_run_append hr
      rw [Reading.step_elif he hgiven, Except.ok.injEq] at hs
      subst hs
      have hlength : more.length ≤ n := by omega
      obtain ⟨t, qs, rfl⟩ := Alternatives.exists_of_run hlength hmore hafter hb
      exact ⟨.elif p he hgiven body t, qs, by simp [Alternatives.pieces]⟩
    · obtain ⟨body, more, rfl, hmore⟩ := Sequence.exists_of_run hn' hr hb
      have hafter := Reading.run_of_run_append hr
      rw [Reading.step_otherwise ho, Except.ok.injEq] at hs
      subst hs
      match more with
      | [] =>
        simp only [Reading.run_nil, Except.ok.injEq] at hafter
        simp [← hafter, Reading.advance, Reading.nextPart] at hb
      | q :: qs =>
        obtain ⟨r₂, hq, _⟩ := Reading.run_cons_eq_ok hafter
        have hclose : q.Named "endif" := by
          rcases Reading.terminator_cases (hmore q rfl) hq with h | ⟨_, _, hpart, _⟩
          · exact h
          · simp at hpart
        exact ⟨.otherwise p ho body q hclose, qs, by simp [Alternatives.pieces]⟩

end

/-! ## Compiling and deriving -/

/-- Compiling the pieces of a derivation gives its actions. -/
theorem Sequence.ofPieces_eq (d : Sequence) : ofPieces d.pieces = .ok d.actions := by
  have hrun : d.pieces.foldlM Reading.step .empty = .ok (Reading.empty.advance d) :=
    d.run_pieces .empty
  rw [ofPieces, hrun]
  rfl

/-- Pieces that compile have a derivation. -/
theorem exists_sequence_of_ofPieces {ps : List Piece} {actions : List Action}
    (h : ofPieces ps = .ok actions) : ∃ d : Sequence, d.pieces = ps ∧ d.actions = actions := by
  cases hr : Reading.run .empty ps with
  | error e =>
    have hr' : ps.foldlM Reading.step .empty = .error e := hr
    simp [ofPieces, hr', bind, Except.bind] at h
  | ok r =>
    have hr' : ps.foldlM Reading.step .empty = .ok r := hr
    have hfinish : r.finish = .ok actions := by
      simpa [ofPieces, hr', bind, Except.bind] using h
    have hb : r.blocks = [] := by
      unfold Reading.finish at hfinish
      split at hfinish
      · assumption
      · simp at hfinish
    obtain ⟨d, rest, rfl, hrest⟩ := Sequence.exists_of_run (Nat.le_refl _) hr hb
    have hafter := Reading.run_of_run_append hr
    -- A tag left over would be read outside of blocks, where it has no place.
    match rest with
    | [] =>
      rw [List.append_nil] at h ⊢
      exact ⟨d, rfl, by simpa [d.ofPieces_eq] using h⟩
    | p :: ps =>
      obtain ⟨r₁, hs, _⟩ := Reading.run_cons_eq_ok hafter
      exact absurd rfl (Reading.blocks_ne_nil_of_step (hrest p rfl) hs)

/-- A template compiles exactly if its pieces have a derivation. -/
theorem compile_eq_ok_iff {trim : Bool} {template : String} {actions : List Action} :
    compile trim template = .ok actions ↔
      ∃ d : Sequence, pieces trim template = .ok d.pieces ∧ d.actions = actions := by
  unfold compile
  cases hps : pieces trim template with
  | error e => simp [bind, Except.bind]
  | ok ps =>
    simp only [bind, Except.bind, Except.ok.injEq]
    constructor
    · intro h
      obtain ⟨d, rfl, hd⟩ := exists_sequence_of_ofPieces h
      exact ⟨d, rfl, hd⟩
    · rintro ⟨d, rfl, rfl⟩
      exact d.ofPieces_eq

/-- A list of pieces compiles exactly if the grammar derives it (`Sequence`). Its actions are then
those of the only derivation, and a traversal of them meets each piece but the closing tags once, in
order of the source. -/
theorem compiles_iff_derived (ps : List Piece) :
    ((∃ actions, ofPieces ps = .ok actions) ↔ ∃ d : Sequence, d.pieces = ps) ∧
      ∀ actions, ofPieces ps = .ok actions →
        (∃ d : Sequence, d.pieces = ps ∧ d.actions = actions ∧
            ∀ e : Sequence, e.pieces = ps → e = d) ∧
          actionVisits actions = ps.filterMap Piece.visit? := by
  refine ⟨⟨?_, ?_⟩, ?_⟩
  · rintro ⟨actions, h⟩
    obtain ⟨d, hd, _⟩ := exists_sequence_of_ofPieces h
    exact ⟨d, hd⟩
  · rintro ⟨d, rfl⟩
    exact ⟨d.actions, d.ofPieces_eq⟩
  · intro actions h
    obtain ⟨d, rfl, rfl⟩ := exists_sequence_of_ofPieces h
    exact ⟨⟨d, rfl, rfl, fun e he => Sequence.eq_of_pieces_eq he⟩, d.visits_actions⟩

end Stencil.Template
