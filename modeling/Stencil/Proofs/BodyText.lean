import Mathlib
import Stencil.Proofs.BlockParser
import Stencil.Proofs.Pieces

/-!
# Bodies compile to their actions

A `Body` keeps the template text between its tags beside the actions read from it. Its pieces are
derived from a sequence of their own, and they are the pieces of its text; so the text, compiled as
a template, gives these actions again.
-/

namespace Stencil.Template

mutual

/-- The bodies in an action, those inside other bodies included. -/
def Action.bodies : Action → List Body
  | .forLoop _ body | .filterBlock _ body => body.bodies
  | .conditional branches none => branchBodies branches
  | .conditional branches (some body) => branchBodies branches ++ body.bodies
  | _ => []

/-- A body and those inside it. -/
def Body.bodies : Body → List Body
  | .mk text actions => .mk text actions :: actionBodies actions

/-- The bodies in a list of branches. -/
def branchBodies : List Branch → List Body
  | [] => []
  | .mk _ body :: rest => body.bodies ++ branchBodies rest

/-- The bodies in a list of actions. -/
def actionBodies : List Action → List Body
  | [] => []
  | action :: rest => action.bodies ++ actionBodies rest

end

/-! ## Bodies and derivations -/

/-- A body that some of these pieces stand for. -/
def Derived (body : Body) (ps : List Piece) : Prop :=
  ∃ d : Sequence, bodyOf d.pieces d.actions = body ∧ d.pieces <:+: ps

theorem Derived.mono {body : Body} {ps qs : List Piece} (h : Derived body ps) (hp : ps <:+: qs) :
    Derived body qs := by
  obtain ⟨d, hd, hps⟩ := h
  exact ⟨d, hd, hps.trans hp⟩

/-- The action of a piece that stands alone has no body. -/
theorem Piece.bodies_action (p : Piece) : p.action.bodies = [] := by
  unfold Piece.action
  split
  · rfl
  · rfl
  · rfl
  · split <;> rfl

/-- The body of a sequence, and those inside it, come from sequences among its pieces. -/
theorem derived_of_mem_bodyOf {d : Sequence} {body : Body}
    (hd : body ∈ actionBodies d.actions → Derived body d.pieces)
    (h : body ∈ (bodyOf d.pieces d.actions).bodies) : Derived body d.pieces := by
  rw [bodyOf, Body.bodies, List.mem_cons] at h
  rcases h with rfl | h
  · exact ⟨d, rfl, List.infix_rfl⟩
  · exact hd h

mutual

/-- Every body in the actions of a sequence comes from a sequence among its pieces. -/
theorem Sequence.derived_of_mem (d : Sequence) {body : Body} (h : body ∈ actionBodies d.actions) :
    Derived body d.pieces := by
  match d with
  | .nil => simp [Sequence.actions, actionBodies] at h
  | .single p alone rest =>
    rw [Sequence.actions, actionBodies, p.bodies_action, List.nil_append] at h
    exact (rest.derived_of_mem h).mono (List.suffix_cons _ _).isInfix
  | .block kind p opens inner q closes rest =>
    rw [Sequence.actions, actionBodies, List.mem_append] at h
    rcases h with h | h
    · have hmem : body ∈ (bodyOf inner.pieces inner.actions).bodies := by cases kind <;> exact h
      refine (derived_of_mem_bodyOf inner.derived_of_mem hmem).mono ?_
      exact ⟨[p], q :: rest.pieces, by simp [Sequence.pieces]⟩
    · refine (rest.derived_of_mem h).mono (List.IsSuffix.isInfix ?_)
      exact ⟨p :: (inner.pieces ++ [q]), by simp [Sequence.pieces]⟩
  | .conditional p opens given inner more rest =>
    have hbodies : (Action.conditional (.mk (conditionTokens p.arguments)
          (bodyOf inner.pieces inner.actions) :: more.branches) more.last).bodies =
        (bodyOf inner.pieces inner.actions).bodies ++
          (branchBodies more.branches ++ more.last.elim [] Body.bodies) := by
      cases more.last <;> simp [Action.bodies, branchBodies]
    rw [Sequence.actions, actionBodies, hbodies, List.mem_append, List.mem_append] at h
    rcases h with (h | h) | h
    · refine (derived_of_mem_bodyOf inner.derived_of_mem h).mono ?_
      exact ⟨[p], more.pieces ++ rest.pieces, by simp [Sequence.pieces]⟩
    · refine (more.derived_of_mem h).mono ?_
      exact ⟨p :: inner.pieces, rest.pieces, by simp [Sequence.pieces]⟩
    · refine (rest.derived_of_mem h).mono (List.IsSuffix.isInfix ?_)
      exact ⟨p :: (inner.pieces ++ more.pieces), by simp [Sequence.pieces]⟩

/-- Every body in the branches of a conditional comes from a sequence among their pieces. -/
theorem Alternatives.derived_of_mem (t : Alternatives) {body : Body}
    (h : body ∈ branchBodies t.branches ++ t.last.elim [] Body.bodies) :
    Derived body t.pieces := by
  match t with
  | .endif p closes => simp [Alternatives.branches, Alternatives.last, branchBodies] at h
  | .elif p named given inner more =>
    rw [Alternatives.branches, Alternatives.last, branchBodies, List.append_assoc,
      List.mem_append] at h
    rcases h with h | h
    · refine (derived_of_mem_bodyOf inner.derived_of_mem h).mono ?_
      exact ⟨[p], more.pieces, by simp [Alternatives.pieces]⟩
    · refine (more.derived_of_mem h).mono (List.IsSuffix.isInfix ?_)
      exact ⟨p :: inner.pieces, by simp [Alternatives.pieces]⟩
  | .otherwise p named inner q closes =>
    simp only [Alternatives.branches, Alternatives.last, branchBodies, List.nil_append] at h
    refine (derived_of_mem_bodyOf inner.derived_of_mem h).mono ?_
    exact ⟨[p], [q], by simp [Alternatives.pieces]⟩

end

/-! ## Derivations of moved pieces -/

/-- What the grammar and the actions depend on. -/
def Preserves (f : Piece → Piece) : Prop := ∀ p, (f p).kind = p.kind ∧ (f p).source = p.source

theorem Preserves.named {f : Piece → Piece} (hf : Preserves f) {p : Piece} {name : String}
    (h : p.Named name) : (f p).Named name := by
  obtain ⟨arguments, hp⟩ := h
  exact ⟨arguments, (hf p).1.trans hp⟩

theorem Preserves.alone {f : Piece → Piece} (hf : Preserves f) {p : Piece} (h : p.Alone) :
    (f p).Alone := by
  unfold Piece.Alone at h ⊢
  rwa [(hf p).1]

theorem Preserves.arguments {f : Piece → Piece} (hf : Preserves f) (p : Piece) :
    (f p).arguments = p.arguments := by
  unfold Piece.arguments
  rw [(hf p).1]

theorem Preserves.hasArguments {f : Piece → Piece} (hf : Preserves f) {p : Piece}
    (h : p.HasArguments) : (f p).HasArguments := by
  unfold Piece.HasArguments at h ⊢
  rwa [hf.arguments]

theorem Preserves.action {f : Piece → Piece} (hf : Preserves f) (p : Piece) :
    (f p).action = p.action := by
  unfold Piece.action
  rw [(hf p).1, (hf p).2]

theorem Preserves.sourceOf_map {f : Piece → Piece} (hf : Preserves f) (ps : List Piece) :
    sourceOf (ps.map f) = sourceOf ps := by
  induction ps with
  | nil => rfl
  | cons p ps ih => rw [List.map_cons, sourceOf_cons, sourceOf_cons, ih, (hf p).2]

mutual

/-- Pieces with the same kinds and texts derive from a sequence with the same actions. -/
theorem Sequence.exists_map {f : Piece → Piece} (hf : Preserves f) (d : Sequence) :
    ∃ e : Sequence, e.pieces = d.pieces.map f ∧ e.actions = d.actions := by
  match d with
  | .nil => exact ⟨.nil, rfl, rfl⟩
  | .single p alone rest =>
    obtain ⟨e, he, ha⟩ := rest.exists_map hf
    refine ⟨.single (f p) (hf.alone alone) e, ?_, ?_⟩
    · simp [Sequence.pieces, he]
    · simp [Sequence.actions, ha, hf.action]
  | .block kind p opens inner q closes rest =>
    obtain ⟨body, hb, hba⟩ := inner.exists_map hf
    obtain ⟨e, he, ha⟩ := rest.exists_map hf
    refine ⟨.block kind (f p) (hf.named opens) body (f q) (hf.named closes) e, ?_, ?_⟩
    · simp [Sequence.pieces, he, hb]
    · simp [Sequence.actions, ha, hba, hb, bodyOf, hf.arguments, hf.sourceOf_map]
  | .conditional p opens given inner more rest =>
    obtain ⟨body, hb, hba⟩ := inner.exists_map hf
    obtain ⟨t, ht, hbranches, hlast⟩ := more.exists_map hf
    obtain ⟨e, he, ha⟩ := rest.exists_map hf
    refine ⟨.conditional (f p) (hf.named opens) (hf.hasArguments given) body t e, ?_, ?_⟩
    · simp [Sequence.pieces, he, hb, ht]
    · simp [Sequence.actions, ha, hba, hb, hbranches, hlast, bodyOf, hf.arguments,
        hf.sourceOf_map]

/-- Pieces with the same kinds and texts derive from alternatives with the same branches. -/
theorem Alternatives.exists_map {f : Piece → Piece} (hf : Preserves f) (t : Alternatives) :
    ∃ u : Alternatives, u.pieces = t.pieces.map f ∧ u.branches = t.branches ∧
      u.last = t.last := by
  match t with
  | .endif p closes => exact ⟨.endif (f p) (hf.named closes), rfl, rfl, rfl⟩
  | .elif p named given inner more =>
    obtain ⟨body, hb, hba⟩ := inner.exists_map hf
    obtain ⟨u, hu, hbranches, hlast⟩ := more.exists_map hf
    refine ⟨.elif (f p) (hf.named named) (hf.hasArguments given) body u, ?_, ?_, ?_⟩
    · simp [Alternatives.pieces, hb, hu]
    · simp [Alternatives.branches, hba, hb, hbranches, bodyOf, hf.arguments, hf.sourceOf_map]
    · simpa [Alternatives.last] using hlast
  | .otherwise p named inner q closes =>
    obtain ⟨body, hb, hba⟩ := inner.exists_map hf
    refine ⟨.otherwise (f p) (hf.named named) body (f q) (hf.named closes), ?_, ?_, ?_⟩
    · simp [Alternatives.pieces, hb]
    · rfl
    · simp [Alternatives.last, hba, hb, bodyOf, hf.sourceOf_map]

end

/-! ## The text of a body -/

/-- The text of every body of a compiled template stands in the template and compiles (`compile`) to
the actions of the body. -/
theorem compile_text_of_body {trim : Bool} {template : String} {actions : List Action}
    (h : compile trim template = .ok actions) {body : Body} (hb : body ∈ actionBodies actions) :
    compile trim body.text = .ok body.actions ∧ body.text.toList <:+: template.toList := by
  obtain ⟨d, hps, rfl⟩ := compile_eq_ok_iff.1 h
  obtain ⟨e, rfl, before, after, hd⟩ := d.derived_of_mem hb
  have htext : (bodyOf e.pieces e.actions).text = String.ofList (sourceOf e.pieces) := rfl
  have hcuts := cuts_of_piecesFrom hps
  rw [← hd] at hcuts
  -- The pieces of the body, moved to the beginning, are the pieces of its text.
  obtain ⟨n, hsegment⟩ := hcuts.segment
  obtain ⟨moved, hpieces, hactions⟩ := e.exists_map (f := Piece.back n) fun _ => ⟨rfl, rfl⟩
  constructor
  · rw [htext, compile_eq_ok_iff]
    refine ⟨moved, ?_, hactions⟩
    rw [pieces, String.toList_ofList, hpieces]
    exact hsegment.piecesFrom_eq
  · rw [htext, String.toList_ofList, ← hcuts.sourceOf_eq]
    exact ⟨sourceOf before, sourceOf after, by simp⟩

set_option maxRecDepth 4000 in
/-- The second branch of a conditional in a loop, after a line break that belongs to its tag. -/
theorem compile_text_of_elif_body :
    let inner : Body := .mk "\x7b\x7b a \x7d\x7d" [.instruction .replace [Token.parse ['a'] false]]
    let outer : Body := .mk
      "\x7b% if a %\x7dx\x7b% elif c %\x7d\n\x7b\x7b a \x7d\x7d\x7b% endif %\x7d"
      [.conditional [.mk [Token.parse ['a'] true] (.mk "x" [.literal "x"]),
        .mk [Token.parse ['c'] true] inner] none]
    let template := "\x7b% for a in b %\x7d" ++ outer.text ++ "\x7b% endfor %\x7d"
    let actions : List Action := [.forLoop (tokens "a in b".toList) outer]
    compile true template = .ok actions ∧ inner ∈ actionBodies actions ∧
      compile true inner.text = .ok inner.actions ∧ inner.text.toList <:+: template.toList := by
  intro inner outer template actions
  have hc : compile true template = .ok actions := by
    simp only [template, actions, outer, inner]
    cbv
  have hb : inner ∈ actionBodies actions := by
    simp [actions, outer, inner, actionBodies, Action.bodies, Body.bodies, branchBodies]
  exact ⟨hc, hb, compile_text_of_body hc hb⟩

end Stencil.Template
