import Stencil.Template.Compile

/-!
# The grammar of blocks

A template is a sequence of texts, emits, comments, tags and blocks:

    sequence := (text | emit | comment | tag | block)*
    block    := for sequence endfor
              | filter sequence endfilter
              | if sequence (elif sequence)* (else sequence)? endif

where a tag is neither one of those that open a block nor one of those that end a part of it, and
the tags `if` and `elif` have arguments. The values of `Sequence` are the derivations of this
grammar, and `Sequence.actions` is the tree of actions that a derivation stands for.
-/

namespace Stencil.Template

/-! ## Pieces as terminal symbols -/

/-- The names of the tags that open blocks. -/
def openerNames : List String := ["for", "filter", "if"]

/-- The names of the tags that end a block or a part of one. -/
def terminatorNames : List String := ["elif", "else", "endif", "endfor", "endfilter"]

/-- A piece that is an action by itself. -/
def Piece.Alone (p : Piece) : Prop :=
  match p.kind with
  | .tag name _ => name ∉ openerNames ∧ name ∉ terminatorNames
  | _ => True

/-- A tag with this name. -/
def Piece.Named (p : Piece) (name : String) : Prop := ∃ arguments, p.kind = .tag name arguments

/-- The text between the name of a tag and its end. -/
def Piece.arguments (p : Piece) : List Char :=
  match p.kind with
  | .tag _ arguments => arguments
  | _ => []

/-- A tag with arguments that are not all blank. -/
def Piece.HasArguments (p : Piece) : Prop := ∃ c ∈ p.arguments, Text.isBlank c = false

/-- A tag that ends a block or a part of one. -/
def Piece.Terminates (p : Piece) : Prop := ∃ name ∈ terminatorNames, p.Named name

/-- The text of several pieces. -/
def sourceOf (ps : List Piece) : List Char := ps.flatMap Piece.source

@[simp] theorem sourceOf_nil : sourceOf [] = [] := rfl

@[simp] theorem sourceOf_cons (p : Piece) (ps : List Piece) :
    sourceOf (p :: ps) = p.source ++ sourceOf ps := rfl

@[simp] theorem sourceOf_append (ps qs : List Piece) :
    sourceOf (ps ++ qs) = sourceOf ps ++ sourceOf qs := List.flatMap_append

/-! ## Derivations -/

/-- The blocks with a single body. -/
inductive PlainBlock where
  | forLoop
  | filterBlock
  deriving DecidableEq, Repr

/-- The name of the tag that opens such a block. -/
def PlainBlock.name : PlainBlock → String
  | .forLoop => "for"
  | .filterBlock => "filter"

/-- Such a block while its body is read. -/
def PlainBlock.part : PlainBlock → List Token → BlockPart
  | .forLoop => .forLoop
  | .filterBlock => .filterBlock

mutual

/-- A derivation of a sequence. -/
inductive Sequence where
  | nil
  | single (piece : Piece) (alone : piece.Alone) (rest : Sequence)
  | block (kind : PlainBlock) (opening : Piece) (opens : opening.Named kind.name)
      (body : Sequence) (closing : Piece) (closes : closing.Named ("end" ++ kind.name))
      (rest : Sequence)
  | conditional (opening : Piece) (opens : opening.Named "if") (given : opening.HasArguments)
      (body : Sequence) (more : Alternatives) (rest : Sequence)

/-- A derivation of what follows the first body of a conditional. -/
inductive Alternatives where
  | endif (closing : Piece) (closes : closing.Named "endif")
  | elif (tag : Piece) (named : tag.Named "elif") (given : tag.HasArguments) (body : Sequence)
      (more : Alternatives)
  | otherwise (tag : Piece) (named : tag.Named "else") (body : Sequence) (closing : Piece)
      (closes : closing.Named "endif")

end

mutual

/-- The pieces that a sequence derives. -/
def Sequence.pieces : Sequence → List Piece
  | .nil => []
  | .single p _ rest => p :: rest.pieces
  | .block _ opening _ body closing _ rest =>
    opening :: (body.pieces ++ closing :: rest.pieces)
  | .conditional opening _ _ body more rest =>
    opening :: (body.pieces ++ (more.pieces ++ rest.pieces))

/-- The pieces that the alternatives of a conditional derive, its closing tag included. -/
def Alternatives.pieces : Alternatives → List Piece
  | .endif closing _ => [closing]
  | .elif tag _ _ body more => tag :: (body.pieces ++ more.pieces)
  | .otherwise tag _ body closing _ => tag :: (body.pieces ++ [closing])

end

/-! ## The tree of a derivation -/

/-- The tokens of a condition. -/
def conditionTokens (arguments : List Char) : List Token :=
  (splitCondition arguments).map (Token.parse · true)

/-- The action of a piece that stands alone. -/
def Piece.action (p : Piece) : Action :=
  match p.kind with
  | .text => .literal (String.ofList p.source)
  | .emit content => .instruction .replace [Token.parse content false]
  | .comment content => .raw .comment (String.ofList content)
  | .tag name arguments =>
    match TagRole.ofName name with
    | .raw kind => .raw kind (String.ofList arguments)
    | .instruction kind => .instruction kind (tokens arguments)
    | _ => .instruction (.unknown name) (tokens arguments)

/-- The body that consists of some pieces and has some actions. -/
def bodyOf (ps : List Piece) (actions : List Action) : Body :=
  .mk (String.ofList (sourceOf ps)) actions

mutual

/-- The actions of a sequence. -/
def Sequence.actions : Sequence → List Action
  | .nil => []
  | .single p _ rest => p.action :: rest.actions
  | .block kind opening _ body _ _ rest =>
    (kind.part (tokens opening.arguments)).action (bodyOf body.pieces body.actions) ::
      rest.actions
  | .conditional opening _ _ body more rest =>
    .conditional
        (.mk (conditionTokens opening.arguments) (bodyOf body.pieces body.actions) ::
          more.branches)
        more.last ::
      rest.actions

/-- The branches with conditions among the alternatives. -/
def Alternatives.branches : Alternatives → List Branch
  | .elif tag _ _ body more =>
    .mk (conditionTokens tag.arguments) (bodyOf body.pieces body.actions) :: more.branches
  | _ => []

/-- The branch without a condition among the alternatives. -/
def Alternatives.last : Alternatives → Option Body
  | .endif .. => none
  | .elif _ _ _ _ more => more.last
  | .otherwise _ _ body _ _ => some (bodyOf body.pieces body.actions)

end

/-! ## Traversing a tree -/

/-- What a traversal of a tree of actions meets. -/
inductive Visit where
  /-- An action without a body. -/
  | action (a : Action)
  | forLoop (arguments : List Token)
  | filterBlock (arguments : List Token)
  /-- A condition, with the name of the tag it stands in. -/
  | branch (tag : String) (condition : List Token)
  /-- The branch without a condition. -/
  | otherwise

mutual

/-- What a traversal in order of the source meets in an action: the opening tag, the body, each
further condition with its body, and the last body. -/
def Action.visits : Action → List Visit
  | .forLoop arguments body => .forLoop arguments :: body.visits
  | .filterBlock arguments body => .filterBlock arguments :: body.visits
  | .conditional branches none => branchVisits "if" branches
  | .conditional branches (some body) => branchVisits "if" branches ++ .otherwise :: body.visits
  | action => [.action action]

/-- What a traversal meets in a body. -/
def Body.visits : Body → List Visit
  | .mk _ actions => actionVisits actions

/-- What a traversal meets in branches, the first of which stands in a tag of this name. -/
def branchVisits (tag : String) : List Branch → List Visit
  | [] => []
  | .mk condition body :: rest =>
    .branch tag condition :: (body.visits ++ branchVisits "elif" rest)

/-- What a traversal meets in a list of actions. -/
def actionVisits : List Action → List Visit
  | [] => []
  | action :: rest => action.visits ++ actionVisits rest

end

/-- What a piece leaves for a traversal to meet: nothing if it is a closing tag. -/
def Piece.visit? (p : Piece) : Option Visit :=
  match p.kind with
  | .tag name arguments =>
    if name = "for" then some (.forLoop (tokens arguments))
    else if name = "filter" then some (.filterBlock (tokens arguments))
    else if name = "if" ∨ name = "elif" then some (.branch name (conditionTokens arguments))
    else if name = "else" then some .otherwise
    else if name ∈ ["endif", "endfor", "endfilter"] then none
    else some (.action p.action)
  | _ => some (.action p.action)

/-- A piece that stands alone leaves its action. -/
theorem Piece.Alone.visit?_eq {p : Piece} (h : p.Alone) : p.visit? = some (.action p.action) := by
  unfold Piece.Alone at h
  unfold Piece.visit?
  split
  · simp_all [openerNames, terminatorNames]
  · rfl

/-- The action of a piece that stands alone has no body. -/
theorem Piece.visits_action (p : Piece) : p.action.visits = [.action p.action] := by
  unfold Piece.action
  split
  · rfl
  · rfl
  · rfl
  · split <;> rfl

mutual

/-- A traversal meets what the pieces of a sequence leave. -/
theorem Sequence.visits_actions (d : Sequence) :
    actionVisits d.actions = d.pieces.filterMap Piece.visit? := by
  match d with
  | .nil => rfl
  | .single p alone rest =>
    rw [Sequence.actions, Sequence.pieces, actionVisits, rest.visits_actions, p.visits_action,
      List.filterMap_cons, alone.visit?_eq]
    rfl
  | .block kind p opens body q closes rest =>
    obtain ⟨arguments, hp⟩ := opens
    obtain ⟨other, hq⟩ := closes
    have hbody := body.visits_actions
    have hrest := rest.visits_actions
    cases kind <;>
      simp_all [Sequence.actions, Sequence.pieces, actionVisits, PlainBlock.part, PlainBlock.name,
        BlockPart.action, Action.visits, Body.visits, bodyOf, Piece.visit?, Piece.arguments]
  | .conditional p opens given body more rest =>
    obtain ⟨arguments, hp⟩ := opens
    have hbody := body.visits_actions
    have hmore := more.visits_eq
    have hrest := rest.visits_actions
    cases hlast : more.last <;>
      simp_all [Sequence.actions, Sequence.pieces, actionVisits, Action.visits, Body.visits,
        branchVisits, bodyOf, Piece.visit?, Piece.arguments]

/-- A traversal meets what the pieces of alternatives leave. -/
theorem Alternatives.visits_eq (t : Alternatives) :
    branchVisits "elif" t.branches ++
        (t.last.elim [] fun body => .otherwise :: body.visits) =
      t.pieces.filterMap Piece.visit? := by
  match t with
  | .endif p closes =>
    obtain ⟨arguments, hp⟩ := closes
    simp [Alternatives.branches, Alternatives.last, Alternatives.pieces, branchVisits,
      Piece.visit?, hp]
  | .elif p named given body more =>
    obtain ⟨arguments, hp⟩ := named
    have hbody := body.visits_actions
    have hmore := more.visits_eq
    simp_all [Alternatives.branches, Alternatives.last, Alternatives.pieces, branchVisits,
      Body.visits, bodyOf, Piece.visit?, Piece.arguments]
  | .otherwise p named body q closes =>
    obtain ⟨arguments, hp⟩ := named
    obtain ⟨other, hq⟩ := closes
    have hbody := body.visits_actions
    simp_all [Alternatives.branches, Alternatives.last, Alternatives.pieces, branchVisits,
      Body.visits, bodyOf, Piece.visit?]

end

/-! ## Derivations are determined by their pieces -/

/-- What the grammar sees of a piece: the name of a tag that opens a block or ends a part of one,
and nothing of the pieces that stand alone. -/
def Piece.symbol (p : Piece) : Option String :=
  match p.kind with
  | .tag name _ => if name ∈ openerNames ++ terminatorNames then some name else none
  | _ => none

theorem Piece.Alone.symbol_eq {p : Piece} (h : p.Alone) : p.symbol = none := by
  unfold Piece.Alone at h
  unfold Piece.symbol
  split
  · simp_all
  · rfl

theorem Piece.Named.symbol_eq {p : Piece} {name : String} (h : p.Named name)
    (hn : name ∈ openerNames ++ terminatorNames) : p.symbol = some name := by
  obtain ⟨arguments, hp⟩ := h
  simp only [Piece.symbol, hp]
  rw [if_pos hn]

theorem Piece.Terminates.symbol_eq {p : Piece} (h : p.Terminates) :
    ∃ name ∈ terminatorNames, p.symbol = some name := by
  obtain ⟨name, hn, hp⟩ := h
  exact ⟨name, hn, hp.symbol_eq (List.mem_append_right _ hn)⟩

/-- What the grammar sees of the first piece of a sequence. -/
def Sequence.symbol? : Sequence → Option (Option String)
  | .nil => none
  | .single .. => some none
  | .block kind .. => some (some kind.name)
  | .conditional .. => some (some "if")

/-- The name of the tag with which the alternatives of a conditional begin. -/
def Alternatives.symbol : Alternatives → String
  | .endif .. => "endif"
  | .elif .. => "elif"
  | .otherwise .. => "else"

theorem Sequence.head?_pieces (d : Sequence) :
    d.pieces.head?.map Piece.symbol = d.symbol? := by
  cases d with
  | nil => rfl
  | single p alone rest => simp [Sequence.pieces, Sequence.symbol?, alone.symbol_eq]
  | block kind p opens body q closes rest =>
    have hn : kind.name ∈ openerNames ++ terminatorNames := by cases kind <;> decide
    simp [Sequence.pieces, Sequence.symbol?, opens.symbol_eq hn]
  | conditional p opens given body more rest =>
    simp [Sequence.pieces, Sequence.symbol?, opens.symbol_eq (by decide)]

theorem Alternatives.head?_pieces (t : Alternatives) (ps : List Piece) :
    (t.pieces ++ ps).head?.map Piece.symbol = some (some t.symbol) := by
  cases t with
  | endif p closes =>
    simp [Alternatives.pieces, Alternatives.symbol, closes.symbol_eq (by decide)]
  | elif p named given body more =>
    simp [Alternatives.pieces, Alternatives.symbol, named.symbol_eq (by decide)]
  | otherwise p named body q closes =>
    simp [Alternatives.pieces, Alternatives.symbol, named.symbol_eq (by decide)]

/-- A sequence does not begin with a tag that ends a part of a block. -/
theorem Sequence.symbol?_ne (d : Sequence) {name : String} (hn : name ∈ terminatorNames) :
    d.symbol? ≠ some (some name) := by
  intro h
  cases d with
  | nil => simp [Sequence.symbol?] at h
  | single => simp [Sequence.symbol?] at h
  | block kind =>
    simp only [Sequence.symbol?, Option.some.injEq] at h
    subst h
    revert hn
    cases kind <;> decide
  | conditional =>
    simp only [Sequence.symbol?, Option.some.injEq] at h
    subst h
    revert hn
    decide

/-- Pieces that go on after a sequence begin with a tag that ends a part of a block. -/
def Follows (ps : List Piece) : Prop := ∀ p ∈ ps.head?, p.Terminates

theorem Follows.nil : Follows [] := by
  intro p hp
  cases hp

theorem Follows.symbol_cases {ps : List Piece} (h : Follows ps) :
    ps.head?.map Piece.symbol = none ∨
      ∃ name ∈ terminatorNames, ps.head?.map Piece.symbol = some (some name) := by
  cases ps with
  | nil => exact .inl rfl
  | cons p ps =>
    obtain ⟨name, hn, hp⟩ := (h p rfl).symbol_eq
    exact .inr ⟨name, hn, by simp [hp]⟩

theorem Follows.alternatives (t : Alternatives) (ps : List Piece) : Follows (t.pieces ++ ps) := by
  intro p hp
  cases t with
  | endif q closes =>
    cases hp
    exact ⟨"endif", by decide, closes⟩
  | elif q named given body more =>
    cases hp
    exact ⟨"elif", by decide, named⟩
  | otherwise q named body r closes =>
    cases hp
    exact ⟨"else", by decide, named⟩

/-- Two sequences that begin the same list of pieces have the same first symbol. -/
theorem Sequence.symbol?_eq {d e : Sequence} {ps qs : List Piece} (hps : Follows ps)
    (hqs : Follows qs) (h : d.pieces ++ ps = e.pieces ++ qs) : d.symbol? = e.symbol? := by
  have hhead (x : Sequence) (l : List Piece) :
      (x.pieces ++ l).head?.map Piece.symbol = x.symbol?.or (l.head?.map Piece.symbol) := by
    rw [← x.head?_pieces, List.head?_append]
    cases x.pieces.head? <;> rfl
  have heq := hhead d ps
  rw [h, hhead e qs] at heq
  -- If only one of them is empty, the other begins with a terminator, as no sequence does.
  cases hd : d.symbol? with
  | none =>
    cases he : e.symbol? with
    | none => rfl
    | some s =>
      rw [hd, he] at heq
      rcases hps.symbol_cases with hn | ⟨name, hn, hs⟩
      · simp [hn] at heq
      · simp only [hs, Option.some_or, Option.none_or] at heq
        exact absurd (he.trans heq) (e.symbol?_ne hn)
  | some s =>
    cases he : e.symbol? with
    | none =>
      rw [hd, he] at heq
      rcases hqs.symbol_cases with hn | ⟨name, hn, hs⟩
      · simp [hn] at heq
      · simp only [hs, Option.some_or, Option.none_or] at heq
        exact absurd (hd.trans heq.symm) (d.symbol?_ne hn)
    | some s' =>
      rw [hd, he] at heq
      exact heq.symm

theorem Piece.Terminates.follows {p : Piece} (h : p.Terminates) (ps : List Piece) :
    Follows (p :: ps) := by
  intro q hq
  cases hq
  exact h

mutual

/-- At most one sequence begins a list of pieces and leaves nothing, or a tag that ends a part of a
block. -/
theorem Sequence.eq_of_append_eq (d e : Sequence) {ps qs : List Piece} (hps : Follows ps)
    (hqs : Follows qs) (h : d.pieces ++ ps = e.pieces ++ qs) : d = e ∧ ps = qs := by
  -- The same first symbol leaves only the same constructor for both.
  have hsymbol := Sequence.symbol?_eq hps hqs h
  match d with
  | .nil =>
    cases e with
    | nil => exact ⟨rfl, h⟩
    | _ => simp [Sequence.symbol?] at hsymbol
  | .single p alone d =>
    cases e with
    | single q _ e =>
      simp only [Sequence.pieces, List.cons_append, List.cons.injEq] at h
      obtain ⟨rfl, h⟩ := h
      obtain ⟨rfl, hrest⟩ := d.eq_of_append_eq e hps hqs h
      exact ⟨rfl, hrest⟩
    | _ => simp [Sequence.symbol?] at hsymbol
  | .block kind p opens body q closes d =>
    cases e with
    | block kind' p' _ body' q' closes' e =>
      have hkind : kind = kind' := by
        cases kind <;> cases kind' <;> simp_all [Sequence.symbol?, PlainBlock.name]
      subst hkind
      simp only [Sequence.pieces, List.cons_append, List.append_assoc, List.cons.injEq] at h
      obtain ⟨rfl, h⟩ := h
      have hends : ("end" ++ kind.name) ∈ terminatorNames := by cases kind <;> decide
      obtain ⟨rfl, hclosing⟩ := body.eq_of_append_eq body'
        (Piece.Terminates.follows ⟨_, hends, closes⟩ _)
        (Piece.Terminates.follows ⟨_, hends, closes'⟩ _) h
      obtain ⟨rfl, hafter⟩ := List.cons.inj hclosing
      obtain ⟨rfl, hrest⟩ := d.eq_of_append_eq e hps hqs hafter
      exact ⟨rfl, hrest⟩
    | conditional => cases kind <;> simp [Sequence.symbol?, PlainBlock.name] at hsymbol
    | _ => simp [Sequence.symbol?] at hsymbol
  | .conditional p opens given body more d =>
    cases e with
    | conditional p' _ _ body' more' e =>
      simp only [Sequence.pieces, List.cons_append, List.append_assoc, List.cons.injEq] at h
      obtain ⟨rfl, h⟩ := h
      obtain ⟨rfl, hmore⟩ := body.eq_of_append_eq body' (Follows.alternatives more _)
        (Follows.alternatives more' _) h
      obtain ⟨rfl, hafter⟩ := more.eq_of_append_eq more' hmore
      obtain ⟨rfl, hrest⟩ := d.eq_of_append_eq e hps hqs hafter
      exact ⟨rfl, hrest⟩
    | block kind => cases kind <;> simp [Sequence.symbol?, PlainBlock.name] at hsymbol
    | _ => simp [Sequence.symbol?] at hsymbol

/-- At most one derivation of alternatives begins a list of pieces. -/
theorem Alternatives.eq_of_append_eq (t u : Alternatives) {ps qs : List Piece}
    (h : t.pieces ++ ps = u.pieces ++ qs) : t = u ∧ ps = qs := by
  have hsymbol : t.symbol = u.symbol := by
    have hhead := t.head?_pieces ps
    rw [h, u.head?_pieces] at hhead
    simpa using hhead.symm
  match t with
  | .endif p closes =>
    cases u with
    | endif q _ =>
      simp only [Alternatives.pieces, List.cons_append, List.nil_append, List.cons.injEq] at h
      obtain ⟨rfl, h⟩ := h
      exact ⟨rfl, h⟩
    | _ => simp [Alternatives.symbol] at hsymbol
  | .elif p named given body more =>
    cases u with
    | elif q _ _ body' more' =>
      simp only [Alternatives.pieces, List.cons_append, List.append_assoc, List.cons.injEq] at h
      obtain ⟨rfl, h⟩ := h
      obtain ⟨rfl, hmore⟩ := body.eq_of_append_eq body' (Follows.alternatives more _)
        (Follows.alternatives more' _) h
      obtain ⟨rfl, hrest⟩ := more.eq_of_append_eq more' hmore
      exact ⟨rfl, hrest⟩
    | _ => simp [Alternatives.symbol] at hsymbol
  | .otherwise p named body q closes =>
    cases u with
    | otherwise p' _ body' q' closes' =>
      simp only [Alternatives.pieces, List.cons_append, List.append_assoc, List.nil_append,
        List.cons.injEq] at h
      obtain ⟨rfl, h⟩ := h
      obtain ⟨rfl, hclosing⟩ := body.eq_of_append_eq body'
        (Piece.Terminates.follows ⟨_, by decide, closes⟩ _)
        (Piece.Terminates.follows ⟨_, by decide, closes'⟩ _) h
      obtain ⟨rfl, hrest⟩ := List.cons.inj hclosing
      exact ⟨rfl, hrest⟩
    | _ => simp [Alternatives.symbol] at hsymbol

end

/-- A list of pieces has at most one derivation. -/
theorem Sequence.eq_of_pieces_eq {d e : Sequence} (h : d.pieces = e.pieces) : d = e := by
  exact (d.eq_of_append_eq e Follows.nil Follows.nil (by simpa using h)).1

end Stencil.Template
