import Stencil.Proofs.BodyText
import Stencil.Template.Names

/-!
# Trees of actions

The bodies that an `Action` has itself, what is inside them, how deep they are nested, and the names
that `scan` finds there. The words of a compiled template stand in conditions only where an `if` or
`elif` has them, at any depth.
-/

namespace Stencil.Template

/-! ## Bodies inside actions -/

/-- The bodies of an action, those inside them left out. -/
def Action.children : Action → List Body
  | .forLoop _ body | .filterBlock _ body => [body]
  | .conditional branches otherwise => branches.map Branch.body ++ otherwise.toList
  | _ => []

/-- An action stands among others or in a body at some depth. -/
def Occurs (action : Action) (actions : List Action) : Prop :=
  action ∈ actions ∨ ∃ body ∈ actionBodies actions, action ∈ body.actions

theorem Body.bodies_eq (body : Body) : body.bodies = body :: actionBodies body.actions := by
  cases body
  rw [Body.bodies]
  rfl

/-- The bodies in branches are those in the bodies of the branches. -/
theorem branchBodies_eq (branches : List Branch) :
    branchBodies branches = (branches.map Branch.body).flatMap Body.bodies := by
  induction branches with
  | nil => rfl
  | cons branch branches ih =>
    cases branch
    rw [branchBodies, ih]
    rfl

/-- The bodies in an action are those in its own bodies. -/
theorem Action.bodies_eq (action : Action) :
    action.bodies = action.children.flatMap Body.bodies := by
  cases action with
  | conditional branches otherwise =>
    cases otherwise <;> simp [Action.bodies, children, branchBodies_eq]
  | _ => simp [Action.bodies, children]

/-- The bodies in a list of actions are those in the actions. -/
theorem actionBodies_eq (actions : List Action) :
    actionBodies actions = actions.flatMap Action.bodies := by
  induction actions with
  | nil => rfl
  | cons action actions ih => rw [actionBodies, ih, List.flatMap_cons]

/-- What is inside a body of an action is inside the action. -/
theorem Occurs.of_child {action parent : Action} {actions : List Action} {body : Body}
    (h : Occurs action body.actions) (hparent : parent ∈ actions)
    (hbody : body ∈ parent.children) : Occurs action actions := by
  have hbodies : ∀ inner ∈ body.bodies, inner ∈ actionBodies actions := fun inner hinner => by
    rw [actionBodies_eq, List.mem_flatMap]
    refine ⟨parent, hparent, ?_⟩
    rw [Action.bodies_eq, List.mem_flatMap]
    exact ⟨body, hbody, hinner⟩
  rw [Body.bodies_eq] at hbodies
  rcases h with h | ⟨inner, hinner, h⟩
  · exact .inr ⟨body, hbodies body (by simp), h⟩
  · exact .inr ⟨inner, hbodies inner (by simp [hinner]), h⟩

/-! ## Nesting -/

mutual

/-- How deep blocks are nested in an action. -/
def Action.nesting : Action → Nat
  | .forLoop _ body | .filterBlock _ body => body.nesting + 1
  | .conditional branches none => branchNesting branches + 1
  | .conditional branches (some body) => max (branchNesting branches) body.nesting + 1
  | _ => 0

/-- How deep blocks are nested in a body. -/
def Body.nesting : Body → Nat
  | .mk _ actions => nesting actions

/-- How deep blocks are nested in the bodies of branches. -/
def branchNesting : List Branch → Nat
  | [] => 0
  | .mk _ body :: branches => max body.nesting (branchNesting branches)

/-- How deep blocks are nested in a list of actions. -/
def nesting : List Action → Nat
  | [] => 0
  | action :: actions => max action.nesting (nesting actions)

end

theorem Body.nesting_eq (body : Body) : body.nesting = Template.nesting body.actions := by
  cases body
  rw [Body.nesting]
  rfl

theorem nesting_le_of_mem {action : Action} {actions : List Action} (h : action ∈ actions) :
    action.nesting ≤ nesting actions := by
  induction actions with
  | nil => simp at h
  | cons other actions ih =>
    rw [nesting]
    rcases List.mem_cons.1 h with rfl | h
    · exact Nat.le_max_left _ _
    · exact Nat.le_trans (ih h) (Nat.le_max_right _ _)

theorem nesting_le_branchNesting {branch : Branch} {branches : List Branch}
    (h : branch ∈ branches) : branch.body.nesting ≤ branchNesting branches := by
  induction branches with
  | nil => simp at h
  | cons other branches ih =>
    cases other
    rw [branchNesting]
    rcases List.mem_cons.1 h with rfl | h
    · exact Nat.le_max_left _ _
    · exact Nat.le_trans (ih h) (Nat.le_max_right _ _)

/-- Blocks are nested less deep in the bodies of an action than in the action. -/
theorem Action.nesting_child {action : Action} {body : Body} (h : body ∈ action.children) :
    Template.nesting body.actions < action.nesting := by
  rw [← Body.nesting_eq]
  cases action with
  | literal | raw | «instruction» => simp [children] at h
  | forLoop arguments inner | filterBlock arguments inner =>
    rw [children, List.mem_singleton] at h
    rw [h, nesting]
    exact Nat.lt_succ_self _
  | conditional branches otherwise =>
    rw [children, List.mem_append, List.mem_map, Option.mem_toList] at h
    rcases h with ⟨branch, hbranch, rfl⟩ | rfl
    · have hle : branch.body.nesting ≤ branchNesting branches := nesting_le_branchNesting hbranch
      cases otherwise <;> rw [nesting] <;> omega
    · rw [nesting]
      omega

/-! ## Scanned names -/

/-- Putting a name into a list adds just this name. -/
theorem mem_insertName {name other : String} {ns : List String} :
    other ∈ insertName name ns ↔ other = name ∨ other ∈ ns := by
  induction ns with
  | nil => simp [insertName]
  | cons n ns ih =>
    rw [insertName]
    split
    · simp
    · split
      · rename_i heq
        simp [heq]
      · simp [ih, or_left_comm]

/-- Scanning lists the names of the actions. -/
theorem mem_scan_iff {actions : List Action} {name : String} :
    name ∈ scan actions ↔ name ∈ actionNames actions := by
  rw [scan]
  induction actionNames actions with
  | nil => simp
  | cons n ns ih => rw [List.foldr_cons, mem_insertName, ih, List.mem_cons]

/-- The names of actions are those of each of them. -/
theorem actionNames_eq (actions : List Action) :
    actionNames actions = actions.flatMap Action.names := by
  induction actions with
  | nil => rfl
  | cons action actions ih => rw [actionNames, ih, List.flatMap_cons]

theorem Body.names_eq (body : Body) : body.names = actionNames body.actions := by
  cases body
  rw [Body.names]
  rfl

/-- The names of branches are those of their conditions and of their bodies. -/
theorem branchNames_eq (branches : List Branch) :
    branchNames branches =
      branches.flatMap fun branch =>
        branch.condition.flatMap Token.names ++ actionNames branch.body.actions := by
  induction branches with
  | nil => rfl
  | cons branch branches ih =>
    cases branch
    rw [branchNames, ih, Branch.names, Body.names_eq]
    rfl

/-- The names in a body of an action are names of the action. -/
theorem Action.names_of_child {action : Action} {body : Body} (h : body ∈ action.children)
    {name : String} (hname : name ∈ actionNames body.actions) : name ∈ action.names := by
  cases action with
  | literal | raw | «instruction» => simp [children] at h
  | forLoop arguments inner | filterBlock arguments inner =>
    rw [children, List.mem_singleton] at h
    subst h
    simp [names, Body.names_eq, hname]
  | conditional branches otherwise =>
    rw [children, List.mem_append, List.mem_map, Option.mem_toList] at h
    rcases h with ⟨branch, hbranch, rfl⟩ | rfl
    · have hmem : name ∈ branchNames branches := by
        rw [branchNames_eq, List.mem_flatMap]
        exact ⟨branch, hbranch, by simp [hname]⟩
      cases otherwise <;> simp [names, hmem]
    · simp [names, Body.names_eq, hname]

/-- The names in the condition of a branch are names of the action. -/
theorem Action.names_of_condition {branches : List Branch} {otherwise : Option Body}
    {branch : Branch} (h : branch ∈ branches) {name : String}
    (hname : name ∈ branch.condition.flatMap Token.names) :
    name ∈ (Action.conditional branches otherwise).names := by
  have hmem : name ∈ branchNames branches := by
    rw [branchNames_eq, List.mem_flatMap]
    exact ⟨branch, h, List.mem_append_left _ hname⟩
  cases otherwise <;> simp [names, hmem]

/-! ## Words outside conditions -/

/-- The words of an action itself do not stand in a condition. -/
def Action.Unconditional : Action → Prop
  | .instruction _ arguments | .forLoop arguments _ | .filterBlock arguments _ =>
    ∀ t ∈ arguments, t.inCondition = false
  | _ => True

theorem Token.inCondition_parse (source : List Char) (inCondition : Bool) :
    (Token.parse source inCondition).inCondition = inCondition := by
  simp only [Token.parse]
  by_cases h : (inCondition && isOperatorWord (String.ofList source)) = true
  · rw [if_pos h]
  · rw [if_neg h]

/-- The words of a tag's arguments do not stand in a condition. -/
theorem inCondition_of_mem_tokens {arguments : List Char} {t : Token} (h : t ∈ tokens arguments) :
    t.inCondition = false := by
  obtain ⟨source, -, rfl⟩ := List.mem_map.1 h
  exact Token.inCondition_parse source false

theorem Piece.unconditional_action (p : Piece) : p.action.Unconditional := by
  unfold Piece.action
  split
  · trivial
  · intro t ht
    rw [List.mem_singleton] at ht
    rw [ht, Token.inCondition_parse]
  · trivial
  · split
    · trivial
    · exact fun t => inCondition_of_mem_tokens
    · exact fun t => inCondition_of_mem_tokens

/-- Neither do those of the actions of a sequence. -/
theorem Sequence.unconditional_of_mem (d : Sequence) :
    ∀ action ∈ d.actions, action.Unconditional := by
  cases d with
  | nil => simp [actions]
  | single p _ rest =>
    rw [actions, List.forall_mem_cons]
    exact ⟨p.unconditional_action, rest.unconditional_of_mem⟩
  | block kind p _ _ _ _ rest =>
    rw [actions, List.forall_mem_cons]
    refine ⟨?_, rest.unconditional_of_mem⟩
    cases kind <;> exact fun t => inCondition_of_mem_tokens
  | conditional _ _ _ _ _ rest =>
    rw [actions, List.forall_mem_cons]
    exact ⟨trivial, rest.unconditional_of_mem⟩

/-- In a compiled template the words outside conditions are marked so, at any depth. -/
theorem unconditional_of_occurs {trim : Bool} {template : String} {actions : List Action}
    (h : compile trim template = .ok actions) {action : Action} (hoccurs : Occurs action actions) :
    action.Unconditional := by
  obtain ⟨d, -, rfl⟩ := compile_eq_ok_iff.1 h
  rcases hoccurs with hmem | ⟨body, hbody, hmem⟩
  · exact d.unconditional_of_mem action hmem
  · obtain ⟨e, rfl, -⟩ := d.derived_of_mem hbody
    exact e.unconditional_of_mem action hmem

end Stencil.Template
