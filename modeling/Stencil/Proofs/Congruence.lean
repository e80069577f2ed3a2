import Stencil.Proofs.Composition

/-!
# Runs that differ in their bodies

A run (`Env.run`) looks at what is rendered one level deeper (`Child`) only through the results. So
a relation between results that holds of equal ones, and that is kept where one result follows
another, carries over from the bodies of two runs to the runs.
-/

namespace Stencil

/-- A relation between results that holds of equal ones and is kept where results follow related
results. -/
structure Logged.Congruence (R : ∀ α : Type, Logged α → Logged α → Prop) : Prop where
  refl : ∀ {α : Type} (x : Logged α), R α x x
  bind : ∀ {α β : Type} {x y : Logged α} {f g : α → Logged β}, R α x y →
    (∀ a, R β (f a) (g a)) → R β (x >>= f) (y >>= g)

namespace Render

/-- Two ways to render bodies always have related results. -/
def Child.Related (R : ∀ α : Type, Logged α → Logged α → Prop) (child other : Child) : Prop :=
  ∀ source dataset actions, R String (child source dataset actions) (other source dataset actions)

namespace Env

open Template

section Related

variable {R : ∀ α : Type, Logged α → Logged α → Prop} (hR : Logged.Congruence R)
variable {env : Env} {child other : Child} (h : Child.Related R child other)
include hR h

theorem iterations_related (dataset : Dataset) (name : String) (body : List Action)
    (length index : Nat) (items : List Value) :
    R String (iterations child dataset name body length index items)
      (iterations other dataset name body length index items) := by
  induction items generalizing index with
  | nil => exact hR.refl _
  | cons item items ih =>
    rw [iterations, iterations]
    exact hR.bind (h "for" _ body) fun _ => hR.bind (ih (index + 1)) fun _ => hR.refl _

theorem forLoop_related (scope : Scope) (arguments : List Token) (body : Body) :
    R String (env.forLoop child scope arguments body)
      (env.forLoop other scope arguments body) := by
  unfold forLoop
  split
  · split
    · refine hR.bind (hR.refl _) fun value => ?_
      split
      · exact iterations_related hR h _ _ _ _ _ _
      · exact hR.refl _
    · exact hR.refl _
  · exact hR.refl _

theorem branches_related (scope : Scope) (source : String) (otherwise : Option Body)
    (all : List Branch) :
    R String (env.branches child scope source otherwise all)
      (env.branches other scope source otherwise all) := by
  induction all generalizing source with
  | nil =>
    cases otherwise with
    | none => exact hR.refl _
    | some body => exact h "else" scope.dataset body.actions
  | cons branch rest ih =>
    rw [branches, branches]
    refine hR.bind (hR.refl _) fun holds => ?_
    split
    · exact h source scope.dataset branch.body.actions
    · exact ih "elif"

theorem filterBlock_related (scope : Scope) (arguments : List Token) (body : Body) :
    R String (env.filterBlock child scope arguments body)
      (env.filterBlock other scope arguments body) := by
  unfold filterBlock
  exact hR.bind (h "filter" scope.dataset body.actions) fun _ => hR.refl _

/-- The included template may be any, also the one that includes it. -/
theorem useTemplate_related (scope : Scope) (arguments : List Token) :
    R String (env.useTemplate child scope arguments)
      (env.useTemplate other scope arguments) := by
  unfold useTemplate
  refine hR.bind (hR.refl _) fun name => ?_
  split
  · exact hR.refl _
  · refine hR.bind (hR.refl _) fun text => ?_
    split
    · exact hR.refl _
    · split
      · exact h "usetemplate" scope.dataset _
      · exact hR.refl _

theorem output_related (scope : Scope) (action : Action) :
    R String (env.output child scope action) (env.output other scope action) := by
  cases action with
  | literal text => exact hR.refl _
  | raw kind content => cases kind <;> exact hR.refl _
  | «instruction» kind arguments =>
    cases kind with
    | useTemplate => exact useTemplate_related hR h scope arguments
    | replace => cases arguments <;> exact hR.refl _
    | _ => exact hR.refl _
  | forLoop arguments body => exact forLoop_related hR h scope arguments body
  | filterBlock arguments body => exact filterBlock_related hR h scope arguments body
  | conditional all otherwise => exact branches_related hR h scope "if" otherwise all

theorem step_related (scope : Scope) (action : Action) :
    R (String × Scope) (env.step child scope action) (env.step other scope action) := by
  unfold step
  split
  · exact hR.refl _
  · exact hR.bind (output_related hR h scope action) fun _ => hR.refl _

/-- Runs are related if what they render one level deeper is. -/
theorem run_related (scope : Scope) (actions : List Action) :
    R (String × Scope) (env.run child scope actions) (env.run other scope actions) := by
  induction actions generalizing scope with
  | nil => exact hR.refl _
  | cons action actions ih =>
    rw [run_cons, run_cons]
    exact hR.bind (step_related hR h scope action) fun first =>
      hR.bind (ih first.2) fun _ => hR.refl _

end Related

end Env

end Render

end Stencil
