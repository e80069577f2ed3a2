import Stencil.Render.Scope

/-!
# Contexts

A context gathers a dataset and a template before it is rendered. Rendering uses the template up
and leaves the dataset alone.
-/

namespace Stencil.Render

/-- A template and a dataset at some level. -/
structure Context where
  level : Nat
  /-- What opened this level, for messages. -/
  source : String
  dataset : Dataset := []
  actions : List Template.Action := []

namespace Context

/-- The context of a whole page. -/
def root (source : String) : Context := { level := 0, source }

/-- A context one level below another. Reference: `at_level`. -/
def below (level : Nat) (source : String) : Context := { level := level + 1, source }

/-- Overlays the dataset with another one. Reference: `set_dataset`. -/
def addDataset (c : Context) (more : Dataset) : Context :=
  { c with dataset := Fields.merge c.dataset more }

/-- Sets the actions. Reference: `set_actions`. -/
def setActions (c : Context) (actions : List Template.Action) : Context := { c with actions }

/-- Sets the actions to those of a template. Reference: `set_template`. -/
def setTemplate (c : Context) (config : Config) (text : String) : Except Template.Error Context :=
  (Template.compile config.trimBlocks text).map c.setActions

/-- Renders the actions, which are then used up. Reference: `process`. -/
def process (c : Context) (env : Env) : Logged (String × Context) := do
  let out ← env.renderAt c.level c.source c.dataset c.actions
  pure (out, { c with actions := [] })

end Context

end Stencil.Render
