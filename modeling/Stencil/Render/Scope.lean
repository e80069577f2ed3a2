import Stencil.Render.Config
import Stencil.Render.Loader
import Stencil.Render.Resolve
import Stencil.Template.Compile

/-!
# Rendering actions

Actions are rendered in the scope of a dataset. Bodies of blocks and included templates are rendered
one level deeper, each against a dataset of its own, so that nothing they do is seen outside; only
the tag that merges a dataset changes what the actions after it see. Below the deepest level nothing
is rendered, which also ends templates that include themselves.
-/

namespace Stencil.Render

open Template

/-- What all levels of a rendering share. -/
structure Env where
  config : Config
  loader : Loader
  surroundings : Surroundings

/-- Renders what is one level deeper: the tag it belongs to, its dataset and its actions.
Reference: `child`, `render_body`. -/
abbrev Child := (source : String) → Dataset → List Action → Logged String

namespace Env

variable (env : Env)

/-- The value of a token. -/
def resolve (scope : Scope) (t : Token) : Logged Value := t.resolve env.surroundings scope

/-- The text of the first token that is neither null nor empty. Reference: `first_of`. -/
def firstOf (scope : Scope) : List Token → Logged String
  | [] => pure ""
  | t :: ts => do
    match ← env.resolve scope t with
    | .null => firstOf scope ts
    | .str "" => firstOf scope ts
    | value => pure value.display

/-- The number of items, fields or characters of a value. -/
def sizeOf : Value → Nat
  | .null => 0
  | .list items => items.length
  | .dict fields => fields.length
  | value => value.displayChars.length

/-- The number of items or fields that a path of the dataset leads to. -/
def pathSize (dataset : Dataset) (path : String) : Nat :=
  match dataset.walk path with
  | .ok (.list items) => items.length
  | .ok (.dict fields) => fields.length
  | _ => 0

/-- The size of the first token. Where its filters leave nothing, the size of what its name leads to
counts. Reference: `length`. -/
def lengthOf (scope : Scope) : List Token → Logged String
  | [] => .withEvent .lengthNeedsArgument ""
  | t :: _ => do
    let value ← env.resolve scope t
    let size := if sizeOf value = 0 ∧ t.kind = .name ∧ scope.keys.contains t.value then
      pathSize scope.dataset t.value else sizeOf value
    pure (String.ofList (Double.natDigits size))

/-! ## Loops -/

/-- What a loop tells its body about an iteration. Reference: `forloop`. -/
def loopFields (index length : Nat) : Fields :=
  let number (n : Nat) : Value := .int n
  Fields.ofList [
    ("counter", number (index + 1)),
    ("counter0", number index),
    ("revcounter", number (length - index)),
    ("revcounter0", number (length - index - 1)),
    ("first", .bool (index == 0)),
    ("last", .bool (index + 1 == length)),
    ("length", number length)]

/-- The dataset of an iteration: the item under its name wins over what the loop
tells. -/
def iterationData (dataset : Dataset) (name : String) (index length : Nat) (item : Value) :
    Dataset :=
  Fields.insert name item
    (Fields.insert "forloop" (.dict (loopFields index length)) dataset)

/-- Renders the iterations of a loop from an index on. -/
def iterations (child : Child) (dataset : Dataset) (name : String) (body : List Action)
    (length : Nat) : (index : Nat) → List Value → Logged String
  | _, [] => pure ""
  | index, item :: items => do
    let out ← child "for" (iterationData dataset name index length item) body
    let rest ← iterations child dataset name body length (index + 1) items
    pure (out ++ rest)

/-- Renders a loop. Reference: `for_loop`. -/
def forLoop (child : Child) (scope : Scope) (arguments : List Token) (body : Body) :
    Logged String :=
  match arguments with
  | [name, word, items] =>
    if word.value = "in" then do
      match ← env.resolve scope items with
      | .list values =>
        iterations child scope.dataset name.value body.actions values.length 0 values
      | other => .withEvent (.notIterable items.value other.type) ""
    else .withEvent (.malformedLoop (sources arguments)) ""
  | _ => .withEvent (.malformedLoop (sources arguments)) ""

/-! ## Branches -/

/-- Renders the first branch whose condition holds, or else the one without. Reference: `branch`. -/
def branches (child : Child) (scope : Scope) (source : String) (otherwise : Option Body) :
    List Branch → Logged String
  | [] =>
    match otherwise with
    | some body => child "else" scope.dataset body.actions
    | none => pure ""
  | branch :: rest => do
    if ← holds env.surroundings scope branch.condition then
      child source scope.dataset branch.body.actions
    else branches child scope "elif" otherwise rest

/-! ## Filter blocks -/

/-- Applies the filters of a filter block: every token names one filter, with at most one argument,
and may have a chain of its own. -/
def blockFilters (scope : Scope) : List Token → Value → Logged Value
  | [], value => pure value
  | t :: ts, value => do
    if t.kind = .name then
      let value ← applyNamed env.surroundings scope t.value t.argument.toList value
      let value ← applyCalls env.surroundings scope t.filters value
      blockFilters scope ts value
    else
      .emit (.notAFilterName t.source)
      blockFilters scope ts value

/-- Renders a filter block. Reference: `filter_block`. -/
def filterBlock (child : Child) (scope : Scope) (arguments : List Token) (body : Body) :
    Logged String := do
  let out ← child "filter" scope.dataset body.actions
  let value ← env.blockFilters scope arguments (.str out)
  pure value.display

/-! ## Other sources -/

/-- The name that the first argument of a tag gives; none if it is empty.
Reference: `source_name`. -/
def sourceName (scope : Scope) (tag : String) : List Token → Logged (Option String)
  | [] => .withEvent (.noFileName tag) none
  | t :: _ => do
    let value ← env.resolve scope t
    let name := value.display
    if name.isEmpty then .withEvent (.noFileName tag) none else pure (some name)

/-- The scope overlaid with a dataset from the loader. Reference: `use_dataset`. -/
def useDataset (scope : Scope) (arguments : List Token) : Logged Scope := do
  match ← env.sourceName scope "usedataset" arguments with
  | none => pure scope
  | some id => do
    let loaded ← env.loader.dataset id
    pure (scope.overlay loaded)

/-- Renders a template from the loader. Reference: `use_template`. -/
def useTemplate (child : Child) (scope : Scope) (arguments : List Token) : Logged String := do
  match ← env.sourceName scope "usetemplate" arguments with
  | none => pure ""
  | some id => do
    match ← env.loader.template? id with
    | none => pure ""
    | some text =>
      match compile env.config.trimBlocks text with
      | .ok actions => child "usetemplate" scope.dataset actions
      | .error reason => .withEvent (.includeFailed id reason) ""

/-! ## Actions -/

/-- Renders one action that leaves the scope as it is. -/
def output (child : Child) (scope : Scope) : Action → Logged String
  | .literal text => pure text
  | .raw .copy content => pure content
  | .raw _ _ => pure ""
  | .instruction .replace [] => pure ""
  | .instruction .replace (t :: _) => do
    let value ← env.resolve scope t
    pure value.display
  | .instruction .firstof arguments => env.firstOf scope arguments
  | .instruction .length arguments => env.lengthOf scope arguments
  | .instruction .useTemplate arguments => env.useTemplate child scope arguments
  | .instruction .useDataset _ => pure ""
  | .instruction (.unknown name) _ => .withEvent (.unknownTag name) ""
  | .forLoop arguments body => env.forLoop child scope arguments body
  | .filterBlock arguments body => env.filterBlock child scope arguments body
  | .conditional all otherwise => env.branches child scope "if" otherwise all

/-- Renders one action, and gives the scope for those after it. Reference: `dispatch`. -/
def step (child : Child) (scope : Scope) : Action → Logged (String × Scope)
  | .instruction .useDataset arguments => do
    let merged ← env.useDataset scope arguments
    pure ("", merged)
  | action => do
    let out ← env.output child scope action
    pure (out, scope)

/-- Renders actions in order, and gives the scope after them. -/
def run (child : Child) : Scope → List Action → Logged (String × Scope)
  | scope, [] => pure ("", scope)
  | scope, action :: actions => do
    let (out, scope) ← env.step child scope action
    let (rest, scope) ← run child scope actions
    pure (out ++ rest, scope)

/-- Renders actions at a level, where `room` is how many levels may be rendered from there on. -/
def renderIn : (room : Nat) → (level : Nat) → Child
  | 0, level, source, _, _ => .withEvent (.tooDeep level env.config.maxDepth source) ""
  | room + 1, level, _, dataset, actions => do
    let (out, _) ← env.run (renderIn room (level + 1)) (.of dataset) actions
    pure out

/-- Renders actions at a level. -/
def renderAt (level : Nat) : Child := env.renderIn (env.config.maxDepth + 1 - level) level

end Env

end Stencil.Render
