import Stencil.Render.Context

/-!
# Rendering texts and pages

A text is rendered against a dataset. A page names its template, the datasets that are merged in
order, and where the result goes.
-/

namespace Stencil.Render

/-- A page to be made. -/
structure Page where
  template : String
  datasets : List String
  destination : String
  deriving DecidableEq, Repr

/-- The strings of a list of strings. -/
def strings? (items : List Value) : Option (List String) :=
  items.mapM fun
    | .str s => some s
    | _ => none

/-- The page that a value describes: a mapping, in which the datasets can be left out, or a list of
the three values. -/
def Page.ofValue? : Value → Option Page
  | .dict fields =>
    match fields.lookup "template", fields.lookup "datasets", fields.lookup "destination" with
    | some (.str template), none, some (.str destination) => some ⟨template, [], destination⟩
    | some (.str template), some (.list ids), some (.str destination) =>
      (strings? ids).map fun ids => ⟨template, ids, destination⟩
    | _, _, _ => none
  | .list [.str template, .list ids, .str destination] =>
    (strings? ids).map fun ids => ⟨template, ids, destination⟩
  | _ => none

namespace Env

variable (env : Env)

/-- Renders a text against a dataset. Reference: `render`, `render_with`. -/
def render (text : String) (dataset : Dataset) : Logged (Except Template.Error String) :=
  match ((Context.root "page").addDataset dataset).setTemplate env.config text with
  | .error reason => pure (.error reason)
  | .ok context => do
    let (out, _) ← context.process env
    pure (.ok out)

/-- The text of a template; one that the loader does not have is empty. -/
def templateText (id : String) : Logged String := do
  let text ← env.loader.template? id
  pure (text.getD "")

/-- Renders a template from the loader against a dataset. Reference: `render_file`. -/
def renderFile (id : String) (dataset : Dataset) : Logged (Except Template.Error String) := do
  let text ← env.templateText id
  env.render text dataset

/-- Overlays the dataset of a context with datasets from the loader. -/
def addDatasets : List String → Context → Logged Context
  | [], context => pure context
  | id :: ids, context => do
    let dataset ← env.loader.dataset id
    addDatasets ids (context.addDataset dataset)

/-- Why a page was not made: its template does not compile, or the place where it goes does not take
it and says why. -/
inductive PageError (ε : Type) where
  | template (reason : Template.Error)
  | sink (reason : ε)
  deriving DecidableEq, Repr

section Sink

variable {σ ε : Type} (emit : σ → (content destination : String) → σ × Except ε Unit) (state : σ)

/-- Hands a content on: `emit` takes a state, the content and the destination to the next state, and
may refuse the content with an error of its own. -/
def handOn (content destination : String) : Except (PageError ε) String × σ :=
  match emit state content destination with
  | (state, .ok ()) => (.ok content, state)
  | (state, .error reason) => (.error (.sink reason), state)

/-- Makes a page: renders it and hands it on. Reference: `assemble`. -/
def assemble (page : Page) : Logged (Except (PageError ε) String × σ) := do
  let text ← env.templateText page.template
  let context ← env.addDatasets page.datasets (Context.root page.template)
  match context.setTemplate env.config text with
  | .error reason =>
    .withEvent (.pageFailed page.template reason) (.error (.template reason), state)
  | .ok context => do
    let (out, _) ← context.process env
    pure (handOn emit state out page.destination)

end Sink

end Env

/-- Pages in the order in which they were made, with their destinations. Reference: `StringSink`. -/
abbrev Pages := List (String × String)

/-- Takes every page; there is no error to refuse one with. -/
def Pages.emit (pages : Pages) (content destination : String) : Pages × Except Empty Unit :=
  (pages ++ [(destination, content)], .ok ())

end Stencil.Render
