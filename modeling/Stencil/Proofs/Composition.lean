import Stencil.Proofs.Fields
import Stencil.Render.Engine

/-!
# Rendering composes

Actions rendered one after the other (`Env.run`) see each other in one way only: the tags that load
datasets, where they stand among the actions themselves, lay these over the dataset. So actions put
together render as one after the other, the second against the dataset with what the first have
loaded, and whatever happens inside bodies and included templates has no part in that. Each scope on
the way lists the paths of its own dataset.
-/

namespace Stencil.Render.Env

open Template

variable (env : Env) (child : Child)

/-! ## Runs -/

theorem run_nil (scope : Scope) : env.run child scope [] = pure ("", scope) := rfl

theorem run_cons (scope : Scope) (action : Action) (actions : List Action) :
    env.run child scope (action :: actions) =
      env.step child scope action >>= fun first =>
        env.run child first.2 actions >>= fun rest => pure (first.1 ++ rest.1, rest.2) := rfl

/-- Two lists of actions put together are run one after the other. -/
theorem run_append (scope : Scope) (first second : List Action) :
    env.run child scope (first ++ second) =
      env.run child scope first >>= fun before =>
        env.run child before.2 second >>= fun after => pure (before.1 ++ after.1, after.2) := by
  induction first generalizing scope with
  | nil =>
    refine Logged.eq_of ?_ ?_
    · simp [run_nil]
    · simp [run_nil]
  | cons action actions ih =>
    rw [List.cons_append, run_cons, run_cons]
    refine Logged.eq_of ?_ ?_
    · simp only [ih, Logged.value_bind, Logged.value_pure, String.append_assoc]
    · simp only [ih, Logged.events_bind, Logged.events_pure, Logged.value_bind, Logged.value_pure,
        List.append_nil, List.append_assoc]

/-! ## What is loaded -/

/-- The dataset that an action loads. Only the tag for it loads one, and only if its argument gives
a name; what stands inside the bodies of other actions loads nothing here. -/
def load? (dataset : Dataset) : Action → Option Dataset
  | .instruction .useDataset arguments =>
    (env.sourceName (.of dataset) "usedataset" arguments).value.map fun id =>
      (env.loader.dataset id).value
  | _ => none

/-- The datasets that actions load, in order. Each is asked for where the ones before it have been
laid over the dataset. -/
def loaded : Dataset → List Action → List Dataset
  | _, [] => []
  | dataset, action :: actions =>
    match env.load? dataset action with
    | none => loaded dataset actions
    | some delta => delta :: loaded (Fields.merge dataset delta) actions

/-- The dataset that is seen behind some actions: what they load is laid over it in order. -/
def seen (dataset : Dataset) (actions : List Action) : Dataset :=
  (env.loaded dataset actions).foldl Fields.merge dataset

/-- Whether an action is the tag that loads a dataset. -/
def isLoad : Action → Bool
  | .instruction .useDataset _ => true
  | _ => false

theorem exists_of_isLoad {action : Action} (h : isLoad action = true) :
    ∃ arguments, action = .instruction .useDataset arguments := by
  unfold isLoad at h
  split at h
  · exact ⟨_, rfl⟩
  · cases h

theorem load?_eq_none {action : Action} (h : isLoad action = false) (dataset : Dataset) :
    env.load? dataset action = none := by
  unfold load?
  split
  · cases h
  · rfl

theorem seen_cons (dataset : Dataset) (action : Action) (actions : List Action) :
    env.seen dataset (action :: actions) =
      env.seen ((env.load? dataset action).elim dataset (Fields.merge dataset)) actions := by
  unfold seen
  rw [loaded]
  cases env.load? dataset action <;> rfl

/-- Actions that load nothing make no difference to what is seen behind. -/
theorem seen_filter (dataset : Dataset) (actions : List Action) :
    env.seen dataset (actions.filter isLoad) = env.seen dataset actions := by
  induction actions generalizing dataset with
  | nil => rfl
  | cons action actions ih =>
    by_cases h : isLoad action = true
    · rw [List.filter_cons_of_pos h, seen_cons, seen_cons, ih]
    · rw [List.filter_cons_of_neg h, seen_cons, load?_eq_none env (by simpa using h), ih]
      rfl

/-! ## Scopes -/

theorem step_load (scope : Scope) (arguments : List Token) :
    env.step child scope (.instruction .useDataset arguments) =
      env.useDataset scope arguments >>= fun merged => pure ("", merged) := rfl

theorem step_of_not_isLoad (scope : Scope) {action : Action} (h : isLoad action = false) :
    env.step child scope action =
      env.output child scope action >>= fun out => pure (out, scope) := by
  unfold step
  split
  · cases h
  · rfl

/-- One action leaves the scope of the dataset with what it loads laid over it. -/
theorem scope_step (dataset : Dataset) (action : Action) :
    (env.step child (.of dataset) action).value.2 =
      .of ((env.load? dataset action).elim dataset (Fields.merge dataset)) := by
  by_cases h : isLoad action = true
  · obtain ⟨arguments, rfl⟩ := exists_of_isLoad h
    rw [step_load, Logged.value_bind, Logged.value_pure, useDataset, Logged.value_bind, load?]
    cases (env.sourceName (.of dataset) "usedataset" arguments).value <;> rfl
  · rw [Bool.not_eq_true] at h
    rw [step_of_not_isLoad env child _ h, load?_eq_none env h]
    rfl

/-- So do several: at every point of a run the scope is that of what is seen there. -/
theorem scope_run (dataset : Dataset) (actions : List Action) :
    (env.run child (.of dataset) actions).value.2 = .of (env.seen dataset actions) := by
  induction actions generalizing dataset with
  | nil => rfl
  | cons action actions ih =>
    rw [run_cons, Logged.value_bind, Logged.value_bind, Logged.value_pure, scope_step, ih,
      seen_cons]

/-! ## Levels -/

/-- Above the deepest level rendering is a run whose bodies are rendered one level deeper. -/
theorem renderAt_of_le {level : Nat} (h : level ≤ env.config.maxDepth) (source : String)
    (dataset : Dataset) (actions : List Action) :
    env.renderAt level source dataset actions =
      env.run (env.renderAt (level + 1)) (.of dataset) actions >>= fun out => pure out.1 := by
  have hroom : env.config.maxDepth + 1 - level = env.config.maxDepth + 1 - (level + 1) + 1 := by
    omega
  rw [renderAt, hroom, renderIn]
  rfl

/-- Above the limit it makes no difference what opened a level. -/
theorem renderAt_source {level : Nat} (h : level ≤ env.config.maxDepth)
    (source source' : String) : env.renderAt level source = env.renderAt level source' := by
  funext dataset actions
  rw [renderAt_of_le env h, renderAt_of_le env h]

/-- Below it nothing is rendered, and that is told. -/
theorem renderAt_of_lt {level : Nat} (h : env.config.maxDepth < level) (source : String)
    (dataset : Dataset) (actions : List Action) :
    env.renderAt level source dataset actions =
      .withEvent (.tooDeep level env.config.maxDepth source) "" := by
  have hroom : env.config.maxDepth + 1 - level = 0 := by omega
  rw [renderAt, hroom, renderIn]

/-- An action by itself, unless it loads a dataset, renders to its output. -/
theorem renderAt_singleton {level : Nat} (h : level ≤ env.config.maxDepth) (source : String)
    (dataset : Dataset) {action : Action} (haction : isLoad action = false) :
    env.renderAt level source dataset [action] =
      env.output (env.renderAt (level + 1)) (.of dataset) action := by
  rw [renderAt_of_le env h, run_cons, step_of_not_isLoad env _ _ haction]
  refine Logged.eq_of ?_ ?_
  · simp [run_nil]
  · simp [run_nil]

/-- Rendering a text that compiles is rendering its actions at the outermost level. -/
theorem render_of_compile {text : String} {actions : List Action}
    (hcompile : compile env.config.trimBlocks text = .ok actions) (dataset : Dataset) :
    env.render text dataset =
      env.renderAt 0 "page" (Fields.merge [] dataset) actions >>= fun out => pure (.ok out) := by
  unfold render
  rw [Context.setTemplate, hcompile]
  simp only [Except.map, Context.process, Context.setActions, Context.addDataset, Context.root]
  refine Logged.eq_of rfl ?_
  simp only [Logged.events_bind, Logged.events_pure, List.append_nil]

/-- Rendering a text that does not compile tells why. -/
theorem render_of_error {text : String} {reason : Template.Error}
    (hcompile : compile env.config.trimBlocks text = .error reason) (dataset : Dataset) :
    env.render text dataset = pure (.error reason) := by
  rw [render, Context.setTemplate, hcompile]
  rfl

/-- A dataset in order is rendered against as it is. -/
theorem render_eq_renderAt {text : String} {actions : List Action}
    (hcompile : compile env.config.trimBlocks text = .ok actions) {dataset : Dataset}
    (hdataset : Fields.Ordered dataset) :
    env.render text dataset =
      env.renderAt 0 "page" dataset actions >>= fun out => pure (.ok out) := by
  have hmerge : Fields.merge [] dataset = dataset := Fields.merge_empty hdataset
  rw [render_of_compile env hcompile, hmerge]

/-! ## Composition -/

/-- Two lists of actions run together as one after the other, the second in the scope of the dataset
that is seen behind the first. -/
theorem run_append_of (dataset : Dataset) (first second : List Action) :
    env.run child (.of dataset) (first ++ second) =
      env.run child (.of dataset) first >>= fun before =>
        env.run child (.of (env.seen dataset first)) second >>= fun after =>
          pure (before.1 ++ after.1, after.2) := by
  rw [run_append, ← scope_run env child dataset first]
  rfl

/-- At every level two lists of actions have the output of the first and then that of the second. -/
theorem value_renderAt_append (level : Nat) (source : String) (dataset : Dataset)
    (first second : List Action) :
    (env.renderAt level source dataset (first ++ second)).value =
      (env.renderAt level source dataset first).value ++
        (env.renderAt level source (env.seen dataset first) second).value := by
  by_cases h : level ≤ env.config.maxDepth
  · rw [renderAt_of_le env h, renderAt_of_le env h, renderAt_of_le env h, run_append_of]
    rfl
  · rw [Nat.not_le] at h
    rw [renderAt_of_lt env h, renderAt_of_lt env h, renderAt_of_lt env h]
    rfl

/-- Rendering composes. Actions put together run as one after the other and have the output of both,
however and at whatever level their bodies are rendered; the second see the dataset overlaid, the
last field with a key winning, with what the tags among the first load (`loaded`), and nothing else
that the first do; and the scope between them lists the paths of that dataset. -/
theorem run_append_isolated (env : Env) (child : Child) (dataset : Dataset)
    (first second : List Action) :
    let between := env.seen dataset first
    (env.run child (.of dataset) (first ++ second) =
      env.run child (.of dataset) first >>= fun before =>
        env.run child (.of between) second >>= fun after =>
          pure (before.1 ++ after.1, after.2)) ∧
    (∀ level source, (env.renderAt level source dataset (first ++ second)).value =
      (env.renderAt level source dataset first).value ++
        (env.renderAt level source between second).value) ∧
    (∀ key, Fields.get? key between =
      (Fields.get? key (env.loaded dataset first).flatten.reverse).or
        (Fields.get? key dataset)) ∧
    (∀ child', (env.run child' (.of dataset) (first.filter isLoad)).value.2 =
      (env.run child (.of dataset) first).value.2) ∧
    (env.run child (.of dataset) first).value.2.dataset = between ∧
    (env.run child (.of dataset) first).value.2.keys = between.keySet := by
  intro between
  refine ⟨run_append_of env child dataset first second,
    fun level source => value_renderAt_append env level source dataset first second,
    fun key => Fields.get?_foldl_merge key dataset (env.loaded dataset first), ?_, ?_, ?_⟩
  · intro child'
    rw [scope_run, scope_run, seen_filter]
  · rw [scope_run]
    rfl
  · rw [scope_run]
    rfl

end Stencil.Render.Env
