import Stencil.Proofs.ActionTree
import Stencil.Proofs.Congruence
import Stencil.Proofs.Events

/-!
# The limit on the depth only cuts

Bodies and included templates are rendered one level deeper, as far down as the limit allows
(`Env.renderAt`). A rendering that the limit has not cut is the same with every higher limit,
whatever includes what. No actions run below the limit. A template that includes no other is not cut
at all if its blocks are nested no deeper than the limit.
-/

namespace Stencil

namespace Logged

variable {α β : Type}

/-- Tells some events. -/
def tell (events : List Event) : Logged Unit := ⟨(), events⟩

/-- The second result extends the first: they differ only where the first has been cut. -/
def Extends (x y : Logged α) : Prop := x.Uncut → y = x

theorem Extends.refl (x : Logged α) : x.Extends x := fun _ => rfl

/-- One result after another has been cut where either of them has. -/
theorem Extends.bind {x y : Logged α} {f g : α → Logged β} (h : x.Extends y)
    (hf : ∀ a, (f a).Extends (g a)) : (x >>= f).Extends (y >>= g) := by
  intro huncut
  rw [uncut_bind] at huncut
  obtain ⟨hfirst, hsecond⟩ := huncut
  have hvalue : g x.value = f x.value := hf x.value hsecond
  rw [h hfirst]
  refine eq_of ?_ ?_
  · rw [value_bind, value_bind, hvalue]
  · rw [events_bind, events_bind, hvalue]

theorem extends_congruence : Congruence fun _ x y => x.Extends y := ⟨.refl, .bind⟩

end Logged

namespace Render

/-- One way to render bodies extends another. -/
def Child.Extends (child deeper : Child) : Prop :=
  ∀ source dataset actions, (child source dataset actions).Extends (deeper source dataset actions)

/-- Rendering some actions one level deeper tells events with a property only. -/
def Child.Only (child : Child) (p : Event → Prop) (actions : List Template.Action) : Prop :=
  ∀ source dataset, (child source dataset actions).Only p

namespace Env

open Template Logged

/-! ## Other limits -/

/-- The same surroundings with another limit. -/
def withLimit (env : Env) (limit : Nat) : Env :=
  { env with config := { env.config with maxDepth := limit } }

section Limit

variable (env : Env) (limit : Nat)

theorem firstOf_withLimit : (env.withLimit limit).firstOf = env.firstOf := by
  funext scope arguments
  induction arguments with
  | nil => rfl
  | cons t ts ih =>
    rw [firstOf, firstOf, ih]
    rfl

theorem blockFilters_withLimit : (env.withLimit limit).blockFilters = env.blockFilters := by
  funext scope arguments
  induction arguments with
  | nil => rfl
  | cons t ts ih =>
    funext value
    rw [blockFilters, blockFilters, ih]
    rfl

theorem branches_withLimit : (env.withLimit limit).branches = env.branches := by
  funext child scope source otherwise all
  induction all generalizing source with
  | nil => rfl
  | cons branch rest ih =>
    rw [branches, branches, ih]
    rfl

theorem output_withLimit : (env.withLimit limit).output = env.output := by
  funext child scope action
  cases action with
  | «instruction» kind arguments =>
    cases kind with
    | firstof => exact congrFun (congrFun (firstOf_withLimit env limit) scope) arguments
    | replace => cases arguments <;> rfl
    | _ => rfl
  | raw kind content => cases kind <;> rfl
  | filterBlock arguments body =>
    rw [output, output, filterBlock, filterBlock, blockFilters_withLimit]
  | conditional all otherwise => rw [output, output, branches_withLimit]
  | _ => rfl

theorem step_withLimit : (env.withLimit limit).step = env.step := by
  funext child scope action
  unfold step
  rw [output_withLimit]
  rfl

/-- Only entering a level looks at the limit. -/
theorem run_withLimit : (env.withLimit limit).run = env.run := by
  funext child scope actions
  induction actions generalizing scope with
  | nil => rfl
  | cons action actions ih =>
    rw [run_cons, run_cons, step_withLimit]
    simp only [ih]

end Limit

/-! ## Higher limits -/

/-- Rendering with more room extends rendering with less. The limit itself is seen only in the event
that tells of the cut. -/
theorem renderIn_extends (env : Env) {limit limit' room room' : Nat} (h : room ≤ room')
    (level : Nat) :
    Child.Extends ((env.withLimit limit).renderIn room level)
      ((env.withLimit limit').renderIn room' level) := by
  induction room generalizing room' level with
  | zero =>
    intro source dataset actions huncut
    rw [renderIn, uncut_withEvent] at huncut
    cases huncut
  | succ room ih =>
    intro source dataset actions
    cases room' with
    | zero => exact absurd h (Nat.not_succ_le_zero room)
    | succ room' =>
      have hchild := ih (Nat.le_of_succ_le_succ h) (level + 1)
      rw [renderIn, renderIn, run_withLimit, run_withLimit]
      exact .bind (run_related extends_congruence hchild _ actions) fun _ => .refl _

/-- So does rendering a text with a higher limit extend rendering it with a lower one. -/
theorem render_extends (env : Env) {limit limit' : Nat} (h : limit ≤ limit') (text : String)
    (dataset : Dataset) :
    ((env.withLimit limit).render text dataset).Extends
      ((env.withLimit limit').render text dataset) := by
  cases hcompile : compile env.config.trimBlocks text with
  | error reason =>
    have hrender (limit : Nat) :
        (env.withLimit limit).render text dataset = pure (.error reason) :=
      render_of_error (env.withLimit limit) hcompile dataset
    rw [hrender, hrender]
    exact .refl _
  | ok actions =>
    have hroom : limit + 1 - 0 ≤ limit' + 1 - 0 := by omega
    rw [render_of_compile (env.withLimit limit) hcompile,
      render_of_compile (env.withLimit limit') hcompile]
    exact .bind (renderIn_extends env hroom 0 "page" _ actions) fun _ => .refl _

/-! ## Levels that run -/

/-- Renders actions at a level, and lets an observer tell something of every level where actions
run, each time before they do. -/
def watchIn (env : Env) (observer : Nat → List Event) : (room : Nat) → (level : Nat) → Child
  | 0, level, source, _, _ => .withEvent (.tooDeep level env.config.maxDepth source) ""
  | room + 1, level, _, dataset, actions => do
    tell (observer level)
    let (out, _) ← env.run (watchIn env observer room (level + 1)) (.of dataset) actions
    pure out

/-- Renders actions at a level under the eyes of an observer. -/
def watchAt (env : Env) (observer : Nat → List Event) (level : Nat) : Child :=
  env.watchIn observer (env.config.maxDepth + 1 - level) level

theorem watchIn_silent (env : Env) (room level : Nat) :
    env.watchIn (fun _ => []) room level = env.renderIn room level := by
  induction room generalizing level with
  | zero => rfl
  | succ room ih =>
    funext source dataset actions
    rw [watchIn, renderIn, ih]
    rfl

/-- An observer with nothing to tell leaves rendering as it is. -/
theorem watchAt_silent (env : Env) : env.watchAt (fun _ => []) = env.renderAt := by
  funext level
  exact watchIn_silent env _ level

theorem watchIn_congr (env : Env) {observer observer' : Nat → List Event}
    (h : ∀ level ≤ env.config.maxDepth, observer level = observer' level) {room level : Nat}
    (hroom : level + room ≤ env.config.maxDepth + 1) :
    env.watchIn observer room level = env.watchIn observer' room level := by
  induction room generalizing level with
  | zero => rfl
  | succ room ih =>
    have hlevel : observer level = observer' level := h level (by omega)
    have hchild : env.watchIn observer room (level + 1) = env.watchIn observer' room (level + 1) :=
      ih (by omega)
    funext source dataset actions
    rw [watchIn, watchIn, hlevel, hchild]

/-- What observers tell of levels below the limit is never heard. -/
theorem watchAt_congr (env : Env) {observer observer' : Nat → List Event}
    (h : ∀ level ≤ env.config.maxDepth, observer level = observer' level) :
    env.watchAt observer = env.watchAt observer' := by
  funext level
  by_cases hlevel : level ≤ env.config.maxDepth + 1
  · exact watchIn_congr env h (by omega)
  · have hroom : env.config.maxDepth + 1 - level = 0 := by omega
    rw [watchAt, watchAt, hroom]
    rfl

/-! ## Templates without inclusions -/

section Only

variable {env : Env} {child : Child} {p : Event → Prop}

theorem iterations_only {body : List Action} (h : child.Only p body) (dataset : Dataset)
    (name : String) (length index : Nat) (items : List Value) :
    (iterations child dataset name body length index items).Only p := by
  induction items generalizing index with
  | nil => exact only_pure ""
  | cons item items ih =>
    rw [iterations, only_bind, only_bind]
    exact ⟨h "for" _, ih (index + 1), only_pure _⟩

variable (hp : ∀ e, e.isTooDeep = false → p e)
include hp

theorem forLoop_only {body : Body} (h : child.Only p body.actions) (scope : Scope)
    (arguments : List Token) : (env.forLoop child scope arguments body).Only p := by
  unfold forLoop
  split
  · split
    · rw [only_bind]
      refine ⟨(uncut_resolve env scope _).only hp, ?_⟩
      split
      · exact iterations_only h _ _ _ _ _
      · exact only_withEvent.2 (hp _ rfl)
    · exact only_withEvent.2 (hp _ rfl)
  · exact only_withEvent.2 (hp _ rfl)

theorem branches_only {otherwise : Option Body} {all : List Branch}
    (h : ∀ body ∈ all.map Branch.body ++ otherwise.toList, child.Only p body.actions)
    (scope : Scope) (source : String) :
    (env.branches child scope source otherwise all).Only p := by
  induction all generalizing source with
  | nil =>
    cases otherwise with
    | none => exact only_pure ""
    | some body => exact h body (by simp) "else" scope.dataset
  | cons branch rest ih =>
    rw [branches, only_bind]
    refine ⟨(uncut_holds env.surroundings scope branch.condition).only hp, ?_⟩
    split
    · exact h branch.body (by simp) source scope.dataset
    · exact ih (fun body hbody => h body (List.mem_cons_of_mem _ hbody)) "elif"

theorem filterBlock_only {body : Body} (h : child.Only p body.actions) (scope : Scope)
    (arguments : List Token) : (env.filterBlock child scope arguments body).Only p := by
  rw [filterBlock, only_bind, only_bind]
  exact ⟨h "filter" scope.dataset, (uncut_blockFilters env scope arguments _).only hp, only_pure _⟩

theorem useDataset_only (hdataset : ∀ id, (env.loader.dataset id).Only p) (scope : Scope)
    (arguments : List Token) : (env.useDataset scope arguments).Only p := by
  rw [useDataset, only_bind]
  refine ⟨(uncut_sourceName env scope "usedataset" arguments).only hp, ?_⟩
  split
  · exact only_pure scope
  · rw [only_bind]
    exact ⟨hdataset _, only_pure _⟩

theorem output_only {action : Action}
    (hclosed : ∀ arguments, action ≠ .instruction .useTemplate arguments)
    (h : ∀ body ∈ action.children, child.Only p body.actions) (scope : Scope) :
    (env.output child scope action).Only p := by
  cases action with
  | literal text => exact only_pure text
  | raw kind content => cases kind <;> exact only_pure _
  | «instruction» kind arguments =>
    cases kind with
    | firstof => exact (uncut_firstOf env scope arguments).only hp
    | length => exact (uncut_lengthOf env scope arguments).only hp
    | replace =>
      rcases arguments with _ | ⟨t, ts⟩
      · exact only_pure ""
      · rw [output, only_bind]
        exact ⟨(uncut_resolve env scope t).only hp, only_pure _⟩
    | useDataset => exact only_pure ""
    | useTemplate => exact absurd rfl (hclosed arguments)
    | unknown name => exact only_withEvent.2 (hp _ rfl)
  | forLoop arguments body =>
    exact forLoop_only hp (h body (by simp [Action.children])) scope arguments
  | filterBlock arguments body =>
    exact filterBlock_only hp (h body (by simp [Action.children])) scope arguments
  | conditional all otherwise => exact branches_only hp h scope "if"

variable (hdataset : ∀ id, (env.loader.dataset id).Only p)
include hdataset

theorem step_only {action : Action}
    (hclosed : ∀ arguments, action ≠ .instruction .useTemplate arguments)
    (h : ∀ body ∈ action.children, child.Only p body.actions) (scope : Scope) :
    (env.step child scope action).Only p := by
  unfold step
  split
  · rw [only_bind]
    exact ⟨useDataset_only hp hdataset scope _, only_pure _⟩
  · rw [only_bind]
    exact ⟨output_only hp hclosed h scope, only_pure _⟩

/-- A run without inclusions tells of the depth only where rendering its bodies or loading a dataset
does. -/
theorem run_only {actions : List Action}
    (hclosed : ∀ action ∈ actions, ∀ arguments, action ≠ .instruction .useTemplate arguments)
    (h : ∀ action ∈ actions, ∀ body ∈ action.children, child.Only p body.actions)
    (scope : Scope) : (env.run child scope actions).Only p := by
  induction actions generalizing scope with
  | nil => exact only_pure _
  | cons action actions ih =>
    rw [List.forall_mem_cons] at hclosed h
    rw [run_cons, only_bind, only_bind]
    exact ⟨step_only hp hdataset hclosed.1 h.1 scope, ih hclosed.2 h.2 _, only_pure _⟩

/-- Where blocks are nested less deep than there is room, rendering does not come to its end. -/
theorem renderIn_only {room : Nat} {actions : List Action}
    (hclosed : ∀ arguments, ¬Occurs (.instruction .useTemplate arguments) actions)
    (hnesting : nesting actions < room) (level : Nat) :
    Child.Only (env.renderIn room level) p actions := by
  induction room generalizing actions level with
  | zero => exact absurd hnesting (Nat.not_lt_zero _)
  | succ room ih =>
    intro source dataset
    rw [renderIn, only_bind]
    refine ⟨run_only hp hdataset ?_ ?_ _, only_pure _⟩
    · rintro action haction arguments rfl
      exact hclosed arguments (.inl haction)
    · intro action haction body hbody
      have hbodyNesting : nesting body.actions < room := by
        have hchild := Action.nesting_child hbody
        have haction := nesting_le_of_mem haction
        omega
      exact ih (fun arguments hoccurs => hclosed arguments (hoccurs.of_child haction hbody))
        hbodyNesting (level + 1)

end Only

/-! ## The limit -/

/-- The limit on the depth cuts and does nothing else. A rendering that it has not cut
(`Logged.Uncut`) is the same, events and all, with every higher limit; no actions run at a level
below it, so that whatever observers would tell of such levels is never heard; and a template
without inclusions whose blocks are nested no deeper than the limit is not cut: of events like that
there are only those that the loader itself tells with a dataset. -/
theorem limit_only_cuts (env : Env) (text : String) (dataset : Dataset) :
    (∀ limit limit', limit ≤ limit' → ((env.withLimit limit).render text dataset).Uncut →
      (env.withLimit limit').render text dataset = (env.withLimit limit).render text dataset) ∧
    (env.watchAt (fun _ => []) = env.renderAt ∧
      ∀ observer observer' : Nat → List Event,
        (∀ level ≤ env.config.maxDepth, observer level = observer' level) →
          env.watchAt observer = env.watchAt observer') ∧
    (∀ actions, compile env.config.trimBlocks text = .ok actions →
      (∀ arguments, ¬Occurs (.instruction .useTemplate arguments) actions) →
      nesting actions ≤ env.config.maxDepth →
      ∀ e ∈ (env.render text dataset).events, e.isTooDeep = true →
        ∃ id, e ∈ (env.loader.dataset id).events) := by
  refine ⟨fun limit limit' h => render_extends env h text dataset,
    ⟨watchAt_silent env, fun observer observer' => watchAt_congr env⟩, ?_⟩
  intro actions hcompile hclosed hnesting
  let told (e : Event) : Prop := e.isTooDeep = true → ∃ id, e ∈ (env.loader.dataset id).events
  have hp : ∀ e, e.isTooDeep = false → told e := by
    intro e hfalse htrue
    rw [hfalse] at htrue
    cases htrue
  have hdataset : ∀ id, (env.loader.dataset id).Only told := fun id e he _ => ⟨id, he⟩
  have hrender : (env.renderAt 0 "page" (Fields.merge [] dataset) actions).Only told :=
    renderIn_only hp hdataset hclosed (Nat.lt_succ_of_le hnesting) 0 "page" _
  have hall : (env.render text dataset).Only told := by
    rw [render_of_compile env hcompile, only_bind]
    exact ⟨hrender, only_pure _⟩
  exact hall

/-- A template that includes itself while there is more needs two levels below the page here; with
all the levels it might have it renders the same. Two blocks, one in the other, fit as well. -/
theorem limit_only_cuts_page :
    let page := "\x7b% if more %\x7d.\x7b% usedataset 'last' %\x7d" ++
      "\x7b% usetemplate 'page' %\x7d\x7b% endif %\x7d"
    let sources : Sources := ⟨[("page", page)], [("last", [("more", .bool false)])]⟩
    let env : Env := ⟨⟨none, false, 2⟩, sources.loader, ⟨⟨0, 0, 0⟩, fun _ => 0⟩⟩
    let dataset : Dataset := [("more", .bool true)]
    let loud (level : Nat) : List Event := if level ≤ 2 then [] else [.lengthNeedsArgument]
    let loop := "\x7b% for x in xs %\x7d.\x7b% endfor %\x7d"
    let nested := "\x7b% filter upper %\x7d" ++ loop ++ "\x7b% endfilter %\x7d"
    let actions : List Action :=
      [.filterBlock (tokens "upper".toList) (.mk loop
        [.forLoop (tokens "x in xs".toList) (.mk "." [.literal "."])])]
    ((env.withLimit 2).render page dataset).Uncut ∧
      (env.withLimit 64).render page dataset = (env.withLimit 2).render page dataset ∧
      env.watchAt loud = env.renderAt ∧
      compile env.config.trimBlocks nested = .ok actions ∧
      nesting actions = 2 ∧
      ∀ e ∈ (env.render nested dataset).events, e.isTooDeep = true →
        ∃ id, e ∈ (env.loader.dataset id).events := by
  intro page sources env dataset loud loop nested actions
  obtain ⟨hhigher, -, -⟩ := limit_only_cuts env page dataset
  obtain ⟨-, ⟨hsilent, hwatch⟩, hdeep⟩ := limit_only_cuts env nested dataset
  have huncut : ((env.withLimit 2).render page dataset).Uncut := by
    have hrender : (env.withLimit 2).render page dataset = pure (.ok ".") := by
      simp only [env, page, sources, dataset, withLimit]
      cbv
    rw [hrender]
    exact uncut_pure _
  have hloud : env.watchAt loud = env.watchAt fun _ => [] :=
    hwatch loud (fun _ => []) fun level hlevel => if_pos hlevel
  have hcompile : compile env.config.trimBlocks nested = .ok actions := by
    simp only [env, nested, loop, actions]
    cbv
  have hnesting : nesting actions = 2 := by
    simp only [actions]
    cbv
  refine ⟨huncut, hhigher 2 64 (by decide) huncut, hloud.trans hsilent, hcompile, hnesting, ?_⟩
  refine hdeep actions hcompile (fun arguments hoccurs => ?_) hnesting.le
  simp [actions, Occurs, actionBodies, Action.bodies, Body.bodies, Body.actions] at hoccurs

end Env

end Render

end Stencil
