import Stencil.Proofs.ActionTree
import Stencil.Proofs.Composition
import Stencil.Proofs.Lookup

/-!
# Scanned names cover what rendering reads

Two datasets that agree at every key reached by a scanned name (`scan`) cannot be told apart by
rendering, unless the template includes others: every value that is looked up belongs to a scanned
name, and whatever changes the dataset on the way changes both alike. The output is the same, and so
are the events.
-/

namespace Stencil

/-- Steps that have the same results for every item have the same results for the list. -/
theorem Logged.mapList_congr {α β : Type} {f g : α → Logged β} {as : List α}
    (h : ∀ a ∈ as, f a = g a) : mapList f as = mapList g as := by
  induction as with
  | nil => rfl
  | cons a as ih =>
    rw [mapList, mapList, h a (by simp), ih fun other hother => h other (by simp [hother])]

namespace Template

/-! ## Names of tokens -/

/-- The value of a token that is a name and no operator is among its names. -/
theorem Token.value_mem_names {t : Token} (hkind : t.kind = .name) (hop : t.isOperator = false) :
    t.value ∈ t.names := by
  simp [names, hkind, hop]

theorem Token.argumentNames_subset (t : Token) : t.argumentNames ⊆ t.names :=
  List.subset_append_right _ _

/-- Outside conditions there are no operators. -/
theorem Token.isOperator_eq_false {t : Token} (h : t.inCondition = false) :
    t.isOperator = false := by
  simp [isOperator, h]

section Resolve

variable {s : Surroundings} {names : List String} {d₁ d₂ : Dataset} (h : Alike names d₁ d₂)
include h

/-! ## Values of tokens -/

theorem Argument.resolve_congr {a : Argument} (ha : a.names ⊆ names) :
    a.resolve d₁ = a.resolve d₂ := by
  unfold Argument.resolve
  split
  · rename_i hkind
    exact h.fetch_eq (ha (by simp [Argument.names, hkind])) .any
  · rfl

theorem applyNamed_congr (name : String) {arguments : List Argument}
    (ha : arguments.flatMap Argument.names ⊆ names) :
    applyNamed s d₁ name arguments = applyNamed s d₂ name arguments := by
  have hgiven : Logged.mapList (Argument.resolve d₁) arguments =
      Logged.mapList (Argument.resolve d₂) arguments :=
    Logged.mapList_congr fun a hmem => Argument.resolve_congr h fun n hn =>
      ha (List.mem_flatMap.2 ⟨a, hmem, hn⟩)
  funext value
  unfold applyNamed
  rw [hgiven]

/-- A chain of filters looks up no names but those among its arguments. -/
theorem applyCalls_congr {calls : List FilterCall}
    (hc : calls.flatMap (fun call => call.arguments.flatMap Argument.names) ⊆ names) :
    applyCalls s d₁ calls = applyCalls s d₂ calls := by
  induction calls with
  | nil => rfl
  | cons call calls ih =>
    rw [List.flatMap_cons, List.append_subset] at hc
    funext value
    rw [applyCalls, applyCalls, applyNamed_congr h call.name hc.1, ih hc.2]

theorem Token.applyCalls_congr {t : Token} (ht : t.argumentNames ⊆ names) :
    applyCalls s d₁ t.filters = applyCalls s d₂ t.filters :=
  Template.applyCalls_congr h (List.Subset.trans (List.subset_append_right _ _) ht)

/-- A token outside conditions looks up no names but its own. -/
theorem Token.resolve_congr {t : Token} (hc : t.inCondition = false) (ht : t.names ⊆ names) :
    t.resolve s d₁ = t.resolve s d₂ := by
  have hcalls : applyCalls s d₁ t.filters = applyCalls s d₂ t.filters :=
    Token.applyCalls_congr h (List.Subset.trans t.argumentNames_subset ht)
  unfold Token.resolve
  rw [hcalls]
  split
  · rfl
  · rename_i hkind _
    have hop := Token.isOperator_eq_false hc
    rw [h.fetch_eq (ht (Token.value_mem_names hkind hop)) .any]
  · rfl

/-! ## Conditions -/

theorem Token.bound_congr {t : Token} (hop : t.isOperator = false) (ht : t.names ⊆ names) :
    t.bound d₁ = t.bound d₂ := by
  unfold Token.bound
  split
  · rfl
  · rename_i hkind _
    exact h.lookup_eq (ht (Token.value_mem_names hkind hop))
  · rfl

/-- A token of a condition looks up no names but its own, and none if it is an operator. -/
theorem Token.operand_congr {t : Token} (ht : t.names ⊆ names) :
    t.operand s d₁ = t.operand s d₂ := by
  have hcalls : applyCalls s d₁ t.filters = applyCalls s d₂ t.filters :=
    Token.applyCalls_congr h (List.Subset.trans t.argumentNames_subset ht)
  unfold Token.operand
  split
  · rfl
  · rename_i hop
    rw [Token.bound_congr h (by simpa using hop) ht, hcalls]

theorem operands_congr {ts : List Token} (hts : ts.flatMap Token.names ⊆ names) :
    operands s d₁ ts = operands s d₂ ts := by
  induction ts with
  | nil => rfl
  | cons t ts ih =>
    rw [List.flatMap_cons, List.append_subset] at hts
    rw [operands, operands, Token.operand_congr h hts.1, ih hts.2]

theorem holds_congr {condition : List Token} (hc : condition.flatMap Token.names ⊆ names) :
    holds s d₁ condition = holds s d₂ condition := by
  unfold holds
  rw [operands_congr h hc]

end Resolve

end Template

namespace Render.Env

open Template

variable {env : Env} {names : List String}

/-! ## Tags -/

section Tags

variable {d₁ d₂ : Dataset} (h : Alike names d₁ d₂) {arguments : List Token}
  (hc : ∀ t ∈ arguments, t.inCondition = false) (hn : arguments.flatMap Token.names ⊆ names)
include h hc hn

theorem resolve_congr {t : Token} (ht : t ∈ arguments) : env.resolve d₁ t = env.resolve d₂ t :=
  Token.resolve_congr h (hc t ht) fun _ hname => hn (List.mem_flatMap.2 ⟨t, ht, hname⟩)

theorem firstOf_congr : env.firstOf d₁ arguments = env.firstOf d₂ arguments := by
  induction arguments with
  | nil => rfl
  | cons t ts ih =>
    have hrest := ih (fun other hother => hc other (by simp [hother]))
      (List.Subset.trans (List.subset_append_right _ _) hn)
    rw [firstOf, firstOf, hrest, resolve_congr h hc hn (by simp)]

/-- The second look at the name of a token sees the same too. -/
theorem lengthOf_congr : env.lengthOf d₁ arguments = env.lengthOf d₂ arguments := by
  rcases arguments with _ | ⟨t, ts⟩
  · rfl
  rw [lengthOf, lengthOf, resolve_congr h hc hn (by simp)]
  congr 1
  funext value
  by_cases hkind : t.kind = .name
  · have hop := Token.isOperator_eq_false (hc t (by simp))
    have hmem : t.value ∈ names :=
      hn (List.mem_flatMap.2 ⟨t, by simp, Token.value_mem_names hkind hop⟩)
    have hsize : pathSize d₁ t.value = pathSize d₂ t.value := by
      unfold pathSize
      rw [h.walk_eq hmem]
    rw [Scope.keys_of, Scope.keys_of, Scope.dataset_of, Scope.dataset_of,
      h.contains_keySet_eq hmem, hsize]
  · simp [hkind]

theorem sourceName_congr (tag : String) :
    env.sourceName d₁ tag arguments = env.sourceName d₂ tag arguments := by
  rcases arguments with _ | ⟨t, ts⟩
  · rfl
  rw [sourceName, sourceName, resolve_congr h hc hn (by simp)]

end Tags

/-- A filter block looks up no names but those among the arguments of its filters. -/
theorem blockFilters_congr {d₁ d₂ : Dataset} (h : Alike names d₁ d₂) {arguments : List Token}
    (hn : arguments.flatMap Token.argumentNames ⊆ names) :
    env.blockFilters d₁ arguments = env.blockFilters d₂ arguments := by
  induction arguments with
  | nil => rfl
  | cons t ts ih =>
    rw [List.flatMap_cons, List.append_subset] at hn
    -- The value of the token names a filter, and its argument is that of the filter.
    have hnamed : applyNamed env.surroundings d₁ t.value t.argument.toList =
        applyNamed env.surroundings d₂ t.value t.argument.toList :=
      applyNamed_congr h t.value (List.Subset.trans (List.subset_append_left _ _) hn.1)
    funext value
    rw [blockFilters, blockFilters, hnamed, Token.applyCalls_congr h hn.1, ih hn.2]

/-! ## Blocks -/

/-- Actions whose rendering stays within some names: they are all scanned, no other template is
included, and the words outside conditions are no operators. -/
structure Scanned (names : List String) (actions : List Action) : Prop where
  covered : actionNames actions ⊆ names
  closed : ∀ arguments, ¬Occurs (.instruction .useTemplate arguments) actions
  unconditional : ∀ action, Occurs action actions → action.Unconditional

/-- The bodies of such actions are such. -/
theorem Scanned.child {actions : List Action} (h : Scanned names actions) {action : Action}
    (haction : action ∈ actions) {body : Body} (hbody : body ∈ action.children) :
    Scanned names body.actions where
  covered name hname := by
    refine h.covered ?_
    rw [actionNames_eq, List.mem_flatMap]
    exact ⟨action, haction, Action.names_of_child hbody hname⟩
  closed arguments hoccurs := h.closed arguments (hoccurs.of_child haction hbody)
  unconditional inner hoccurs := h.unconditional inner (hoccurs.of_child haction hbody)

theorem Scanned.names_subset {actions : List Action} (h : Scanned names actions)
    {action : Action} (haction : action ∈ actions) : action.names ⊆ names := by
  intro name hname
  refine h.covered ?_
  rw [actionNames_eq, List.mem_flatMap]
  exact ⟨action, haction, hname⟩

/-- A way to render bodies that does not tell alike datasets apart. -/
def Blind (names : List String) (child : Child) : Prop :=
  ∀ {d₁ d₂ : Dataset} {actions : List Action} (source : String), Alike names d₁ d₂ →
    Scanned names actions → child source d₁ actions = child source d₂ actions

section Blocks

variable {child : Child} (hchild : Blind names child) {d₁ d₂ : Dataset} (h : Alike names d₁ d₂)
include hchild h

/-- Every iteration adds the same fields on both sides. -/
theorem iterations_congr {body : List Action} (hbody : Scanned names body) (name : String)
    (length index : Nat) (items : List Value) :
    iterations child d₁ name body length index items =
      iterations child d₂ name body length index items := by
  induction items generalizing index with
  | nil => rfl
  | cons item items ih =>
    have hdata : Alike names (iterationData d₁ name index length item)
        (iterationData d₂ name index length item) :=
      (h.insert "forloop" _).insert name item
    rw [iterations, iterations, hchild "for" hdata hbody, ih]

theorem forLoop_congr {arguments : List Token} {body : Body}
    (hc : ∀ t ∈ arguments, t.inCondition = false) (hn : loopNames arguments ⊆ names)
    (hbody : Scanned names body.actions) :
    env.forLoop child d₁ arguments body = env.forLoop child d₂ arguments body := by
  unfold forLoop
  split
  · rename_i name word items
    split
    · have hitems : items.names ⊆ names := fun n hmem => hn (by simp [loopNames, hmem])
      have hresolve : env.resolve d₁ items = env.resolve d₂ items :=
        Token.resolve_congr h (hc items (by simp)) hitems
      have hiterations := fun values : List Value =>
        iterations_congr hchild h hbody name.value values.length 0 values
      simp only [hresolve, Scope.dataset_of, hiterations]
    · rfl
  · rfl

theorem branches_congr (source : String) {otherwise : Option Body} {all : List Branch}
    (hconditions : ∀ branch ∈ all, branch.condition.flatMap Token.names ⊆ names)
    (hbodies : ∀ body ∈ all.map Branch.body ++ otherwise.toList, Scanned names body.actions) :
    env.branches child d₁ source otherwise all = env.branches child d₂ source otherwise all := by
  induction all generalizing source with
  | nil =>
    cases otherwise with
    | none => rfl
    | some body => exact hchild "else" h (hbodies body (by simp))
  | cons branch rest ih =>
    have hrest := ih "elif" (fun other hother => hconditions other (by simp [hother]))
      (fun body hbody => hbodies body (List.mem_cons_of_mem _ hbody))
    rw [branches, branches, holds_congr h (hconditions branch (by simp)), Scope.dataset_of,
      Scope.dataset_of, hchild source h (hbodies branch.body (by simp)), hrest]

theorem filterBlock_congr {arguments : List Token} {body : Body}
    (hn : arguments.flatMap Token.argumentNames ⊆ names) (hbody : Scanned names body.actions) :
    env.filterBlock child d₁ arguments body = env.filterBlock child d₂ arguments body := by
  unfold filterBlock
  rw [Scope.dataset_of, Scope.dataset_of, hchild "filter" h hbody, blockFilters_congr h hn]

/-- An action of a template without inclusions has the same output on both sides. -/
theorem output_congr {actions : List Action} (hactions : Scanned names actions) {action : Action}
    (hmem : action ∈ actions) : env.output child d₁ action = env.output child d₂ action := by
  have hnames := hactions.names_subset hmem
  have hwords := hactions.unconditional action (.inl hmem)
  have hbodies : ∀ body ∈ action.children, Scanned names body.actions :=
    fun body => hactions.child hmem
  cases action with
  | literal text => rfl
  | raw kind content => cases kind <;> rfl
  | «instruction» kind arguments =>
    cases kind with
    | firstof => exact firstOf_congr h hwords hnames
    | length => exact lengthOf_congr h hwords hnames
    | replace =>
      rcases arguments with _ | ⟨t, ts⟩
      · rfl
      · rw [output, output, resolve_congr h hwords hnames (by simp)]
    | useDataset => rfl
    | useTemplate => exact absurd (.inl hmem) (hactions.closed arguments)
    | unknown name => rfl
  | forLoop arguments body =>
    rw [Action.names, List.append_subset] at hnames
    exact forLoop_congr hchild h hwords hnames.1 (hbodies body (by simp [Action.children]))
  | filterBlock arguments body =>
    rw [Action.names, List.append_subset] at hnames
    exact filterBlock_congr hchild h hnames.1 (hbodies body (by simp [Action.children]))
  | conditional all otherwise =>
    refine branches_congr hchild h "if" (fun branch hbranch name hname => ?_) hbodies
    exact hnames (Action.names_of_condition hbranch hname)

end Blocks

/-! ## Runs -/

/-- The scopes of alike datasets. -/
def AlikeScopes (names : List String) (s₁ s₂ : Scope) : Prop :=
  ∃ d₁ d₂, s₁ = .of d₁ ∧ s₂ = .of d₂ ∧ Alike names d₁ d₂

/-- Two results with the same text, the same events and the scopes of alike datasets. -/
structure SameRun (names : List String) (x y : Logged (String × Scope)) : Prop where
  text : x.value.1 = y.value.1
  events : x.events = y.events
  scopes : AlikeScopes names x.value.2 y.value.2

/-- A tag that loads a dataset loads the same one on both sides. -/
theorem useDataset_alike (env : Env) {d₁ d₂ : Dataset} (h : Alike names d₁ d₂)
    {arguments : List Token} (hc : ∀ t ∈ arguments, t.inCondition = false)
    (hn : arguments.flatMap Token.names ⊆ names) :
    (env.useDataset d₁ arguments).events = (env.useDataset d₂ arguments).events ∧
      AlikeScopes names (env.useDataset d₁ arguments).value
        (env.useDataset d₂ arguments).value := by
  unfold useDataset
  rw [sourceName_congr h hc hn]
  simp only [Logged.events_bind, Logged.value_bind]
  split
  · exact ⟨rfl, d₁, d₂, rfl, rfl, h⟩
  · exact ⟨rfl, _, _, rfl, rfl, h.merge _⟩

/-- One step of a run keeps the datasets alike. -/
theorem step_sameRun (env : Env) {child : Child} (hchild : Blind names child)
    {d₁ d₂ : Dataset} (h : Alike names d₁ d₂) {actions : List Action}
    (hactions : Scanned names actions) {action : Action} (hmem : action ∈ actions) :
    SameRun names (env.step child d₁ action) (env.step child d₂ action) := by
  have houtput : env.output child d₁ action = env.output child d₂ action :=
    output_congr hchild h hactions hmem
  unfold step
  split
  · obtain ⟨hevents, hscopes⟩ := useDataset_alike env h
      (hactions.unconditional _ (.inl hmem)) (hactions.names_subset hmem)
    exact ⟨rfl, by simp [hevents], hscopes⟩
  · exact ⟨by simp [houtput], by simp [houtput], d₁, d₂, rfl, rfl, h⟩

/-- So does a whole run. -/
theorem run_sameRun (env : Env) {child : Child} (hchild : Blind names child)
    {all : List Action} (hall : Scanned names all) {actions : List Action} (hsub : actions ⊆ all)
    {d₁ d₂ : Dataset} (h : Alike names d₁ d₂) :
    SameRun names (env.run child d₁ actions) (env.run child d₂ actions) := by
  induction actions generalizing d₁ d₂ with
  | nil => exact ⟨rfl, rfl, d₁, d₂, rfl, rfl, h⟩
  | cons action actions ih =>
    rw [List.cons_subset] at hsub
    have hstep := step_sameRun env hchild h hall hsub.1
    obtain ⟨e₁, e₂, he₁, he₂, halike⟩ := hstep.scopes
    have hrest := ih hsub.2 halike
    rw [← he₁, ← he₂] at hrest
    refine ⟨?_, ?_, hrest.scopes⟩
    · simp only [run, Logged.value_bind, Logged.value_pure, hstep.text, hrest.text]
    · simp only [run, Logged.events_bind, Logged.events_pure, hstep.events, hrest.events]

/-- Rendering with any room does not tell alike datasets apart. -/
theorem renderIn_blind (env : Env) (names : List String) (room : Nat) :
    ∀ level, Blind names (env.renderIn room level) := by
  induction room with
  | zero => exact fun level d₁ d₂ actions source h hactions => rfl
  | succ room ih =>
    intro level d₁ d₂ actions source h hactions
    have hrun := run_sameRun env (ih (level + 1)) hactions (List.Subset.refl _) h
    rw [renderIn, renderIn]
    refine Logged.eq_of ?_ ?_
    · simp only [Logged.value_bind, Logged.value_pure, hrun.text]
    · simp only [Logged.events_bind, Logged.events_pure, hrun.events]

/-- A template without inclusions renders alike, with the same events, against any two datasets that
agree at every key reached by a name of `scan`. -/
theorem render_eq_of_agree {env : Env} {text : String} {actions : List Action}
    (hcompile : compile env.config.trimBlocks text = .ok actions)
    (hclosed : ∀ arguments, ¬Occurs (.instruction .useTemplate arguments) actions)
    {d₁ d₂ : Dataset} (h₁ : Fields.Ordered d₁) (h₂ : Fields.Ordered d₂)
    (hagree : ∀ key, (∃ name ∈ scan actions, Reaches name key) →
      Fields.get? key d₁ = Fields.get? key d₂) :
    env.render text d₁ = env.render text d₂ ∧ ∃ out, (env.render text d₁).value = .ok out := by
  have halike : Alike (scan actions) d₁ d₂ := ⟨h₁, h₂, hagree⟩
  have hscanned : Scanned (scan actions) actions :=
    ⟨fun _ => mem_scan_iff.2, hclosed, fun _ => unconditional_of_occurs hcompile⟩
  have hrender : env.renderAt 0 "page" d₁ actions = env.renderAt 0 "page" d₂ actions :=
    renderIn_blind env _ _ 0 "page" halike hscanned
  rw [render_eq_renderAt env hcompile h₁, render_eq_renderAt env hcompile h₂, hrender]
  exact ⟨rfl, _, rfl⟩

/-- A loop with a filter does not see a key that it never mentions. -/
theorem render_eq_of_agree_loop :
    let env : Env := ⟨⟨none, true, 64⟩, .none, ⟨⟨0, 0, 0⟩, fun _ => 0⟩⟩
    let text := "\x7b% for x in a.b %\x7d\x7b\x7b x|add:c \x7d\x7d\x7b% endfor %\x7d"
    let body : Body := .mk "\x7b\x7b x|add:c \x7d\x7d"
      [.instruction .replace [Token.parse "x|add:c".toList false]]
    let actions : List Action := [.forLoop (tokens "x in a.b".toList) body]
    let shared : Dataset :=
      [("a", .dict [("b", .list [.int 1, .int 2])]), ("c", .int 3)]
    let secret : Dataset := shared ++ [("secret", .str "s")]
    compile env.config.trimBlocks text = .ok actions ∧
      env.render text shared = env.render text secret ∧
        ∃ out, (env.render text shared).value = .ok out := by
  intro env text body actions shared secret
  have hcompile : compile env.config.trimBlocks text = .ok actions := by
    simp only [env, text, actions, body]
    cbv
  have hscan : scan actions = ["a.b", "c", "x"] := by
    simp only [actions, body]
    cbv
  refine ⟨hcompile, render_eq_of_agree hcompile (fun arguments hoccurs => ?_) ?_ ?_ ?_⟩
  · simp [actions, body, Occurs, actionBodies, Action.bodies, Body.bodies, Body.actions] at hoccurs
  · simp only [shared]
    decide
  · simp only [secret, shared]
    decide
  · rintro key ⟨name, hname, hreaches⟩
    have hkey : key ≠ "secret" := by
      rintro rfl
      rw [hscan] at hname
      simp [Reaches] at hname hreaches
      rcases hname with rfl | rfl | rfl <;> simp at hreaches
    simp [shared, secret, Fields.get?, hkey.symm]

end Render.Env

end Stencil
