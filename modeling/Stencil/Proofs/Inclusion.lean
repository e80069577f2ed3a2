import Mathlib.Data.List.Forall2
import Stencil.Proofs.Depth

/-!
# Including a template is rendering it

What a rendering gives depends on its level only through the distance to the limit: the level and
the limit themselves are seen only in the events that tell of a cut. So a template that is included
(`Env.useTemplate`) gives what its text gives as a page of its own, against the dataset of the
moment and with the limit lowered by the levels above.
-/

namespace Stencil

/-! ## Events from further down -/

/-- The event that is told where the outermost level is some levels further down. -/
def Event.deeper (n : Nat) : Event → Event
  | .tooDeep level limit source => .tooDeep (level + n) (limit + n) source
  | e => e

/-- The second event is the first, or the first from some levels further down. -/
def Event.Sunk (n : Nat) (e e' : Event) : Prop := e' = e ∨ e' = e.deeper n

namespace Logged

/-- The second result has the value of the first, and its events, some of them from levels further
down. -/
structure Sunk (n : Nat) {α : Type} (x y : Logged α) : Prop where
  value : y.value = x.value
  events : List.Forall₂ (Event.Sunk n) x.events y.events

theorem Sunk.refl (n : Nat) {α : Type} (x : Logged α) : Sunk n x x where
  value := rfl
  events := List.forall₂_same.2 fun _ _ => .inl rfl

theorem Sunk.bind {n : Nat} {α β : Type} {x y : Logged α} {f g : α → Logged β} (h : Sunk n x y)
    (hf : ∀ a, Sunk n (f a) (g a)) : Sunk n (x >>= f) (y >>= g) where
  value := by
    rw [value_bind, value_bind, h.value]
    exact (hf x.value).value
  events := by
    rw [events_bind, events_bind, h.value]
    exact List.rel_append h.events (hf x.value).events

theorem sunk_congruence (n : Nat) : Congruence fun _ => Sunk n := ⟨.refl n, .bind⟩

end Logged

namespace Render.Env

open Template Logged

/-! ## Levels and limits -/

/-- As much room further down, under a limit that is as much lower, gives the same rendering. -/
theorem renderIn_sunk (env : Env) (n limit room level : Nat) :
    Child.Related (fun _ => Sunk n) ((env.withLimit limit).renderIn room level)
      ((env.withLimit (limit + n)).renderIn room (level + n)) := by
  induction room generalizing level with
  | zero =>
    intro source dataset actions
    rw [renderIn, renderIn]
    exact ⟨rfl, .cons (.inr rfl) .nil⟩
  | succ room ih =>
    intro source dataset actions
    have hchild := ih (level + 1)
    rw [Nat.add_right_comm] at hchild
    rw [renderIn, renderIn, run_withLimit, run_withLimit]
    exact .bind (run_related (sunk_congruence n) hchild _ actions) fun _ => .refl n _

/-- Levels that are as far from their limits render alike. -/
theorem renderAt_sunk (env : Env) {n limit : Nat} (level : Nat)
    (hlimit : env.config.maxDepth = limit + n) :
    Child.Related (fun _ => Sunk n) ((env.withLimit limit).renderAt level)
      (env.renderAt (level + n)) := by
  have hroom : env.config.maxDepth + 1 - (level + n) = limit + 1 - level := by omega
  have henv : env.withLimit (limit + n) = env := by rw [← hlimit]; rfl
  have hsunk := renderIn_sunk env n limit (limit + 1 - level) level
  rw [henv] at hsunk
  rwa [renderAt, renderAt, hroom]

/-- A text on its own, under a limit lowered by some levels, renders as its actions do that many
levels further down. -/
theorem render_sunk (env : Env) {n : Nat} (hn : n ≤ env.config.maxDepth) {text : String}
    {actions : List Action} (hcompile : compile env.config.trimBlocks text = .ok actions)
    {dataset : Dataset} (hdataset : Fields.Ordered dataset) (source : String) :
    Sunk n ((env.withLimit (env.config.maxDepth - n)).render text dataset)
      (env.renderAt n source dataset actions >>= fun out => pure (.ok out)) := by
  have hlimit : env.config.maxDepth = env.config.maxDepth - n + n := by omega
  have hsunk := renderAt_sunk env 0 hlimit source dataset actions
  rw [Nat.zero_add] at hsunk
  rw [render_eq_renderAt (env.withLimit (env.config.maxDepth - n)) hcompile hdataset,
    renderAt_source (env.withLimit (env.config.maxDepth - n)) (Nat.zero_le _) "page" source]
  exact hsunk.bind fun _ => .refl n _

/-! ## Templates by name -/

section UseTemplate

variable (env : Env)

/-- The name that the first argument of a tag stands for; empty if there is no argument. -/
def fileName (dataset : Dataset) : List Token → String
  | [] => ""
  | t :: _ => (env.resolve (.of dataset) t).value.display

theorem value_sourceName (dataset : Dataset) (tag : String) (arguments : List Token) :
    (env.sourceName (.of dataset) tag arguments).value =
      if env.fileName dataset arguments = "" then none
      else some (env.fileName dataset arguments) := by
  cases arguments with
  | nil => rfl
  | cons t ts =>
    rw [sourceName, fileName, value_bind]
    simp only [String.isEmpty_iff]
    split
    · rfl
    · rfl

variable {env} {dataset : Dataset} {arguments : List Token} (child : Child)

/-- The template that the tag names is rendered one level deeper against the dataset. -/
theorem useTemplate_of_compile {text : String} {actions : List Action}
    (hname : env.fileName dataset arguments ≠ "")
    (htext : (env.loader.template? (env.fileName dataset arguments)).value = some text)
    (hcompile : compile env.config.trimBlocks text = .ok actions) :
    env.useTemplate child (.of dataset) arguments =
      (env.sourceName (.of dataset) "usetemplate" arguments >>= fun _ =>
        env.loader.template? (env.fileName dataset arguments) >>= fun _ =>
          child "usetemplate" dataset actions) := by
  have hsource := env.value_sourceName dataset "usetemplate" arguments
  rw [if_neg hname] at hsource
  refine eq_of ?_ ?_
  · simp only [useTemplate, value_bind, hsource, htext, hcompile, Scope.dataset_of]
  · simp only [useTemplate, events_bind, hsource, htext, hcompile, Scope.dataset_of]

/-- Without a name, a text or a template in it there is no output. -/
theorem value_useTemplate_of_missing
    (h : env.fileName dataset arguments = "" ∨
      (env.loader.template? (env.fileName dataset arguments)).value = none ∨
      ∃ text reason, (env.loader.template? (env.fileName dataset arguments)).value = some text ∧
        compile env.config.trimBlocks text = .error reason) :
    (env.useTemplate child (.of dataset) arguments).value = "" := by
  have hsource := env.value_sourceName dataset "usetemplate" arguments
  by_cases hname : env.fileName dataset arguments = ""
  · rw [if_pos hname] at hsource
    simp only [useTemplate, value_bind, hsource, value_pure]
  · rw [if_neg hname] at hsource
    rcases h with h | htext | ⟨text, reason, htext, hcompile⟩
    · exact absurd h hname
    · simp only [useTemplate, value_bind, hsource, htext, value_pure]
    · simp only [useTemplate, value_bind, hsource, htext, hcompile, withEvent]

/-- Where there is no level left there is no output either. -/
theorem value_useTemplate_of_le (env : Env) {level : Nat} (h : env.config.maxDepth ≤ level)
    (scope : Scope) (arguments : List Token) :
    (env.useTemplate (env.renderAt (level + 1)) scope arguments).value = "" := by
  rw [useTemplate, value_bind]
  split
  · rfl
  · rw [value_bind]
    split
    · rfl
    · split
      · rw [renderAt_of_lt env (Nat.lt_succ_of_le h)]
        rfl
      · rfl

end UseTemplate

/-- Between other actions the tag for an inclusion puts out the template against the dataset of the
moment, and leaves this as it is for those behind. -/
theorem value_renderAt_useTemplate (env : Env) {level : Nat} (h : level ≤ env.config.maxDepth)
    (source : String) (dataset : Dataset) (arguments : List Token) (before after : List Action) :
    let between := env.seen dataset before
    let tag : Action := .instruction .useTemplate arguments
    (env.renderAt level source dataset (before ++ tag :: after)).value =
      (env.renderAt level source dataset before).value ++
        (env.useTemplate (env.renderAt (level + 1)) (.of between) arguments).value ++
          (env.renderAt level source between after).value := by
  intro between tag
  have htag : (env.renderAt level source between (tag :: after)).value =
        (env.useTemplate (env.renderAt (level + 1)) (.of between) arguments).value ++
          (env.renderAt level source between after).value := by
    rw [renderAt_of_le env h, renderAt_of_le env h, run_cons]
    rfl
  rw [value_renderAt_append, htag, String.append_assoc]

/-! ## Inclusion -/

/-- Including a template is rendering it. At a level above the limit, a tag whose argument names a
template of the loader has the output that the text of the template has on its own, rendered against
the dataset of the moment under the limit lowered by the levels above; and it tells what looking up
the name and the text tells, and then what that rendering tells, from so many levels further down.
Where the name is empty, the loader has no such template, its text does not compile or there is no
level left, the output is empty. The actions behind the tag see the dataset as it was before it. -/
theorem inclusion_eq_render (env : Env) (level : Nat) {dataset : Dataset}
    (hdataset : Fields.Ordered dataset) (arguments : List Token) :
    let name := env.fileName dataset arguments
    let tag : Action := .instruction .useTemplate arguments
    let included := env.step (env.renderAt (level + 1)) (.of dataset) tag
    (∀ text actions, level < env.config.maxDepth → name ≠ "" →
      (env.loader.template? name).value = some text →
      compile env.config.trimBlocks text = .ok actions →
      let alone := (env.withLimit (env.config.maxDepth - (level + 1))).render text dataset
      alone.value = .ok included.value.1 ∧
        ∃ events, List.Forall₂ (Event.Sunk (level + 1)) alone.events events ∧
          included.events = (env.sourceName (.of dataset) "usetemplate" arguments).events ++
            (env.loader.template? name).events ++ events) ∧
    ((name = "" ∨ (env.loader.template? name).value = none ∨
      (∃ text reason, (env.loader.template? name).value = some text ∧
        compile env.config.trimBlocks text = .error reason) ∨
      env.config.maxDepth ≤ level) → included.value.1 = "") ∧
    included.value.2 = .of dataset ∧
    ∀ source first before after, level ≤ env.config.maxDepth → env.seen first before = dataset →
      (env.renderAt level source first (before ++ tag :: after)).value =
        (env.renderAt level source first before).value ++ included.value.1 ++
          (env.renderAt level source dataset after).value := by
  intro name tag included
  have hincluded : included =
      env.useTemplate (env.renderAt (level + 1)) (.of dataset) arguments >>=
        fun out => pure (out, .of dataset) := rfl
  refine ⟨?_, ?_, rfl, ?_⟩
  · intro text actions hlevel hname htext hcompile alone
    have hsunk : Sunk (level + 1) alone _ :=
      render_sunk env (Nat.succ_le_of_lt hlevel) hcompile hdataset "usetemplate"
    refine ⟨?_, (env.renderAt (level + 1) "usetemplate" dataset actions).events, ?_, ?_⟩
    · rw [← hsunk.value, hincluded, useTemplate_of_compile _ hname htext hcompile]
      rfl
    · simpa only [events_bind, events_pure, List.append_nil] using hsunk.events
    · rw [hincluded, useTemplate_of_compile _ hname htext hcompile]
      simp only [events_bind, events_pure, List.append_nil, List.append_assoc, name]
  · rintro (hname | htext | hcompile | hlevel)
    · exact value_useTemplate_of_missing _ (.inl hname)
    · exact value_useTemplate_of_missing _ (.inr (.inl htext))
    · exact value_useTemplate_of_missing _ (.inr (.inr hcompile))
    · exact value_useTemplate_of_le env hlevel (.of dataset) arguments
  · rintro source first before after hlevel rfl
    exact value_renderAt_useTemplate env hlevel source first arguments before after

/-- Of the two levels below the page one is left for a template included in a block: it renders, and
its own block is cut off as it is on its own when there is no level below the page. -/
theorem inclusion_eq_render_part :
    let part := "\x7b\x7b x \x7d\x7d\x7b% if x %\x7d!\x7b% endif %\x7d"
    let env : Env :=
      ⟨⟨none, false, 2⟩, (⟨[("part", part)], []⟩ : Sources).loader, ⟨⟨0, 0, 0⟩, fun _ => 0⟩⟩
    let dataset : Dataset := [("x", .str "v")]
    let arguments := tokens "'part'".toList
    let included := env.step (env.renderAt 2) (.of dataset) (.instruction .useTemplate arguments)
    env.fileName dataset arguments = "part" ∧
      ((env.withLimit 0).render part dataset).value = .ok included.value.1 ∧
      included.value = ("v", .of dataset) ∧
      included.events = [.tooDeep 3 2 "if"] := by
  intro part env dataset arguments included
  have hordered : Fields.Ordered dataset := by
    simp only [dataset]
    decide
  have hname : env.fileName dataset arguments = "part" := by
    simp only [env, dataset, arguments]
    cbv
  have hcompile : compile env.config.trimBlocks part =
      .ok [.instruction .replace (tokens "x".toList),
        .conditional [.mk (conditionTokens "x".toList) (.mk "!" [.literal "!"])] none] := by
    simp only [env, part]
    cbv
  have hincluded : included = ⟨("v", .of dataset), [.tooDeep 3 2 "if"]⟩ := by
    simp only [included, env, part, dataset, arguments]
    cbv
  have halone := (inclusion_eq_render env 1 hordered arguments).1 part _
    (by decide) (by rw [hname]; decide) (by rw [hname]; rfl) hcompile
  exact ⟨hname, halone.1, by rw [hincluded], by rw [hincluded]⟩

end Render.Env

end Stencil
