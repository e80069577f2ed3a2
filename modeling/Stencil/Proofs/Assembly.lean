import Mathlib
import Stencil.Proofs.Composition
import Stencil.Render.Files

/-!
# Making pages

Making a page (`Env.assemble`) fetches its template and its datasets, renders the one against the
others laid over each other, and hands the content on. The outermost level of a page is opened by
its template and not by a text, which makes no difference there. A template that does not compile
hands nothing on, and instead of a content that is not taken the error it was refused with is given
back. So a page is what rendering gives wherever it is taken, and pages that are made one after the
other are collected in that order (`Pages.emit`).
-/

namespace Stencil

/-! ## What loaders give -/

/-- A loader gives these templates and these datasets, and the empty dataset for any other name. -/
structure Loader.Gives (loader : Loader) (text? : String → Option String)
    (dataset? : String → Option Dataset) : Prop where
  template (id : String) : (loader.template? id).value = text? id
  dataset (id : String) : (loader.dataset id).value = (dataset? id).getD []

theorem Loader.none_gives : Loader.none.Gives (fun _ => .none) (fun _ => .none) :=
  ⟨fun _ => rfl, fun _ => rfl⟩

theorem Sources.loader_gives (s : Sources) :
    s.loader.Gives (s.templates.lookup ·) (s.datasets.lookup ·) where
  template id := by
    dsimp only [loader]
    cases s.templates.lookup id <;> rfl
  dataset id := by
    dsimp only [loader]
    cases s.datasets.lookup id <;> rfl

/-- A document that is no dataset stands for the empty one. -/
theorem Sources.datasets_addDocument (s : Sources) (id : String) (document : List Char) :
    (s.addDocument id document).value.datasets =
      (id, (Dataset.ofJson id document).toOption.getD []) :: s.datasets := by
  rw [addDocument]
  cases Dataset.ofJson id document <;> rfl

theorem Files.loader_gives (f : Files) (base : Option String) :
    (f.loader base).Gives (fun id => f.text? (joinPath base id))
      (fun id => (f.dataset base id).toOption) where
  template id := by
    dsimp only [loader]
    cases f.text? (joinPath base id) <;> rfl
  dataset id := by
    dsimp only [loader]
    cases f.dataset base id <;> rfl

theorem Logged.value_mapList {α β : Type} (f : α → Logged β) (as : List α) :
    (mapList f as).value = as.map fun a => (f a).value := by
  induction as with
  | nil => rfl
  | cons a as ih => rw [mapList, value_bind, value_bind, value_pure, ih, List.map_cons]

theorem Logged.bind_assoc {α β γ : Type} (x : Logged α) (f : α → Logged β) (g : β → Logged γ) :
    x >>= f >>= g = x >>= fun a => f a >>= g :=
  eq_of rfl (by simp)

namespace Render

open Template

namespace Env

variable (env : Env) {σ ε : Type} (emit : σ → (content destination : String) → σ × Except ε Unit)
  (state : σ) (page : Page)

/-! ## One page -/

/-- The datasets of a page, in order. -/
def pageDatasets : List Dataset := page.datasets.map fun id => (env.loader.dataset id).value

/-- What a page is rendered against: its datasets, each laid over the ones before it. -/
def pageDataset : Dataset := (env.pageDatasets page).foldl Fields.merge []

/-- What rendering the text of a page gives. -/
def content : Except Template.Error String :=
  (env.render (env.templateText page.template).value (env.pageDataset page)).value

theorem content_of_error {reason : Template.Error}
    (h : compile env.config.trimBlocks (env.templateText page.template).value = .error reason) :
    env.content page = .error reason := by
  rw [content, render_of_error env h, Logged.value_pure]

/-- Rendering never fails once the text has compiled. -/
theorem exists_content {actions : List Action}
    (h : compile env.config.trimBlocks (env.templateText page.template).value = .ok actions) :
    ∃ content, env.content page = .ok content := by
  rw [content, render_of_compile env h]
  exact ⟨_, rfl⟩

/-- Fetches what a page is made of and renders it. -/
def renderPage : Logged (Except Template.Error String) := do
  let text ← env.templateText page.template
  let loaded ← Logged.mapList env.loader.dataset page.datasets
  env.render text (loaded.foldl Fields.merge [])

theorem value_renderPage : (env.renderPage page).value = env.content page := by
  simp only [renderPage, Logged.value_bind, Logged.value_mapList, content, pageDataset,
    pageDatasets]

theorem handOn_eq (content destination : String) :
    handOn emit state content destination =
      (match (emit state content destination).2 with
        | .ok () => .ok content
        | .error reason => .error (.sink reason),
        (emit state content destination).1) := by
  rw [handOn]
  split
  · rename_i htaken
    rw [htaken]
  · rename_i hrefused
    rw [hrefused]

/-- Datasets are fetched in order, and laid over the dataset of a context. -/
theorem addDatasets_eq (ids : List String) (context : Context) :
    env.addDatasets ids context =
      Logged.mapList env.loader.dataset ids >>= fun loaded =>
        pure { context with dataset := loaded.foldl Fields.merge context.dataset } := by
  induction ids generalizing context with
  | nil => rfl
  | cons id ids ih =>
    rw [addDatasets, Logged.mapList]
    refine Logged.eq_of ?_ ?_
    · simp [ih, Context.addDataset]
    · simp [ih]

/-- Setting a template and processing it is rendering its text, whatever opened the level. -/
theorem process_eq_render {β : Type} (source text : String) {dataset : Dataset}
    (h : Fields.Ordered dataset) (failed : Template.Error → Logged β) (made : String → β) :
    (match ({ Context.root source with dataset } : Context).setTemplate env.config text with
      | .error reason => failed reason
      | .ok context => context.process env >>= fun processed => pure (made processed.1)) =
      env.render text dataset >>= fun
        | .ok content => pure (made content)
        | .error reason => failed reason := by
  cases hcompile : compile env.config.trimBlocks text with
  | error reason =>
    rw [render_of_error env hcompile, Context.setTemplate, hcompile]
    rfl
  | ok actions =>
    rw [render_eq_renderAt env hcompile h, renderAt_source env (Nat.zero_le _) "page" source,
      Context.setTemplate, hcompile]
    rfl

/-- Making a page is fetching what it is made of, rendering it and handing the content on, with the
events of each. -/
theorem assemble_eq :
    env.assemble emit state page =
      env.renderPage page >>= fun
        | .ok content => pure (handOn emit state content page.destination)
        | .error reason =>
          .withEvent (.pageFailed page.template reason) (.error (.template reason), state) := by
  have hordered (loaded : List Dataset) : Fields.Ordered (loaded.foldl Fields.merge []) :=
    Fields.Ordered.foldl_merge List.Pairwise.nil loaded
  have hrender (text : String) (loaded : List Dataset) :=
    env.process_eq_render page.template text (hordered loaded)
      (fun reason =>
        .withEvent (.pageFailed page.template reason) (.error (.template reason), state))
      (fun content => handOn emit state content page.destination)
  rw [renderPage, Logged.bind_assoc]
  simp only [Logged.bind_assoc, ← hrender]
  rw [assemble]
  simp only [addDatasets_eq]
  refine Logged.eq_of rfl ?_
  simp only [Logged.events_bind, Logged.events_pure, List.append_nil]
  rfl

theorem value_assemble :
    (env.assemble emit state page).value =
      match env.content page with
      | .ok content => handOn emit state content page.destination
      | .error reason => (.error (.template reason), state) := by
  rw [assemble_eq, Logged.value_bind, value_renderPage]
  split <;> rfl

/-- Making a page halts the run where fetching what it is made of or rendering it does. -/
theorem halts_assemble :
    (env.assemble emit state page).halts = (env.renderPage page).halts := by
  have hafter (result : Except Template.Error String) :
      Logged.halts (match result with
        | .ok content => pure (handOn emit state content page.destination)
        | .error reason =>
          .withEvent (.pageFailed page.template reason) (.error (.template reason), state)) =
        false := by
    cases result with
    | ok content => rfl
    | error reason => exact Logged.halts_withEvent _ _
  rw [assemble_eq, Logged.halts_bind, hafter, Bool.or_false]

/-- The fields of the datasets of a page, the last one with a key winning. -/
theorem get?_pageDataset (key : String) :
    Fields.get? key (env.pageDataset page) =
      Fields.get? key (env.pageDatasets page).flatten.reverse := by
  rw [pageDataset, Fields.get?_foldl_merge]
  exact Option.or_none

theorem sources_of_gives {text? : String → Option String} {dataset? : String → Option Dataset}
    (h : env.loader.Gives text? dataset?) :
    (env.templateText page.template).value = (text? page.template).getD "" ∧
      env.pageDatasets page = page.datasets.map fun id => (dataset? id).getD [] := by
  refine ⟨?_, List.map_congr_left fun id _ => h.dataset id⟩
  rw [templateText, Logged.value_bind, h.template]
  rfl

/-! ## Several pages -/

/-- Makes pages one after the other, each in an environment of its own. -/
def assembleAll {σ ε : Type} (emit : σ → (content destination : String) → σ × Except ε Unit) :
    (state : σ) → List (Env × Page) → Logged (List (Except (PageError ε) String) × σ)
  | state, [] => pure ([], state)
  | state, (env, page) :: calls => do
    let (result, state) ← env.assemble emit state page
    let (results, state) ← assembleAll emit state calls
    pure (result :: results, state)

/-- What making a page gives where every content is taken. -/
def made (call : Env × Page) : Except (PageError Empty) String :=
  (call.1.content call.2).mapError .template

/-- What is collected of a page: its destination and content, unless it was not made. -/
def collected? (call : Env × Page) : Option (String × String) :=
  (made call).toOption.map fun content => (call.2.destination, content)

theorem value_assemble_pages (pages : Pages) :
    (env.assemble Pages.emit pages page).value =
      (made (env, page), pages ++ (collected? (env, page)).toList) := by
  rw [value_assemble, collected?, made]
  cases env.content page with
  | error reason => simp [Except.mapError, Except.toOption]
  | ok content => rfl

/-- Pages that are made one after the other are collected in that order. -/
theorem value_assembleAll_pages (pages : Pages) (calls : List (Env × Page)) :
    (assembleAll Pages.emit pages calls).value =
      (calls.map made, pages ++ calls.filterMap collected?) := by
  induction calls generalizing pages with
  | nil => rw [List.map_nil, List.filterMap_nil, List.append_nil]; rfl
  | cons call calls ih =>
    obtain ⟨env, page⟩ := call
    rw [assembleAll]
    simp only [Logged.value_bind, Logged.value_pure, value_assemble_pages, ih]
    rw [List.map_cons, List.filterMap_cons, List.append_assoc]
    cases collected? (env, page) <;> rfl

/-! ## Making is rendering -/

/-- Making a page hands on, once and under its destination, what rendering its text against its
datasets gives, and gives that back if it is taken, or else the error it is refused with; a text
that does not compile hands nothing on. It halts the run where fetching and rendering do. What a
loader does not have or cannot read is empty, and of all fields with a key the last one counts.
Pages that are made one after the other, where every content is taken, are collected in that order.
-/
theorem assemble_eq_render_unless_refused (env : Env) (page : Page) :
    (∀ (σ ε : Type) (emit : σ → (content destination : String) → σ × Except ε Unit) (state : σ),
      (env.assemble emit state page).halts = (env.renderPage page).halts ∧
      (env.renderPage page).value = env.content page ∧
      let assembled := (env.assemble emit state page).value
      match compile env.config.trimBlocks (env.templateText page.template).value with
      | .ok _ => ∃ content, env.content page = .ok content ∧
          assembled.2 = (emit state content page.destination).1 ∧
          assembled.1 = match (emit state content page.destination).2 with
            | .ok () => .ok content
            | .error reason => .error (.sink reason)
      | .error reason =>
        env.content page = .error reason ∧ assembled = (.error (.template reason), state)) ∧
    (∀ key, Fields.get? key (env.pageDataset page) =
      Fields.get? key (env.pageDatasets page).flatten.reverse) ∧
    (∀ text? dataset?, env.loader.Gives text? dataset? →
      (env.templateText page.template).value = (text? page.template).getD "" ∧
        env.pageDatasets page = page.datasets.map fun id => (dataset? id).getD []) ∧
    Loader.none.Gives (fun _ => none) (fun _ => none) ∧
    (∀ s : Sources, s.loader.Gives (s.templates.lookup ·) (s.datasets.lookup ·)) ∧
    (∀ (s : Sources) id document, (s.addDocument id document).value.datasets =
      (id, (Dataset.ofJson id document).toOption.getD []) :: s.datasets) ∧
    (∀ (f : Files) base, (f.loader base).Gives (fun id => f.text? (joinPath base id))
      (fun id => (f.dataset base id).toOption)) ∧
    ∀ (pages : Pages) (calls : List (Env × Page)),
      (assembleAll Pages.emit pages calls).value =
        (calls.map made, pages ++ calls.filterMap collected?) := by
  refine ⟨fun σ ε emit state => ⟨env.halts_assemble emit state page, env.value_renderPage page, ?_⟩,
    env.get?_pageDataset page,
    fun _ _ => env.sources_of_gives page, Loader.none_gives, Sources.loader_gives,
    Sources.datasets_addDocument, Files.loader_gives, value_assembleAll_pages⟩
  dsimp only
  split
  · rename_i hcompile
    obtain ⟨content, hcontent⟩ := env.exists_content page hcompile
    refine ⟨content, hcontent, ?_⟩
    simp only [value_assemble, hcontent, handOn_eq, and_self]
  · rename_i hcompile
    have hcontent := env.content_of_error page hcompile
    refine ⟨hcontent, ?_⟩
    rw [value_assemble, hcontent]

end Env

/-- A page whose destination lies below a file compiles and renders, but is not given back, since it
cannot be written there. -/
theorem assemble_below_file :
    let files : Files := ⟨[], [(["a.html"], "x".toUTF8)]⟩
    let env : Env := ⟨⟨none, false, 64⟩, files.loader none, ⟨⟨0, 0, 0⟩, fun _ => 0⟩⟩
    let page : Page := ⟨"a.html", [], "a.html/b"⟩
    compile env.config.trimBlocks (env.templateText page.template).value = .ok [.literal "x"] ∧
      env.content page = .ok "x" ∧
      (env.assemble Files.emit files page).value.1 = .error (.sink ⟨"a.html/b"⟩) := by
  intro files env page
  refine ⟨?_, ?_, ?_⟩
  · simp only [files, env, page]
    cbv
  · simp only [files, env, page]
    cbv
  · simp only [files, env, page]
    cbv

end Render

end Stencil
