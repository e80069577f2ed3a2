import Mathlib
import Stencil.Proofs.Composition

/-!
# Histories of a context

A context is filled by calls and rendered by calls, in any order. What it holds is told by the
calls made on it so far: its dataset is all that was laid over it, its actions are those stored last
since it was rendered, and nothing else has a part in that. So the answers to a sequence of calls
can be read off the sequence, call by call, without a context.
-/

namespace Stencil.Render

open Template

/-- A call on a context. -/
inductive Call where
  | setDataset (delta : Dataset)
  | setTemplate (text : String)
  | setActions (actions : List Action)
  | process

/-- What a call gives back. -/
inductive Answer where
  | done
  /-- The template does not compile. -/
  | refused (reason : Template.Error)
  | output (text : String)
  deriving DecidableEq, Repr

namespace Context

/-- Makes a call. A template that does not compile leaves the context as it is. -/
def call (env : Env) (c : Context) : Call → Logged (Answer × Context)
  | .setDataset delta => pure (.done, c.addDataset delta)
  | .setActions actions => pure (.done, c.setActions actions)
  | .setTemplate text =>
    match c.setTemplate env.config text with
    | .ok filled => pure (.done, filled)
    | .error reason => pure (.refused reason, c)
  | .process => do
    let (text, emptied) ← c.process env
    pure (.output text, emptied)

/-- Makes calls one after the other. -/
def calls (env : Env) : Context → List Call → Logged (List Answer × Context)
  | c, [] => pure ([], c)
  | c, call :: rest => do
    let (answer, c) ← c.call env call
    let (answers, c) ← calls env c rest
    pure (answer :: answers, c)

end Context

/-! ## What the calls tell -/

namespace Call

/-- The dataset that a call lays over the context's own. -/
def delta? : Call → Option Dataset
  | .setDataset delta => some delta
  | _ => none

/-- The actions that a call stores. A template that does not compile stores none. -/
def stored? (config : Config) : Call → Option (List Action)
  | .setActions actions => some actions
  | .setTemplate text => (compile config.trimBlocks text).toOption
  | _ => none

/-- Whether a call renders. -/
def isProcess : Call → Bool
  | .process => true
  | _ => false

/-- All datasets that calls lay over the context's own, merged in the order of the calls. -/
def dataset (history : List Call) : Dataset := (history.filterMap delta?).foldl Fields.merge []

/-- The actions stored by the last call that stored any since the context was rendered last. -/
def pending (config : Config) (history : List Call) : List Action :=
  ((history.reverse.takeWhile (!·.isProcess)).findSome? (stored? config)).getD []

/-- The answer to a call behind others. Actions are rendered down to the deepest level only. -/
def answer (env : Env) (level : Nat) (source : String) (history : List Call) :
    Call → Logged Answer
  | .setDataset _ | .setActions _ => pure .done
  | .setTemplate text =>
    match compile env.config.trimBlocks text with
    | .ok _ => pure .done
    | .error reason => pure (.refused reason)
  | .process =>
    if level ≤ env.config.maxDepth then do
      let (text, _) ← env.run (env.renderAt (level + 1)) (.of (dataset history))
        (pending env.config history)
      pure (.output text)
    else .withEvent (.tooDeep level env.config.maxDepth source) (.output "")

/-- The answers to calls behind others. -/
def answers (env : Env) (level : Nat) (source : String) :
    (history : List Call) → List Call → Logged (List Answer)
  | _, [] => pure []
  | history, call :: rest => do
    let first ← answer env level source history call
    let others ← answers env level source (history ++ [call]) rest
    pure (first :: others)

theorem dataset_concat (history : List Call) (call : Call) :
    dataset (history ++ [call]) =
      call.delta?.elim (dataset history) (Fields.merge (dataset history)) := by
  rw [dataset, List.filterMap_append, List.foldl_append]
  cases call <;> rfl

/-- A key of the dataset has the value that the last call to set it gave. -/
theorem get?_dataset (key : String) (history : List Call) :
    Fields.get? key (dataset history) =
      Fields.get? key (history.filterMap delta?).flatten.reverse := by
  rw [dataset, Fields.get?_foldl_merge]
  simp [Fields.get?]

/-- Once the context has been rendered nothing is pending. -/
theorem pending_process (config : Config) (history : List Call) :
    pending config (history ++ [.process]) = [] := by
  rw [pending, List.reverse_append]
  rfl

/-- Behind any other call its actions are pending, or else those that were before. -/
theorem pending_concat (config : Config) (history : List Call) {call : Call}
    (h : call.isProcess = false) :
    pending config (history ++ [call]) = (call.stored? config).getD (pending config history) := by
  -- Backwards the last call comes first, and the search goes on behind it.
  rw [pending, List.reverse_append, List.reverse_singleton, List.singleton_append,
    List.takeWhile_cons_of_pos (by simp [h]), List.findSome?_cons]
  cases call.stored? config <;> rfl

end Call

/-! ## Contexts behind calls -/

namespace Context

/-- The context behind calls on a fresh one. -/
def after (config : Config) (level : Nat) (source : String) (history : List Call) : Context :=
  { level, source, dataset := Call.dataset history, actions := Call.pending config history }

variable (env : Env) (level : Nat) (source : String)

theorem after_setDataset (config : Config) (history : List Call) (delta : Dataset) :
    after config level source (history ++ [.setDataset delta]) =
      (after config level source history).addDataset delta := by
  rw [after, Call.dataset_concat, Call.pending_concat config history rfl]
  rfl

theorem after_setActions (config : Config) (history : List Call) (actions : List Action) :
    after config level source (history ++ [.setActions actions]) =
      (after config level source history).setActions actions := by
  rw [after, Call.dataset_concat, Call.pending_concat config history rfl]
  rfl

/-- A template that compiles is stored. -/
theorem after_setTemplate (config : Config) (history : List Call) {text : String}
    {actions : List Action} (h : compile config.trimBlocks text = .ok actions) :
    after config level source (history ++ [.setTemplate text]) =
      (after config level source history).setActions actions := by
  rw [after, Call.dataset_concat, Call.pending_concat config history rfl, Call.stored?, h]
  rfl

/-- A template that does not compile changes nothing. -/
theorem after_setTemplate_error (config : Config) (history : List Call) {text : String}
    {reason : Template.Error} (h : compile config.trimBlocks text = .error reason) :
    after config level source (history ++ [.setTemplate text]) =
      after config level source history := by
  rw [after, Call.dataset_concat, Call.pending_concat config history rfl, Call.stored?, h]
  rfl

/-- Rendering uses the actions up and changes nothing else. -/
theorem after_process (config : Config) (history : List Call) :
    after config level source (history ++ [.process]) =
      { after config level source history with actions := [] } := by
  rw [after, Call.dataset_concat, Call.pending_process]
  rfl

/-- What a context is rendered to, whatever its level. -/
theorem answer_process (history : List Call) :
    Call.answer env level source history .process =
      env.renderAt level source (Call.dataset history) (Call.pending env.config history) >>=
        fun text => pure (.output text) := by
  rw [Call.answer]
  split
  · rename_i h
    rw [env.renderAt_of_le h]
    refine Logged.eq_of rfl ?_
    simp
  · rename_i h
    rw [env.renderAt_of_lt (Nat.not_le.1 h)]
    rfl

/-- One call on the context behind others has the answer that these tell, and leaves the context
behind all of them. -/
theorem call_after (history : List Call) (call : Call) :
    (after env.config level source history).call env call =
      Call.answer env level source history call >>= fun answer =>
        pure (answer, after env.config level source (history ++ [call])) := by
  cases call with
  | setDataset delta =>
    rw [after_setDataset]
    rfl
  | setActions actions =>
    rw [after_setActions]
    rfl
  | setTemplate text =>
    cases hcompile : compile env.config.trimBlocks text with
    | ok actions =>
      rw [after_setTemplate level source env.config history hcompile]
      simp only [Context.call, setTemplate, Call.answer, hcompile, Except.map]
      rfl
    | error reason =>
      rw [after_setTemplate_error level source env.config history hcompile]
      simp only [Context.call, setTemplate, Call.answer, hcompile, Except.map]
      rfl
  | process =>
    rw [after_process, answer_process]
    refine Logged.eq_of rfl ?_
    simp [Context.call, process, after]

/-- So have all calls of a sequence. -/
theorem calls_after (history calls : List Call) :
    (after env.config level source history).calls env calls =
      Call.answers env level source history calls >>= fun answers =>
        pure (answers, after env.config level source (history ++ calls)) := by
  -- On the calls to come; each call made goes over into the history.
  induction calls generalizing history with
  | nil =>
    rw [List.append_nil]
    rfl
  | cons call calls ih =>
    rw [Context.calls, call_after, Call.answers]
    refine Logged.eq_of ?_ ?_
    · simp [ih]
    · simp [ih]

/-- Rendering once more puts out nothing. -/
theorem value_answer_process_twice (history : List Call) :
    (Call.answer env level source (history ++ [.process]) .process).value = .output "" := by
  rw [Call.answer, Call.pending_process]
  split <;> rfl

/-- Whatever the calls on a fresh context, their answers are those that the calls before each of
them tell, and the context then holds what they all tell. Its dataset has under each key what the
last call gave that set the key. A template that does not compile is refused and leaves the context
as it is. Rendering uses the actions up, also below the deepest level, leaves all else as it is, and
puts out nothing if it is repeated. -/
theorem calls_of_fresh (history : List Call) :
    let final := after env.config level source history
    (({ level, source } : Context).calls env history =
      Call.answers env level source [] history >>= fun answers => pure (answers, final)) ∧
    (∀ key, Fields.get? key final.dataset =
      Fields.get? key (history.filterMap Call.delta?).flatten.reverse) ∧
    (∀ text reason, compile env.config.trimBlocks text = .error reason →
      final.call env (.setTemplate text) = pure (.refused reason, final)) ∧
    (final.call env .process =
      Call.answer env level source history .process >>= fun answer =>
        pure (answer, { final with actions := [] })) ∧
    (Call.answer env level source (history ++ [.process]) .process).value = .output "" := by
  intro final
  refine ⟨?_, ?_, ?_, ?_, ?_⟩
  · have hfresh : ({ level, source } : Context) = after env.config level source [] := rfl
    rw [hfresh, calls_after, List.nil_append]
  · exact fun key => Call.get?_dataset key history
  · intro text reason hcompile
    rw [call_after, after_setTemplate_error level source env.config history hcompile]
    simp only [Call.answer, hcompile]
    rfl
  · rw [call_after, after_process]
  · exact value_answer_process_twice env level source history

/-- A template that is not closed does not take the place of the one before it. A dataset set behind
a rendering is there for the next one, for which there is nothing left to render. -/
theorem calls_of_fresh_page :
    let env : Env := ⟨⟨none, false, 2⟩, .none, ⟨⟨0, 0, 0⟩, fun _ => 0⟩⟩
    let page := "a\x7b\x7b x \x7d\x7d"
    let history : List Call := [.setTemplate page, .setDataset [("x", .int 1)],
      .setTemplate "\x7b% if", .process, .setDataset [("x", .int 2)], .process]
    let final := after env.config 0 "page" history
    compile env.config.trimBlocks "\x7b% if" = .error ⟨0, .unclosedTag⟩ ∧
      final.call env (.setTemplate "\x7b% if") = pure (.refused ⟨0, .unclosedTag⟩, final) ∧
      (({ level := 0, source := "page" } : Context).calls env history) = pure
        ([.done, .done, .refused ⟨0, .unclosedTag⟩, .output "a1", .done, .output ""], final) := by
  intro env page history final
  obtain ⟨hcalls, -, hrefused, -, -⟩ := calls_of_fresh env 0 "page" history
  have hcompile : compile env.config.trimBlocks "\x7b% if" = .error ⟨0, .unclosedTag⟩ := by
    simp only [env]
    cbv
  have hanswers : Call.answers env 0 "page" [] history =
      pure [.done, .done, .refused ⟨0, .unclosedTag⟩, .output "a1", .done, .output ""] := by
    simp only [env, page, history]
    cbv
  refine ⟨hcompile, hrefused _ _ hcompile, ?_⟩
  rw [hcalls, hanswers]
  rfl

end Context

end Stencil.Render
