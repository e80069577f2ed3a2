import Stencil.Proofs.Blocks
import Stencil.Proofs.Halting
import Stencil.Proofs.Inclusion

/-!
# Conditionals

A conditional (`Env.branches`) tests its conditions in order and renders the body of the first one
that is satisfied, or else the body without a condition, if there is one. A condition of which an
operand stands for nothing, or which has no value, is not satisfied and ends nothing. Conditions
behind the first one that is satisfied are not tested, so nothing is told of them.

A condition that halts the run ends the conditional, and the page with it. It does so only in a
filter that adds to a count (`Token.Counts`), or at the remainder of the least integer of 64 bits
and minus one (`Expr.HasOverrun`).
-/

namespace Stencil

open Template

namespace Render.Env

variable (env : Env)

/-! ## Branches -/

/-- A condition fails if it neither is satisfied nor halts the run. -/
def Fails (scope : Scope) (branch : Branch) : Prop :=
  ¬Satisfied env.surroundings scope branch.condition ∧
    ¬Halts env.surroundings scope branch.condition

theorem fails_iff {scope : Scope} {branch : Branch} :
    env.Fails scope branch ↔
      (holds env.surroundings scope branch.condition).outcome? = some false := by
  rw [Fails, ← outcome?_holds_eq_true_iff, ← outcome?_holds_eq_none_iff]
  rcases (holds env.surroundings scope branch.condition).outcome? with _ | _ | _ <;> simp

/-- What is told while conditions are tested. -/
def tested (scope : Scope) (all : List Branch) : List Event :=
  all.flatMap fun branch => (holds env.surroundings scope branch.condition).told

section Branches

variable {child : Child} (scope : Scope) (otherwise : Option Body)

/-- A condition that halts the run ends the conditional. -/
theorem branches_of_halts (source : String) {branch : Branch}
    (hbranch : Halts env.surroundings scope branch.condition) (after : List Branch) :
    (env.branches child scope source otherwise (branch :: after)).outcome? = none ∧
      (env.branches child scope source otherwise (branch :: after)).told =
        env.tested scope [branch] := by
  have hholds := outcome?_holds_eq_none_iff.2 hbranch
  rw [branches]
  refine ⟨?_, ?_⟩
  · rw [Logged.outcome?_bind, hholds]
    rfl
  · rw [Logged.told_bind_of_none hholds, tested, List.flatMap_singleton]

variable (hchild : ∀ source source', child source = child source')
include hchild

theorem branches_source (source source' : String) (all : List Branch) :
    env.branches child scope source otherwise all =
      env.branches child scope source' otherwise all := by
  cases all with
  | nil => rfl
  | cons branch rest => rw [branches, branches, hchild source source']

/-- Branches whose conditions fail are passed over. -/
theorem branches_of_fails (source : String) {before : List Branch}
    (hbefore : ∀ b ∈ before, env.Fails scope b) (rest : List Branch) :
    (env.branches child scope source otherwise (before ++ rest)).outcome? =
        (env.branches child scope source otherwise rest).outcome? ∧
      (env.branches child scope source otherwise (before ++ rest)).told =
        env.tested scope before ++ (env.branches child scope source otherwise rest).told := by
  induction before with
  | nil => exact ⟨rfl, rfl⟩
  | cons b before ih =>
    obtain ⟨hfails, hbefore⟩ := List.forall_mem_cons.1 hbefore
    rw [fails_iff] at hfails
    obtain ⟨houtcome, htold⟩ := ih hbefore
    rw [env.branches_source scope otherwise hchild source "elif" (before ++ rest)] at houtcome htold
    rw [List.cons_append, branches]
    refine ⟨?_, ?_⟩
    · rw [Logged.outcome?_bind, hfails]
      exact houtcome
    · rw [Logged.told_bind_of_some hfails, tested, List.flatMap_cons, List.append_assoc, ← tested,
        ← htold]
      rfl

/-- The body of a branch whose condition is satisfied is rendered. -/
theorem branches_of_satisfied (source : String) {branch : Branch}
    (hbranch : Satisfied env.surroundings scope branch.condition) (after : List Branch) :
    let body := child "if" scope.dataset branch.body.actions
    (env.branches child scope source otherwise (branch :: after)).outcome? = body.outcome? ∧
      (env.branches child scope source otherwise (branch :: after)).told =
        env.tested scope [branch] ++ body.told := by
  have hholds := outcome?_holds_eq_true_iff.2 hbranch
  rw [branches, hchild source "if"]
  refine ⟨?_, ?_⟩
  · rw [Logged.outcome?_bind, hholds]
    rfl
  · rw [Logged.told_bind_of_some hholds, tested, List.flatMap_singleton]
    rfl

/-- Behind all branches the body without a condition is rendered. -/
theorem branches_nil (source : String) :
    env.branches child scope source otherwise [] =
      otherwise.elim (pure "") fun body => child "if" scope.dataset body.actions := by
  cases otherwise with
  | none => rfl
  | some body =>
    rw [branches, hchild "else" "if"]
    rfl

end Branches

/-- A conditional renders the body of the first branch whose condition is satisfied, or else the
body without a condition, and only tests the conditions up to there; all conditions before that
fail, and one that halts the run instead leaves nothing of it. A condition halts the run only if a
filter in it adds to a count or if the expression it reads as has an unchecked remainder in it. -/
theorem renderAt_conditional_unless_halted (env : Env)
    (w : WrittenConditional env.config.trimBlocks) :
    compile env.config.trimBlocks (String.ofList w.text) = .ok [w.action] ∧
    (∀ {level : Nat} (source : String) (dataset : Dataset), level < env.config.maxDepth →
      let out := env.renderAt level source dataset [w.action]
      let rendered (body : Body) := env.renderAt (level + 1) "if" dataset body.actions
      (∀ before branch after, w.branches = before ++ branch :: after →
        (∀ b ∈ before, env.Fails (.of dataset) b) →
        (Satisfied env.surroundings (.of dataset) branch.condition →
          out.outcome? = (rendered branch.body).outcome? ∧
          out.told = env.tested (.of dataset) (before ++ [branch]) ++ (rendered branch.body).told) ∧
        (Halts env.surroundings (.of dataset) branch.condition →
          out.outcome? = none ∧ out.told = env.tested (.of dataset) (before ++ [branch]))) ∧
      ((∀ b ∈ w.branches, env.Fails (.of dataset) b) →
        out.outcome? = w.last.elim (some "") (fun body => (rendered body).outcome?) ∧
        out.told = env.tested (.of dataset) w.branches ++ w.last.elim [] fun body =>
          (rendered body).told)) ∧
    ∀ (scope : Scope) (condition : List Token), Halts env.surroundings scope condition →
      (∃ t ∈ condition, t.Counts) ∨ ∃ operands e, Bound env.surroundings scope condition operands ∧
        Condition.Reads .or operands e ∧ e.HasOverrun := by
  refine ⟨w.compile_text, fun {level} source dataset hlevel => ?_,
    fun scope condition hhalts => hhalts.counts_or_overruns⟩
  intro out rendered
  have hout : out =
      env.branches (env.renderAt (level + 1)) (.of dataset) "if" w.last w.branches := by
    simp only [out, WrittenConditional.action]
    rw [env.renderAt_singleton (Nat.le_of_lt hlevel) source dataset rfl, output]
  have hchild : ∀ source source',
      env.renderAt (level + 1) source = env.renderAt (level + 1) source' :=
    env.renderAt_source hlevel
  have htested (before : List Branch) (branch : Branch) :
      env.tested (.of dataset) (before ++ [branch]) =
        env.tested (.of dataset) before ++ env.tested (.of dataset) [branch] := List.flatMap_append
  constructor
  · intro before branch after hbranches hbefore
    obtain ⟨houtcome, htold⟩ :=
      env.branches_of_fails _ w.last hchild "if" hbefore (branch :: after)
    rw [hout, hbranches, houtcome, htold, htested, List.append_assoc]
    refine ⟨fun hbranch => ?_, fun hbranch => ?_⟩
    · obtain ⟨hvalue, htail⟩ := env.branches_of_satisfied _ w.last hchild "if" hbranch after
      exact ⟨hvalue, congrArg _ htail⟩
    · obtain ⟨hnone, htail⟩ := env.branches_of_halts _ w.last "if" hbranch after
      exact ⟨hnone, congrArg _ htail⟩
  · intro hall
    obtain ⟨houtcome, htold⟩ := env.branches_of_fails _ w.last hchild "if" hall []
    rw [List.append_nil] at houtcome htold
    rw [hout, houtcome, htold, env.branches_nil _ w.last hchild]
    cases w.last <;> exact ⟨rfl, rfl⟩

/-- A conditional with an operand without a value, a division by zero, a remainder, and another
operand without a value. -/
def faultyConditional : WrittenConditional true where
  first :=
    { tag := ⟨" if gone ".toList, by cbv, by decide, by decide⟩
      body := ⟨['a'], [.literal "a"], by cbv, by decide⟩
      given := ⟨'g', by decide, rfl⟩ }
  more := [
    { tag := ⟨" elif 1 // 0 ".toList, by cbv, by decide, by decide⟩
      body := ⟨['b'], [.literal "b"], by cbv, by decide⟩
      given := ⟨'1', by decide, rfl⟩ },
    { tag := ⟨" elif x % y ".toList, by cbv, by decide, by decide⟩
      body := ⟨['c'], [.literal "c"], by cbv, by decide⟩
      given := ⟨'x', by decide, rfl⟩ },
    { tag := ⟨" elif lost ".toList, by cbv, by decide, by decide⟩
      body := ⟨['d'], [.literal "d"], by cbv, by decide⟩
      given := ⟨'l', by decide, rfl⟩ }]
  otherwise := some
    { tag := ⟨" else ".toList, by cbv, by decide, by decide⟩
      body := ⟨['e'], [.literal "e"], by cbv, by decide⟩ }
  closing := ⟨" endif ".toList, by cbv, by decide, by decide⟩

/-- The two faults before the condition that is satisfied are told, and the one behind it is not. A
remainder that halts the run leaves nothing, and one that is zero leaves the last body. -/
theorem renderAt_conditional_unless_halted_faults :
    let env : Env := ⟨⟨none, true, 1⟩, .none, ⟨⟨0, 0, 0⟩, fun _ => 0⟩⟩
    let branch (condition body : String) : Branch :=
      .mk (conditionTokens condition.toList) (.mk body [.literal body])
    let branches := [branch "gone" "a", branch "1 // 0" "b", branch "x % y" "c", branch "lost" "d"]
    let actions : List Action := [.conditional branches (some (.mk "e" [.literal "e"]))]
    let faults : List Event :=
      [.operandUnbound "gone" (.missingKey "gone"), .conditionFailed "1 // 0" .divisionByZero]
    let out (x y : Int) := env.renderAt 0 "page" [("x", .int x), ("y", .int y)] actions
    compile true ("\x7b% if gone %\x7da\x7b% elif 1 // 0 %\x7db\x7b% elif x % y %\x7dc" ++
        "\x7b% elif lost %\x7dd\x7b% else %\x7de\x7b% endif %\x7d") = .ok actions ∧
      (out 7 2).outcome? = some "c" ∧ (out 7 2).told = faults ∧ (out 4 2).outcome? = some "e" ∧
      (out Double.minInt (-1)).outcome? = none ∧ (out Double.minInt (-1)).told = faults := by
  intro env branch branches actions faults out
  obtain ⟨hcompile, hrender, -⟩ := renderAt_conditional_unless_halted env faultyConditional
  let scope (x y : Int) : Scope := .of [("x", .int x), ("y", .int y)]
  have hgone (x y : Int) : holds env.surroundings (scope x y) (branch "gone" "a").condition =
      ⟨false, [.operandUnbound "gone" (.missingKey "gone")]⟩ := by cbv
  have hzero (x y : Int) : holds env.surroundings (scope x y) (branch "1 // 0" "b").condition =
      ⟨false, [.conditionFailed "1 // 0" .divisionByZero]⟩ := by cbv
  have hlost : holds env.surroundings (scope 4 2) (branch "lost" "d").condition =
      ⟨false, [.operandUnbound "lost" (.missingKey "lost")]⟩ := by cbv
  have hodd : holds env.surroundings (scope 7 2) (branch "x % y" "c").condition = ⟨true, []⟩ := by
    cbv
  have heven : holds env.surroundings (scope 4 2) (branch "x % y" "c").condition = ⟨false, []⟩ := by
    cbv
  have hleast : holds env.surroundings (scope Double.minInt (-1)) (branch "x % y" "c").condition =
      ⟨false, [.halted .remainder]⟩ := by cbv
  have hbefore (x y : Int) : ∀ b ∈ [branch "gone" "a", branch "1 // 0" "b"],
      env.Fails (scope x y) b := by
    simp only [List.forall_mem_cons, fails_iff, hgone, hzero]
    exact ⟨rfl, rfl, by simp⟩
  have hall : ∀ b ∈ branches, env.Fails (scope 4 2) b := by
    simp only [branches, List.forall_mem_cons, fails_iff, hgone, hzero, heven, hlost]
    exact ⟨rfl, rfl, rfl, rfl, by simp⟩
  have htested (x y : Int)
      (h : (holds env.surroundings (scope x y) (branch "x % y" "c").condition).told = []) :
      env.tested (scope x y) [branch "gone" "a", branch "1 // 0" "b", branch "x % y" "c"] =
        faults := by
    simp only [tested, List.flatMap_cons, List.flatMap_nil, hgone, hzero, h]
    rfl
  have hrest (x y : Int) := (hrender "page" [("x", .int x), ("y", .int y)] Nat.zero_lt_one).1
    [branch "gone" "a", branch "1 // 0" "b"] (branch "x % y" "c") [branch "lost" "d"] rfl
    (hbefore x y)
  obtain ⟨hfirst, hevents⟩ := (hrest 7 2).1 (outcome?_holds_eq_true_iff.1 (by rw [hodd]; rfl))
  obtain ⟨hnone, hended⟩ :=
    (hrest Double.minInt (-1)).2 (outcome?_holds_eq_none_iff.1 (by rw [hleast]; rfl))
  obtain ⟨hlast, -⟩ := (hrender "page" [("x", .int 4), ("y", .int 2)] Nat.zero_lt_one).2 hall
  refine ⟨hcompile, hfirst, hevents.trans ?_, hlast, hnone, hended.trans ?_⟩
  · exact (List.append_nil _).trans (htested 7 2 (by rw [hodd]; rfl))
  · exact htested Double.minInt (-1) (by rw [hleast]; rfl)

/-- Whatever the remainder of the least integer and minus one is taken for, one of the two bodies
would be rendered, as each is by itself; but nothing is. -/
theorem conditional_halts_at_remainder :
    let env : Env := ⟨⟨none, true, 1⟩, .none, ⟨⟨0, 0, 0⟩, fun _ => 0⟩⟩
    let dataset : Dataset := [("x", .int (-9223372036854775808)), ("y", .int (-1))]
    let actions : List Action :=
      [.conditional [.mk (conditionTokens "x % y".toList) (.mk "A" [.literal "A"])]
        (some (.mk "B" [.literal "B"]))]
    compile true "\x7b% if x % y %\x7dA\x7b% else %\x7dB\x7b% endif %\x7d" = .ok actions ∧
      (env.renderAt 1 "if" dataset [.literal "A"]).outcome? = some "A" ∧
      (env.renderAt 1 "if" dataset [.literal "B"]).outcome? = some "B" ∧
      (env.renderAt 0 "page" dataset actions).outcome? = none := by
  intro env dataset actions
  refine ⟨?_, rfl, rfl, ?_⟩
  · simp only [actions]
    cbv
  · simp only [env, dataset, actions]
    cbv

end Render.Env

end Stencil
