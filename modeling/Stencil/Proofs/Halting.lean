import Mathlib.Data.List.Forall2
import Mathlib.Data.List.TakeWhile
import Mathlib.Tactic.SplitIfs
import Stencil.Proofs.ConditionParser
import Stencil.Proofs.Events

/-!
# Runs that halt

A run that halts has no outcome, and nothing after the halt is told. `Logged.outcome?` and
`Logged.told` take a run apart into its steps, so what a run comes to is settled step by step.

A condition halts the run where a filter of one of its operands does, of which only two can, or
where it takes the remainder of the least integer of 64 bits and minus one: `intBinary` divides
without a check there. Reading a condition halts nothing.
-/

namespace Stencil

namespace Logged

variable {α β : Type} {x : Logged α}

theorem outcome?_eq_some_iff {a : α} : x.outcome? = some a ↔ x.halts = false ∧ x.value = a := by
  rw [outcome?]
  cases x.halts <;> simp

theorem outcome?_eq_none_iff : x.outcome? = none ↔ x.halts = true := by
  rw [outcome?]
  cases x.halts <;> simp

/-- Where nothing halts, everything is told. -/
theorem told_of_not_halts (h : x.halts = false) : x.told = x.events := by
  rw [halts, List.any_eq_false] at h
  rw [told, List.takeWhile_eq_self_iff]
  intro e he
  rw [Bool.not_eq_true', Bool.eq_false_iff]
  exact h e he

/-- What is told of a run that goes on. -/
theorem told_bind_of_some {a : α} (h : x.outcome? = some a) (f : α → Logged β) :
    (x >>= f).told = x.told ++ (f a).told := by
  obtain ⟨hhalts, rfl⟩ := outcome?_eq_some_iff.1 h
  have hall : ∀ e ∈ x.events, (!e.isHalt) = true := by
    rw [← List.takeWhile_eq_self_iff]
    exact told_of_not_halts hhalts
  rw [told_of_not_halts hhalts, told, events_bind, List.takeWhile_append_of_pos hall]
  rfl

/-- Nothing is told after a halt. -/
theorem told_bind_of_none (h : x.outcome? = none) (f : α → Logged β) : (x >>= f).told = x.told := by
  obtain ⟨e, he, hhalt⟩ := List.any_eq_true.1 (outcome?_eq_none_iff.1 h)
  rw [told, told, events_bind, List.takeWhile_append]
  have hshort : (x.events.takeWhile fun e => !e.isHalt).length ≠ x.events.length := by
    intro hlength
    have hall := List.takeWhile_eq_self_iff.1
      ((List.takeWhile_prefix _).eq_of_length hlength) e he
    rw [hhalt] at hall
    cases hall
  rw [if_neg hshort]

end Logged

/-! ## Halts of filters -/

namespace Filter

/-- A filter halts the run if running it with its settled arguments does. -/
theorem halts_apply (s : Surroundings) (f : Filter) (value : Value) (given : List Value) :
    (f.apply s value given).halts =
      let args := (f.resolveArguments given).value
      (f.run s value (args.getD 0 .null) (args.getD 1 .null) (args.getD 2 .null)).halts := by
  rw [apply, Logged.halts_bind, (plain_resolveArguments f given).halts_eq, Bool.false_or]

end Filter

/-! ## Halts of expressions -/

namespace Condition

/-- A result that is none because the run halts. -/
def Halting {α : Type} (x : Except Error α) : Prop := ∃ reason, x = .error (.halts reason)

section Halting

variable {α β : Type}

@[simp] theorem not_halting_ok (a : α) : ¬Halting (.ok a : Except Error α) := by
  simp [Halting]

@[simp] theorem halting_error_iff {e : Error} :
    Halting (.error e : Except Error α) ↔ ∃ reason, e = .halts reason := by
  simp [Halting]

/-- A computation in two steps halts in the first one or in the second. -/
theorem halting_bind_iff {x : Except Error α} {f : α → Except Error β} :
    Halting (x >>= f) ↔ Halting x ∨ ∃ a, x = .ok a ∧ Halting (f a) := by
  cases x with
  | error e => simp [Halting, bind, Except.bind]
  | ok a => simp [Halting, bind, Except.bind]

theorem halting_map_iff {x : Except Error α} {f : α → β} : Halting (x.map f) ↔ Halting x := by
  cases x with
  | error e => simp [Halting, Except.map]
  | ok a => simp [Halting, Except.map]

end Halting

/-! ### Operators -/

@[simp] theorem not_halting_checkInt (n : Int) : ¬Halting (checkInt n) := by
  unfold checkInt
  split_ifs <;> simp

@[simp] theorem not_halting_checkFloat (x : Float) : ¬Halting (checkFloat x) := by
  unfold checkFloat
  split <;> simp

@[simp] theorem not_halting_repeatCount (length : Nat) (n : Int) :
    ¬Halting (repeatCount length n) := by
  unfold repeatCount
  split_ifs <;> simp

/-- An operator on two integers halts the run only if it is the remainder of the least one and minus
one. -/
theorem least_of_halting_intBinary {mismatch : Error}
    (hmismatch : ¬∃ reason, mismatch = .halts reason) {op : BinaryOp} {x y : Int}
    (h : Halting (intBinary mismatch op x y)) : op = .mod ∧ x = Double.minInt ∧ y = -1 := by
  cases op with
  | mod =>
    rw [intBinary] at h
    split_ifs at h with hzero hleast
    · simp at h
    · exact ⟨rfl, hleast⟩
    · simp at h
  | add | sub | mul | bitAnd | bitOr | bitXor => simp [intBinary] at h
  | floorDiv =>
    rw [intBinary] at h
    split_ifs at h
    · simp at h
    · split at h <;> simp at h
  | div | pow =>
    rw [intBinary] at h
    split_ifs at h <;> simp at h
  | shiftLeft | shiftRight =>
    rw [intBinary] at h
    split_ifs at h <;> simp [hmismatch] at h

theorem not_halting_floatBinary {mismatch : Error} (hmismatch : ¬∃ reason, mismatch = .halts reason)
    (op : BinaryOp) (x y : Float) : ¬Halting (floatBinary mismatch op x y) := by
  cases op with
  | add | sub | mul | pow => simp [floatBinary]
  | bitAnd | bitOr | bitXor | shiftLeft | shiftRight => simpa [floatBinary] using hmismatch
  | div | floorDiv | mod =>
    rw [floatBinary]
    split_ifs <;> simp

theorem not_halting_sequenceBinary? {op : BinaryOp} {left right : Value}
    {result : Except Error Value} (h : sequenceBinary? op left right = some result) : ¬Halting result := by
  have hrepeat {n : Option Int} {f : Int → Except Error Value} (hf : ∀ n, ¬Halting (f n))
      (hn : n.map f = some result) : ¬Halting result := by
    obtain ⟨n, -, rfl⟩ := Option.map_eq_some_iff.1 hn
    exact hf n
  have hstring (s : String) (n : Int) : ¬Halting (repeatString s n) := by
    rw [repeatString, halting_bind_iff]
    simp
  have hlist (items : List Value) (n : Int) : ¬Halting (repeatList items n) := by
    rw [repeatList, halting_bind_iff]
    simp
  unfold sequenceBinary? at h
  split at h
  all_goals first
    | exact hrepeat (hstring _) h
    | exact hrepeat (hlist _) h
    | cases h <;> exact not_halting_ok _

/-- The operands of the one remainder that is not checked: the quotient that belongs to it is one
beyond 64 bits. -/
structure Overruns (left right : Value) : Prop where
  least : Number.ofValue? left = some (.int Double.minInt)
  minusOne : Number.ofValue? right = some (.int (-1))

/-- An operator on two values halts the run only if it is such a remainder. -/
theorem overruns_of_halting_binary {op : BinaryOp} {left right : Value}
    (h : Halting (binary op left right)) : op = .mod ∧ Overruns left right := by
  have htypes : ¬∃ reason, typesError op left right = .halts reason := by simp [typesError]
  unfold binary at h
  split at h
  · rename_i hresult
    exact absurd h (not_halting_sequenceBinary? hresult)
  · split at h
    · rename_i hleft hright
      obtain ⟨hop, rfl, rfl⟩ := least_of_halting_intBinary htypes h
      exact ⟨hop, hleft, hright⟩
    · exact absurd h (not_halting_floatBinary htypes _ _ _)
    · exact absurd (halting_error_iff.1 h) htypes

theorem not_halting_unary (op : UnaryOp) (v : Value) : ¬Halting (unary op v) := by
  unfold unary
  split <;> simp

theorem not_halting_compare (op : CompareOp) (left right : Value) :
    ¬Halting (compare op left right) := by
  have hordered (symbol : String) (accept : Ordering → Bool) :
      ¬Halting (ordered symbol accept left right) := by
    unfold ordered
    split <;> simp
  have hcontains : ¬Halting (contains right left) := by
    unfold contains
    split <;> simp
  cases op with
  | eq | ne | is | isNot => simp [compare]
  | lt | le | gt | ge => exact hordered _ _
  | isIn => exact hcontains
  | notIn => exact mt halting_map_iff.1 hcontains

/-! ### Expressions -/

/-- An expression stands somewhere in another one, or is that one. -/
inductive Expr.Part (part : Expr) : Expr → Prop
  | self : Part part part
  | not {inner : Expr} (h : Part part inner) : Part part (.not inner)
  | andLeft {left : Expr} (h : Part part left) (right : Expr) : Part part (.and left right)
  | andRight (left : Expr) {right : Expr} (h : Part part right) : Part part (.and left right)
  | orLeft {left : Expr} (h : Part part left) (right : Expr) : Part part (.or left right)
  | orRight (left : Expr) {right : Expr} (h : Part part right) : Part part (.or left right)
  | unary (op : UnaryOp) {inner : Expr} (h : Part part inner) : Part part (.unary op inner)
  | left (op : BinaryOp) {left : Expr} (h : Part part left) (right : Expr) :
    Part part (.binary op left right)
  | right (op : BinaryOp) (left : Expr) {right : Expr} (h : Part part right) :
    Part part (.binary op left right)
  | first {first : Expr} (h : Part part first) (op : CompareOp) (second : Expr)
    (links : List (CompareOp × Expr)) : Part part (.compare first op second links)
  | second (first : Expr) (op : CompareOp) {second : Expr} (h : Part part second)
    (links : List (CompareOp × Expr)) : Part part (.compare first op second links)
  | link (first : Expr) (op : CompareOp) (second : Expr) {links : List (CompareOp × Expr)}
    {link : CompareOp × Expr} (hlink : link ∈ links) (h : Part part link.2) :
    Part part (.compare first op second links)

/-- A remainder stands in an expression whose operands come to the least integer and minus one. -/
def Expr.HasOverrun (e : Expr) : Prop :=
  ∃ left right l r, Part (.binary .mod left right) e ∧ eval left = .ok l ∧ eval right = .ok r ∧
    Overruns l r

theorem Expr.HasOverrun.lift {e e' : Expr} (h : e.HasOverrun)
    (hpart : ∀ part, Part part e → Part part e') : e'.HasOverrun := by
  obtain ⟨left, right, l, r, hin, hvalues⟩ := h
  exact ⟨left, right, l, r, hpart _ hin, hvalues⟩

mutual

/-- Evaluating an expression halts the run only at such a remainder. -/
theorem hasOverrun_of_halting_eval : (e : Expr) → Halting (eval e) → e.HasOverrun
  | .value v, h => by simp [eval] at h
  | .not inner, h => by
    rw [eval, halting_bind_iff] at h
    obtain h | ⟨v, -, h⟩ := h
    · exact (hasOverrun_of_halting_eval inner h).lift fun _ => .not
    · simp at h
  | .and left right, h => by
    rw [eval, halting_bind_iff] at h
    obtain h | ⟨v, -, h⟩ := h
    · exact (hasOverrun_of_halting_eval left h).lift fun _ h => .andLeft h right
    · split_ifs at h
      · exact (hasOverrun_of_halting_eval right h).lift fun _ h => .andRight left h
      · simp at h
  | .or left right, h => by
    rw [eval, halting_bind_iff] at h
    obtain h | ⟨v, -, h⟩ := h
    · exact (hasOverrun_of_halting_eval left h).lift fun _ h => .orLeft h right
    · split_ifs at h
      · simp at h
      · exact (hasOverrun_of_halting_eval right h).lift fun _ h => .orRight left h
  | .unary op inner, h => by
    rw [eval, halting_bind_iff] at h
    obtain h | ⟨v, -, h⟩ := h
    · exact (hasOverrun_of_halting_eval inner h).lift fun _ => .unary op
    · exact absurd h (not_halting_unary op v)
  | .binary op left right, h => by
    rw [eval, halting_bind_iff] at h
    obtain h | ⟨l, hl, h⟩ := h
    · exact (hasOverrun_of_halting_eval left h).lift fun _ h => .left op h right
    rw [halting_bind_iff] at h
    obtain h | ⟨r, hr, h⟩ := h
    · exact (hasOverrun_of_halting_eval right h).lift fun _ h => .right op left h
    obtain ⟨rfl, hoverruns⟩ := overruns_of_halting_binary h
    exact ⟨left, right, l, r, .self, hl, hr, hoverruns⟩
  | .compare first op second links, h => by
    rw [eval, halting_bind_iff] at h
    obtain h | ⟨l, -, h⟩ := h
    · exact (hasOverrun_of_halting_eval first h).lift fun _ h => .first h op second links
    rw [halting_bind_iff] at h
    obtain h | ⟨r, -, h⟩ := h
    · exact (hasOverrun_of_halting_eval second h).lift fun _ h => .second first op h links
    rw [halting_bind_iff] at h
    obtain h | ⟨holds, -, h⟩ := h
    · exact absurd h (not_halting_compare op l r)
    · split_ifs at h
      · obtain ⟨link, hlink, hlast⟩ := hasOverrun_of_halting_evalLinks r links h
        exact hlast.lift fun _ h => .link first op second hlink h
      · simp at h

theorem hasOverrun_of_halting_evalLinks (left : Value) : (links : List (CompareOp × Expr)) →
    Halting (evalLinks left links) → ∃ link ∈ links, link.2.HasOverrun
  | [], h => by simp [evalLinks] at h
  | (op, e) :: links, h => by
    rw [evalLinks, halting_bind_iff] at h
    obtain h | ⟨r, -, h⟩ := h
    · exact ⟨(op, e), List.mem_cons_self, hasOverrun_of_halting_eval e h⟩
    rw [halting_bind_iff] at h
    obtain h | ⟨holds, -, h⟩ := h
    · exact absurd h (not_halting_compare op left r)
    · split_ifs at h
      · obtain ⟨link, hlink, hlast⟩ := hasOverrun_of_halting_evalLinks r links h
        exact ⟨link, List.mem_cons_of_mem _ hlink, hlast⟩
      · simp at h

end

/-! ### Conditions -/

mutual

/-- Reading an expression fails without a halt. -/
theorem not_halting_parseLevel : (depth : Nat) → (l : Level) → (operands : List Operand) →
    ¬Halting (parseLevel depth l operands)
  | 0, l, operands => by simp [parseLevel]
  | depth + 1, l, operands => by
    have hlevel := not_halting_parseLevel depth
    rcases l.groups_or with hgroups | rfl | rfl | rfl | rfl | rfl
    · rw [parseLevel_groups hgroups]
      split
      · rename_i e he
        exact he ▸ hlevel _ _
      · exact not_halting_parseJoins depth _ _ _
    · unfold parseLevel
      split
      · exact mt halting_map_iff.1 (hlevel _ _)
      · exact hlevel _ _
    · rw [parseLevel]
      split
      · rename_i e he
        exact he ▸ hlevel _ _
      · exact not_halting_parseLinks depth _ _ _
    · unfold parseLevel
      split
      · split
        · exact mt halting_map_iff.1 (hlevel _ _)
        · exact hlevel _ _
      · exact hlevel _ _
    · unfold parseLevel
      split
      · exact mt halting_map_iff.1 (hlevel _ _)
      · exact hlevel _ _
    · unfold parseLevel
      split
      · simp
      · simp
      · split
        · rename_i e he
          exact he ▸ hlevel _ _
        all_goals simp
      · split <;> simp

theorem not_halting_parseJoins : (depth : Nat) → (l : Level) → (left : Expr) →
    (operands : List Operand) → ¬Halting (parseJoins depth l left operands)
  | 0, l, left, operands => by simp [parseJoins]
  | depth + 1, l, left, operands => by
    unfold parseJoins
    split
    · split
      · split
        · rename_i e he
          exact he ▸ not_halting_parseLevel depth _ _
        · exact not_halting_parseJoins depth _ _ _
      · simp
    · simp

theorem not_halting_parseLinks : (depth : Nat) → (first : Expr) →
    (links : List (CompareOp × Expr)) → (operands : List Operand) →
    ¬Halting (parseLinks depth first links operands)
  | 0, first, links, operands => by simp [parseLinks]
  | depth + 1, first, links, operands => by
    rw [parseLinks]
    split
    · split
      · rename_i e he
        exact he ▸ not_halting_parseLevel depth _ _
      · exact not_halting_parseLinks depth _ _ _
    · simp

end

theorem not_halting_parse (operands : List Operand) : ¬Halting (parse operands) := by
  unfold parse
  split_ifs
  · simp
  · split
    · rename_i e he
      have hread := not_halting_parseLevel (16 * (operands.length + 1)) .or operands
      rw [he, halting_error_iff] at hread
      rwa [halting_error_iff]
    all_goals simp

/-- Evaluating a condition halts the run only if the expression it reads as has an unchecked
remainder in it. -/
theorem hasOverrun_of_halting_evaluate {operands : List Operand} (h : Halting (evaluate operands)) :
    ∃ e, Reads .or operands e ∧ e.HasOverrun := by
  rw [evaluate, halting_bind_iff] at h
  obtain h | ⟨e, he, h⟩ := h
  · exact absurd h (not_halting_parse operands)
  · exact ⟨e, parse_eq_ok_iff.1 he, hasOverrun_of_halting_eval e h⟩

end Condition

namespace Template

open Condition (Operand)

variable {s : Surroundings} {scope : Scope}

/-- Operands are what the tokens of a condition stand for, one by one. -/
def Bound (s : Surroundings) (scope : Scope) (tokens : List Token) (ops : List Operand) : Prop :=
  List.Forall₂ (fun t operand => (t.operand s scope).outcome? = some (some operand)) tokens ops

/-- A condition is satisfied if every operand in it stands for something and the value of the whole
counts as true. -/
def Satisfied (s : Surroundings) (scope : Scope) (condition : List Token) : Prop :=
  ∃ ops value, Bound s scope condition ops ∧ Condition.evaluate ops = .ok value ∧
    value.isTruthy = true

/-- A condition halts the run if a filter of one of its operands does, all operands before that one
standing for something, or if evaluating it does. -/
def Halts (s : Surroundings) (scope : Scope) (condition : List Token) : Prop :=
  (∃ before t after ops, condition = before ++ t :: after ∧ Bound s scope before ops ∧
    (t.operand s scope).outcome? = none) ∨
  ∃ ops, Bound s scope condition ops ∧ Condition.Halting (Condition.evaluate ops)

/-- A token counts if one of its filters adds a number to a length or to the numbers of lines. -/
def Token.Counts (t : Token) : Prop :=
  ∃ call ∈ t.filters, call.name = "length" ∨ call.name = "linenumbers"

theorem counts_of_halts_applyNamed {name : String} {arguments : List Argument} {value : Value}
    (h : (applyNamed s scope name arguments value).halts = true) :
    name = "length" ∨ name = "linenumbers" := by
  unfold applyNamed at h
  split at h
  · cases h
  · rename_i f hf
    have hname : f.name = name := by
      rw [Filter.ofName?] at hf
      simpa using List.find?_some hf
    rw [Logged.halts_bind, (Logged.plain_mapList (Argument.plain_resolve scope) arguments).halts_eq,
      Bool.false_or] at h
    by_cases hlength : f = .length
    · subst hlength
      exact .inl hname.symm
    by_cases hnumbers : f = .lineNumbers
    · subst hnumbers
      exact .inr hname.symm
    · rw [(Filter.plain_apply s hlength hnumbers value _).halts_eq] at h
      cases h

theorem counts_of_halts_applyCalls {calls : List FilterCall} {value : Value}
    (h : (applyCalls s scope calls value).halts = true) :
    ∃ call ∈ calls, call.name = "length" ∨ call.name = "linenumbers" := by
  induction calls generalizing value with
  | nil => cases h
  | cons call calls ih =>
    rw [applyCalls, Logged.halts_bind, Bool.or_eq_true] at h
    rcases h with h | h
    · exact ⟨call, List.mem_cons_self, counts_of_halts_applyNamed h⟩
    · obtain ⟨later, hlater, hname⟩ := ih h
      exact ⟨later, List.mem_cons_of_mem call hlater, hname⟩

/-- An operand halts the run only if its token counts. -/
theorem Token.counts_of_operand {t : Token} (h : (t.operand s scope).outcome? = none) :
    t.Counts := by
  rw [Logged.outcome?_eq_none_iff] at h
  unfold Token.operand at h
  split at h
  · cases h
  · split at h
    · cases h
    · rw [Logged.halts_bind, Logged.halts_pure, Bool.or_false] at h
      exact counts_of_halts_applyCalls h

/-- A condition halts the run only if one of its tokens counts or if the expression that its
operands read as has an unchecked remainder in it. -/
theorem Halts.counts_or_overruns {condition : List Token} (h : Halts s scope condition) :
    (∃ t ∈ condition, t.Counts) ∨
      ∃ ops e, Bound s scope condition ops ∧ Condition.Reads .or ops e ∧ e.HasOverrun := by
  rcases h with ⟨before, t, after, -, rfl, -, hnone⟩ | ⟨ops, hbound, hhalts⟩
  · exact .inl ⟨t, List.mem_append_right before List.mem_cons_self, Token.counts_of_operand hnone⟩
  · obtain ⟨e, hreads, hoverrun⟩ := Condition.hasOverrun_of_halting_evaluate hhalts
    exact .inr ⟨ops, e, hbound, hreads, hoverrun⟩

theorem outcome?_operands_cons (t : Token) (ts : List Token) :
    (operands s scope (t :: ts)).outcome? =
      (t.operand s scope).outcome?.bind fun operand? =>
        operand?.elim (some none) fun operand =>
          (operands s scope ts).outcome?.map fun rest => rest.map (operand :: ·) := by
  rw [operands, Logged.outcome?_bind]
  congr 1
  funext operand?
  cases operand? with
  | none => rfl
  | some operand =>
    rw [Logged.outcome?_bind]
    cases (operands s scope ts).outcome? <;> rfl

/-- The operands of a condition are had if each of its tokens stands for one. -/
theorem outcome?_operands_eq_some_iff {condition : List Token} {ops : List Operand} :
    (operands s scope condition).outcome? = some (some ops) ↔ Bound s scope condition ops := by
  induction condition generalizing ops with
  | nil => simp [operands, Bound, eq_comm]
  | cons t ts ih =>
    rw [outcome?_operands_cons, Bound, List.forall₂_cons_left_iff]
    rcases (t.operand s scope).outcome? with _ | _ | operand
    · simp
    · simp
    · simp only [Option.bind_some, Option.elim_some, Option.map_eq_some_iff]
      constructor
      · rintro ⟨_, hrest, rest, rfl, rfl⟩
        exact ⟨operand, rest, rfl, ih.1 hrest, rfl⟩
      · rintro ⟨first, rest, heq, hrest, rfl⟩
        cases heq
        exact ⟨some rest, ih.2 hrest, rest, rfl, rfl⟩

/-- The run halts at the first operand whose filters halt it, if all before stand for something. -/
theorem outcome?_operands_eq_none_iff {condition : List Token} :
    (operands s scope condition).outcome? = none ↔
      ∃ before t after ops, condition = before ++ t :: after ∧ Bound s scope before ops ∧
        (t.operand s scope).outcome? = none := by
  induction condition with
  | nil => simp [operands]
  | cons t ts ih =>
    rw [outcome?_operands_cons]
    constructor
    · intro h
      rcases hfirst : (t.operand s scope).outcome? with _ | _ | operand
      · exact ⟨[], t, ts, [], rfl, .nil, hfirst⟩
      · rw [hfirst] at h
        cases h
      · rw [hfirst] at h
        simp only [Option.bind_some, Option.elim_some, Option.map_eq_none_iff] at h
        obtain ⟨before, u, after, ops, rfl, hbefore, hu⟩ := ih.1 h
        exact ⟨t :: before, u, after, operand :: ops, rfl, .cons hfirst hbefore, hu⟩
    · rintro ⟨before, u, after, ops, heq, hbefore, hu⟩
      cases hbefore with
      | nil =>
        obtain ⟨rfl, rfl⟩ := List.cons.inj heq
        rw [hu]
        rfl
      | cons hfirst hbefore =>
        obtain ⟨rfl, rfl⟩ := List.cons.inj heq
        rw [hfirst]
        simp only [Option.bind_some, Option.elim_some, Option.map_eq_none_iff]
        exact ih.2 ⟨_, u, after, _, rfl, hbefore, hu⟩

theorem outcome?_holds (condition : List Token) :
    (holds s scope condition).outcome? =
      (operands s scope condition).outcome?.bind fun ops? =>
        ops?.elim (some false) fun ops =>
          match Condition.evaluate ops with
          | .ok value => some value.isTruthy
          | .error (.halts _) => none
          | .error _ => some false := by
  rw [holds, Logged.outcome?_bind]
  congr 1
  funext ops?
  cases ops? with
  | none => rfl
  | some ops =>
    simp only [Option.elim_some]
    cases Condition.evaluate ops with
    | ok value => rfl
    | error e => cases e <;> rfl

/-- A condition holds if and only if it is satisfied. -/
theorem outcome?_holds_eq_true_iff {condition : List Token} :
    (holds s scope condition).outcome? = some true ↔ Satisfied s scope condition := by
  simp only [Satisfied, ← outcome?_operands_eq_some_iff, outcome?_holds]
  rcases (operands s scope condition).outcome? with _ | _ | ops
  · simp
  · simp
  · cases hvalue : Condition.evaluate ops with
    | ok value => simp [hvalue]
    | error e => cases e <;> simp [hvalue]

/-- Testing a condition halts the run if and only if the condition does. -/
theorem outcome?_holds_eq_none_iff {condition : List Token} :
    (holds s scope condition).outcome? = none ↔ Halts s scope condition := by
  rw [Halts, ← outcome?_operands_eq_none_iff]
  simp only [← outcome?_operands_eq_some_iff, outcome?_holds]
  rcases (operands s scope condition).outcome? with _ | _ | ops
  · simp
  · simp
  · cases hvalue : Condition.evaluate ops with
    | ok value => simp [hvalue]
    | error e => cases e <;> simp [hvalue]

end Template

end Stencil
