import Mathlib
import Stencil.Filter.Apply

/-!
# Arguments of filters

The arguments that a filter runs with are settled one by one (`resolveArguments`): each parameter
gets what was given in its place or, failing that, its default. Settling them once more changes
nothing, whatever the table of parameters says, since a default that its own parameter refuses is
replaced by itself.
-/

namespace Stencil

namespace Parameter

variable {p : Parameter} {v : Value}

/-- A parameter takes a value as it is: the value has one of its types, booleans counting as
integers, and is none of the values that count as missing. -/
structure Takes (p : Parameter) (v : Value) : Prop where
  type : v.type ∈ p.accepts ∨ v.type = .bool ∧ .int ∈ p.accepts
  allowed : ∀ c ∈ p.disallowed, c.matches v = false

/-- What a parameter makes of the argument in its place, if there is one. -/
inductive Settles (p : Parameter) : Option Value → Value → Prop
  /-- An argument that the parameter takes stays. -/
  | given {v : Value} : p.Takes v → p.Settles (some v) v
  /-- One that is missing, of a wrong type or not allowed is replaced by the default. -/
  | default {given : Option Value} : (∀ v, given = some v → ¬p.Takes v) →
      p.Settles given p.default.toValue

theorem acceptsValue_iff :
    p.acceptsValue v = true ↔ v.type ∈ p.accepts ∨ v.type = .bool ∧ .int ∈ p.accepts := by
  simp [acceptsValue]

theorem takes_iff :
    p.Takes v ↔ p.acceptsValue v = true ∧ p.disallowed.any (·.matches v) = false := by
  have hallowed : p.disallowed.any (·.matches v) = false ↔
      ∀ c ∈ p.disallowed, c.matches v = false := by
    simp [List.any_eq_false]
  rw [acceptsValue_iff, hallowed]
  exact ⟨fun h => ⟨h.type, h.allowed⟩, fun h => ⟨h.1, h.2⟩⟩

/-- What has been settled stays as it is. A default that its parameter refuses is replaced, but by
itself. -/
theorem Settles.again {given : Option Value} (h : p.Settles given v) : p.Settles (some v) v := by
  cases h with
  | given htakes => exact .given htakes
  | default =>
    by_cases htakes : p.Takes p.default.toValue
    · exact .given htakes
    · refine .default fun w hw => ?_
      rwa [← Option.some_inj.1 hw]

end Parameter

namespace Filter

/-! ## One argument -/

/-- An argument that is taken is passed on without an event. -/
theorem resolveOne_of_takes (f : Filter) (position : Nat) {p : Parameter} {v : Value}
    (h : p.Takes v) : f.resolveOne position p (some v) = pure v := by
  obtain ⟨haccepts, hallowed⟩ := Parameter.takes_iff.1 h
  simp [resolveOne, haccepts, hallowed]

/-- Any other one is replaced. -/
theorem value_resolveOne_of_not_takes (f : Filter) (position : Nat) {p : Parameter}
    {given : Option Value} (h : ∀ v, given = some v → ¬p.Takes v) :
    (f.resolveOne position p given).value = p.default.toValue := by
  cases given with
  | none => rfl
  | some v =>
    have hnot := h v rfl
    rw [Parameter.takes_iff, not_and_or] at hnot
    rcases hnot with htype | hallowed
    · simp [resolveOne, htype, Logged.withEvent]
    · by_cases haccepts : p.acceptsValue v = true
      · simp [resolveOne, haccepts, hallowed, Logged.withEvent]
      · simp [resolveOne, haccepts, Logged.withEvent]

theorem settles_iff (f : Filter) (position : Nat) (p : Parameter) (given : Option Value)
    (v : Value) : p.Settles given v ↔ (f.resolveOne position p given).value = v := by
  constructor
  · rintro (htakes | hnot)
    · rw [resolveOne_of_takes f position htakes, Logged.value_pure]
    · exact value_resolveOne_of_not_takes f position hnot
  · rintro rfl
    by_cases htakes : ∃ w, given = some w ∧ p.Takes w
    · obtain ⟨w, rfl, hw⟩ := htakes
      rw [resolveOne_of_takes f position hw]
      exact .given hw
    · have hnot : ∀ w, given = some w → ¬p.Takes w := fun w hw hw' => htakes ⟨w, hw, hw'⟩
      rw [value_resolveOne_of_not_takes f position hnot]
      exact .default hnot

/-! ## All arguments -/

theorem length_resolveFrom (f : Filter) (position : Nat) (ps : List Parameter)
    (given : List Value) : (f.resolveFrom position ps given).value.length = ps.length := by
  induction ps generalizing position given with
  | nil => rfl
  | cons p ps ih => simp [resolveFrom, ih]

theorem settles_of_getElem? (f : Filter) {ps : List Parameter} {i : Nat} {p : Parameter}
    (hp : ps[i]? = some p) (position : Nat) (given : List Value) :
    ∃ v, (f.resolveFrom position ps given).value[i]? = some v ∧ p.Settles given[i]? v := by
  induction ps generalizing i position given with
  | nil => simp at hp
  | cons q ps ih =>
    cases i with
    | zero =>
      obtain rfl : q = p := by simpa using hp
      refine ⟨(f.resolveOne position q given.head?).value, by simp [resolveFrom], ?_⟩
      rw [settles_iff f position, List.head?_eq_getElem?]
    | succ i =>
      obtain ⟨v, hv, hsettles⟩ := ih (by simpa using hp) (position + 1) given.tail
      exact ⟨v, by simpa [resolveFrom] using hv, by simpa using hsettles⟩

theorem value_resolveFrom_resolveFrom (f : Filter) (position : Nat) (ps : List Parameter)
    (given : List Value) :
    (f.resolveFrom position ps (f.resolveFrom position ps given).value).value =
      (f.resolveFrom position ps given).value := by
  induction ps generalizing position given with
  | nil => rfl
  | cons p ps ih =>
    have hself := ((settles_iff f position p given.head? _).2 rfl).again
    rw [settles_iff f position] at hself
    simp [resolveFrom, hself, ih]

/-- Arguments without a parameter are not looked at. -/
theorem resolveFrom_take (f : Filter) (position : Nat) (ps : List Parameter)
    (given : List Value) :
    f.resolveFrom position ps (given.take ps.length) = f.resolveFrom position ps given := by
  induction ps generalizing position given with
  | nil => rfl
  | cons p ps ih =>
    cases given with
    | nil => rfl
    | cons v given => simp [resolveFrom, ih]

/-- Arguments that their parameters take are passed on without an event. -/
theorem resolveFrom_of_takes (f : Filter) (position : Nat) {ps : List Parameter}
    {given : List Value} (h : List.Forall₂ Parameter.Takes ps given) :
    f.resolveFrom position ps given = pure given := by
  induction h generalizing position with
  | nil => rfl
  | cons hp _ ih =>
    rw [resolveFrom, List.head?_cons, List.tail_cons, resolveOne_of_takes f position hp, ih]
    rfl

theorem value_apply (s : Surroundings) (f : Filter) (value : Value) (given : List Value) :
    (f.apply s value given).value =
      let args := (f.resolveArguments given).value
      (f.run s value (args.getD 0 .null) (args.getD 1 .null) (args.getD 2 .null)).value := rfl

/-- Each parameter of a filter has one argument: what was given in its place if the parameter takes
it, else the default. Checking the arguments again (`resolveArguments`) changes nothing, so a filter
has the same answer with the checked arguments as with those that were given, and what is given
beyond the table of parameters plays no part. -/
theorem arguments_settled_once (f : Filter) (given : List Value) :
    let args := (f.resolveArguments given).value
    args.length = f.parameters.length ∧
      (∀ (i : Nat) (p : Parameter), f.parameters[i]? = some p →
        ∃ v, args[i]? = some v ∧ p.Settles given[i]? v) ∧
      (f.resolveArguments args).value = args ∧
      (∀ (s : Surroundings) (value : Value),
        (f.apply s value args).value = (f.apply s value given).value) ∧
      f.resolveArguments (given.take f.parameters.length) = f.resolveArguments given ∧
      ∀ (s : Surroundings) (value : Value),
        f.apply s value (given.take f.parameters.length) = f.apply s value given := by
  intro args
  have hagain : (f.resolveArguments args).value = args :=
    value_resolveFrom_resolveFrom f 1 f.parameters given
  have htable : f.resolveArguments (given.take f.parameters.length) = f.resolveArguments given :=
    resolveFrom_take f 1 f.parameters given
  refine ⟨length_resolveFrom f 1 f.parameters given, ?_, hagain, ?_, htable, ?_⟩
  · intro i p hp
    exact settles_of_getElem? f hp 1 given
  · intro s value
    rw [value_apply, value_apply, hagain]
  · intro s value
    rw [apply, apply, htable]

/-- An empty starting number is replaced, a boolean stays in place of an integer, a symbol of a
wrong type is replaced, and the fourth argument is not looked at. -/
theorem arguments_settled_once_lineNumbers :
    let given : List Value := [.str "", .bool true, .null, .int 7]
    let args : List Value := [.str "1", .bool true, .str "."]
    (lineNumbers.resolveArguments given).value = args ∧
      (lineNumbers.resolveArguments args).value = args ∧
      (∀ (s : Surroundings) (value : Value),
        (lineNumbers.apply s value args).value = (lineNumbers.apply s value given).value) ∧
      ∀ (s : Surroundings) (value : Value),
        lineNumbers.apply s value (given.take 3) = lineNumbers.apply s value given := by
  intro given args
  have hargs : (lineNumbers.resolveArguments given).value = args := rfl
  obtain ⟨-, -, hagain, hsame, -, htable⟩ := arguments_settled_once lineNumbers given
  rw [hargs] at hagain hsame
  exact ⟨hargs, hagain, hsame, htable⟩

end Filter

end Stencil
