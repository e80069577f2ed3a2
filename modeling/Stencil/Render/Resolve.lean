import Stencil.Condition.Eval
import Stencil.Filter.Apply
import Stencil.Template.Token
import Stencil.Value.Path
import Stencil.Value.Shape

/-!
# What names and tokens stand for

Names are looked up in a scope: a dataset and the paths that can be followed in it, listed once. A
name is a path in the dataset; a name that reads as a number and is no path there is that number. A
token is resolved by its primary and then by its filters from left to right.
-/

namespace Stencil

/-- A dataset, and beside it the paths that can be followed in it. Reference: `Processor`. -/
structure Scope where
  dataset : Dataset
  /-- The paths of the dataset, listed again only when the dataset changes. -/
  keys : List String

namespace Scope

/-- The scope of a dataset, with its paths listed. -/
def of (dataset : Dataset) : Scope := ⟨dataset, dataset.keySet⟩

instance : Coe Dataset Scope := ⟨of⟩

@[simp] theorem dataset_of (dataset : Dataset) : (of dataset).dataset = dataset := rfl

@[simp] theorem keys_of (dataset : Dataset) : (of dataset).keys = dataset.keySet := rfl

/-- The scope after a dataset has been laid over its own, with the paths listed again. -/
def overlay (scope : Scope) (delta : Dataset) : Scope :=
  let merged : Dataset := Fields.merge scope.dataset delta
  { dataset := merged, keys := merged.keySet }

@[simp] theorem overlay_of (dataset delta : Dataset) :
    (of dataset).overlay delta = of (Fields.merge dataset delta) := rfl

/-- What a name stands for. Reference: `lookup`. -/
def lookup (scope : Scope) (name : String) : Except WalkError Value :=
  match Value.ofWord? name with
  | some number => if scope.keys.contains name then scope.dataset.walk name else .ok number
  | none => scope.dataset.walk name

/-- What a name stands for, if it has a shape; null if it has another, or if there is no such name.
Reference: `get_data`. -/
def fetch (scope : Scope) (shape : Shape) (name : String) : Logged Value :=
  match scope.lookup name with
  | .error reason => .withEvent (.nameUnresolved name reason) .null
  | .ok value =>
    if shape = .typeName then pure (.str value.type.name)
    else if shape.accepts value.type then pure value
    else .withEvent (.wrongShape name shape value.type) .null

end Scope

/-- What a name stands for in a dataset, if it has a shape. -/
def Dataset.fetch (dataset : Dataset) : Shape → String → Logged Value := (Scope.of dataset).fetch

namespace Template

/-- The number that a word of a condition is: in conditions a word with a point that reads as a
double is no path. -/
def Token.number? (t : Token) : Option Value :=
  if t.inCondition && t.value.toList.contains '.' then
    (Double.readDouble? t.value.toList).bind Value.ofFloat?
  else none

/-- The value of an argument. Reference: `argument`. -/
def Argument.resolve (scope : Scope) (a : Argument) : Logged Value :=
  if a.kind = .name then scope.fetch .any a.value else pure (.str a.value)

/-- Applies a filter by its name; an unknown filter leaves the value as it is. -/
def applyNamed (s : Surroundings) (scope : Scope) (name : String) (arguments : List Argument)
    (value : Value) : Logged Value :=
  match Filter.ofName? name with
  | none => .withEvent (.unknownFilter name) value
  | some filter => do
    let given ← Logged.mapList (Argument.resolve scope) arguments
    filter.apply s value given

/-- Applies a chain of filters. Reference: `apply_filters`. -/
def applyCalls (s : Surroundings) (scope : Scope) : List FilterCall → Value → Logged Value
  | [], value => pure value
  | call :: calls, value => do
    let value ← applyNamed s scope call.name call.arguments value
    applyCalls s scope calls value

/-- The value of a token. Reference: `resolve_token`. -/
def Token.resolve (s : Surroundings) (scope : Scope) (t : Token) : Logged Value := do
  let value ← match t.kind, t.number? with
    | .name, some number => pure number
    | .name, none => scope.fetch .any t.value
    | _, _ => pure (.str t.value)
  applyCalls s scope t.filters value

/-! ## Conditions -/

/-- What a token of a condition that is no operator stands for, before its filters. -/
def Token.bound (scope : Scope) (t : Token) : Except WalkError Value :=
  match t.kind, t.number? with
  | .name, some number => .ok number
  | .name, none => scope.lookup t.value
  | _, _ => .ok (.str t.value)

/-- A token of a condition as an operand; none if its name stands for nothing.
Reference: `operand`. -/
def Token.operand (s : Surroundings) (scope : Scope) (t : Token) :
    Logged (Option Condition.Operand) :=
  if t.isOperator then pure (some (.op t.value))
  else
    match t.bound scope with
    | .error reason => .withEvent (.operandUnbound t.value reason) none
    | .ok value => do
      let value ← applyCalls s scope t.filters value
      pure (some (.value value))

/-- The operands of a condition up to the first one that stands for nothing. -/
def operands (s : Surroundings) (scope : Scope) :
    List Token → Logged (Option (List Condition.Operand))
  | [] => pure (some [])
  | t :: ts => do
    match ← t.operand s scope with
    | none => pure none
    | some operand => do
      let rest ← operands s scope ts
      pure (rest.map (operand :: ·))

/-- The texts of tokens, a space between neighbours. -/
def sources (tokens : List Token) : String :=
  String.ofList (Text.joinWith [' '] (tokens.map fun t => t.source.toList))

/-- Whether a condition holds. One that cannot be evaluated does not, unless the run halts.
Reference: `evaluate`. -/
def holds (s : Surroundings) (scope : Scope) (condition : List Token) : Logged Bool := do
  match ← operands s scope condition with
  | none => pure false
  | some operands =>
    match Condition.evaluate operands with
    | .ok value => pure value.isTruthy
    | .error (.halts reason) => .withEvent (.halted reason) false
    | .error reason => .withEvent (.conditionFailed (sources condition) reason) false

end Template

end Stencil
