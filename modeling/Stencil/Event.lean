import Stencil.Condition.Error
import Stencil.Double.Layout
import Stencil.Template.Error
import Stencil.Value.Path
import Stencil.Value.Shape

/-!
# Events

Rendering a compiled template never fails. What goes wrong on the way is told by events, each with
a severity, a message and named details. `Logged` is a result together with the events that
producing it gave rise to, in order.

A run may halt, though. This too is an event, and it counts for more than the others: a result on
the way to which something halted is none, whatever its value (`Logged.outcome?`), and what comes
after that is not told (`Logged.told`).
-/

namespace Stencil

/-- How grave an event is. -/
inductive Severity where
  | info
  | warn
  | error
  deriving DecidableEq, Repr

/-- Something that happened while a template was rendered. -/
inductive Event where
  -- names and conditions
  | nameUnresolved (name : String) (reason : WalkError)
  | wrongShape (name : String) (expected : Shape) (found : ValueType)
  | operandUnbound (name : String) (reason : WalkError)
  | conditionFailed (condition : String) (reason : Condition.Error)
  -- tags
  | lengthNeedsArgument
  | malformedLoop (arguments : String)
  | notIterable (iterable : String) (found : ValueType)
  | notAFilterName (argument : String)
  | unknownTag (name : String)
  | noFileName (tag : String)
  | includeFailed (template : String) (reason : Template.Error)
  | pageFailed (template : String) (reason : Template.Error)
  | tooDeep (level limit : Nat) (source : String)
  -- sources
  | noSuchTemplate (id : String)
  | noSuchDataset (id : String)
  | noLoaderForTemplate (id : String)
  | noLoaderForDataset (id : String)
  | datasetUndecodable (id : String)
  | templateUnreadable (id : String)
  | datasetUnreadable (id : String)
  -- arguments of filters
  | unknownFilter (name : String)
  | argumentMissing (filter : String) (position : Nat)
  | argumentWrongType (filter : String) (position : Nat) (found : ValueType)
  | argumentReplaced (filter : String) (position : Nat)
  | argumentNotAllowed (filter : String) (position : Nat)
  | countUnreadable (filter count : String)
  | widthClamped (filter : String) (width limit : Nat)
  -- values of filters
  | unusable (filter : String) (found : ValueType)
  | emptyValue (filter : String)
  | cannotAdd (value operand : ValueType)
  | notPositive (left right : Float)
  | notASize (value : String)
  | notANumber (value : String)
  | digitPositionUnreadable (position : String)
  | digitPositionOutOfRange (length : Nat) (position : Int)
  | notADigit (value : String) (position : Int)
  | formatFailed (spec value : String)
  | sortKeyUnreadable (key reason : String)
  | sortKeysIncomparable (key : String)
  | invalidSlice (spec : String)
  | sliceStepZero (spec : String)
  | dateUnrecognised (filter value : String)
  | dateDirectiveUnsupported (format : String)
  | dateUnformattable (format : String)
  -- runs
  | halted (reason : Halt)

namespace Event

/-- Whether an event is that the run halts. -/
@[simp] def isHalt : Event → Bool
  | .halted _ => true
  | _ => false

/-- How grave an event is. -/
def severity : Event → Severity
  | .argumentMissing .. | .argumentReplaced .. | .argumentNotAllowed .. => .info
  | .wrongShape .. | .notAFilterName _ | .unknownTag _ | .unknownFilter _
  | .argumentWrongType .. | .countUnreadable .. | .widthClamped .. | .unusable .. | .emptyValue _
  | .cannotAdd .. | .notASize _ | .notANumber _ | .formatFailed .. | .invalidSlice _
  | .sliceStepZero _ | .dateUnrecognised .. => .warn
  | _ => .error

/-- The message of an event. -/
def message : Event → String
  | .nameUnresolved .. => "cannot resolve name"
  | .wrongShape .. => "value has the wrong type"
  | .operandUnbound .. => "cannot bind condition operand"
  | .conditionFailed .. => "condition cannot be evaluated"
  | .lengthNeedsArgument => "length needs an argument"
  | .malformedLoop _ => "for expects `item in items`"
  | .notIterable .. => "for needs a list to iterate"
  | .notAFilterName _ => "filter directive expects filter names"
  | .unknownTag _ => "unknown directive ignored"
  | .noFileName _ => "no file name given"
  | .includeFailed .. => "included template does not compile"
  | .pageFailed .. => "page template does not compile"
  | .tooDeep .. => "templates nest too deeply"
  | .noSuchTemplate _ => "no such template"
  | .noSuchDataset _ => "no such dataset"
  | .noLoaderForTemplate _ | .noLoaderForDataset _ => "no loader configured"
  | .datasetUndecodable _ => "cannot decode dataset"
  | .templateUnreadable _ => "cannot read template"
  | .datasetUnreadable _ => "cannot read dataset"
  | .unknownFilter _ => "unknown filter ignored"
  | .argumentMissing .. => "filter argument missing, using default"
  | .argumentWrongType .. => "filter argument has the wrong type"
  | .argumentReplaced .. => "using default argument"
  | .argumentNotAllowed .. => "filter argument not allowed, using default"
  | .countUnreadable .. => "count is not a number"
  | .widthClamped .. => "width clamped"
  | .unusable .. => "filter cannot use a value of this type"
  | .emptyValue _ => "value is empty"
  | .cannotAdd .. => "cannot add these types"
  | .notPositive .. => "divisibleby needs two positive numbers"
  | .notASize _ => "not a size"
  | .notANumber _ => "not a number"
  | .digitPositionUnreadable _ => "get_digit position is not a number"
  | .digitPositionOutOfRange .. => "get_digit position out of range"
  | .notADigit .. => "get_digit found a non-digit"
  | .formatFailed .. => "stringformat could not format value"
  | .sortKeyUnreadable .. => "dictsort could not read sort key"
  | .sortKeysIncomparable _ => "dictsort keys cannot be compared"
  | .invalidSlice _ => "invalid slice"
  | .sliceStepZero _ => "slice step cannot be zero"
  | .dateUnrecognised .. => "not a recognisable date"
  | .dateDirectiveUnsupported _ => "unsupported date directive"
  | .dateUnformattable _ => "date could not be formatted"
  | .halted reason => reason.message

/-- A number as a detail. -/
def detail (n : Int) : String := String.ofList (Double.intDigits n)

/-- A double as a detail. -/
def floatDetail (x : Float) : String := String.ofList (Double.Layout.display.text x)

/-- The named details of an event. -/
def details : Event → List (String × String)
  | .nameUnresolved name reason => [("name", name), ("err", reason.message)]
  | .wrongShape name expected found =>
    [("name", name), ("expected", expected.name), ("found", found.name)]
  | .operandUnbound name reason => [("name", name), ("err", reason.message)]
  | .conditionFailed condition reason => [("condition", condition), ("err", reason.message)]
  | .lengthNeedsArgument => []
  | .malformedLoop arguments => [("arguments", arguments)]
  | .notIterable iterable found => [("iterable", iterable), ("found", found.name)]
  | .notAFilterName argument => [("argument", argument)]
  | .unknownTag name => [("directive", name)]
  | .noFileName tag => [("directive", tag)]
  | .includeFailed template reason => [("template", template), ("err", reason.message)]
  | .pageFailed template reason => [("template", template), ("err", reason.message)]
  | .tooDeep level limit source =>
    [("level", detail level), ("max_depth", detail limit), ("source", source)]
  | .noSuchTemplate id | .noLoaderForTemplate id | .templateUnreadable id => [("template", id)]
  | .noSuchDataset id | .noLoaderForDataset id | .datasetUndecodable id
  | .datasetUnreadable id => [("dataset", id)]
  | .unknownFilter name => [("filter", name)]
  | .argumentMissing filter position | .argumentReplaced filter position
  | .argumentNotAllowed filter position => [("filter", filter), ("position", detail position)]
  | .argumentWrongType filter position found =>
    [("filter", filter), ("position", detail position), ("found", found.name)]
  | .countUnreadable filter count => [("filter", filter), ("count", count)]
  | .widthClamped filter width limit =>
    [("filter", filter), ("width", detail width), ("limit", detail limit)]
  | .unusable filter found => [("filter", filter), ("found", found.name)]
  | .emptyValue filter => [("filter", filter)]
  | .cannotAdd value operand =>
    [("filter", "add"), ("value", value.name), ("operand", operand.name)]
  | .notPositive left right => [("left", floatDetail left), ("right", floatDetail right)]
  | .notASize value => [("filter", "filesizeformat"), ("value", value)]
  | .notANumber value => [("filter", "floatformat"), ("value", value)]
  | .digitPositionUnreadable position => [("position", position)]
  | .digitPositionOutOfRange length position =>
    [("length", detail length), ("position", detail position)]
  | .notADigit value position => [("value", value), ("position", detail position)]
  | .formatFailed spec value => [("spec", spec), ("value", value)]
  | .sortKeyUnreadable key reason => [("key", key), ("reason", reason)]
  | .sortKeysIncomparable key => [("key", key)]
  | .invalidSlice spec | .sliceStepZero spec => [("filter", "slice"), ("spec", spec)]
  | .dateUnrecognised filter value => [("filter", filter), ("value", value)]
  | .dateDirectiveUnsupported format | .dateUnformattable format => [("format", format)]
  | .halted _ => []

end Event

/-! ## Results with events -/

/-- A result and the events on the way to it, in order. -/
structure Logged (α : Type) where
  value : α
  events : List Event

namespace Logged

variable {α β : Type}

/-- A result without events. -/
protected def pure (a : α) : Logged α := ⟨a, []⟩

/-- One result after another: the events of the first come first. -/
protected def bind (x : Logged α) (f : α → Logged β) : Logged β :=
  let y := f x.value
  ⟨y.value, x.events ++ y.events⟩

instance : Monad Logged where
  pure := Logged.pure
  bind := Logged.bind

@[simp] theorem value_pure (a : α) : (pure a : Logged α).value = a := rfl

@[simp] theorem events_pure (a : α) : (pure a : Logged α).events = [] := rfl

@[simp] theorem value_bind (x : Logged α) (f : α → Logged β) :
    (x >>= f).value = (f x.value).value := rfl

@[simp] theorem events_bind (x : Logged α) (f : α → Logged β) :
    (x >>= f).events = x.events ++ (f x.value).events := rfl

/-- Results with the same value and the same events are equal. -/
theorem eq_of {x y : Logged α} (hvalue : x.value = y.value) (hevents : x.events = y.events) :
    x = y := by
  cases x
  cases y
  simp_all

/-- A single event. -/
def emit (e : Event) : Logged Unit := ⟨(), [e]⟩

/-- A result that one event accompanies. -/
def withEvent (e : Event) (a : α) : Logged α := ⟨a, [e]⟩

/-- Runs a step for every item and keeps the results in order. -/
def mapList (f : α → Logged β) : List α → Logged (List β)
  | [] => pure []
  | a :: as => do
    let b ← f a
    let bs ← mapList f as
    pure (b :: bs)

/-! ### Halting -/

/-- Whether the run halts on the way to a result. -/
def halts (x : Logged α) : Bool := x.events.any Event.isHalt

/-- The result; there is none if the run halts on the way to it. -/
def outcome? (x : Logged α) : Option α := if x.halts then none else some x.value

/-- The events up to the point where the run halts, or all of them. -/
def told (x : Logged α) : List Event := x.events.takeWhile (!·.isHalt)

@[simp] theorem halts_pure (a : α) : (pure a : Logged α).halts = false := rfl

@[simp] theorem halts_withEvent (e : Event) (a : α) : (withEvent e a).halts = e.isHalt := by
  simp [withEvent, halts]

@[simp] theorem halts_bind (x : Logged α) (f : α → Logged β) :
    (x >>= f).halts = (x.halts || (f x.value).halts) := by
  simp [halts]

@[simp] theorem outcome?_pure (a : α) : (pure a : Logged α).outcome? = some a := rfl

/-- One result after another is one outcome after another: a run that halts does not go on. -/
@[simp] theorem outcome?_bind (x : Logged α) (f : α → Logged β) :
    (x >>= f).outcome? = x.outcome?.bind fun a => (f a).outcome? := by
  cases hx : x.halts <;> simp [outcome?, hx]

/-- The sum of two integers. Beyond 64 bits the run halts. -/
def sum (x y : Int) : Logged Int :=
  if Double.fits (x + y) then pure (x + y) else .withEvent (.halted .sum) (x + y)

@[simp] theorem value_sum (x y : Int) : (sum x y).value = x + y := by
  rw [sum]
  split <;> rfl

@[simp] theorem halts_sum (x y : Int) : (sum x y).halts = !Double.fits (x + y) := by
  rw [sum]
  split <;> simp_all [Event.isHalt]

end Logged

end Stencil
