import Stencil.Event
import Stencil.Filter.Basic
import Stencil.Value.Number

/-!
# Parameters of filters

Every filter has a fixed list of parameters. An argument that is missing, of a wrong type or not
allowed is replaced by the default of its parameter, and the filter runs all the same.
-/

namespace Stencil

/-- A constant in the table of parameters. Reference: `Lit`. -/
inductive Constant where
  | str (s : String)
  | int (n : Int)
  | null
  deriving DecidableEq, Repr

/-- A constant as a value. Reference: `to_value`. -/
def Constant.toValue : Constant → Value
  | .str s => .str s
  | .int n => .int n
  | .null => .null

/-- Whether a value is the constant. Numbers are compared by value, and booleans are numbers.
Reference: `matches`. -/
def Constant.matches : Constant → Value → Bool
  | .str s, .str t => s == t
  | .int n, .int m => Double.eq (Double.ofInt m) (Double.ofInt n)
  | .int n, .float x => Double.eq x (Double.ofInt n)
  | .int n, .bool b => Double.eq (Double.ofInt b.toNat) (Double.ofInt n)
  | .null, .null => true
  | _, _ => false

/-- A parameter of a filter. Reference: `ArgSpec`. -/
structure Parameter where
  /-- The types an argument may have; where integers are allowed, booleans are too. -/
  accepts : List ValueType
  default : Constant
  /-- The arguments that count as missing. -/
  disallowed : List Constant

/-- Whether an argument has one of the types of a parameter. Reference: `accepts`. -/
def Parameter.acceptsValue (p : Parameter) (v : Value) : Bool :=
  p.accepts.contains v.type || (v.type == .bool && p.accepts.contains .int)

/-- An argument of any type. -/
def anyType : List ValueType := [.str, .int, .float, .dict, .list, .bool, .null]

/-- The parameters of a filter. Reference: `arguments`. -/
def Filter.parameters : Filter → List Parameter
  | .add => [⟨[.str, .int, .float, .list], .str "0", [.str ""]⟩]
  | .center | .ljust | .rjust => [⟨[.str, .int], .str "0", []⟩, ⟨[.str], .str " ", [.str ""]⟩]
  | .cut | .jsonScript | .post | .pre => [⟨[.str], .str "", []⟩]
  | .date => [⟨[.str], .str "D, m M Y H:i:s O", []⟩, ⟨[.str], .str "django", []⟩]
  | .time => [⟨[.str], .str "H:i", []⟩, ⟨[.str], .str "django", []⟩]
  | .default | .defaultIfNone => [⟨anyType, .str "", []⟩]
  | .dictSort => [⟨[.str, .int], .str "", []⟩, ⟨[.str], .str "", []⟩]
  | .dictSortReversed => [⟨[.str, .int], .str "", []⟩]
  | .divisibleBy => [⟨[.str, .int, .float], .str "1", [.str "", .int 0]⟩]
  | .floatFormat => [⟨[.str, .int], .str "-1", [.str ""]⟩]
  | .getDigit => [⟨[.str, .int], .str "1", [.str ""]⟩]
  | .join => [⟨[.str], .str "", []⟩, ⟨[.str], .str " ", [.str ""]⟩]
  | .length | .lengthIs => [⟨[.str, .int], .int 0, []⟩]
  | .lineBreaks => [⟨[.str], .str "\n\n", [.str ""]⟩, ⟨[.str], .str "\n", [.str ""]⟩]
  | .lineBreaksBr => [⟨[.str], .str "\n", [.str ""]⟩]
  | .lineNumbers =>
    [⟨[.str, .int], .str "1", [.str ""]⟩, ⟨[.str, .int], .str "1", [.str ""]⟩,
      ⟨[.str], .str ".", []⟩]
  | .pluralize => [⟨[.str], .str "s", []⟩]
  | .slice => [⟨[.str, .int], .str ":", [.str ""]⟩]
  | .stringFormat => [⟨[.str], .str "s", [.str ""]⟩]
  | .timeSince | .timeUntil => [⟨[.str], .str "", []⟩]
  | .truncateChars | .truncateCharsHtml | .truncateWords | .truncateWordsHtml | .urlizeTrunc
  | .wordWrap => [⟨[.str, .int], .null, []⟩]
  | .urlEncode => [⟨[.str], .str "/", []⟩]
  | .find | .findAll => [⟨[.str], .str "", [.str ""]⟩, ⟨anyType, .null, []⟩]
  | .yesNo => [⟨[.str], .str "yes,no,maybe", [.str ""]⟩]
  | _ => []

namespace Filter

/-- The argument at a position, or the default of its parameter. -/
def resolveOne (f : Filter) (position : Nat) (p : Parameter) (given : Option Value) :
    Logged Value :=
  let default := p.default.toValue
  match given with
  | none => .withEvent (.argumentMissing f.name position) default
  | some v =>
    if !p.acceptsValue v then do
      .emit (.argumentWrongType f.name position v.type)
      .withEvent (.argumentReplaced f.name position) default
    else if p.disallowed.any (·.matches v) then
      .withEvent (.argumentNotAllowed f.name position) default
    else pure v

/-- The arguments for the parameters from a position on. -/
def resolveFrom (f : Filter) : (position : Nat) → List Parameter → List Value →
    Logged (List Value)
  | _, [], _ => pure []
  | position, p :: ps, given => do
    let v ← f.resolveOne position p given.head?
    let vs ← f.resolveFrom (position + 1) ps given.tail
    pure (v :: vs)

/-- The arguments a filter runs with: exactly one for each parameter.
Reference: `resolve_arguments`. -/
def resolveArguments (f : Filter) (supplied : List Value) : Logged (List Value) :=
  f.resolveFrom 1 f.parameters supplied

end Filter

end Stencil
