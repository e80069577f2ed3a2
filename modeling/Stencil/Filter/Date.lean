import Stencil.Date.Elapsed
import Stencil.Date.Format
import Stencil.Date.Reader
import Stencil.Value.Json.Printer

/-!
# Filters on dates

Formatting of dates and spans between them.
-/

namespace Stencil.Filter

/-- The moment that a value spells. Reference: `parse_value`. -/
def moment? (filter : String) (value : Value) : Logged (Option Date.Moment) :=
  match value with
  | .str s =>
    match Date.readMoment? s.toList with
    | some m => pure (some m)
    | none => .withEvent (.dateUnrecognised filter s) none
  | v => .withEvent (.unusable filter v.type) none

/-- A date in a format. Reference: `date`. -/
def dateValue (filter : String) (value format style : Value) : Logged Value := do
  match ← moment? filter value with
  | none => pure .null
  | some m =>
    let text ← Date.format m (Date.Style.ofName style.display) format.displayChars
    pure (match text with
      | some cs => .str (String.ofList cs)
      | none => .null)

/-- The moment to compare with: null and blank strings stand for the present.
Reference: `reference`. -/
def reference? (filter : String) (now : Date.Moment) (compare : Value) :
    Logged (Option Date.Moment) :=
  match compare with
  | .null => pure (some now)
  | .str s => if (Text.trim s.toList).isEmpty then pure (some now) else moment? filter compare
  | v => moment? filter v

/-- The span between a date and a reference in words; `span` takes the two in this order.
Reference: `time_since`, `time_until`. -/
def spanValue (filter : String) (now : Date.Moment) (value compare : Value)
    (span : Date.Moment → Date.Moment → Int) : Logged Value := do
  let moment ← moment? filter value
  let reference ← reference? filter now compare
  pure (match moment, reference with
    | some m, some r => .str (Date.elapsed (span m r))
    | _, _ => .null)

end Stencil.Filter
