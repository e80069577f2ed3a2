import Stencil.Event
import Stencil.Double.Reader
import Stencil.Text.Split

/-!
# Slices

A slice `start:stop:step` picks items of a sequence. A negative bound counts from the end, a bound
left out is the end that the step comes from or goes to, and bounds outside the sequence are moved
to its ends.
-/

namespace Stencil.Filter

/-- The bounds of a slice. -/
structure SliceBounds where
  start : Option Int
  stop : Option Int
  step : Int
  deriving DecidableEq, Repr

/-- A part of a slice: nothing, or an integer of 64 bits between blanks. -/
def readBound? (cs : List Char) : Option (Option Int) :=
  let part := Text.trim cs
  if part.isEmpty then some none else (Double.readInt? part).map some

/-- The bounds a text spells. A single number is the stop. -/
def SliceBounds.read? (cs : List Char) : Option SliceBounds :=
  match (Text.splitOn ':' cs).mapM readBound? with
  | some [stop] => some ⟨none, stop, 1⟩
  | some [start, stop] => some ⟨start, stop, 1⟩
  | some [start, stop, step] => some ⟨start, stop, step.getD 1⟩
  | _ => none

/-- An index counted from the end if it is negative, and moved between two bounds. -/
def moveInto (length low high index : Int) : Int :=
  let fromStart := if index < 0 then index + length else index
  max low (min high fromStart)

/-- The first index of a slice of a sequence, and the index it stops before. -/
def SliceBounds.ends (b : SliceBounds) (length : Nat) : Int × Int :=
  let n : Int := length
  if 0 < b.step then
    ((b.start.map (moveInto n 0 n)).getD 0, (b.stop.map (moveInto n 0 n)).getD n)
  else
    ((b.start.map (moveInto n (-1) (n - 1))).getD (n - 1),
      (b.stop.map (moveInto n (-1) (n - 1))).getD (-1))

/-- The indices that steps lead to, from one on and up to a stop. -/
def stepIndices (step stop index : Int) : List Nat :=
  if 0 < step ∧ index < stop ∨ step < 0 ∧ stop < index then
    index.toNat :: stepIndices step stop (index + step)
  else []
termination_by (if 0 < step then stop - index else index - stop).toNat

/-- The indices a slice picks, in order. Reference: `slice_positions`. -/
def SliceBounds.indices (b : SliceBounds) (length : Nat) : List Nat :=
  stepIndices b.step (b.ends length).2 (b.ends length).1

/-- The items a slice picks. -/
def SliceBounds.pick {α : Type} (b : SliceBounds) (items : List α) : List α :=
  (b.indices items.length).filterMap fun i => items[i]?

/-- A slice of a list or of the characters of a string. Reference: `slice`. -/
def sliceValue (value : Value) (spec : String) : Logged Value :=
  match SliceBounds.read? spec.toList with
  | none => .withEvent (.invalidSlice spec) value
  | some bounds =>
    if bounds.step = 0 then .withEvent (.sliceStepZero spec) value
    else match value with
      | .list items => pure (.list (bounds.pick items))
      | .str s => pure (.str (String.ofList (bounds.pick s.toList)))
      | v => .withEvent (.unusable "slice" v.type) .null

end Stencil.Filter
