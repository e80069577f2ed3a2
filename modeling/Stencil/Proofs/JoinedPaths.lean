import Stencil.Proofs.Paths

/-!
# Paths put together

Two paths with a point between them have the steps of the first and then those of the second. So
following both (`Value.walk`) is following the second from where the first has led, and what cannot
be followed is told of the first step that fails. A dataset is followed (`Dataset.walk`) in two
ways, from the mapping that it is, or from the value under the first step with the rest of the path;
both lead to the same.
-/

namespace Stencil

/-! ## Cutting at separators -/

namespace Text

/-- The first part ends where the text is cut at the separator. -/
theorem splitOn_eq_cutAt? (sep : Char) (cs : List Char) :
    splitOn sep cs =
      match cutAt? [sep] cs with
      | some (before, after) => before :: splitOn sep after
      | none => [cs] := by
  rw [splitOn]
  induction cs with
  | nil => rfl
  | cons c cs ih =>
    rw [splitWhere, cutAt?]
    by_cases hc : c = sep
    · simp [splitOn, hc]
    · have hsep : ¬sep = c := Ne.symm hc
      rw [if_neg (by simpa using hc), if_neg (by simpa using hsep), ih]
      cases cutAt? [sep] cs <;> rfl

end Text

/-! ## Following both paths -/

namespace Value

theorem pathSteps_append (p q : String) :
    pathSteps (p ++ "." ++ q) = pathSteps p ++ pathSteps q := by
  have hpoint : (p ++ "." ++ q).toList = p.toList ++ '.' :: q.toList := by simp
  rw [pathSteps, hpoint, Text.splitOn_append_cons, List.map_append]
  rfl

theorem walkSteps_append (root : Value) (first second : List String) :
    walkSteps root (first ++ second) =
      walkSteps root first >>= fun value => walkSteps value second := by
  rw [walkSteps, List.foldlM_append]
  rfl

end Value

namespace Dataset

/-- The value under a key. -/
def field (dataset : Dataset) (key : String) : Except WalkError Value :=
  match Fields.get? key dataset with
  | some value => .ok value
  | none => .error (.missingKey key)

/-- Follows a path by its head: the key before the first point, and from its value the rest. -/
def walkFromHead (dataset : Dataset) (path : String) : Except WalkError Value :=
  match Text.cutAt? ['.'] path.toList with
  | none => dataset.field path
  | some (head, rest) => do
    let value ← dataset.field (String.ofList head)
    value.walk (String.ofList rest)

theorem walkFromHead_eq (dataset : Dataset) (path : String) :
    dataset.walkFromHead path = (Value.dict dataset).walk path := by
  have hstep (key : String) : (Value.dict dataset).step key = dataset.field key := rfl
  have hsteps := Text.splitOn_eq_cutAt? '.' path.toList
  rw [walkFromHead, Value.walk, Value.pathSteps, hsteps]
  cases Text.cutAt? ['.'] path.toList with
  | none =>
    show dataset.field path = Value.walkSteps _ [String.ofList path.toList]
    rw [String.ofList_toList, Value.walkSteps_cons, hstep]
    cases dataset.field path <;> rfl
  | some cut =>
    obtain ⟨head, rest⟩ := cut
    show (dataset.field _ >>= fun value => value.walk _) = _
    rw [List.map_cons, Value.walkSteps_cons, hstep]
    simp only [Value.walk, Value.pathSteps, String.toList_ofList]
    rfl

end Dataset

/-- Following two paths with a point between them is following the first and then, from the value
found, the second; the first error counts. Following a path from a dataset is following it from the
mapping that the dataset is, and also following it by its head. Errors are the same as well. -/
theorem walk_composes (root : Value) (dataset : Dataset) (p q : String) :
    root.walk (p ++ "." ++ q) = (root.walk p >>= fun value => value.walk q) ∧
    dataset.walk p = (Value.dict dataset).walk p ∧
    dataset.walk p = dataset.walkFromHead p := by
  refine ⟨?_, ?_, ?_⟩
  · rw [Value.walk, Value.pathSteps_append, Value.walkSteps_append]
    rfl
  · exact dataset.walk_eq_walkSteps p
  · rw [dataset.walkFromHead_eq]
    exact dataset.walk_eq_walkSteps p

end Stencil
