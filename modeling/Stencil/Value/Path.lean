import Stencil.Value.Basic
import Stencil.Double.Reader
import Stencil.Text.Split

/-!
# Dotted paths

A path such as `a.b.0.c` is followed from a value by keys of mappings and by indices of lists.
`keySet` lists every path that can be followed, each index written in plain decimal.
-/

namespace Stencil

/-- Why a path cannot be followed. -/
inductive WalkError where
  /-- A mapping has no such key. -/
  | missingKey (key : String)
  /-- A list has no item at this index, or the step is no index. -/
  | badIndex (step : String)
  /-- There is nothing to step into. -/
  | notContainer (type : ValueType)
  deriving DecidableEq, Repr

/-- The message of a path error. -/
def WalkError.message : WalkError → String
  | .missingKey key => "invalid key (" ++ key ++ ") for dictionary/object"
  | .badIndex step => "invalid index (" ++ step ++ ") for list/array"
  | .notContainer type => "cannot step into value of type " ++ type.name

namespace Value

/-- A step read as an index: digits after an optional plus sign, below `2^64`. -/
def readIndex? (step : String) : Option Nat :=
  let digits := match step.toList with
    | '+' :: cs => cs
    | cs => cs
  (Double.readNat? digits).filter (· < Double.wordCount)

/-- The value one step further. -/
def step (value : Value) (name : String) : Except WalkError Value :=
  match value with
  | .dict fields =>
    match Fields.get? name fields with
    | some v => .ok v
    | none => .error (.missingKey name)
  | .list items =>
    match (readIndex? name).bind (items[·]?) with
    | some v => .ok v
    | none => .error (.badIndex name)
  | other => .error (.notContainer other.type)

/-- The steps of a path. -/
def pathSteps (path : String) : List String := (Text.splitOn '.' path.toList).map String.ofList

/-- The value at the end of a list of steps. -/
def walkSteps (root : Value) (steps : List String) : Except WalkError Value :=
  steps.foldlM step root

/-- The value at the end of a path. Reference: `walk`. -/
def walk (root : Value) (path : String) : Except WalkError Value := walkSteps root (pathSteps path)

mutual

/-- The paths below a value that itself stands at `path`. Reference: `collect_keys`. -/
def paths (path : String) : Value → List String
  | .dict fields => fieldPaths path fields ++ [path]
  | .list items => itemPaths path 0 items ++ [path]
  | _ => [path]

/-- The paths below the fields of a mapping at `path`. -/
def fieldPaths (path : String) : List (String × Value) → List String
  | [] => []
  | (key, value) :: rest => paths (path ++ "." ++ key) value ++ fieldPaths path rest

/-- The paths below the items of a list at `path`, the first of them having the index given. -/
def itemPaths (path : String) (index : Nat) : List Value → List String
  | [] => []
  | item :: rest =>
    paths (path ++ "." ++ String.ofList (Double.natDigits index)) item ++
      itemPaths path (index + 1) rest

end

end Value

namespace Dataset

/-- Follows a path from a dataset: the first step is one of its keys. Reference: `walk_dataset`. -/
def walk (dataset : Dataset) (path : String) : Except WalkError Value :=
  match Value.pathSteps path with
  | [] => .error (.missingKey path)
  | head :: rest =>
    match Fields.get? head dataset with
    | some v => Value.walkSteps v rest
    | none => .error (.missingKey head)

/-- Every path that can be followed in a dataset. Reference: `key_set`. -/
def keySet (dataset : Dataset) : List String :=
  dataset.flatMap fun (key, value) => Value.paths key value

end Dataset

end Stencil
