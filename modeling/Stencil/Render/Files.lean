import Stencil.Render.Loader
import Stencil.Text.Split

/-!
# Trees of files

A tree of files from which templates and datasets are read and into which pages are written. A
path is a text with slashes, taken from the root of the tree; nothing outside the tree can be
reached. Writing makes the folders that are missing.
-/

namespace Stencil

/-- A path after a base: an absolute path stands for itself. -/
def joinPath (base : Option String) (path : String) : String :=
  match base with
  | none => path
  | some base =>
    if path.startsWith "/" || base.isEmpty then path
    else if base.endsWith "/" then base ++ path
    else base ++ "/" ++ path

/-- A place in a tree: the names on the way from its root. -/
abbrev Place := List String

/-- A tree of files. -/
structure Files where
  /-- The folders other than the root. -/
  folders : List Place := []
  contents : List (Place × ByteArray) := []

namespace Files

/-- Whether a place is a folder. -/
def isFolder (f : Files) (place : Place) : Bool := place.isEmpty || f.folders.contains place

/-- The place that a path leads to. Every step leaves from a folder; the place itself may be
missing. -/
def locate? (f : Files) : (place : Place) → (steps : List String) → Option Place
  | place, [] => some place
  | place, step :: steps =>
    if !f.isFolder place then none
    else if step = "" ∨ step = "." then f.locate? place steps
    else if step = ".." then
      if place.isEmpty then none else f.locate? place.dropLast steps
    else f.locate? (place ++ [step]) steps

/-- The steps of a path inside the tree. -/
def steps? (path : String) : Option (List String) :=
  if path.startsWith "/" then none else some ((Text.splitOn '/' path.toList).map String.ofList)

/-- The bytes of a file. -/
def bytes? (f : Files) (path : String) : Option ByteArray := do
  let steps ← steps? path
  let place ← f.locate? [] steps
  if f.isFolder place then none else f.contents.lookup place

/-- The text of a file in UTF-8. -/
def text? (f : Files) (path : String) : Option String := (f.bytes? path).bind String.fromUTF8?

/-- Makes the folders of a path that are missing, from a place on, as far as that is possible; says
whether all are there. -/
def makeFolders (f : Files) : (place : Place) → (steps : List String) → Files × Bool
  | _, [] => (f, true)
  | place, step :: steps =>
    if step = ".." then
      if place.isEmpty then (f, false) else makeFolders f place.dropLast steps
    else
      let next := place ++ [step]
      if f.isFolder next then makeFolders f next steps
      else if (f.contents.lookup next).isSome then (f, false)
      else makeFolders { f with folders := next :: f.folders } next steps

/-- Writes a file where its folder is. -/
def put? (f : Files) (steps : List String) (content : ByteArray) : Option Files := do
  let place ← f.locate? [] steps
  if f.isFolder place || !f.isFolder place.dropLast then none
  else some { f with contents := (place, content) :: f.contents }

/-- Writes a file, making the folders that are missing; says whether it was written. -/
def write (f : Files) (path : String) (content : ByteArray) : Files × Bool :=
  match steps? path with
  | none => (f, false)
  | some steps =>
    let named := steps.filter fun step => step != "" && step != "."
    match makeFolders f [] named.dropLast with
    | (f, false) => (f, false)
    | (f, true) =>
      match f.put? steps content with
      | some f => (f, true)
      | none => (f, false)

/-- A path at which no file can be written. -/
structure Unwritable where
  path : String
  deriving DecidableEq, Repr

/-- Takes a page if the file at its destination can be written.
Reference: `FileSink`, `emit_output`. -/
def emit (f : Files) (content destination : String) : Files × Except Unwritable Unit :=
  match f.write destination content.toUTF8 with
  | (f, true) => (f, .ok ())
  | (f, false) => (f, .error ⟨destination⟩)

/-- The dataset in a file. -/
def dataset (f : Files) (base : Option String) (id : String) : Except DatasetError Dataset :=
  match f.text? (joinPath base id) with
  | none => .error .unreadable
  | some text => Dataset.ofJson id text.toList

/-- The loader of the files below a base. Reference: `FsLoader`. -/
def loader (f : Files) (base : Option String) : Loader where
  template? id :=
    match f.text? (joinPath base id) with
    | some text => pure (some text)
    | none => .withEvent (.templateUnreadable id) none
  dataset id :=
    match f.dataset base id with
    | .ok dataset => pure dataset
    | .error _ => .withEvent (.datasetUnreadable id) []

end Files

end Stencil
