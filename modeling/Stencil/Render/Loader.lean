import Stencil.Event
import Stencil.Value.Json.Reader

/-!
# Sources of templates and datasets

A loader fetches templates and datasets by their names. It never fails: what it does not have is
told by an event, and stands as no template or as the empty dataset.
-/

namespace Stencil

/-- Where templates and datasets come from. -/
structure Loader where
  /-- The text of a template. -/
  template? : String → Logged (Option String)
  dataset : String → Logged Dataset

/-- The loader that has nothing. Reference: `NullLoader`. -/
def Loader.none : Loader where
  template? id := .withEvent (.noLoaderForTemplate id) .none
  dataset id := .withEvent (.noLoaderForDataset id) []

/-- Why a dataset cannot be had. -/
inductive DatasetError where
  | unreadable
  | notJson
  /-- The document is JSON but no mapping. -/
  | notAnObject (id : String)
  deriving DecidableEq, Repr

/-- The message of a dataset error. -/
def DatasetError.message : DatasetError → String
  | .unreadable => "dataset cannot be read"
  | .notJson => "dataset is not JSON"
  | .notAnObject id => "dataset `" ++ id ++ "` is not a JSON object"

/-- The dataset that a JSON document of some name holds. Reference: `parse_dataset`. -/
def Dataset.ofJson (id : String) (cs : List Char) : Except DatasetError Dataset :=
  match Json.read? cs with
  | .none => .error .notJson
  | some (.dict fields) => .ok fields
  | some _ => .error (.notAnObject id)

/-! ## Sources in memory -/

/-- Templates and datasets by name. Reference: `MemoryLoader`. -/
structure Sources where
  templates : List (String × String) := []
  datasets : List (String × Dataset) := []

namespace Sources

/-- Adds a template, in place of one of the same name. Reference: `with_template`. -/
def addTemplate (s : Sources) (id text : String) : Sources :=
  { s with templates := (id, text) :: s.templates }

/-- Adds a dataset, in place of one of the same name. Reference: `with_dataset`. -/
def addDataset (s : Sources) (id : String) (dataset : Dataset) : Sources :=
  { s with datasets := (id, dataset) :: s.datasets }

/-- Adds a dataset from a JSON document. A document that is no dataset counts as an empty one.
Reference: `with_dataset_json`. -/
def addDocument (s : Sources) (id : String) (document : List Char) : Logged Sources :=
  match Dataset.ofJson id document with
  | .ok dataset => pure (s.addDataset id dataset)
  | .error _ => .withEvent (.datasetUndecodable id) (s.addDataset id [])

/-- The loader of what is in memory. -/
def loader (s : Sources) : Loader where
  template? id :=
    match s.templates.lookup id with
    | some text => pure (some text)
    | .none => .withEvent (.noSuchTemplate id) .none
  dataset id :=
    match s.datasets.lookup id with
    | some dataset => pure dataset
    | .none => .withEvent (.noSuchDataset id) []

end Sources

end Stencil
