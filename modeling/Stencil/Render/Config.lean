import Stencil.Value.Json.Reader

/-!
# Settings

What changes how templates compile and render. Settings are written in JSON, as a mapping with any
of the three fields, or as a list of their first values in order.
-/

namespace Stencil

/-- The settings of an engine. -/
structure Config where
  /-- Where names of templates and datasets begin. -/
  baseDir : Option String := none
  /-- Whether the line break right after a tag is dropped. -/
  trimBlocks : Bool := false
  /-- The deepest level of nesting that is rendered. -/
  maxDepth : Nat := 64
  deriving DecidableEq, Repr

namespace Config

/-- Sets one field. -/
def set? (c : Config) (name : String) (value : Value) : Option Config :=
  match name, value with
  | "base_dir", .null => some { c with baseDir := none }
  | "base_dir", .str s => some { c with baseDir := some s }
  | "trim_blocks", .bool b => some { c with trimBlocks := b }
  | "max_depth", .int n => if 0 ≤ n then some { c with maxDepth := n.toNat } else none
  | _, _ => none

/-- The names of the fields. -/
def fieldNames : List String := ["base_dir", "trim_blocks", "max_depth"]

/-- Sets several fields. -/
def setAll? (fields : List (String × Value)) : Option Config :=
  fields.foldlM (fun c field => c.set? field.1 field.2) {}

/-- The settings that a value describes; a field left out has its default. -/
def ofValue? : Value → Option Config
  | .dict fields => setAll? fields
  | .list items => if items.length ≤ fieldNames.length then setAll? (fieldNames.zip items) else none
  | _ => none

/-- The settings that a JSON text describes. No field may stand twice.
Reference: `from_json_str`. -/
def ofJson? (cs : List Char) : Option Config := (Json.readUnique? cs).bind ofValue?

end Config

end Stencil
