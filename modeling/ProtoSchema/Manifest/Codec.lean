import ProtoSchema.Manifest
import ProtoSchema.Json.Decode
import ProtoSchema.Toml.Reader

/-!
Manifests as TOML documents and as JSON. All keys may be left out, and unknown keys are skipped. A
section may also be given as an array of its values.
-/

namespace ProtoSchema

namespace ProjectSection

structure Partial where
  name : Option (Option String) := none
  group : Option (Option String) := none

def record : Json.Record Partial where
  name := "ProjectSection"
  slots := [
    .of "name" false Partial.name (fun st a => { st with name := some a })
      (Json.Node.readOption Json.Node.readString),
    .of "group" false Partial.group (fun st a => { st with group := some a })
      (Json.Node.readOption Json.Node.readString)]

def ofNode (n : Json.Node) : Json.Result ProjectSection :=
  (record.read .direct {} n).map fun st => { name := st.name.join, group := st.group.join }

def toJson (s : ProjectSection) : Json.Value :=
  .object [("name", .ofOption .text s.name), ("group", .ofOption .text s.group)]

end ProjectSection

namespace GeneratorSection

structure Partial where
  packageName : Option (Option String) := none
  singleFile : Option Bool := none
  excludeFields : Option (List String) := none
  logLevel : Option (Option String) := none

def record : Json.Record Partial where
  name := "GeneratorSection"
  slots := [
    .of "package_name" false Partial.packageName (fun st a => { st with packageName := some a })
      (Json.Node.readOption Json.Node.readString),
    .of "single_file" false Partial.singleFile (fun st a => { st with singleFile := some a })
      Json.Node.readBool,
    .of "exclude_fields" false Partial.excludeFields
      (fun st a => { st with excludeFields := some a }) (Json.Node.readList Json.Node.readString),
    .of "log_level" false Partial.logLevel (fun st a => { st with logLevel := some a })
      (Json.Node.readOption Json.Node.readString)]

def ofNode (n : Json.Node) : Json.Result GeneratorSection :=
  (record.read .direct {} n).map fun st =>
    let defaults : GeneratorSection := {}
    { packageName := st.packageName.join
      singleFile := st.singleFile.getD defaults.singleFile
      excludeFields := st.excludeFields.getD defaults.excludeFields
      logLevel := st.logLevel.join }

def toJson (s : GeneratorSection) : Json.Value :=
  .object [("package_name", .ofOption .text s.packageName), ("single_file", .bool s.singleFile),
    ("exclude_fields", .ofStrings s.excludeFields), ("log_level", .ofOption .text s.logLevel)]

end GeneratorSection

namespace Manifest

structure Partial where
  project : Option ProjectSection := none
  generator : Option GeneratorSection := none

def record : Json.Record Partial where
  name := "Manifest"
  slots := [
    .of "project" false Partial.project (fun st a => { st with project := some a })
      ProjectSection.ofNode,
    .of "generator" false Partial.generator (fun st a => { st with generator := some a })
      GeneratorSection.ofNode]

def ofNode (n : Json.Node) : Json.Result Manifest :=
  (record.read .direct {} n).map fun st =>
    { project := st.project.getD {}, generator := st.generator.getD {} }

def toJson (m : Manifest) : Json.Value :=
  .object [("project", m.project.toJson), ("generator", m.generator.toJson)]

end Manifest

namespace Toml

def Value.text? : Value → Option String
  | .text s => some s
  | _ => none

def Value.bool? : Value → Option Bool
  | .bool b => some b
  | _ => none

def Value.texts? : Value → Option (List String)
  | .array items => items.mapM text?
  | _ => none

/-- A value that is to be read as a section with the given keys: the value of each key, by the key
in a table, by its position in an array. Numbers under other keys must be in range; more items than
keys are not looked at. A date or a time is a section without the given keys. -/
def Value.members? (keys : List String) : Value → Option (List (Option Value))
  | .table entries =>
      if entriesInRange (entries.filter fun e => !keys.contains e.1) then
        some (keys.map fun key => (entries.find? (·.1 == key)).map (·.2))
      else none
  | .array items => some (keys.mapIdx fun i _ => items[i]?)
  | .moment => some (keys.map fun _ => none)
  | _ => none

def optional {α : Type} (read : Value → Option α) : Option Value → Option (Option α)
  | none => some none
  | some v => (read v).map some

end Toml

open Toml (Value optional)

def ProjectSection.ofToml? (v : Value) : Option ProjectSection :=
  match v.members? ["name", "group"] with
  | some [name, group] => do
      let name ← optional Value.text? name
      let group ← optional Value.text? group
      return { name, group }
  | _ => none

def GeneratorSection.ofToml? (v : Value) : Option GeneratorSection :=
  match v.members? ["package_name", "single_file", "exclude_fields", "log_level"] with
  | some [packageName, singleFile, excludeFields, logLevel] => do
      let packageName ← optional Value.text? packageName
      let singleFile ← optional Value.bool? singleFile
      let excludeFields ← optional Value.texts? excludeFields
      let logLevel ← optional Value.text? logLevel
      let defaults : GeneratorSection := {}
      return { packageName, singleFile := singleFile.getD defaults.singleFile,
               excludeFields := excludeFields.getD defaults.excludeFields, logLevel }
  | _ => none

def Manifest.ofTable? (entries : List (String × Value)) : Option Manifest :=
  match (Value.table entries).members? ["project", "generator"] with
  | some [project, generator] => do
      let project ← optional ProjectSection.ofToml? project
      let generator ← optional GeneratorSection.ofToml? generator
      return { project := project.getD {}, generator := generator.getD {} }
  | _ => none

def Manifest.ofToml? (text : String) : Option Manifest := (Toml.read? text).bind ofTable?

end ProtoSchema
