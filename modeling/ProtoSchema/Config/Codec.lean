import ProtoSchema.Config
import ProtoSchema.Json.Decode

/-!
Settings as JSON. Every field has a default and may be left out.
-/

namespace ProtoSchema.Config

open Json (Node Value Record Result)

structure Partial where
  packageName : Option (Option String) := none
  projectGroup : Option (Option String) := none
  singleFile : Option Bool := none
  projectName : Option String := none
  excludeFields : Option (List String) := none
  logLevel : Option String := none

def record : Record Partial where
  name := "GeneratorConfig"
  slots := [
    .of "package_name" false Partial.packageName (fun st a => { st with packageName := some a })
      (Node.readOption Node.readString),
    .of "project_group" false Partial.projectGroup (fun st a => { st with projectGroup := some a })
      (Node.readOption Node.readString),
    .of "single_file" false Partial.singleFile (fun st a => { st with singleFile := some a })
      Node.readBool,
    .of "project_name" false Partial.projectName (fun st a => { st with projectName := some a })
      Node.readString,
    .of "exclude_fields" false Partial.excludeFields
      (fun st a => { st with excludeFields := some a }) (Node.readList Node.readString),
    .of "log_level" false Partial.logLevel (fun st a => { st with logLevel := some a })
      Node.readString]

def ofNode (n : Node) : Result Config :=
  (record.read .direct {} n).map fun st =>
    let defaults : Config := {}
    { packageName := st.packageName.getD defaults.packageName
      projectGroup := st.projectGroup.getD defaults.projectGroup
      singleFile := st.singleFile.getD defaults.singleFile
      projectName := st.projectName.getD defaults.projectName
      excludeFields := st.excludeFields.getD defaults.excludeFields
      logLevel := st.logLevel.getD defaults.logLevel }

/-- Reads settings from the bytes of a JSON text. No bytes stand for the defaults. -/
def ofJson (bytes : List UInt8) : Result Config :=
  if bytes.isEmpty then .ok {} else (Json.Source.ofBytes bytes).read ofNode

def toJson (c : Config) : Value :=
  .object [("package_name", .ofOption .text c.packageName),
    ("project_group", .ofOption .text c.projectGroup), ("single_file", .bool c.singleFile),
    ("project_name", .text c.projectName), ("exclude_fields", .ofStrings c.excludeFields),
    ("log_level", .text c.logLevel)]

end ProtoSchema.Config
