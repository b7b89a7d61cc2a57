import ProtoSchema.Text.Blank

/-!
The settings of a run, what makes them unusable, and the package that documents carry.
-/

namespace ProtoSchema

inductive OutputMode where
  | perType
  | aggregate
  deriving DecidableEq, Repr

structure Config where
  packageName : Option String := none
  projectGroup : Option String := none
  singleFile : Bool := false
  projectName : String := "schema"
  excludeFields : List String := []
  logLevel : String := "info"
  deriving DecidableEq, Repr

inductive ConfigFault where
  | emptyProjectName
  | pathInProjectName (name : String)
  | emptyExcludedField
  deriving DecidableEq, Repr

def ConfigFault.message : ConfigFault → String
  | .emptyProjectName => "configuration error: project name cannot be empty"
  | .pathInProjectName name =>
      "configuration error: project name '" ++ name ++ "' must not contain path separators"
  | .emptyExcludedField => "configuration error: excluded field names cannot be empty"

def isBlankName (name : String) : Bool := (Text.trimmed name).isEmpty

namespace Config

def mode (c : Config) : OutputMode := if c.singleFile then .aggregate else .perType

def fault? (c : Config) : Option ConfigFault :=
  let name := Text.trimmed c.projectName
  if name.isEmpty then some .emptyProjectName
  else if name.toList.any (fun ch => ch == '/' || ch == '\\') then some (.pathInProjectName name)
  else if c.excludeFields.any isBlankName then some .emptyExcludedField
  else none

/-- The package of the documents: the package name, else the project group, whichever is not
blank. -/
def effectivePackage (c : Config) : Option String :=
  ((c.packageName.toList ++ c.projectGroup.toList).map Text.trimmed).find? (!·.isEmpty)

end Config

end ProtoSchema
