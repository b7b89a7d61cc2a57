import ProtoSchema.Config
import ProtoSchema.Log
import ProtoSchema.Text.Dotted

/-!
The manifest of a project: what its author says about the project and about generation, what is
wrong with it, and the settings that it stands for.
-/

namespace ProtoSchema

def defaultManifestName : String := "pojo2proto.toml"

structure ProjectSection where
  name : Option String := none
  group : Option String := none
  deriving DecidableEq, Repr

structure GeneratorSection where
  packageName : Option String := none
  singleFile : Bool := false
  excludeFields : List String := []
  logLevel : Option String := none
  deriving DecidableEq, Repr

structure Manifest where
  project : ProjectSection := {}
  generator : GeneratorSection := {}
  deriving DecidableEq, Repr

inductive ManifestFault where
  | emptyProjectName
  | invalidGroup (group : String)
  | invalidPackage (package : String)
  | emptyExcludedField
  | invalidLogLevel (level : String)
  deriving DecidableEq, Repr

def ManifestFault.message : ManifestFault → String
  | .emptyProjectName => "Project name cannot be empty"
  | .invalidGroup group => "Invalid project group: " ++ group
  | .invalidPackage package => "Invalid package name: " ++ package
  | .emptyExcludedField => "Excluded field names cannot be empty"
  | .invalidLogLevel level => "Invalid log level: " ++ level

/-- Whether a text is a letter or underscore followed by letters, digits and underscores, all of
them ASCII. -/
def isPackageSegment : List Char → Bool
  | [] => false
  | c :: r => (c.isAlpha || c == '_') && r.all fun c => c.isAlphanum || c == '_'

def isPackageName (s : String) : Bool := (Text.segments s.toList).all isPackageSegment

namespace Manifest

def nameFault? (m : Manifest) : Option ManifestFault :=
  if m.project.name.any isBlankName then some .emptyProjectName else none

/-- An empty group is as good as none. -/
def groupFault? (m : Manifest) : Option ManifestFault :=
  match m.project.group with
  | some g => if g.isEmpty || isPackageName g then none else some (.invalidGroup g)
  | none => none

def packageFault? (m : Manifest) : Option ManifestFault :=
  match m.generator.packageName with
  | some p => if p.isEmpty || isPackageName p then none else some (.invalidPackage p)
  | none => none

def excludedFieldFault? (m : Manifest) : Option ManifestFault :=
  if m.generator.excludeFields.any isBlankName then some .emptyExcludedField else none

def logLevelFault? (m : Manifest) : Option ManifestFault :=
  match m.generator.logLevel with
  | some l => if (Level.ofName? l).isSome then none else some (.invalidLogLevel l)
  | none => none

def fault? (m : Manifest) : Option ManifestFault :=
  m.nameFault?.or (m.groupFault?.or (m.packageFault?.or
    (m.excludedFieldFault?.or m.logLevelFault?)))

/-- The settings that a manifest stands for. -/
def toConfig (m : Manifest) : Config :=
  let defaults : Config := {}
  { packageName := m.generator.packageName
    projectGroup := m.project.group
    singleFile := m.generator.singleFile
    projectName := m.project.name.getD defaults.projectName
    excludeFields := m.generator.excludeFields
    logLevel := m.generator.logLevel.getD defaults.logLevel }

end Manifest

structure Overrides where
  package : Option String := none
  singleFile : Bool := false
  projectName : Option String := none
  deriving DecidableEq, Repr

/-- Puts what the command line says in the place of what the settings say. The command line can ask
for a single file, and cannot ask for several. -/
def Overrides.apply (o : Overrides) (c : Config) : Config :=
  { c with
    packageName := o.package.or c.packageName
    singleFile := o.singleFile || c.singleFile
    projectName := o.projectName.getD c.projectName }

end ProtoSchema
