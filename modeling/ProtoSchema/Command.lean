import ProtoSchema.Command.Help
import ProtoSchema.Command.Fault
import ProtoSchema.Manifest.Codec
import ProtoSchema.Declaration.Codec
import ProtoSchema.Report.Events

/-!
The commands: generating schema files from a file of declarations, and checking a manifest. All that
can go wrong before the first file is made goes wrong before any file or directory is made.
-/

namespace ProtoSchema.Command

open Surroundings

variable {m : Type → Type} [Monad m] [Surroundings m]

abbrev Action (m : Type → Type) (α : Type) := ExceptT Fault m α

/-- Turns what goes wrong with a file into a failure of the command. -/
def orFail {α : Type} (fault : FileFault → Fault) (action : m (Except FileFault α)) :
    Action m α := do
  match ← (action : Action m _) with
  | .ok a => return a
  | .error cause => throw (fault cause)

def refuse {α : Type} (fault : α → Fault) : Option α → Action m Unit
  | none => return ()
  | some a => throw (fault a)

/-! ### Manifests -/

def readManifest (path : String) : Action m Manifest := do
  let text ← orFail (.unreadableManifest path) (readText path)
  match Manifest.ofToml? text with
  | some manifest => return manifest
  | none => throw .malformedManifest

/-- The manifest at the given path, or else the one with the default name if there is one. -/
def findManifest : Option String → Action m Manifest
  | some path => readManifest path
  | none => do
      if ← (isPresent defaultManifestName : m Bool) then readManifest defaultManifestName
      else return {}

def resolveConfig (path : Option String) (overrides : Overrides) : Action m Config := do
  let manifest ← findManifest path
  refuse .refusedManifest manifest.fault?
  let config := overrides.apply manifest.toConfig
  refuse .refusedConfig config.fault?
  return config

/-! ### Generating -/

def log (threshold : Level) (e : Event) : m Unit :=
  if threshold.admits e.level then printLine e.line else pure ()

def logAll (threshold : Level) (es : List Event) : m Unit := es.forM (log threshold)

/-- The level in force: that of the environment, or that of the settings unless details are asked
for. -/
def levelInForce (environment : Option Level) (verbose : Bool) (config : Config) : Level :=
  environment.getD (if verbose then .debug else (Level.ofName? config.logLevel).getD .info)

def readDeclarations (path : String) : Action m DeclarationSet := do
  let bytes ← orFail (.unreadableDeclarations path) (readFile path)
  match DeclarationSet.ofJson bytes with
  | .ok set => return set
  | .error _ => throw (.malformedDeclarations path)

def writeDocuments (threshold : Level) (directory : String) : List Document → Action m Unit
  | [] => return ()
  | d :: ds => do
      let path := Path.join directory d.fileName
      orFail (.unwritableSchema path) (writeFile path d.content)
      (log threshold ⟨.info, "Generated " ++ path, []⟩ : m Unit)
      writeDocuments threshold directory ds

def summarize (threshold : Level) (report : Report) : Action m Unit := do
  let written := report.documents.length
  if !report.caveats.isEmpty then
    (log threshold ⟨.info, toString report.caveats.length ++ " caveat(s) reported", []⟩ : m Unit)
  if report.isSuccess then
    (log threshold ⟨.info, "Wrote " ++ toString written ++ " schema file(s)", []⟩ : m Unit)
  else
    (logAll threshold (report.failures.map fun f => ⟨.error, f.message, []⟩) : m Unit)
    throw (.incomplete report.failures.length written)

def generateFiles (threshold : Level) (config : Config) (input output : String) :
    Action m Unit := do
  let set ← readDeclarations input
  (log threshold ⟨.info, "Generating schemas for " ++ toString set.units.length ++
    " compilation units from " ++ input, []⟩ : m Unit)
  (logAll threshold (generationEvents set config) : m Unit)
  let report := generate set config
  orFail (.outputDirectory output) (makeDirectories output)
  writeDocuments threshold output report.documents
  summarize threshold report

def runGenerate (environment : Option Level) (verbose : Bool) (r : GenerateRequest) :
    Action m Unit := do
  let config ← resolveConfig r.manifest r.overrides
  generateFiles (levelInForce environment verbose config) config r.input r.output

/-! ### Checking -/

def describe (config : Config) : List String :=
  let output :=
    match config.mode with
    | .perType => "one file per type"
    | .aggregate => "single file (" ++ schemaFileName config.projectName ++ ")"
  ["✓ Project: " ++ config.projectName,
    "✓ Package: " ++ config.effectivePackage.getD "(none)",
    "✓ Output: " ++ output,
    "✓ Excluded fields: " ++ toString config.excludeFields.length,
    "\nManifest is valid!"]

def runCheck (manifest : Option String) : Action m Unit := do
  let path := manifest.getD defaultManifestName
  (printLine ("Checking manifest: " ++ path) : m Unit)
  let manifest ← readManifest path
  refuse .refusedManifest manifest.fault?
  ((describe manifest.toConfig).forM printLine : m Unit)

/-! ### The program -/

def programVersion : String := "pojo2proto 0.3.0"

def run (environment : Option Level) : Invocation → Action m Unit
  | .generate verbose request => runGenerate environment verbose request
  | .check manifest => runCheck manifest

/-- Does what the arguments ask for. The answer is the exit code: zero for success, one for a
failure, and two for arguments that are wrong. -/
def execute (environment : Option Level) (args : List String) : m UInt32 := do
  match Invocation.read args with
  | .error .usage => return 2
  | .error .version =>
      printLine programVersion
      return 0
  | .error (.help scope) =>
      scope.lines.forM printLine
      return 0
  | .ok invocation =>
      match ← (run environment invocation : Action m Unit).run with
      | .ok () => return 0
      | .error fault =>
          printError fault.report
          return 1

end ProtoSchema.Command
