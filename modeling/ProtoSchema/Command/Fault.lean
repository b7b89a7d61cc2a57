import ProtoSchema.Manifest
import ProtoSchema.Surroundings

/-!
Why a command fails, and what it says then: a headline, and what lies behind it.
-/

namespace ProtoSchema.Command

inductive Fault where
  | unreadableManifest (path : String) (cause : FileFault)
  | malformedManifest
  | refusedManifest (fault : ManifestFault)
  | refusedConfig (fault : ConfigFault)
  | unreadableDeclarations (path : String) (cause : FileFault)
  | malformedDeclarations (path : String)
  | outputDirectory (path : String) (cause : FileFault)
  | unwritableSchema (path : String) (cause : FileFault)
  | incomplete (failures written : Nat)
  deriving DecidableEq, Repr

namespace Fault

def headline : Fault → String
  | unreadableManifest path _ => "Failed to read manifest: " ++ Text.quoted path
  | malformedManifest => "Failed to parse manifest"
  | refusedManifest fault => fault.message
  | refusedConfig _ => "Invalid generator configuration"
  | unreadableDeclarations path _ => "Failed to read declarations: " ++ Text.quoted path
  | malformedDeclarations path => "Failed to parse declarations: " ++ Text.quoted path
  | outputDirectory path _ => "Failed to create output directory: " ++ Text.quoted path
  | unwritableSchema path _ => "Failed to write schema: " ++ Text.quoted path
  | incomplete failures written =>
      toString failures ++ " declaration(s) failed to generate; " ++ toString written ++
        " file(s) written"

def cause? : Fault → Option String
  | unreadableManifest _ cause => some cause.message
  | refusedConfig fault => some fault.message
  | unreadableDeclarations _ cause => some cause.message
  | outputDirectory _ cause => some cause.message
  | unwritableSchema _ cause => some cause.message
  | malformedManifest | refusedManifest _ | malformedDeclarations _ | incomplete _ _ => none

def message (f : Fault) : String :=
  match f.cause? with
  | none => f.headline
  | some cause => f.headline ++ ": " ++ cause

def indented (s : String) : String :=
  "\n".intercalate ((Text.parts '\n' s.toList).map fun l => "    " ++ String.ofList l)

/-- The headline, and the cause below it. -/
def report (f : Fault) : String :=
  "Error: " ++ f.headline ++
    match f.cause? with
    | none => ""
    | some cause => "\n\nCaused by:\n" ++ indented cause

end Fault

end ProtoSchema.Command
