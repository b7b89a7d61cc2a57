import ProtoSchema.Path

/-!
What a command does to its surroundings: it reads and writes files, makes directories, and prints
lines. A directory is made in one that exists, and a file that is written is made or loses what it
held. The commands are written for all surroundings, be they the files of a computer or a value that
stands for them.
-/

namespace ProtoSchema

inductive FileFault where
  | notFound
  | alreadyExists
  | notADirectory
  | isADirectory
  | nameTooLong
  | nulInName
  | invalidText
  | other (description : String)
  deriving DecidableEq, Repr

def FileFault.message : FileFault → String
  | .notFound => "No such file or directory (os error 2)"
  | .alreadyExists => "File exists (os error 17)"
  | .notADirectory => "Not a directory (os error 20)"
  | .isADirectory => "Is a directory (os error 21)"
  | .nameTooLong => "File name too long (os error 36)"
  | .nulInName => "file name contained an unexpected NUL byte"
  | .invalidText => "stream did not contain valid UTF-8"
  | .other description => description

class Surroundings (m : Type → Type) where
  readFile : String → m (Except FileFault (List UInt8))
  isPresent : String → m Bool
  isDirectory : String → m Bool
  makeDirectory : String → m (Except FileFault Unit)
  writeFile : String → String → m (Except FileFault Unit)
  printLine : String → m Unit
  printError : String → m Unit

namespace Surroundings

variable {m : Type → Type} [Monad m] [Surroundings m]

def readText (path : String) : m (Except FileFault String) := do
  match ← readFile path with
  | .error fault => return .error fault
  | .ok bytes =>
      match String.fromUTF8? bytes.toByteArray with
      | some text => return .ok text
      | none => return .error .invalidText

/-- A directory that cannot be made is no fault if it is there. -/
def orPresent (path : String) (fault : FileFault) : m (Except FileFault Unit) := do
  if ← isDirectory path then return .ok () else return .error fault

/-- Makes the first of some directories, each of which is in the next. The directories above are
made if the first cannot be made for lack of them. -/
def makeLineage : List String → m (Except FileFault Unit)
  | [] => return .ok ()
  | path :: above => do
      match ← makeDirectory path with
      | .ok () => return .ok ()
      | .error .notFound =>
          match ← makeLineage above with
          | .error fault => return .error fault
          | .ok () =>
              match ← makeDirectory path with
              | .ok () => return .ok ()
              | .error fault => orPresent path fault
      | .error fault => orPresent path fault

/-- Makes a directory, and those above it if need be. -/
def makeDirectories (path : String) : m (Except FileFault Unit) := makeLineage (Path.lineage path)

end Surroundings

end ProtoSchema
