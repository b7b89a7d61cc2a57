import ProtoSchema.Command

/-!
The program: the commands in the surroundings of a computer.
-/

namespace ProtoSchema

/-- The number of a failure of the operating system, without its sign. -/
def systemCode (code : UInt32) : Nat :=
  if code.toNat < UInt32.size / 2 then code.toNat else UInt32.size - code.toNat

def FileFault.ofError (e : IO.Error) : FileFault :=
  match e with
  | .noFileOrDirectory .. => .notFound
  | .alreadyExists .. => .alreadyExists
  | .inappropriateType _ code _ => if systemCode code = 20 then .notADirectory else .isADirectory
  | .invalidArgument _ code _ =>
      if systemCode code = 36 then .nameTooLong else .other (toString e)
  | _ => .other (toString e)

def attempt {α : Type} (action : IO α) : IO (Except FileFault α) := do
  try
    return .ok (← action)
  catch e =>
    return .error (.ofError e)

instance : Surroundings IO where
  readFile path := attempt do return (← IO.FS.readBinFile path).toList
  isPresent path := (System.mkFilePath [path]).pathExists
  isDirectory path := (System.mkFilePath [path]).isDir
  makeDirectory path := attempt (IO.FS.createDir path)
  writeFile path text := attempt (IO.FS.writeFile path text)
  printLine text := IO.println text
  printError text := IO.eprintln text

end ProtoSchema

/-- Runs the program. The environment variable may name the level from which on events are
printed. -/
def main (args : List String) : IO UInt32 := do
  let level := (← IO.getEnv "RUST_LOG").bind ProtoSchema.Level.ofName?
  ProtoSchema.Command.execute level args
