import ProtoSchema.Manifest

/-!
The arguments of the command line. An option is given by its long name or by its letter; letters can
be written together, and a value follows its option in the same argument or in the next one. Each
option can be given once before the name of the command, and once after it. The reading ends early
where the version or help is asked for.
-/

namespace ProtoSchema.Command

inductive Opt where
  | verbose
  | version
  | help
  | input
  | output
  | manifest
  | package
  | singleFile
  | projectName
  deriving DecidableEq, Repr

namespace Opt

def long : Opt → String
  | verbose => "verbose"
  | version => "version"
  | help => "help"
  | input => "input"
  | output => "output"
  | manifest => "manifest"
  | package => "package"
  | singleFile => "single-file"
  | projectName => "project-name"

def letter? : Opt → Option Char
  | verbose => some 'v'
  | version => some 'V'
  | help => some 'h'
  | input => some 'i'
  | output => some 'o'
  | manifest => some 'm'
  | package => some 'p'
  | singleFile => some 's'
  | projectName => none

def takesValue : Opt → Bool
  | verbose | version | help | singleFile => false
  | _ => true

end Opt

inductive Scope where
  | program
  | generate
  | check
  | help
  deriving DecidableEq, Repr

def Scope.options : Scope → List Opt
  | program => [.verbose, .version, .help]
  | generate =>
      [.verbose, .input, .output, .manifest, .package, .singleFile, .projectName, .help]
  | check => [.verbose, .manifest, .help]
  | help => []

inductive Stop where
  | usage
  | version
  | help (scope : Scope)
  deriving DecidableEq, Repr

/-- The options that have been given, with their values. An option without a value has the empty
one. -/
abbrev Given := List (Opt × String)

namespace Given

def value? (g : Given) (o : Opt) : Option String := (g.find? (·.1 == o)).map (·.2)

def has (g : Given) (o : Opt) : Bool := (g.value? o).isSome

def add (scope : Scope) (g : Given) (o : Opt) (value : String) : Except Stop Given :=
  match o with
  | .version => .error .version
  | .help => .error (.help scope)
  | _ => if g.has o then .error .usage else .ok (g ++ [(o, value)])

end Given

/-- The options given so far, and the option whose value is due. -/
abbrev Progress := Given × Option Opt

/-- Reads the letters of an argument. What follows the letter of an option with a value, less an
equals sign, is its value. -/
def readLetters (scope : Scope) (g : Given) : List Char → Except Stop Progress
  | [] => .ok (g, none)
  | c :: r =>
      match scope.options.find? (·.letter? == some c) with
      | none => .error .usage
      | some o =>
          if o.takesValue then
            match r with
            | [] => .ok (g, some o)
            | '=' :: v => (g.add scope o (String.ofList v)).map (·, none)
            | v => (g.add scope o (String.ofList v)).map (·, none)
          else
            match g.add scope o "" with
            | .error stop => .error stop
            | .ok g => readLetters scope g r

def readLong (scope : Scope) (g : Given) (s : List Char) : Except Stop Progress :=
  match scope.options.find? (·.long.toList == s.takeWhile (· ≠ '=')) with
  | none => .error .usage
  | some o =>
      match o.takesValue, s.dropWhile (· ≠ '=') with
      | true, [] => .ok (g, some o)
      | true, _ :: v => (g.add scope o (String.ofList v)).map (·, none)
      | false, [] => (g.add scope o "").map (·, none)
      | false, _ :: _ => .error .usage

/-- Whether an argument is read as options. A single hyphen is not. -/
def isOption (arg : String) : Bool :=
  match arg.toList with
  | '-' :: _ :: _ => true
  | _ => false

def readOption (scope : Scope) (g : Given) (arg : String) : Except Stop Progress :=
  match arg.toList with
  | '-' :: '-' :: s => readLong scope g s
  | s => readLetters scope g s.tail

/-- Reads options up to the first argument that is none, which is left with those after it. Nothing
may follow two hyphens. -/
def readOptions (scope : Scope) (g : Given) (pending : Option Opt) :
    List String → Except Stop (Given × List String)
  | [] => if pending.isSome then .error .usage else .ok (g, [])
  | arg :: args =>
      match pending with
      | some o =>
          if isOption arg then .error .usage
          else
            match g.add scope o arg with
            | .error stop => .error stop
            | .ok g => readOptions scope g none args
      | none =>
          if arg = "--" then if args.isEmpty then .ok (g, []) else .error .usage
          else if isOption arg then
            match readOption scope g arg with
            | .error stop => .error stop
            | .ok (g, pending) => readOptions scope g pending args
          else .ok (g, arg :: args)

structure GenerateRequest where
  input : String
  output : String
  manifest : Option String := none
  overrides : Overrides := {}
  deriving DecidableEq, Repr

inductive Invocation where
  | generate (verbose : Bool) (request : GenerateRequest)
  | check (manifest : Option String)
  deriving DecidableEq, Repr

def readAll (scope : Scope) (args : List String) : Except Stop Given :=
  match readOptions scope [] none args with
  | .error stop => .error stop
  | .ok (g, []) => .ok g
  | .ok (_, _ :: _) => .error .usage

def GenerateRequest.ofGiven (g : Given) : Except Stop GenerateRequest :=
  match g.value? .input, g.value? .output with
  | some input, some output =>
      .ok {
        input, output
        manifest := g.value? .manifest
        overrides := {
          package := g.value? .package
          singleFile := g.has .singleFile
          projectName := g.value? .projectName } }
  | _, _ => .error .usage

/-- What the command `help` stands for, which names commands and has no options. -/
def Stop.ofTopic : List String → Stop
  | [] => help .program
  | ["generate"] => help .generate
  | ["check"] => help .check
  | ["help"] => help .help
  | _ => usage

def Invocation.read (args : List String) : Except Stop Invocation :=
  match readOptions .program [] none args with
  | .error stop => .error stop
  | .ok (general, "generate" :: args) =>
      match readAll .generate args with
      | .error stop => .error stop
      | .ok g =>
          (GenerateRequest.ofGiven g).map (.generate (general.has .verbose || g.has .verbose) ·)
  | .ok (_, "check" :: args) =>
      (readAll .check args).map fun g => .check (g.value? .manifest)
  | .ok (_, "help" :: args) => .error (.ofTopic args)
  | .ok _ => .error .usage

end ProtoSchema.Command
