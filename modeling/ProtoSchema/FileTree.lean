import ProtoSchema.Surroundings

/-!
A tree of files and directories as a value: a map from places to what is there, and the place where
relative paths begin. Paths are followed name by name through directories that exist.
-/

namespace ProtoSchema

inductive Entry where
  | directory
  | file (content : List UInt8)
  deriving DecidableEq, Repr

/-- The names that lead from the root to a place, from the last to the first. -/
abbrev Place := List String

structure FileTree where
  entries : List (Place × Entry) := []
  workingDirectory : Place := []
  deriving DecidableEq, Repr

namespace FileTree

def get? (t : FileTree) (p : Place) : Option Entry :=
  if p = [] then some .directory else (t.entries.find? (·.1 == p)).map (·.2)

def put (t : FileTree) (p : Place) (e : Entry) : FileTree :=
  { t with entries := (p, e) :: t.entries.filter (·.1 != p) }

@[simp] theorem get?_root (t : FileTree) : t.get? [] = some .directory := by
  simp [get?]

/-- Putting an entry changes what is at its own place only. -/
theorem get?_put (t : FileTree) {p : Place} (hp : p ≠ []) (e : Entry) (q : Place) :
    (t.put p e).get? q = if q = p then some e else t.get? q := by
  unfold get? put
  by_cases hq : q = p
  · subst hq
    simp [hp]
  · rw [if_neg hq]
    have hne : (p == q) = false := by simpa using Ne.symm hq
    have hpred : (fun x : Place × Entry => decide ((x.1 != p) = true ∧ (x.1 == q) = true)) =
        fun x => x.1 == q := by
      funext x
      by_cases hx : x.1 = q
      · simp [hx, hq]
      · simp [hx]
    rw [List.find?_cons, hne, List.find?_filter, hpred]

/-- Putting an entry does not move the working directory. -/
@[simp] theorem workingDirectory_put (t : FileTree) (p : Place) (e : Entry) :
    (t.put p e).workingDirectory = t.workingDirectory := rfl

def maxNameLength : Nat := 255

def maxPathLength : Nat := 4095

def isTooLong (name : String) : Bool := maxNameLength < name.utf8ByteSize

/-- Follows names from a place. Only directories can be passed through. -/
def walk (t : FileTree) : Place → List String → Except FileFault Place
  | p, [] => .ok p
  | p, n :: ns =>
      match t.get? p with
      | none => .error .notFound
      | some (.file _) => .error .notADirectory
      | some .directory =>
          if n = "." then walk t p ns
          else if n = ".." then walk t p.tail ns
          else if isTooLong n then .error .nameTooLong
          else if (t.get? (n :: p)).isSome then walk t (n :: p) ns
          else .error .notFound

def start (t : FileTree) (path : String) : Place :=
  if Path.isAbsolute path then [] else t.workingDirectory

/-- Why a text cannot be a path. -/
def pathFault? (path : String) : Option FileFault :=
  if path.isEmpty then some .notFound
  else if path.toList.contains '\x00' then some .nulInName
  else if maxPathLength < path.utf8ByteSize then some .nameTooLong
  else none

/-- The place of an entry that exists. A slash at the end asks for a directory. -/
def find (t : FileTree) (path : String) : Except FileFault Place :=
  match pathFault? path with
  | some fault => .error fault
  | none => t.walk (t.start path) (Path.names path ++ if Path.endsWithSlash path then ["."] else [])

/-- The directory in which a path ends, and the last name of the path. The last name is absent if
the path is that of the root. -/
def findParent (t : FileTree) (path : String) : Except FileFault (Place × Option String) :=
  match pathFault? path with
  | some fault => .error fault
  | none =>
      match (Path.names path).reverse with
      | [] => .ok ([], none)
      -- The final dot stays where it is, but only in a directory.
      | n :: ns => (t.walk (t.start path) (ns.reverse ++ ["."])).map (·, some n)

def content (t : FileTree) (path : String) : Except FileFault (List UInt8) :=
  match t.find path with
  | .error fault => .error fault
  | .ok p =>
      match t.get? p with
      | some (.file bytes) => .ok bytes
      | some .directory => .error .isADirectory
      | none => .error .notFound

def isPresent (t : FileTree) (path : String) : Bool := (t.find path).toOption.isSome

def isDirectory (t : FileTree) (path : String) : Bool :=
  match t.find path with
  | .ok p => t.get? p == some .directory
  | .error _ => false

/-- Whether a name stands for a place relative to the one where it is met. -/
def isDots (name : String) : Bool := name == "." || name == ".."

def makeDirectory (t : FileTree) (path : String) : Except FileFault FileTree :=
  match t.findParent path with
  | .error fault => .error fault
  | .ok (_, none) => .error .alreadyExists
  | .ok (p, some n) =>
      if isDots n then .error .alreadyExists
      else if isTooLong n then .error .nameTooLong
      else if (t.get? (n :: p)).isSome then .error .alreadyExists
      else .ok (t.put (n :: p) .directory)

def writeFile (t : FileTree) (path : String) (bytes : List UInt8) : Except FileFault FileTree :=
  match t.findParent path with
  | .error fault => .error fault
  | .ok (_, none) => .error .isADirectory
  | .ok (p, some n) =>
      if isDots n || Path.endsWithSlash path then .error .isADirectory
      else if isTooLong n then .error .nameTooLong
      else if t.get? (n :: p) = some .directory then .error .isADirectory
      else .ok (t.put (n :: p) (.file bytes))

end FileTree

structure Session where
  tree : FileTree := {}
  printed : List String := []
  errors : List String := []
  deriving DecidableEq, Repr

def Session.attempt (change : FileTree → Except FileFault FileTree) :
    StateM Session (Except FileFault Unit) := fun s =>
  match change s.tree with
  | .ok tree => (.ok (), { s with tree })
  | .error fault => (.error fault, s)

instance : Surroundings (StateM Session) where
  readFile path := fun s => (s.tree.content path, s)
  isPresent path := fun s => (s.tree.isPresent path, s)
  isDirectory path := fun s => (s.tree.isDirectory path, s)
  makeDirectory path := Session.attempt (·.makeDirectory path)
  writeFile path text := Session.attempt (·.writeFile path text.toByteArray.toList)
  printLine text := fun s => ((), { s with printed := s.printed ++ [text] })
  printError text := fun s => ((), { s with errors := s.errors ++ [text] })

end ProtoSchema
