import ProtoSchema.Text.Parts

/-!
Path texts: the names in a path, the paths above it, and joining a directory and a name. Names are
parted by slashes, and a path that begins with a slash is absolute.
-/

namespace ProtoSchema.Path

def isAbsolute (path : String) : Bool := path.toList.head? == some '/'

def endsWithSlash (path : String) : Bool := path.toList.getLast? == some '/'

/-- The names that a path passes through. Slashes in a row count as one. -/
def names (path : String) : List String :=
  ((Text.parts '/' path.toList).filter (!·.isEmpty)).map String.ofList

/-- The names without the dots that stand for the place where they are met. Only a dot at the
beginning of a relative path is kept. -/
def components (path : String) : List String :=
  match isAbsolute path, names path with
  | false, n :: ns => n :: ns.filter (· != ".")
  | _, ns => ns.filter (· != ".")

def upward (root : String) : List String → List String
  | [] => if root.isEmpty then [] else [root]
  | n :: ns => (root ++ "/".intercalate (n :: ns).reverse) :: upward root ns

/-- A path, the path above it, and so on. The working directory is not among the paths above a
relative path. -/
def lineage (path : String) : List String :=
  if path.isEmpty then []
  else path :: upward (if isAbsolute path then "/" else "") (components path).reverse.tail

/-- The path of a name in a directory. An absolute path stays what it is. -/
def join (directory name : String) : String :=
  if isAbsolute name then name
  else if directory.isEmpty || endsWithSlash directory then directory ++ name
  else directory ++ "/" ++ name

end ProtoSchema.Path
