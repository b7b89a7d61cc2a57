/-!
Type references: a name with the references it is applied to, and the text that stands for one.
-/

namespace ProtoSchema

inductive TypeRef where
  | mk (name : String) (arguments : List TypeRef)
  deriving Repr, Inhabited

namespace TypeRef

def name : TypeRef → String
  | mk n _ => n

def arguments : TypeRef → List TypeRef
  | mk _ args => args

def named (n : String) : TypeRef := mk n []

@[simp] theorem name_mk (n : String) (args : List TypeRef) : (mk n args).name = n := rfl

@[simp] theorem arguments_mk (n : String) (args : List TypeRef) : (mk n args).arguments = args :=
  rfl

mutual

/-- Writes a reference as `Name<First, Second>`. -/
def render : TypeRef → String
  | mk n [] => n
  | mk n (a :: as) => n ++ "<" ++ a.render ++ renderRest as ++ ">"

def renderRest : List TypeRef → String
  | [] => ""
  | a :: as => ", " ++ a.render ++ renderRest as

end

end TypeRef

end ProtoSchema
