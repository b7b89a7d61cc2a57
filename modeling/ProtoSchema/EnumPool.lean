import ProtoSchema.Declaration

/-!
The enums of a whole run, nested ones included, and the lookup of references among them.
-/

namespace ProtoSchema

structure PooledEnum where
  declaration : EnumDeclaration
  package : Option String
  deriving DecidableEq, Repr

structure EnumPool where
  entries : List PooledEnum := []
  deriving DecidableEq, Repr

namespace PooledEnum

/-- The names that qualify an enum: its package unless that is empty, its enclosing type, and its
own name. -/
def nameParts (e : PooledEnum) : List String :=
  (e.package.filter (· ≠ "")).toList ++ e.declaration.enclosingType.toList ++ [e.declaration.name]

def qualifiedName (e : PooledEnum) : String := ".".intercalate e.nameParts

/-- Whether a reference names the enum, by its own name or by a tail of its qualified name. -/
def isNamedBy (e : PooledEnum) (reference : String) : Bool :=
  e.declaration.name == reference || Text.isTail reference e.qualifiedName

end PooledEnum

namespace EnumPool

def ofUnits (units : List SourceUnit) : EnumPool where
  entries := units.flatMap fun u => u.enums.map fun e => ⟨e, u.package⟩

def lookup? (pool : EnumPool) (reference : String) : Option PooledEnum :=
  pool.entries.find? (·.isNamedBy reference)

def contains (pool : EnumPool) (reference : String) : Bool := (pool.lookup? reference).isSome

def size (pool : EnumPool) : Nat := pool.entries.length

end EnumPool

def DeclarationSet.enumPool (s : DeclarationSet) : EnumPool := .ofUnits s.units

end ProtoSchema
