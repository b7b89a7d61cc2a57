import ProtoSchema.FieldType
import ProtoSchema.Document

/-!
The imports that a declaration needs for the leaves of its field types, and the names that are
assumed to be messages.
-/

namespace ProtoSchema

/-- The file of an enum is that of the type it is nested in, if there is one. -/
def PooledEnum.importFor (e : PooledEnum) (current : TypeDeclaration) : Option String :=
  match e.declaration.enclosingType with
  | some enclosing => if enclosing = current.name then none else some (schemaFileName enclosing)
  | none => some (schemaFileName e.declaration.name)

/-- The import that one leaf name needs in the document of `current`. The enums nested in `current`
come first, then the enums of the run, then the fixed vocabulary. -/
def importFor (pool : EnumPool) (current : TypeDeclaration) (name : String) : Option String :=
  if (current.nestedEnum? name).isSome then none
  else
    match pool.lookup? name with
    | some e => e.importFor current
    | none =>
        match Category.ofName? name with
        | some (.wellKnown w) => some w.importPath
        | some _ => none
        | none => some (schemaFileName name)

def importsFor (pool : EnumPool) (current : TypeDeclaration) (types : List TypeRef) : NameSet :=
  .ofList ((types.flatMap TypeRef.leafNames).filterMap (importFor pool current))

/-- Whether a name is neither an enum of the run nor in the fixed vocabulary. -/
def isOpaque (pool : EnumPool) (name : String) : Bool :=
  !pool.contains name && (Category.ofName? name).isNone

/-- The leaf names that are assumed to be messages. -/
def opaqueNames (pool : EnumPool) (types : List TypeRef) : NameSet :=
  .ofList ((types.flatMap TypeRef.leafNames).filter (isOpaque pool))

end ProtoSchema
