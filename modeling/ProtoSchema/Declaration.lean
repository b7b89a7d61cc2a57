import ProtoSchema.Text.Dotted

/-!
The declarations that schemas are generated from: classes and interfaces with their fields and
nested enums, top-level enums, and the source units that hold them.
-/

namespace ProtoSchema

inductive Kind where
  | classKind
  | interfaceKind
  | enumKind
  deriving DecidableEq, Repr

structure Field where
  name : String
  declaredType : String
  isStatic : Bool := false
  deriving DecidableEq, Repr

structure EnumDeclaration where
  name : String
  enclosingType : Option String := none
  constants : List String := []
  deriving DecidableEq, Repr

structure TypeDeclaration where
  name : String
  kind : Kind
  fields : List Field := []
  nestedEnums : List EnumDeclaration := []
  deriving DecidableEq, Repr

inductive Primary where
  | type (declaration : TypeDeclaration)
  | enum (declaration : EnumDeclaration)
  deriving DecidableEq, Repr

structure SourceUnit where
  source : Option String := none
  package : Option String := none
  primary : Option Primary := none
  deriving DecidableEq, Repr

structure DeclarationSet where
  units : List SourceUnit := []
  deriving DecidableEq, Repr

namespace EnumDeclaration

def nestedIn (e : EnumDeclaration) (enclosing : String) : EnumDeclaration :=
  { e with enclosingType := some enclosing }

end EnumDeclaration

namespace TypeDeclaration

def isInterface (d : TypeDeclaration) : Bool := d.kind == .interfaceKind

def addField (d : TypeDeclaration) (f : Field) : TypeDeclaration :=
  { d with fields := d.fields ++ [f] }

/-- Adds an enum, which becomes nested in the declaration. -/
def addNestedEnum (d : TypeDeclaration) (e : EnumDeclaration) : TypeDeclaration :=
  { d with nestedEnums := d.nestedEnums ++ [e.nestedIn d.name] }

/-- The first nested enum that a reference names, by its own name or by a name that ends with the
names of the declaration and of the enum. -/
def nestedEnum? (d : TypeDeclaration) (reference : String) : Option EnumDeclaration :=
  d.nestedEnums.find? fun e =>
    e.name == reference || Text.isTail (d.name ++ "." ++ e.name) reference

/-- The fields that become schema fields. An interface has none. -/
def schemaFields (d : TypeDeclaration) (excluded : List String) : List Field :=
  d.fields.filter fun f => !d.isInterface && !f.isStatic && !excluded.contains f.name

/-- Whether a message is generated: for every class, and for an interface with nested enums. -/
def emitsMessage (d : TypeDeclaration) : Bool := !d.isInterface || !d.nestedEnums.isEmpty

end TypeDeclaration

namespace Primary

def name : Primary → String
  | type d => d.name
  | enum e => e.name

def kind : Primary → Kind
  | type d => d.kind
  | enum _ => .enumKind

@[simp] theorem name_type (d : TypeDeclaration) : (type d).name = d.name := rfl

@[simp] theorem name_enum (e : EnumDeclaration) : (enum e).name = e.name := rfl

end Primary

namespace SourceUnit

def ofType (d : TypeDeclaration) : SourceUnit := { primary := some (.type d) }

def ofEnum (e : EnumDeclaration) : SourceUnit := { primary := some (.enum e) }

def primaryName? (u : SourceUnit) : Option String := u.primary.map Primary.name

def modifyType (f : TypeDeclaration → TypeDeclaration) (u : SourceUnit) : SourceUnit :=
  match u.primary with
  | some (.type d) => { u with primary := some (.type (f d)) }
  | _ => u

def enums (u : SourceUnit) : List EnumDeclaration :=
  match u.primary with
  | some (.enum e) => [e]
  | some (.type d) => d.nestedEnums
  | none => []

end SourceUnit

end ProtoSchema
