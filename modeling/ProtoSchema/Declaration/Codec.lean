import ProtoSchema.Declaration
import ProtoSchema.Json.Decode

/-!
Declaration sets as JSON. Fields may be given in any order and those with a default may be left out;
a record may also be given as an array. The primary declaration of a unit says by its `declaration`
tag whether it is a type or an enum.
-/

namespace ProtoSchema

open Json (Node Value Origin Slot Record Result Tagged)

namespace Kind

def names : List (String × Kind) :=
  [("class", classKind), ("interface", interfaceKind), ("enum", enumKind)]

def toText : Kind → String
  | classKind => "class"
  | interfaceKind => "interface"
  | enumKind => "enum"

end Kind

namespace Field

structure Partial where
  name : Option String := none
  declaredType : Option String := none
  isStatic : Option Bool := none

def record : Record Partial where
  name := "Field"
  slots := [
    .of "name" true Partial.name (fun st a => { st with name := some a }) Node.readString,
    .of "declared_type" true Partial.declaredType (fun st a => { st with declaredType := some a })
      Node.readString,
    .of "is_static" false Partial.isStatic (fun st a => { st with isStatic := some a })
      Node.readBool]

def ofNode (origin : Origin) (n : Node) : Result Field :=
  (record.read origin {} n).map fun st =>
    ⟨st.name.getD "", st.declaredType.getD "", st.isStatic.getD false⟩

def toJson (f : Field) : Value :=
  .object [("name", .text f.name), ("declared_type", .text f.declaredType),
    ("is_static", .bool f.isStatic)]

end Field

namespace EnumDeclaration

structure Partial where
  name : Option String := none
  enclosingType : Option (Option String) := none
  constants : Option (List String) := none

def record : Record Partial where
  name := "EnumDeclaration"
  slots := [
    .of "name" true Partial.name (fun st a => { st with name := some a }) Node.readString,
    .of "enclosing_type" false Partial.enclosingType
      (fun st a => { st with enclosingType := some a }) (Node.readOption Node.readString),
    .of "constants" false Partial.constants (fun st a => { st with constants := some a })
      (Node.readList Node.readString)]

def ofNode (origin : Origin) (n : Node) : Result EnumDeclaration :=
  (record.read origin {} n).map fun st =>
    ⟨st.name.getD "", st.enclosingType.getD none, st.constants.getD []⟩

def members (e : EnumDeclaration) : List (String × Value) :=
  [("name", .text e.name), ("enclosing_type", .ofOption .text e.enclosingType),
    ("constants", .ofStrings e.constants)]

def toJson (e : EnumDeclaration) : Value := .object e.members

end EnumDeclaration

namespace TypeDeclaration

structure Partial where
  name : Option String := none
  kind : Option Kind := none
  fields : Option (List Field) := none
  nestedEnums : Option (List EnumDeclaration) := none

def record (origin : Origin) : Record Partial where
  name := "TypeDeclarationRepr"
  slots := [
    .of "name" true Partial.name (fun st a => { st with name := some a }) Node.readString,
    .of "kind" true Partial.kind (fun st a => { st with kind := some a })
      (Node.readEnum origin Kind.names),
    .of "fields" false Partial.fields (fun st a => { st with fields := some a })
      (Node.readList (Field.ofNode origin)),
    .of "nested_enums" false Partial.nestedEnums (fun st a => { st with nestedEnums := some a })
      (Node.readList (EnumDeclaration.ofNode origin))]

/-- Reads a class or interface. An enum is refused once everything else has been read. -/
def ofNode (origin : Origin) (n : Node) : Result TypeDeclaration :=
  match (record origin).read origin {} n with
  | .error fault => .error fault
  | .ok st =>
      let d : TypeDeclaration :=
        ⟨st.name.getD "", st.kind.getD .classKind, st.fields.getD [], st.nestedEnums.getD []⟩
      if d.kind = .enumKind then Json.fail (.enumAsType d.name) else .ok d

def members (d : TypeDeclaration) : List (String × Value) :=
  [("name", .text d.name), ("kind", .text d.kind.toText), ("fields", .ofList Field.toJson d.fields),
    ("nested_enums", .ofList EnumDeclaration.toJson d.nestedEnums)]

def toJson (d : TypeDeclaration) : Value := .object d.members

end TypeDeclaration

namespace Primary

inductive Tag where
  | type
  | enum

def tagNames : List (String × Tag) := [("type", .type), ("enum", .enum)]

/-- The containers around a primary declaration in a declaration set: the set, the list of units,
the unit and the declaration itself. -/
def depth : Nat := 4

def ofNode (n : Node) : Result Primary :=
  match Tagged.read (Json.maxDepth - depth) "declaration" "internally tagged enum PrimaryType"
      (Node.readIdentifier tagNames) n with
  | .error fault => .error fault
  | .ok ⟨.type, content⟩ => (TypeDeclaration.ofNode .kept content).map type
  | .ok ⟨.enum, content⟩ => (EnumDeclaration.ofNode .kept content).map enum

def toJson : Primary → Value
  | type d => .object (("declaration", .text "type") :: d.members)
  | enum e => .object (("declaration", .text "enum") :: e.members)

end Primary

namespace SourceUnit

structure Partial where
  source : Option (Option String) := none
  package : Option (Option String) := none
  primary : Option (Option Primary) := none

def record : Record Partial where
  name := "CompilationUnit"
  slots := [
    .of "source" false Partial.source (fun st a => { st with source := some a })
      (Node.readOption Node.readString),
    .of "package" false Partial.package (fun st a => { st with package := some a })
      (Node.readOption Node.readString),
    .of "primary" false Partial.primary (fun st a => { st with primary := some a })
      (Node.readOption Primary.ofNode)]

def ofNode (n : Node) : Result SourceUnit :=
  (record.read .direct {} n).map fun st =>
    ⟨st.source.getD none, st.package.getD none, st.primary.getD none⟩

def toJson (u : SourceUnit) : Value :=
  .object [("source", .ofOption .text u.source), ("package", .ofOption .text u.package),
    ("primary", .ofOption Primary.toJson u.primary)]

end SourceUnit

namespace DeclarationSet

structure Partial where
  units : Option (List SourceUnit) := none

def record : Record Partial where
  name := "DeclarationSet"
  slots := [
    .of "units" false Partial.units (fun st a => { st with units := some a })
      (Node.readList SourceUnit.ofNode)]

def ofNode (n : Node) : Result DeclarationSet :=
  (record.read .direct {} n).map fun st => ⟨st.units.getD []⟩

def toJson (s : DeclarationSet) : Value := .object [("units", .ofList SourceUnit.toJson s.units)]

def ofJson (bytes : List UInt8) : Result DeclarationSet :=
  (Json.Source.ofBytes bytes).read ofNode

end DeclarationSet

end ProtoSchema
