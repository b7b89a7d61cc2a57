import ProtoSchema.Declaration
import ProtoSchema.Text.NameSet

/-!
The text of schema documents: a header, message bodies and enum bodies. Each part ends with an empty
line, so that parts written one after another form a document.
-/

namespace ProtoSchema

def schemaFileName (stem : String) : String := stem ++ ".proto"

@[simp] theorem schemaFileName_inj {m n : String} :
    schemaFileName m = schemaFileName n ↔ m = n := by
  rw [schemaFileName, schemaFileName, String.append_left_inj]

structure SchemaField where
  schemaType : String
  name : String
  ordinal : Nat
  deriving DecidableEq, Repr

structure SchemaConstant where
  name : String
  ordinal : Nat
  deriving DecidableEq, Repr

structure Document where
  fileName : String
  content : String
  deriving DecidableEq, Repr

namespace Document

def packageBlock : Option String → String
  | none => ""
  | some package =>
      if package = "" then ""
      else
        "package " ++ package ++ ";\n\n" ++ "option java_package = \"" ++ package ++ "\";\n" ++
          "option java_multiple_files = true;\n\n"

def importLine (path : String) : String := "import \"" ++ path ++ "\";\n"

def importBlock (imports : NameSet) : String :=
  if imports.isEmpty then "" else String.join (imports.toList.map importLine) ++ "\n"

def header (package : Option String) (imports : NameSet) : String :=
  "syntax = \"proto3\";\n\n" ++ packageBlock package ++ importBlock imports

def fieldLine (f : SchemaField) : String :=
  "  " ++ f.schemaType ++ " " ++ f.name ++ " = " ++ toString f.ordinal ++ ";\n"

def constants (e : EnumDeclaration) : List SchemaConstant :=
  e.constants.mapIdx fun i name => ⟨name, i⟩

def constantLine (indent : String) (c : SchemaConstant) : String :=
  indent ++ "  " ++ c.name ++ " = " ++ toString c.ordinal ++ ";\n"

def enumBlock (indent : String) (e : EnumDeclaration) : String :=
  indent ++ "enum " ++ e.name ++ " \x7b\n" ++
    String.join ((constants e).map (constantLine indent)) ++ indent ++ "\x7d\n"

/-- The blocks of a message: each nested enum, then the fields if there are any. -/
def messageBlocks (fields : List SchemaField) (nested : List EnumDeclaration) : List String :=
  nested.map (enumBlock "  ") ++
    if fields.isEmpty then [] else [String.join (fields.map fieldLine)]

/-- A message, with an empty line between its blocks. -/
def message (name : String) (fields : List SchemaField) (nested : List EnumDeclaration) : String :=
  "message " ++ name ++ " \x7b\n" ++ "\n".intercalate (messageBlocks fields nested) ++ "\x7d\n\n"

def enum (e : EnumDeclaration) : String := enumBlock "" e ++ "\n"

end Document

end ProtoSchema
