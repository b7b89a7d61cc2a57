import ProtoSchema.Proofs.Text.ByteOrder
import ProtoSchema.Proofs.FieldType.Leaves
import ProtoSchema.Proofs.Report.OwnImports

/-!
The header of a document. Its imports are those that the leaf names in the types of the fields need,
and they come in the order of their bytes. Which names there are is all that counts: not how often
they occur, nor in which fields, nor how these put them together.
-/

namespace ProtoSchema

def headerFor (package : Option String) (pool : EnumPool) (t : TypeDeclaration)
    (types : List TypeRef) : String :=
  Document.header package (importsFor pool t types)

def Document.importLines (paths : List String) : String :=
  if paths = [] then "" else String.join (paths.map importLine) ++ "\n"

theorem Document.header_eq (package : Option String) (imports : NameSet) :
    header package imports =
      "syntax = \"proto3\";\n\n" ++ packageBlock package ++ importLines imports.toList := by
  have hblock : importBlock imports = importLines imports.toList := by
    simp [importBlock, importLines, NameSet.isEmpty]
  exact congrArg ("syntax = \"proto3\";\n\n" ++ packageBlock package ++ ·) hblock

/-- The names of a set are listed in the order of their bytes. -/
theorem NameSet.pairwise_toUTF8 (s : NameSet) :
    (s.toList.map fun n => n.toUTF8.toList).Pairwise (· < ·) :=
  List.pairwise_map.2 (s.ascending.imp Text.toUTF8_lt_toUTF8)

section

variable {pool : EnumPool} {t : TypeDeclaration} {types types' : List TypeRef}

/-- Types with the same leaf names need the same imports. -/
theorem importsFor_eq_of_leafNames
    (h : ∀ n, n ∈ types'.flatMap TypeRef.leafNames ↔ n ∈ types.flatMap TypeRef.leafNames) :
    importsFor pool t types' = importsFor pool t types := by
  ext path
  simp only [mem_importsFor, h]

/-- The document of a declaration that becomes a message is the header for the types of its schema
fields and the message. -/
theorem document_mem_perType {a : Assembler} {units : List SourceUnit}
    (h : BecomesMessage a.config units t) :
    ∃ types caveats, readFieldTypes (t.keptFields a.config.excludeFields) = .ok (types, caveats) ∧
      ⟨schemaFileName t.name, headerFor a.config.effectivePackage a.pool t types ++
          Document.message t.name
            (SchemaField.ofFields a.pool ((t.keptFields a.config.excludeFields).zip types))
            t.nestedEnums⟩ ∈ (a.perType units).documents := by
  obtain ⟨earlier, hp, hfree⟩ := h
  obtain ⟨d, ho⟩ := Assembler.exists_outcome_eq_ok hfree
  obtain ⟨plan, hplan, rfl⟩ := Assembler.plan_of_outcome ho
  obtain ⟨types, caveats, hread, rfl, hfields, himports, -⟩ := Assembler.plan_eq_ok hplan
  refine ⟨types, caveats, hread, ?_⟩
  rw [Assembler.perType_eq, headerFor, ← hfields, ← himports]
  exact List.mem_map_of_mem (Assembler.mem_drafts.2 ⟨earlier, _, hp, ho⟩)

end

/-- A declaration that becomes a message has a document with the header for the types of its schema
fields. The imports in such a header ascend in the order of their bytes and are those that the leaf
names of the types need, and other types with the same leaf names have the same header. -/
theorem header_follows_leaf_names (config : Config) (pool : EnumPool) :
    let package := config.effectivePackage
    (∀ units t, BecomesMessage config units t → ∃ types caveats,
        readFieldTypes (t.keptFields config.excludeFields) = .ok (types, caveats) ∧
          ⟨schemaFileName t.name, headerFor package pool t types ++
              Document.message t.name
                (SchemaField.ofFields pool ((t.keptFields config.excludeFields).zip types))
                t.nestedEnums⟩ ∈
            (assemble { config with singleFile := false } pool units).documents) ∧
      ∀ (t : TypeDeclaration) (types : List TypeRef), ∃ paths : List String,
        headerFor package pool t types =
            "syntax = \"proto3\";\n\n" ++ Document.packageBlock package ++
              Document.importLines paths ∧
          (paths.map fun path => path.toUTF8.toList).Pairwise (· < ·) ∧
          (∀ path, path ∈ paths ↔
            ∃ n ∈ types.flatMap TypeRef.leafNames, importFor pool t n = some path) ∧
          ∀ types' : List TypeRef,
            (∀ n, n ∈ types'.flatMap TypeRef.leafNames ↔ n ∈ types.flatMap TypeRef.leafNames) →
              headerFor package pool t types' = headerFor package pool t types := by
  intro package
  refine ⟨fun units t ht => ?_, fun t types => ⟨(importsFor pool t types).toList, ?_, ?_, ?_, ?_⟩⟩
  · let a : Assembler := ⟨{ config with singleFile := false }, pool, declaredNames units⟩
    exact document_mem_perType (a := a) ht
  · exact Document.header_eq package _
  · exact (importsFor pool t types).pairwise_toUTF8
  · exact fun path => mem_importsFor
  · intro types' hleaves
    rw [headerFor, headerFor, importsFor_eq_of_leafNames hleaves]

/-- The fields of a visit in another order and differently put together, one of them twice. -/
theorem header_follows_leaf_names_regrouped :
    let visit : TypeDeclaration := { name := "Visit", kind := .classKind }
    let address : TypeRef := .named "Address"
    let instant : TypeRef := .named "Instant"
    let types : List TypeRef := [.mk "Map" [instant, address], .mk "List" [.mk "Set" [instant]]]
    let types' : List TypeRef := [.mk "List" [address], instant, address]
    (∀ n, n ∈ types'.flatMap TypeRef.leafNames ↔ n ∈ types.flatMap TypeRef.leafNames) ∧
      headerFor none {} visit types' = headerFor none {} visit types ∧
      headerFor none {} visit types =
        "syntax = \"proto3\";\n\nimport \"Address.proto\";\n" ++
          "import \"google/protobuf/timestamp.proto\";\n\n" := by
  intro visit address instant types types'
  have hnames : types.flatMap TypeRef.leafNames = ["Instant", "Address", "Instant"] := by
    decide +kernel
  have hnames' : types'.flatMap TypeRef.leafNames = ["Address", "Instant", "Address"] := by
    decide +kernel
  have hleaves : ∀ n,
      n ∈ types'.flatMap TypeRef.leafNames ↔ n ∈ types.flatMap TypeRef.leafNames := by
    intro n
    simp only [hnames, hnames', List.mem_cons, List.not_mem_nil, or_false]
    tauto
  obtain ⟨-, hheaders⟩ := header_follows_leaf_names {} {}
  obtain ⟨paths, -, -, -, hsame⟩ := hheaders visit types
  exact ⟨hleaves, hsame types' hleaves, by decide +kernel⟩

end ProtoSchema
