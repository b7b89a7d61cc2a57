import ProtoSchema.Proofs.Report.Loops

/-!
The two output modes agree: the same declarations are refused for the same reasons and the same
guesses are made, and the one document of an aggregate run holds the bodies of the documents of the
per-type run, messages first, with the imports of those that it does not define itself.
-/

namespace ProtoSchema

open Assembler (IsStem exists_primary_isStem_iff)

/-- The aggregate document has the bodies of the per-type documents, messages first, under a header
with the union of their imports less those that stand for declared types. No import that is left
stands for what the document defines. Failures and caveats are those of the per-type run. -/
theorem aggregate_agrees_with_perType (config : Config) (pool : EnumPool)
    (units : List SourceUnit) :
    let perType := assemble { config with singleFile := false } pool units
    let aggregate := assemble { config with singleFile := true } pool units
    let drafts :=
      Assembler.drafts ⟨config, pool, declaredNames units⟩ (emittedDeclarations units)
    perType.documents = drafts.map (fun d => d.documentPlan.document config.effectivePackage) ∧
      aggregate.failures = perType.failures ∧
      aggregate.caveats = perType.caveats ∧
      ∃ imports : NameSet,
        (∀ path, path ∈ imports ↔
          (∃ d ∈ drafts, path ∈ d.imports) ∧
            ¬∃ u ∈ units, ∃ p, u.primary = some p ∧ IsStem p.name path) ∧
        aggregate.documents =
          [⟨schemaFileName config.projectName,
            Document.header config.effectivePackage imports ++
              String.join ((drafts.filter Draft.isMessage).map Draft.body) ++
              String.join ((drafts.filter (!·.isMessage)).map Draft.body)⟩] ∧
        ∀ path ∈ imports, ∀ d ∈ drafts, ¬IsStem d.name path := by
  intro perType aggregate drafts
  -- The two assemblers differ in `singleFile` alone, which no draft depends on.
  let a : Assembler := ⟨{ config with singleFile := true }, pool, declaredNames units⟩
  let b : Assembler := ⟨{ config with singleFile := false }, pool, declaredNames units⟩
  have ha := a.aggregate_eq units
  have hp := b.perType_eq units
  have hmem : ∀ path, path ∈ (a.combined units).imports ↔ (∃ d ∈ drafts, path ∈ d.imports) ∧
      ¬∃ u ∈ units, ∃ p, u.primary = some p ∧ IsStem p.name path := by
    intro path
    refine (a.mem_imports_combined units path).trans (and_congr_right' (not_congr ?_))
    exact exists_primary_isStem_iff.symm
  refine ⟨congrArg Report.documents hp, ?_, ?_, (a.combined units).imports, hmem, ?_, ?_⟩
  · exact (congrArg Report.failures ha).trans (congrArg Report.failures hp).symm
  · exact (congrArg Report.caveats ha).trans (congrArg Report.caveats hp).symm
  · exact a.documents_aggregate units
  · intro path hpath d hd hstem
    obtain ⟨-, hexternal⟩ := (hmem path).1 hpath
    obtain ⟨p, hp, hname⟩ := List.mem_map.1 (Assembler.name_mem_of_mem_drafts hd)
    obtain ⟨u, hu, hup⟩ := List.mem_filterMap.1 hp
    rw [← hname] at hstem
    exact hexternal ⟨u, hu, p, (SourceUnit.emitted?_eq_some.1 hup).1, hstem⟩

/-- A person refers to a class and an enum of the run, whose imports are dropped where all share a
document, to a date and to a class that is not declared, whose imports are kept. -/
theorem aggregate_agrees_with_perType_person :
    let person : TypeDeclaration :=
      { name := "Person", kind := .classKind
        fields := [⟨"address", "Address", false⟩, ⟨"color", "Color", false⟩,
          ⟨"born", "java.time.LocalDate", false⟩, ⟨"pet", "Pet", false⟩] }
    let address : TypeDeclaration :=
      { name := "Address", kind := .classKind, fields := [⟨"street", "String", false⟩] }
    let units : List SourceUnit :=
      [.ofType person, .ofEnum { name := "Color", constants := ["RED"] }, .ofType address]
    let perType := assemble {} (.ofUnits units) units
    let aggregate := assemble { singleFile := true } (.ofUnits units) units
    let personText := "message Person \x7b\n  Address address = 1;\n  Color color = 2;\n" ++
      "  google.type.Date born = 3;\n  Pet pet = 4;\n\x7d\n\n"
    let addressText := "message Address \x7b\n  string street = 1;\n\x7d\n\n"
    let colorText := "enum Color \x7b\n  RED = 0;\n\x7d\n\n"
    let head := "syntax = \"proto3\";\n\n"
    perType.documents = [
        ⟨"Person.proto", head ++ "import \"Address.proto\";\nimport \"Color.proto\";\n" ++
          "import \"Pet.proto\";\nimport \"google/type/date.proto\";\n\n" ++ personText⟩,
        ⟨"Color.proto", head ++ colorText⟩, ⟨"Address.proto", head ++ addressText⟩] ∧
      aggregate.documents = [⟨"schema.proto", head ++ "import \"Pet.proto\";\n" ++
        "import \"google/type/date.proto\";\n\n" ++ personText ++ addressText ++ colorText⟩] ∧
      aggregate.failures = perType.failures ∧ aggregate.caveats = perType.caveats ∧
      ∃ imports : NameSet,
        aggregate.documents = [⟨"schema.proto",
          Document.header none imports ++ (personText ++ addressText) ++ colorText⟩] ∧
        "Address.proto" ∉ imports ∧ "Color.proto" ∉ imports ∧ "Pet.proto" ∈ imports ∧
        "google/type/date.proto" ∈ imports := by
  intro person address units perType aggregate personText addressText colorText head
  obtain ⟨-, hfailures, hcaveats, imports, hmem, hdocuments, -⟩ :=
    aggregate_agrees_with_perType {} (.ofUnits units) units
  let drafts :=
    Assembler.drafts ⟨{}, .ofUnits units, declaredNames units⟩ (emittedDeclarations units)
  have hmessages : String.join ((drafts.filter Draft.isMessage).map Draft.body) =
      personText ++ addressText := by decide +kernel
  have henums : String.join ((drafts.filter (!·.isMessage)).map Draft.body) = colorText := by
    decide +kernel
  rw [hmessages, henums] at hdocuments
  refine ⟨by decide +kernel, by decide +kernel, hfailures, hcaveats, imports, hdocuments, ?_⟩
  simp only [hmem, exists_primary_isStem_iff]
  decide +kernel

end ProtoSchema
