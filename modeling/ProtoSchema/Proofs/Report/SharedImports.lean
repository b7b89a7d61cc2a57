import ProtoSchema.Proofs.Report.Fates

/-!
The imports that are missing from the document that all declarations share. An import of one of its
messages is dropped if the name it stands for is declared in the run, whether or not a message or an
enum has come of the declaration.
-/

namespace ProtoSchema

open Assembler (IsStem isStem_iff nameFate_iff)

/-- An import of a message of the shared document is missing from the header exactly where its name
is declared: the document holds the body of the first declaration that counts, the report lists this
declaration as one that cannot be read, or the name is that of interfaces without enums. -/
theorem dropped_import_iff (config : Config) (pool : EnumPool) (units : List SourceUnit) :
    let a : Assembler := ⟨{ config with singleFile := true }, pool, declaredNames units⟩
    let report := assemble { config with singleFile := true } pool units
    let drafts := a.drafts (emittedDeclarations units)
    ∃ imports : NameSet,
      report.documents =
          [⟨schemaFileName config.projectName,
            Document.header config.effectivePackage imports ++
              String.join ((drafts.filter Draft.isMessage).map Draft.body) ++
              String.join ((drafts.filter (!·.isMessage)).map Draft.body)⟩] ∧
        ∀ plan, .message plan ∈ drafts → ∀ path ∈ plan.imports,
          (path ∉ imports ↔ ∃ n, IsStem n path ∧ NameFate a units report n) := by
  intro a report drafts
  refine ⟨(a.combined units).imports, a.documents_aggregate units, fun plan hplan path hpath => ?_⟩
  have hfate : (∃ n, IsStem n path ∧ NameFate a units report n) ↔
      Assembler.importStem path ∈ declaredNames units := by
    have hname : ∀ n, NameFate a units report n ↔ n ∈ declaredNames units := fun _ => nameFate_iff
    simp only [isStem_iff, hname, exists_eq_left']
  have hcontributed : ∃ d ∈ drafts, path ∈ d.imports := ⟨.message plan, hplan, hpath⟩
  rw [hfate, a.mem_imports_combined units path]
  constructor
  · intro hdropped
    by_contra hexternal
    exact hdropped ⟨hcontributed, hexternal⟩
  · rintro hdeclared ⟨-, hexternal⟩
    exact hexternal hdeclared

/-- A person refers to an address, whose message is in the document and whose import is dropped, and
to a date, whose import is kept. -/
theorem dropped_import_iff_address :
    let person : TypeDeclaration :=
      { name := "Person", kind := .classKind
        fields := [⟨"address", "Address", false⟩, ⟨"born", "LocalDate", false⟩] }
    let address : TypeDeclaration :=
      { name := "Address", kind := .classKind, fields := [⟨"street", "String", false⟩] }
    let units : List SourceUnit := [.ofType person, .ofType address]
    let report := assemble { singleFile := true } (.ofUnits units) units
    let messages := "message Person \x7b\n  Address address = 1;\n  google.type.Date born = 2;\n" ++
      "\x7d\n\nmessage Address \x7b\n  string street = 1;\n\x7d\n\n"
    report.documents = [⟨"schema.proto",
        "syntax = \"proto3\";\n\nimport \"google/type/date.proto\";\n\n" ++ messages⟩] ∧
      ∃ imports : NameSet,
        report.documents = [⟨"schema.proto", Document.header none imports ++ messages⟩] ∧
        "Address.proto" ∉ imports ∧ "google/type/date.proto" ∈ imports := by
  intro person address units report messages
  let a : Assembler := ⟨{ singleFile := true }, .ofUnits units, declaredNames units⟩
  let drafts := a.drafts (emittedDeclarations units)
  obtain ⟨imports, hdocuments, hdropped⟩ := dropped_import_iff {} (.ofUnits units) units
  obtain ⟨d, hd, hmessage, haddress, hdate⟩ : ∃ d ∈ drafts, d.isMessage = true ∧
      "Address.proto" ∈ d.imports ∧ "google/type/date.proto" ∈ d.imports := by decide +kernel
  have hmessages : String.join ((drafts.filter Draft.isMessage).map Draft.body) = messages := by
    decide +kernel
  have henums : String.join ((drafts.filter (!·.isMessage)).map Draft.body) = "" := by
    decide +kernel
  rw [hmessages, henums, String.append_empty] at hdocuments
  have hdeclared : ∀ n, NameFate a units report n ↔ n ∈ ["Person", "Address"] :=
    fun _ => nameFate_iff
  cases d with
  | enum e => cases hmessage
  | message plan =>
      have hstem : IsStem "Address" "Address.proto" := .inl rfl
      refine ⟨by decide +kernel, imports, hdocuments, ?_, ?_⟩
      · exact (hdropped plan hd _ haddress).2 ⟨"Address", hstem, (hdeclared _).2 (by decide)⟩
      · by_contra habsent
        obtain ⟨n, hn, hfate⟩ := (hdropped plan hd _ hdate).1 habsent
        rw [isStem_iff] at hn
        rw [hdeclared, ← hn] at hfate
        exact absurd hfate (by decide +kernel)

/-- An interface without enums and a class that cannot be read are declared, so that their imports
are dropped, although the document defines neither. -/
theorem dropped_imports_of_undefined :
    let units := [
      SourceUnit.ofType { name := "Holder", kind := .classKind, fields :=
        [⟨"named", "Named", false⟩, ⟨"broken", "Broken", false⟩] },
      .ofType { name := "Named", kind := .interfaceKind },
      .ofType { name := "Broken", kind := .classKind, fields := [⟨"items", "List<", false⟩] }]
    let config : Config := { singleFile := true }
    let a : Assembler := ⟨config, .ofUnits units, declaredNames units⟩
    let report := generate ⟨units⟩ config
    report.documents = [⟨"schema.proto", "syntax = \"proto3\";\n\n" ++
        "message Holder \x7b\n  Named named = 1;\n  Broken broken = 2;\n\x7d\n\n"⟩] ∧
      ¬ ∀ d ∈ a.drafts (emittedDeclarations units), ∀ path ∈ d.imports,
        path ∉ (a.combined units).imports →
          ∃ p ∈ emittedDeclarations units, IsStem p.name path ∧ a.Generates report p := by
  intro units config a report
  have himports : ∃ d ∈ a.drafts (emittedDeclarations units), "Named.proto" ∈ d.imports := by
    decide +kernel
  have hdropped : "Named.proto" ∉ (a.combined units).imports := by decide +kernel
  have hstem : Assembler.importStem "Named.proto" = "Named" := by decide +kernel
  have hnames : (emittedDeclarations units).map Primary.name = ["Holder", "Broken"] := by
    decide +kernel
  refine ⟨by decide +kernel, fun h => ?_⟩
  obtain ⟨d, hd, hpath⟩ := himports
  obtain ⟨p, hp, hname, -⟩ := h d hd _ hpath hdropped
  rw [isStem_iff, hstem] at hname
  have hmem : p.name ∈ (emittedDeclarations units).map Primary.name := List.mem_map_of_mem hp
  rw [hnames, ← hname] at hmem
  exact absurd hmem (by decide)

end ProtoSchema
