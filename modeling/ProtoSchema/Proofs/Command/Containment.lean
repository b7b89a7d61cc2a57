import ProtoSchema.Proofs.Command.Effects
import ProtoSchema.Proofs.Report.FileNames

/-!
Where the documents of a run are written. Whatever goes wrong, a document with a plain name is
written into the output directory itself or not at all. The names are plain but for the separators
in the names of declarations: a project name with a separator is refused, and nobody looks at the
others.
-/

namespace ProtoSchema.Command

/-- Writing documents with plain names changes nothing but their files in the directory itself. -/
theorem place_of_writeDocuments {threshold : Level} {output : String} {ds : List Document}
    (hname : ∀ d ∈ ds, d.fileName ≠ "" ∧ '/' ∉ d.fileName.toList) {s : Session} {q : Place}
    (hq : ((writeDocuments threshold output ds).on s).2.tree.get? q ≠ s.tree.get? q) :
    ∃ d ∈ ds, ∃ p, s.tree.folder output = .ok p ∧ q = d.fileName :: p := by
  induction ds generalizing s with
  | nil => exact absurd rfl hq
  | cons d ds ih =>
      obtain ⟨hne, hslash⟩ := hname d (List.mem_cons_self ..)
      cases hwrite : s.tree.writeFile (Path.join output d.fileName)
        d.content.toByteArray.toList with
      | error fault =>
          rw [on_writeDocuments_of_error hwrite] at hq
          exact absurd rfl hq
      | ok t =>
          obtain ⟨p, hfolder, hkept, hframe⟩ := FileTree.frame_writeFile_join hne hslash hwrite
          obtain ⟨printed, hrest⟩ := @on_writeDocuments_of_ok threshold output d ds s t hwrite
          rw [hrest] at hq
          by_cases hplace : q = d.fileName :: p
          · exact ⟨d, List.mem_cons_self .., p, hfolder, hplace⟩
          · rw [← hframe q hplace] at hq
            obtain ⟨e, he, p', hp', hplace'⟩ :=
              ih (fun e he => hname e (List.mem_cons_of_mem _ he)) hq
            -- The others are written into the same directory, which is still where it was.
            rw [hkept] at hp'
            cases hp'
            exact ⟨e, List.mem_cons_of_mem _ he, p, hfolder, hplace'⟩

/-- With settings that can be used, the names of the files have no separators if and only if no
declaration that has a file of its own has one in its name. In that case nothing is written but
the files of the documents in the output directory itself. -/
theorem documents_inside_iff {config : Config} (hconfig : config.fault? = none)
    (set : DeclarationSet) :
    let documents := (generate set config).documents
    ((∀ d ∈ documents, IsFlat d.fileName) ↔
        (config.mode = .perType → ∀ q ∈ withEarlier (emittedDeclarations set.units),
          refusal? config.excludeFields q.1 q.2 = none → IsFlat q.2.name)) ∧
      ((∀ d ∈ documents, IsFlat d.fileName) → ∀ threshold output s,
        let s' := ((writeDocuments threshold output documents).on s).2
        ∀ q, s'.tree.get? q ≠ s.tree.get? q →
          ∃ d ∈ documents, ∃ p, s.tree.folder output = .ok p ∧ q = d.fileName :: p) := by
  intro documents
  refine ⟨isFlat_fileNames_iff hconfig, fun hflat threshold output s q hq => ?_⟩
  exact place_of_writeDocuments (fun d hd => ⟨fileName_ne_empty hd, (hflat d hd).1⟩) hq

/-- A class and an enum with names of the usual kind are generated into the output directory. -/
theorem documents_inside_iff_order :
    let order : TypeDeclaration := { name := "Order", kind := .classKind }
    let color : EnumDeclaration := { name := "Color", constants := ["RED"] }
    let set : DeclarationSet :=
      ⟨[⟨none, none, some (.type order)⟩, ⟨none, none, some (.enum color)⟩]⟩
    let s : Session := { tree := { entries := [(["out"], .directory)] } }
    let documents := (generate set {}).documents
    (∀ d ∈ documents, IsFlat d.fileName) ∧
      ∀ q, ((writeDocuments .info "out" documents).on s).2.tree.get? q ≠ s.tree.get? q →
        q = ["Order.proto", "out"] ∨ q = ["Color.proto", "out"] := by
  intro order color set s documents
  have hnames : documents.map Document.fileName = ["Order.proto", "Color.proto"] := by
    decide +kernel
  have hdeclared : ∀ q ∈ withEarlier (emittedDeclarations set.units), IsFlat q.2.name := by decide
  have hconfig : ({} : Config).fault? = none := by decide
  obtain ⟨hiff, hinside⟩ := documents_inside_iff hconfig set
  have hflat : ∀ d ∈ documents, IsFlat d.fileName := hiff.2 fun _ q hq _ => hdeclared q hq
  refine ⟨hflat, fun q hq => ?_⟩
  obtain ⟨d, hd, p, hp, rfl⟩ := hinside hflat .info "out" s q hq
  have hout : s.tree.folder "out" = .ok ["out"] := by decide
  rw [hout] at hp
  cases hp
  have hname := List.mem_map_of_mem (f := Document.fileName) hd
  rw [hnames] at hname
  simpa using hname

/-- The document of a class whose name begins with two dots and a slash is written beside the output
directory, and its file is not in it. -/
theorem document_beside_directory :
    let json := "\x7b\"units\":[\x7b\"primary\":\x7b\"declaration\":\"type\"," ++
      "\"name\":\"../Outside\",\"kind\":\"class\"\x7d\x7d]\x7d"
    let outside : TypeDeclaration := { name := "../Outside", kind := .classKind }
    let set : DeclarationSet := ⟨[⟨none, none, some (.type outside)⟩]⟩
    let config : Config := {}
    let s : Session := { tree := { entries := [(["out"], .directory)] } }
    let s' := ((writeDocuments .info "out" (generate set config).documents).on s).2
    DeclarationSet.ofJson json.toByteArray.toList = .ok set ∧ config.fault? = none ∧
      (generate set config).documents.map Document.fileName = ["../Outside.proto"] ∧
      ¬IsFlat "../Outside.proto" ∧ s.tree.folder "out" = .ok ["out"] ∧
      s.tree.get? ["Outside.proto"] = none ∧ (s'.tree.get? ["Outside.proto"]).isSome = true := by
  intro json outside set config s s'
  refine ⟨eq_ok_of_toOption ?_, ?_, ?_, ?_, ?_, ?_, ?_⟩
  all_goals decide +kernel

end ProtoSchema.Command
