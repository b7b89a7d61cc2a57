import ProtoSchema.Proofs.Report.Agreement

/-!
The names of the files that a run generates. They are named for the declarations that are not
refused, or for the project; no two are alike; and a separator in one of them comes from the name
of a declaration, for settings whose project name has one are refused.
-/

namespace ProtoSchema

def IsFlat (name : String) : Prop := '/' ∉ name.toList ∧ '\\' ∉ name.toList

instance (name : String) : Decidable (IsFlat name) :=
  inferInstanceAs (Decidable (_ ∧ _))

@[simp] theorem isFlat_schemaFileName {stem : String} :
    IsFlat (schemaFileName stem) ↔ IsFlat stem := by
  simp [IsFlat, schemaFileName]

theorem schemaFileName_ne_empty (stem : String) : schemaFileName stem ≠ "" := by
  intro h
  have hlength := congrArg String.length h
  simp [schemaFileName] at hlength

/-- Trimming takes no separators off. -/
@[simp] theorem isFlat_trimmed {name : String} : IsFlat (Text.trimmed name) ↔ IsFlat name := by
  have hink : ∀ c, Text.isBlank c = false → (c ∈ (Text.trimmed name).toList ↔ c ∈ name.toList) := by
    intro c hblank
    rw [Text.trimmed, String.toList_ofList]
    exact ⟨Text.mem_of_mem_trim, fun hc => Text.mem_trim hc hblank⟩
  rw [IsFlat, IsFlat, hink '/' (by decide), hink '\\' (by decide)]

/-- Settings can be used if their project name is not blank and has no separators, and no excluded
field is blank. -/
theorem Config.fault?_eq_none_iff {config : Config} :
    config.fault? = none ↔
      isBlankName config.projectName = false ∧ IsFlat config.projectName ∧
        ∀ n ∈ config.excludeFields, isBlankName n = false := by
  have hflat :
      (Text.trimmed config.projectName).toList.any (fun c => c == '/' || c == '\\') = false ↔
      IsFlat config.projectName := by
    rw [← isFlat_trimmed, IsFlat]
    grind [List.any_eq_false]
  have hexcluded : config.excludeFields.any isBlankName = false ↔
      ∀ n ∈ config.excludeFields, isBlankName n = false := by
    simp
  rw [← hflat, ← hexcluded, fault?, isBlankName]
  grind

/-- Settings that can be used have a project name without separators. -/
theorem isFlat_projectName {config : Config} (h : config.fault? = none) :
    IsFlat config.projectName := (Config.fault?_eq_none_iff.1 h).2.1

section

variable {set : DeclarationSet} {config : Config}

theorem fileNames_of_perType (hmode : config.mode = .perType) :
    (generate set config).documents.map Document.fileName =
      ((draftsOf config set.units).map Draft.name).map schemaFileName := by
  rw [documents_of_perType hmode, List.map_map, List.map_map]
  rfl

theorem fileNames_of_aggregate (hmode : config.mode = .aggregate) :
    (generate set config).documents.map Document.fileName =
      [schemaFileName config.projectName] := by
  rw [documents_of_aggregate hmode]
  rfl

/-- No two documents of a run have the same file. -/
theorem nodup_fileName (set : DeclarationSet) (config : Config) :
    ((generate set config).documents.map Document.fileName).Nodup := by
  cases hmode : config.mode with
  | perType =>
      rw [fileNames_of_perType hmode]
      exact (Assembler.nodup_name_drafts _ _).map fun _ _ => schemaFileName_inj.1
  | aggregate =>
      rw [fileNames_of_aggregate hmode]
      simp

/-- A document is named for the project or for a declaration. -/
theorem exists_stem_of_mem_documents {d : Document} (hd : d ∈ (generate set config).documents) :
    d.fileName = schemaFileName config.projectName ∨
      ∃ n ∈ declaredNames set.units, d.fileName = schemaFileName n := by
  have hname := List.mem_map_of_mem (f := Document.fileName) hd
  cases hmode : config.mode with
  | perType =>
      rw [fileNames_of_perType hmode] at hname
      obtain ⟨n, hn, hname⟩ := List.mem_map.1 hname
      obtain ⟨draft, hdraft, rfl⟩ := List.mem_map.1 hn
      obtain ⟨p, hp, hpname⟩ := List.mem_map.1 (Assembler.name_mem_of_mem_drafts hdraft)
      exact .inr ⟨draft.name, hpname ▸ name_mem_declaredNames hp, hname.symm⟩
  | aggregate =>
      rw [fileNames_of_aggregate hmode] at hname
      exact .inl (List.mem_singleton.1 hname)

theorem fileName_ne_empty {d : Document} (hd : d ∈ (generate set config).documents) :
    d.fileName ≠ "" := by
  rcases exists_stem_of_mem_documents hd with hstem | ⟨n, -, hstem⟩
  · exact hstem ▸ schemaFileName_ne_empty _
  · exact hstem ▸ schemaFileName_ne_empty _

/-- A file has no slash in its name unless a declaration has. -/
theorem slash_notMem_fileName (hconfig : config.fault? = none)
    (hnames : ∀ n ∈ declaredNames set.units, '/' ∉ n.toList) {d : Document}
    (hd : d ∈ (generate set config).documents) : '/' ∉ d.fileName.toList := by
  rcases exists_stem_of_mem_documents hd with hstem | ⟨n, hn, hstem⟩
  · exact hstem ▸ (isFlat_schemaFileName.2 (isFlat_projectName hconfig)).1
  · have hslash := hnames n hn
    simpa [hstem, schemaFileName] using hslash

/-- With settings that can be used, there are separators in the names of the files if and only if a
file of its own is generated for a declaration that has one in its name. -/
theorem isFlat_fileNames_iff (hconfig : config.fault? = none) :
    (∀ d ∈ (generate set config).documents, IsFlat d.fileName) ↔
      (config.mode = .perType → ∀ q ∈ withEarlier (emittedDeclarations set.units),
        refusal? config.excludeFields q.1 q.2 = none → IsFlat q.2.name) := by
  have hnames : (∀ d ∈ (generate set config).documents, IsFlat d.fileName) ↔
      ∀ n ∈ (generate set config).documents.map Document.fileName, IsFlat n :=
    List.forall_mem_map.symm
  rw [hnames]
  cases hmode : config.mode with
  | perType =>
      rw [fileNames_of_perType hmode, draftsOf, Assembler.map_name_drafts, List.map_map]
      simp only [List.forall_mem_map, List.mem_filter, Option.isNone_iff_eq_none,
        Function.comp_apply, isFlat_schemaFileName, forall_const, and_imp]
      rfl
  | aggregate =>
      rw [fileNames_of_aggregate hmode]
      simp [isFlat_projectName hconfig]

end

end ProtoSchema
