import ProtoSchema.Proofs.Report.Loops

/-!
When a document imports itself. The enums nested in a declaration are never imported into its own
document, but a name that the pool and the fixed vocabulary leave open is taken for a message in a
file of that name, and this may be the file being written. The aggregate document is spared the
names of the declarations of the run, but not the name of the project.
-/

namespace ProtoSchema

/-- How a name that a declaration refers to leads to the file of a stem. The enums nested in the
declaration lead nowhere. -/
inductive LeadsTo (pool : EnumPool) (t : TypeDeclaration) (n stem : String) : Prop
  | topLevelEnum (e : PooledEnum) (inner : t.nestedEnum? n = none) (found : pool.lookup? n = some e)
      (enclosing : e.declaration.enclosingType = none) (own : e.declaration.name = stem)
  | nestedEnum (e : PooledEnum) (inner : t.nestedEnum? n = none) (found : pool.lookup? n = some e)
      (enclosing : e.declaration.enclosingType = some stem) (other : stem ≠ t.name)
  | wellKnown (w : WellKnown) (inner : t.nestedEnum? n = none) (missing : pool.lookup? n = none)
      (fixed : Category.ofName? n = some (.wellKnown w)) (path : w.importPath = schemaFileName stem)
  | message (inner : t.nestedEnum? n = none) (missing : pool.lookup? n = none)
      (unknown : Category.ofName? n = none) (own : n = stem)

theorem PooledEnum.importFor_eq_some {e : PooledEnum} {t : TypeDeclaration} {stem : String} :
    e.importFor t = some (schemaFileName stem) ↔
      (e.declaration.enclosingType = none ∧ e.declaration.name = stem) ∨
        (e.declaration.enclosingType = some stem ∧ stem ≠ t.name) := by
  rw [PooledEnum.importFor]
  cases e.declaration.enclosingType with
  | none => simp
  | some enclosing =>
      by_cases h : enclosing = t.name
      · subst h
        simp [eq_comm]
      · simp only [h, if_false, Option.some.injEq, schemaFileName_inj, reduceCtorEq, false_and,
          false_or]
        constructor
        · rintro rfl
          exact ⟨rfl, h⟩
        · exact And.left

/-- The names that lead to a file are those whose import it is. -/
theorem importFor_eq_some_schemaFileName {pool : EnumPool} {t : TypeDeclaration} {n stem : String} :
    importFor pool t n = some (schemaFileName stem) ↔ LeadsTo pool t n stem := by
  constructor
  -- The lookups are tried in turn, and each constructor says which one succeeded.
  · intro h
    rw [importFor] at h
    cases inner : t.nestedEnum? n with
    | some e => simp [inner] at h
    | none =>
        rw [inner, Option.isSome_none, if_neg Bool.false_ne_true] at h
        cases found : pool.lookup? n with
        | some e =>
            simp only [found] at h
            obtain ⟨enclosing, own⟩ | ⟨enclosing, other⟩ := PooledEnum.importFor_eq_some.1 h
            · exact .topLevelEnum e inner found enclosing own
            · exact .nestedEnum e inner found enclosing other
        | none =>
            simp only [found] at h
            cases fixed : Category.ofName? n with
            | none => exact .message inner found fixed (by simpa [fixed] using h)
            | some c =>
                cases c with
                | scalar s => simp [fixed] at h
                | calendarPeriod => simp [fixed] at h
                | wellKnown w => exact .wellKnown w inner found fixed (by simpa [fixed] using h)
  · intro h
    cases h with
    | topLevelEnum e inner found enclosing own =>
        simp [importFor, inner, found, PooledEnum.importFor_eq_some, enclosing, own]
    | nestedEnum e inner found enclosing other =>
        simp [importFor, inner, found, PooledEnum.importFor_eq_some, enclosing, other]
    | wellKnown w inner missing fixed path => simp [importFor, inner, missing, fixed, path]
    | message inner missing unknown own =>
        subst own
        simp [importFor, inner, missing, unknown]

/-- Whether a type of the run becomes a message: it emits one, and nothing refuses it. -/
def BecomesMessage (config : Config) (units : List SourceUnit) (t : TypeDeclaration) : Prop :=
  ∃ earlier, (earlier, .type t) ∈ withEarlier (emittedDeclarations units) ∧
    refusal? config.excludeFields earlier (.type t) = none

namespace Assembler

variable {a : Assembler} {earlier : List Primary} {p : Primary} {d : Draft}

theorem exists_outcome_eq_ok (h : refusal? a.config.excludeFields earlier p = none) :
    ∃ d, a.outcome earlier p = .ok d := by
  cases ho : a.outcome earlier p with
  | ok d => exact ⟨d, rfl⟩
  | error cause => simp [outcome_eq_error.1 ho] at h

/-- The imports of a message draft. -/
theorem mem_imports_of_outcome {t : TypeDeclaration} (ho : a.outcome earlier (.type t) = .ok d)
    (path : String) :
    path ∈ d.imports ↔
      ∃ n, t.RefersTo a.config.excludeFields n ∧ importFor a.pool t n = some path := by
  obtain ⟨plan, hplan, rfl⟩ := plan_of_outcome ho
  exact mem_imports_of_plan hplan path

/-- The imports of drafts are those of the names that the messages of the run refer to. -/
theorem exists_draft_import_iff (units : List SourceUnit) (file : String → String) :
    (∃ d ∈ a.drafts (emittedDeclarations units), schemaFileName (file d.name) ∈ d.imports) ↔
      ∃ t n, BecomesMessage a.config units t ∧ t.RefersTo a.config.excludeFields n ∧
        LeadsTo a.pool t n (file t.name) := by
  constructor
  · rintro ⟨d, hd, himport⟩
    obtain ⟨earlier, p, hp, ho⟩ := mem_drafts.1 hd
    cases p with
    | enum e =>
        rw [enum_of_outcome ho] at himport
        exact absurd himport (NameSet.not_mem_empty _)
    | type t =>
        obtain ⟨n, hrefers, himportFor⟩ := (mem_imports_of_outcome ho _).1 himport
        rw [name_of_outcome ho, importFor_eq_some_schemaFileName] at himportFor
        exact ⟨t, n, ⟨earlier, hp, refusal?_of_ok ho⟩, hrefers, himportFor⟩
  · rintro ⟨t, n, ⟨earlier, hp, hfree⟩, hrefers, hleads⟩
    obtain ⟨d, ho⟩ := exists_outcome_eq_ok hfree
    refine ⟨d, mem_drafts.2 ⟨earlier, .type t, hp, ho⟩, ?_⟩
    rw [mem_imports_of_outcome ho, name_of_outcome ho]
    exact ⟨n, hrefers, importFor_eq_some_schemaFileName.2 hleads⟩

end Assembler

/-- A document per declaration imports itself exactly when the fields of its own declaration lead
back to it. The aggregate document imports itself exactly when a message of it leads to a file with
the name of the project, and no declaration of the run has that name. -/
theorem no_own_import_iff (config : Config) (pool : EnumPool) (units : List SourceUnit) :
    let plans := documentPlans config pool units
    (assemble config pool units).documents = plans.map (·.document config.effectivePackage) ∧
      ((∀ p ∈ plans, p.fileName ∉ p.imports) ↔
        match config.mode with
        | .perType => ∀ t n, BecomesMessage config units t → t.RefersTo config.excludeFields n →
            ¬ LeadsTo pool t n t.name
        | .aggregate => config.projectName ∈ declaredNames units ∨
            ∀ t n, BecomesMessage config units t → t.RefersTo config.excludeFields n →
              ¬ LeadsTo pool t n config.projectName) := by
  intro plans
  refine ⟨documents_assemble config pool units, ?_⟩
  let a : Assembler := ⟨config, pool, declaredNames units⟩
  simp only [plans, documentPlans]
  cases config.mode with
  | perType =>
      have hiff := a.exists_draft_import_iff units id
      simp only [List.forall_mem_map]
      constructor
      · intro h t n ht hn hleads
        obtain ⟨d, hd, himport⟩ := hiff.2 ⟨t, n, ht, hn, hleads⟩
        exact h d hd himport
      · intro h d hd himport
        obtain ⟨t, n, ht, hn, hleads⟩ := hiff.1 ⟨d, hd, himport⟩
        exact h t n ht hn hleads
  | aggregate =>
      have hiff := a.exists_draft_import_iff units fun _ => config.projectName
      have hmem := a.mem_imports_combined units (schemaFileName config.projectName)
      rw [Assembler.importStem_schemaFileName] at hmem
      simp only [List.forall_mem_singleton]
      -- Nothing but the filter on declared names keeps an import out.
      constructor
      · intro h
        by_cases hdeclared : config.projectName ∈ declaredNames units
        · exact .inl hdeclared
        · refine .inr fun t n ht hn hleads => h ?_
          exact hmem.2 ⟨hiff.2 ⟨t, n, ht, hn, hleads⟩, hdeclared⟩
      · intro h himport
        obtain ⟨hdraft, hdeclared⟩ := hmem.1 himport
        obtain ⟨t, n, ht, hn, hleads⟩ := hiff.1 hdraft
        exact (h.resolve_left hdeclared) t n ht hn hleads

/-- A class with a field of its own type: its document imports itself. -/
theorem own_import_of_recursive_class :
    let units := [SourceUnit.ofType
      { name := "Node", kind := .classKind, fields := [⟨"next", "Node", false⟩] }]
    (generate ⟨units⟩ {}).documents = [⟨"Node.proto", "syntax = \"proto3\";\n\n" ++
        "import \"Node.proto\";\n\n" ++ "message Node \x7b\n  Node next = 1;\n\x7d\n\n"⟩] ∧
      ¬ ∀ p ∈ documentPlans {} (EnumPool.ofUnits units) units, p.fileName ∉ p.imports := by
  decide +kernel

end ProtoSchema
