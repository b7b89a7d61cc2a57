import ProtoSchema.Proofs.Report.Referents
import ProtoSchema.Proofs.Report.Fates

/-!
What the imports of a document lead to. An enum leads to the declaration that holds it and an
unknown name to the declaration of that name; this declaration has a document, or the report says
why it has none. A name without a declaration is reported as a guess. That leaves interfaces without
enums, which are passed over in silence.
-/

namespace ProtoSchema

def Primary.enums : Primary → List EnumDeclaration
  | .type t => t.nestedEnums
  | .enum e => [e]

/-- What the enums of a declaration are to record as the type they are nested in. -/
def Primary.enclosing? : Primary → Option String
  | .type t => some t.name
  | .enum _ => none

def Report.Defines (r : Report) (package : Option String) : Primary → Prop
  | .type t => ∃ imports fields, Document.mk (schemaFileName t.name)
      (Document.header package imports ++ Document.message t.name fields t.nestedEnums) ∈
        r.documents
  | .enum e => Document.mk (schemaFileName e.name)
      (Document.header package .empty ++ Document.enum e) ∈ r.documents

/-- What an import leads to that the document of `t` has for a name: the file of a well-known type,
that of the declaration that holds an enum, or that of a class or an interface with enums.
Interfaces without enums have no file, and a name that is not declared is reported. Of an enum that
does not record the declaration that holds it nothing is said: that its import goes astray is a
defect. -/
inductive ImportTarget (package : Option String) (units : List SourceUnit) (r : Report)
    (t : TypeDeclaration) (n path : String) : Prop
  | wellKnown (w : WellKnown) (known : Category.ofName? n = some (.wellKnown w))
      (file : path = w.importPath)
  | enum (e : PooledEnum) (p : Primary) (found : (EnumPool.ofUnits units).lookup? n = some e)
      (declared : p ∈ emittedDeclarations units) (held : e.declaration ∈ p.enums)
      (file : path = schemaFileName p.name)
      (outcome : r.Defines package p ∨ ∃ cause, ⟨p.name, cause⟩ ∈ r.failures)
  | message (d : TypeDeclaration) (declared : .type d ∈ emittedDeclarations units)
      (own : d.name = n) (file : path = schemaFileName n)
      (outcome : r.Defines package (.type d) ∨
        ∃ declaredType fault, ⟨n, .malformedType declaredType fault⟩ ∈ r.failures)
  | interface (declared : n ∈ declaredNames units) (file : path = schemaFileName n)
      (skipped : OnlyInterfaces units n)
  | guess (file : path = schemaFileName n)
      (reported : .ambiguousReference n t.name ∈ r.caveats)
  | misplaced (e : PooledEnum) (p : Primary) (found : (EnumPool.ofUnits units).lookup? n = some e)
      (declared : p ∈ emittedDeclarations units) (held : e.declaration ∈ p.enums)
      (unrecorded : e.declaration.enclosingType ≠ p.enclosing?)

section

variable {units : List SourceUnit} {n path : String}

/-! ### The enums of the pool -/

theorem Primary.isEmitted_of_mem_enums {p : Primary} {e : EnumDeclaration} (he : e ∈ p.enums) :
    p.isEmitted = true := by
  cases p with
  | enum e' => rfl
  | type t =>
      have hne : t.nestedEnums ≠ [] := List.ne_nil_of_mem he
      simp [Primary.isEmitted, hne]

theorem exists_holder_of_mem_entries {e : PooledEnum} (he : e ∈ (EnumPool.ofUnits units).entries) :
    ∃ p ∈ emittedDeclarations units, e.declaration ∈ p.enums := by
  obtain ⟨u, hu, hmem⟩ := List.mem_flatMap.1 he
  obtain ⟨d, hd, rfl⟩ := List.mem_map.1 hmem
  have hholder : ∃ p, u.primary = some p ∧ d ∈ p.enums := by
    rw [SourceUnit.enums] at hd
    cases hp : u.primary with
    | none => simp [hp] at hd
    | some p => cases p <;> exact ⟨_, rfl, by simpa [hp, Primary.enums] using hd⟩
  obtain ⟨p, hp, hheld⟩ := hholder
  have hemitted := SourceUnit.emitted?_eq_some.2 ⟨hp, Primary.isEmitted_of_mem_enums hheld⟩
  exact ⟨p, List.mem_filterMap.2 ⟨u, hu, hemitted⟩, hheld⟩

/-- An enum that records where it is nested is imported from the file of its holder. -/
theorem PooledEnum.importFor_of_recorded {e : PooledEnum} {t : TypeDeclaration} {p : Primary}
    (hheld : e.declaration ∈ p.enums) (hrecorded : e.declaration.enclosingType = p.enclosing?)
    (h : e.importFor t = some path) : path = schemaFileName p.name := by
  cases p with
  | type d =>
      have hnested : e.declaration.enclosingType = some d.name := hrecorded
      simp only [PooledEnum.importFor, hnested] at h
      split at h
      · cases h
      · exact (Option.some.inj h).symm
  | enum d =>
      have htop : e.declaration.enclosingType = none := hrecorded
      have hown : e.declaration = d := List.mem_singleton.1 hheld
      simp only [PooledEnum.importFor, htop] at h
      rw [← Option.some.inj h, hown, Primary.name_enum]

/-! ### The declarations of a name -/

theorem exists_type_of_lookup?_eq_none {u : SourceUnit} {p : Primary} (hu : u ∈ units)
    (hp : u.primary = some p) (hmissing : (EnumPool.ofUnits units).lookup? p.name = none) :
    ∃ d, p = .type d := by
  cases p with
  | type d => exact ⟨d, rfl⟩
  | enum e =>
      have hmem : e ∈ u.enums := by simp [SourceUnit.enums, hp]
      have hcontains := contains_name_of_mem_enums hu hmem
      rw [Primary.name_enum, ← contains_eq_false_iff, hcontains] at hmissing
      cases hmissing

end

/-! ### What becomes of a declaration -/

namespace Assembler

variable {a : Assembler} {units : List SourceUnit} {earlier : List Primary} {p : Primary}
  {d : Draft} {t : TypeDeclaration} {n path : String}

theorem defines_of_ok (hp : (earlier, p) ∈ withEarlier (emittedDeclarations units))
    (ho : a.outcome earlier p = .ok d) :
    (a.perType units).Defines a.config.effectivePackage p := by
  have hdraft := mem_drafts.2 ⟨earlier, p, hp, ho⟩
  have hmem : d.documentPlan.document a.config.effectivePackage ∈ (a.perType units).documents := by
    rw [perType_eq]
    exact List.mem_map_of_mem hdraft
  cases p with
  | type t =>
      obtain ⟨plan, hplan, rfl⟩ := plan_of_outcome ho
      obtain ⟨-, -, -, rfl, -⟩ := plan_eq_ok hplan
      exact ⟨plan.imports, plan.fields, hmem⟩
  | enum e =>
      rw [enum_of_outcome ho] at hmem
      exact hmem

theorem mem_failures_of_error {cause : Cause}
    (hp : (earlier, p) ∈ withEarlier (emittedDeclarations units))
    (ho : a.outcome earlier p = .error cause) : ⟨p.name, cause⟩ ∈ (a.perType units).failures := by
  rw [perType_eq]
  exact mem_refusals hp ho

/-- A declaration has its document, or the report says why it has none. -/
theorem defines_or_mem_failures (a : Assembler) (hp : p ∈ emittedDeclarations units) :
    (a.perType units).Defines a.config.effectivePackage p ∨
      ∃ cause, ⟨p.name, cause⟩ ∈ (a.perType units).failures := by
  obtain ⟨earlier, later, hsplit⟩ := List.append_of_mem hp
  have hcut := mem_withEarlier.2 ⟨later, hsplit⟩
  cases ho : a.outcome earlier p with
  | ok d => exact .inl (defines_of_ok hcut ho)
  | error cause => exact .inr ⟨cause, mem_failures_of_error hcut ho⟩

theorem mem_caveats_of_plan {plan : MessagePlan} (h : a.plan t = .ok plan)
    (hn : t.RefersTo a.config.excludeFields n) (hmissing : a.pool.lookup? n = none)
    (hunknown : Category.ofName? n = none) (hdeclared : n ∉ a.declared) :
    .ambiguousReference n t.name ∈ plan.caveats := by
  obtain ⟨types, caveats, hread, -, -, -, hcaveats⟩ := plan_eq_ok h
  have hguessed : n ∈ opaqueNames a.pool types :=
    mem_opaqueNames.2 ⟨(refersTo_iff hread n).1 hn, contains_eq_false_iff.2 hmissing, hunknown⟩
  rw [hcaveats]
  refine List.mem_append_right _ (List.mem_map.2 ⟨n, List.mem_filter.2 ⟨hguessed, ?_⟩, rfl⟩)
  simpa using hdeclared

/-! ### Targets -/

theorem target_of_enum {e : PooledEnum} (hpool : a.pool = .ofUnits units)
    (hfound : a.pool.lookup? n = some e) (himport : e.importFor t = some path) :
    ImportTarget a.config.effectivePackage units (a.perType units) t n path := by
  rw [hpool] at hfound
  obtain ⟨p, hp, hheld⟩ := exists_holder_of_mem_entries (List.mem_of_find?_eq_some hfound)
  by_cases hrecorded : e.declaration.enclosingType = p.enclosing?
  · have hfile := PooledEnum.importFor_of_recorded hheld hrecorded himport
    exact .enum e p hfound hp hheld hfile (a.defines_or_mem_failures hp)
  · exact .misplaced e p hfound hp hheld hrecorded

/-- The first message of a name is refused for its own fields alone. -/
theorem target_of_declared (hmissing : (EnumPool.ofUnits units).lookup? n = none)
    (hdeclared : n ∈ declaredNames units) :
    ImportTarget a.config.effectivePackage units (a.perType units) t n (schemaFileName n) := by
  by_cases hclaimed : n ∈ claimedNames units
  · obtain ⟨p, hclaims⟩ := exists_claimant?_iff.2 hclaimed
    have hp := mem_of_claimant? hclaims
    obtain ⟨earlier, hcut, hfirst⟩ := exists_earlier_of_claimant? hclaims
    obtain rfl := name_of_claimant? hclaims
    obtain ⟨u, hu, hup⟩ := List.mem_filterMap.1 hp
    obtain ⟨d, rfl⟩ :=
      exists_type_of_lookup?_eq_none hu (SourceUnit.emitted?_eq_some.1 hup).1 hmissing
    refine .message d hp rfl rfl ?_
    cases ho : a.outcome earlier (.type d) with
    | ok draft => exact .inl (defines_of_ok hcut ho)
    | error cause =>
        obtain ⟨declaredType, fault, rfl⟩ := malformed_of_refusal? hfirst (outcome_eq_error.1 ho)
        exact .inr ⟨declaredType, fault, mem_failures_of_error hcut ho⟩
  · exact .interface hdeclared rfl (onlyInterfaces_of_notMem hclaimed)

theorem plan_of_mem_drafts {plan : MessagePlan} {ps : List Primary}
    (h : .message plan ∈ a.drafts ps) : a.plan plan.declaration = .ok plan := by
  obtain ⟨earlier, p, -, ho⟩ := mem_drafts.1 h
  cases p with
  | enum e => cases enum_of_outcome ho
  | type t =>
      obtain ⟨plan', hplan, heq⟩ := plan_of_outcome ho
      cases heq
      obtain ⟨-, -, -, rfl, -⟩ := plan_eq_ok hplan
      exact hplan

theorem target_of_unknown {plan : MessagePlan} (hpool : a.pool = .ofUnits units)
    (hdeclared : a.declared = declaredNames units)
    (hplan : .message plan ∈ a.drafts (emittedDeclarations units))
    (hn : plan.declaration.RefersTo a.config.excludeFields n) (hmissing : a.pool.lookup? n = none)
    (hunknown : Category.ofName? n = none) :
    ImportTarget a.config.effectivePackage units (a.perType units) plan.declaration n
      (schemaFileName n) := by
  by_cases hmem : n ∈ declaredNames units
  · rw [hpool] at hmissing
    exact target_of_declared hmissing hmem
  · rw [← hdeclared] at hmem
    have hcaveat := mem_caveats_of_plan (plan_of_mem_drafts hplan) hn hmissing hunknown hmem
    refine .guess rfl ?_
    rw [perType_eq]
    exact List.mem_flatMap.2 ⟨.message plan, hplan, hcaveat⟩

end Assembler

/-- In a document per declaration each import is that of a well-known type, leads to a declaration
that has a document or is reported as a failure or is an interface without enums, or is reported as
a guess. Enums that are not nested where they say are left open. -/
theorem import_targets (config : Config) (units : List SourceUnit) :
    let a : Assembler :=
      ⟨{ config with singleFile := false }, .ofUnits units, declaredNames units⟩
    let report := generate ⟨units⟩ { config with singleFile := false }
    let drafts := a.drafts (emittedDeclarations units)
    report.documents = drafts.map (fun d => d.documentPlan.document config.effectivePackage) ∧
      ∀ plan, .message plan ∈ drafts → ∀ path ∈ plan.imports, ∃ n,
        plan.declaration.RefersTo config.excludeFields n ∧
          importFor (.ofUnits units) plan.declaration n = some path ∧
          ImportTarget config.effectivePackage units report plan.declaration n path := by
  intro a report drafts
  refine ⟨congrArg Report.documents (a.perType_eq units), fun plan hplan path hpath => ?_⟩
  have hplanned := Assembler.plan_of_mem_drafts hplan
  obtain ⟨n, hn, himport⟩ := (Assembler.mem_imports_of_plan hplanned path).1 hpath
  refine ⟨n, hn, himport, ?_⟩
  rw [importFor_eq] at himport
  -- What the name stands for says which kind of target the import has.
  obtain ⟨e, -, hr⟩ | ⟨e, -, hfound, hr⟩ | ⟨c, -, -, hknown, hr⟩ | ⟨-, hmissing, hunknown, hr⟩ :=
    referent_cases (.ofUnits units) plan.declaration n
  · rw [hr] at himport
    cases himport
  · rw [hr] at himport
    exact Assembler.target_of_enum (a := a) rfl hfound himport
  · rw [hr] at himport
    cases c with
    | wellKnown w => exact .wellKnown w hknown (Option.some.inj himport).symm
    | scalar s => cases himport
    | calendarPeriod => cases himport
  · rw [hr] at himport
    obtain rfl := Option.some.inj himport
    exact Assembler.target_of_unknown (a := a) rfl rfl hplan hn hmissing hunknown

/-- An interface without enums and a class that cannot be read: their imports lead to no document,
and no guess is reported, since both are declared. -/
theorem imports_of_declared_without_documents :
    let units := [
      SourceUnit.ofType { name := "Holder", kind := .classKind, fields :=
        [⟨"named", "Named", false⟩, ⟨"broken", "Broken", false⟩] },
      .ofType { name := "Named", kind := .interfaceKind },
      .ofType { name := "Broken", kind := .classKind, fields := [⟨"items", "List<", false⟩] }]
    let a : Assembler := ⟨{}, .ofUnits units, declaredNames units⟩
    let report := generate ⟨units⟩ {}
    report.documents = [⟨"Holder.proto", "syntax = \"proto3\";\n\n" ++
        "import \"Broken.proto\";\nimport \"Named.proto\";\n\n" ++
        "message Holder \x7b\n  Named named = 1;\n  Broken broken = 2;\n\x7d\n\n"⟩] ∧
      report.failures.map Failure.declaration = ["Broken"] ∧ report.caveats = [] ∧
      ¬ ∀ d ∈ a.drafts (emittedDeclarations units), ∀ path ∈ d.imports,
        (∃ w : WellKnown, path = w.importPath) ∨
          (∃ document ∈ report.documents, document.fileName = path) ∨
          ∃ n, path = schemaFileName n ∧ .ambiguousReference n d.name ∈ report.caveats := by
  intro units a report
  have hcaveats : report.caveats = [] := by decide +kernel
  have hnames : report.documents.map Document.fileName = ["Holder.proto"] := by decide +kernel
  have himport : ∃ d ∈ a.drafts (emittedDeclarations units), "Named.proto" ∈ d.imports := by
    decide +kernel
  refine ⟨by decide +kernel, by decide +kernel, hcaveats, fun h => ?_⟩
  obtain ⟨d, hd, hpath⟩ := himport
  obtain ⟨w, hw⟩ | ⟨document, hdocument, hname⟩ | ⟨n, -, hreported⟩ := h d hd _ hpath
  · cases w <;> exact absurd hw (by decide)
  · have hmem := List.mem_map_of_mem (f := Document.fileName) hdocument
    rw [hnames, hname] at hmem
    exact absurd hmem (by decide)
  · rw [hcaveats] at hreported
    cases hreported

end ProtoSchema
