import ProtoSchema.Proofs.Report.Loops
import Mathlib.Data.List.Nodup

/-!
Every declaration of a per-type run is accounted for exactly once: it has a document of its own or
is refused, and the declarations before it decide which.
-/

namespace ProtoSchema

/-- A declaration whose name is free is refused for the text of a schema field. -/
theorem malformed_of_refusal? {excluded : List String} {earlier : List Primary} {p : Primary}
    {cause : Cause} (hn : p.name ∉ earlier.map Primary.name)
    (h : refusal? excluded earlier p = some cause) :
    ∃ declaredType fault, cause = .malformedType declaredType fault := by
  simp only [refusal?, hn, if_false] at h
  cases p with
  | type t =>
      obtain ⟨f, -, hf⟩ := List.exists_of_findSome?_eq_some h
      obtain ⟨fault, hfault⟩ := Field.exists_of_fault?_eq_some hf
      exact ⟨f.declaredType, fault, hfault⟩
  | enum e => simp at h

/-- The cause of a refusal is a name that is taken, or the text of a schema field. -/
theorem cause_of_refusal? {excluded : List String} {earlier : List Primary} {p : Primary}
    {cause : Cause} (h : refusal? excluded earlier p = some cause) :
    cause = .duplicateName p.name ∨
      ∃ declaredType fault, cause = .malformedType declaredType fault := by
  by_cases hn : p.name ∈ earlier.map Primary.name
  · simp only [refusal?, hn, if_true, Option.some.injEq] at h
    exact .inl h.symm
  · exact .inr (malformed_of_refusal? hn h)

/-- What is not refused and what is refused make up the whole. -/
theorem length_filter_isNone_add_length_filterMap {α β γ : Type} (f : α → Option β)
    (g : α → β → γ) (xs : List α) :
    (xs.filter fun x => (f x).isNone).length + (xs.filterMap fun x => (f x).map (g x)).length =
      xs.length := by
  induction xs with
  | nil => rfl
  | cons x xs ih =>
      cases h : f x with
      | none =>
          simp only [h, List.filter_cons, Option.isNone_none, if_true, List.filterMap_cons,
            Option.map_none, List.length_cons]
          omega
      | some y =>
          simp only [h, List.filter_cons, Option.isNone_some, Bool.false_eq_true, if_false,
            List.filterMap_cons, Option.map_some, List.length_cons]
          omega

section

variable (config : Config) (pool : EnumPool) (units : List SourceUnit)

/-- The documents of a per-type run are those of the declarations that are not refused. -/
theorem fileName_documents_perType :
    (assemble { config with singleFile := false } pool units).documents.map Document.fileName =
      ((withEarlier (emittedDeclarations units)).filter fun q =>
        (refusal? config.excludeFields q.1 q.2).isNone).map (fun q => schemaFileName q.2.name) := by
  refine (Assembler.fileName_perType _ units).trans ?_
  rw [Assembler.map_name_drafts, List.map_map]
  rfl

theorem failures_perType :
    (assemble { config with singleFile := false } pool units).failures =
      refusals config.excludeFields (emittedDeclarations units) :=
  congrArg Report.failures (Assembler.perType_eq _ units)

theorem nodup_fileName_perType :
    ((assemble { config with singleFile := false } pool units).documents.map
      Document.fileName).Nodup := by
  refine (Assembler.fileName_perType _ units).symm ▸ ?_
  exact (Assembler.nodup_name_drafts _ _).map fun _ _ => schemaFileName_inj.1

end

/-- The documents are those of the declarations that are not refused and the failures are those of
the others, both in the order of the units. Units without a declaration and interfaces without enums
might as well be missing. -/
theorem perType_accounts_for_each (config : Config) (pool : EnumPool) (units : List SourceUnit) :
    let report := assemble { config with singleFile := false } pool units
    let emitted := (units.filterMap SourceUnit.primary).filter Primary.isEmitted
    let declarations := withEarlier emitted
    report.documents.map Document.fileName =
        (declarations.filter fun q => (refusal? config.excludeFields q.1 q.2).isNone).map
          (fun q => schemaFileName q.2.name) ∧
      report.failures =
        declarations.filterMap
          (fun q => (refusal? config.excludeFields q.1 q.2).map (Failure.mk q.2.name)) ∧
      (∀ f ∈ report.failures, f.cause = .duplicateName f.declaration ∨
        ∃ declaredType fault, f.cause = .malformedType declaredType fault) ∧
      report.documents.length + report.failures.length = emitted.length ∧
      (report.documents.map Document.fileName).Nodup ∧
      ∀ before u after, units = before ++ u :: after →
        (∀ p, u.primary = some p → p.IsPlainInterface) →
        let others := assemble { config with singleFile := false } pool (before ++ after)
        report.documents.map Document.fileName = others.documents.map Document.fileName ∧
          report.failures = others.failures := by
  intro report emitted declarations
  have hemitted : emittedDeclarations units = emitted := emittedDeclarations_eq units
  have hnames := fileName_documents_perType config pool units
  have hfailures := failures_perType config pool units
  rw [hemitted] at hnames hfailures
  refine ⟨hnames, hfailures, ?_, ?_, nodup_fileName_perType config pool units, ?_⟩
  · intro f hf
    rw [hfailures] at hf
    obtain ⟨q, -, hq⟩ := List.mem_filterMap.1 hf
    obtain ⟨cause, hcause, rfl⟩ := Option.map_eq_some_iff.1 hq
    exact cause_of_refusal? hcause
  -- Documents and failures are two parts of one list, which has one entry per declaration.
  · have hcount := length_filter_isNone_add_length_filterMap
      (fun q : List Primary × Primary => refusal? config.excludeFields q.1 q.2)
      (fun q => Failure.mk q.2.name) declarations
    have hdocuments : report.documents.length =
        (declarations.filter fun q => (refusal? config.excludeFields q.1 q.2).isNone).length := by
      simpa only [List.length_map] using congrArg List.length hnames
    rw [hdocuments, hfailures, refusals, hcount, length_withEarlier]
  · rintro before u after rfl hu others
    have hsilent : u.emitted? = none := SourceUnit.emitted?_eq_none.2 hu
    have hsame : emitted = emittedDeclarations (before ++ after) := by
      rw [← hemitted]
      simp [emittedDeclarations, hsilent]
    rw [hnames, hfailures, hsame]
    exact ⟨(fileName_documents_perType config pool _).symm, (failures_perType config pool _).symm⟩

/-- An interface without enums leaves its name to the class that follows, and the run to what it is
without it. A second class of the name is refused, and so is a class with a malformed field. -/
theorem perType_accounts_for_each_named :
    let named := SourceUnit.ofType { name := "Named", kind := .interfaceKind }
    let others : List SourceUnit := [
      .ofType { name := "Named", kind := .classKind, fields :=
        [⟨"CACHE", "List<", true⟩, ⟨"id", "long", false⟩] },
      {},
      .ofType { name := "Bag", kind := .classKind, fields :=
        [⟨"id", "long", false⟩, ⟨"items", "List<", false⟩, ⟨"key", "Map<>>", false⟩] },
      .ofType { name := "HasStatus", kind := .interfaceKind, nestedEnums :=
        [⟨"Status", some "HasStatus", ["NEW"]⟩] },
      .ofType { name := "Named", kind := .classKind, fields := [⟨"items", "List<", false⟩] },
      .ofEnum { name := "Color" }]
    let report := assemble {} (.ofUnits others) (named :: others)
    report.documents.map Document.fileName = ["Named.proto", "HasStatus.proto", "Color.proto"] ∧
      report.failures =
        [⟨"Bag", .malformedType "List<" .unclosed⟩, ⟨"Named", .duplicateName "Named"⟩] ∧
      report.documents.length + report.failures.length = 5 ∧
      report.failures = (assemble {} (.ofUnits others) others).failures := by
  intro named others report
  obtain ⟨hnames, hfailures, -, hcount, -, hsilent⟩ :=
    perType_accounts_for_each {} (.ofUnits others) (named :: others)
  have hplain : ∀ p, named.primary = some p → p.IsPlainInterface := by
    rintro p hp
    cases hp
    exact ⟨_, rfl, rfl, rfl⟩
  exact ⟨hnames.trans (by decide +kernel), hfailures.trans (by decide +kernel),
    hcount.trans (by decide +kernel), (hsilent [] named others rfl hplain).2⟩

end ProtoSchema
