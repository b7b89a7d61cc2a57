import ProtoSchema.Proofs.Report.Accounting
import ProtoSchema.Proofs.Report.Outlines

/-!
What becomes of the names that are declared in a run. The first message or enum of a name claims it:
the report has what it becomes, or a failure that blames one of its field types. A name that is not
claimed is that of interfaces without enums.
-/

namespace ProtoSchema

def Document.Holds (document : Document) (body : String) : Prop :=
  ∃ before after, document.content = before ++ body ++ after

/-- Whether a report has what a declaration becomes: in a document of its own, or in the document
that all declarations share. -/
def Assembler.Generates (a : Assembler) (r : Report) (p : Primary) : Prop :=
  ∃ d, a.draft p = .ok d ∧
    match a.config.mode with
    | .perType => d.documentPlan.document a.config.effectivePackage ∈ r.documents
    | .aggregate => ∃ document ∈ r.documents, document.Holds d.body

/-- The declaration that claims a name: the first of that name from which a message or a top-level
enum comes. -/
def claimant? (units : List SourceUnit) (n : String) : Option Primary :=
  (emittedDeclarations units).find? (·.name == n)

def OnlyInterfaces (units : List SourceUnit) (n : String) : Prop :=
  ∀ u ∈ units, ∀ p, u.primary = some p → p.name = n → p.IsPlainInterface

inductive NameFate (a : Assembler) (units : List SourceUnit) (r : Report) (n : String) : Prop
  | generated (p : Primary) (claims : claimant? units n = some p) (present : a.Generates r p)
  | malformed (t : TypeDeclaration) (claims : claimant? units n = some (.type t))
      (reported : ∃ declaredType fault, ⟨n, .malformedType declaredType fault⟩ ∈ r.failures)
  | skipped (declared : n ∈ declaredNames units) (interfaces : OnlyInterfaces units n)

section

variable {units : List SourceUnit} {n : String} {p : Primary}

/-! ### Claimed names -/

theorem mem_of_claimant? (h : claimant? units n = some p) : p ∈ emittedDeclarations units :=
  List.mem_of_find?_eq_some h

theorem name_of_claimant? (h : claimant? units n = some p) : p.name = n := by
  simpa using List.find?_some h

theorem mem_declaredNames_of_claimant? (h : claimant? units n = some p) :
    n ∈ declaredNames units := by
  rw [← name_of_claimant? h]
  exact name_mem_declaredNames (mem_of_claimant? h)

/-- No declaration of the name comes before the one that claims it. -/
theorem exists_earlier_of_claimant? (h : claimant? units n = some p) :
    ∃ earlier, (earlier, p) ∈ withEarlier (emittedDeclarations units) ∧
      p.name ∉ earlier.map Primary.name := by
  obtain ⟨-, earlier, later, hsplit, hearlier⟩ := List.find?_eq_some_iff_append.1 h
  refine ⟨earlier, mem_withEarlier.2 ⟨later, hsplit⟩, fun hmem => ?_⟩
  obtain ⟨q, hq, hname⟩ := List.mem_map.1 hmem
  have hother := hearlier q hq
  rw [hname, name_of_claimant? h] at hother
  simp at hother

theorem exists_claimant?_iff : (∃ p, claimant? units n = some p) ↔ n ∈ claimedNames units := by
  rw [← Option.isSome_iff_exists, claimant?, List.find?_isSome, claimedNames, List.mem_map]
  simp

theorem onlyInterfaces_of_notMem (h : n ∉ claimedNames units) : OnlyInterfaces units n := by
  rintro u hu p hp rfl
  rw [← Primary.isEmitted_eq_false_iff, ← Bool.not_eq_true]
  intro hemitted
  have hmem : p ∈ emittedDeclarations units :=
    List.mem_filterMap.2 ⟨u, hu, SourceUnit.emitted?_eq_some.2 ⟨hp, hemitted⟩⟩
  exact h (List.mem_map_of_mem hmem)

end

theorem exists_join_eq_of_mem {s : String} {ss : List String} (h : s ∈ ss) :
    ∃ before after, String.join ss = before ++ s ++ after := by
  obtain ⟨before, after, rfl⟩ := List.append_of_mem h
  refine ⟨String.join before, String.join after, ?_⟩
  rw [String.join_append, String.join_cons, String.append_assoc]

namespace Assembler

def run (a : Assembler) (units : List SourceUnit) : Report :=
  match a.config.mode with
  | .perType => a.perType units
  | .aggregate => a.aggregate units

theorem assemble_eq_run (config : Config) (pool : EnumPool) (units : List SourceUnit) :
    assemble config pool units = run ⟨config, pool, declaredNames units⟩ units := rfl

variable {a : Assembler} {units : List SourceUnit} {earlier : List Primary} {p : Primary}
  {d : Draft} {n : String}

theorem failures_run (a : Assembler) (units : List SourceUnit) :
    (a.run units).failures = refusals a.config.excludeFields (emittedDeclarations units) := by
  rw [run]
  cases a.config.mode with
  | perType => exact congrArg Report.failures (a.perType_eq units)
  | aggregate => exact congrArg Report.failures (a.aggregate_eq units)

theorem caveats_run (a : Assembler) (units : List SourceUnit) :
    (a.run units).caveats = (a.drafts (emittedDeclarations units)).flatMap Draft.caveats := by
  rw [run]
  cases a.config.mode with
  | perType => exact congrArg Report.caveats (a.perType_eq units)
  | aggregate => exact congrArg Report.caveats (a.aggregate_eq units)

/-- The document that all declarations share holds each of the drafts. -/
theorem holds_combined (package : Option String) (hd : d ∈ a.drafts (emittedDeclarations units)) :
    ((a.combined units).document package).Holds d.body := by
  let drafts := a.drafts (emittedDeclarations units)
  let messages := (drafts.filter Draft.isMessage).map Draft.body
  let enums := (drafts.filter (!·.isMessage)).map Draft.body
  have hbody : (a.combined units).body = String.join messages ++ String.join enums :=
    a.body_combined units
  have hmem : d.body ∈ messages ++ enums := by
    simp only [messages, enums, List.mem_append, List.mem_map, List.mem_filter]
    cases h : d.isMessage with
    | true => exact .inl ⟨d, ⟨hd, h⟩, rfl⟩
    | false => exact .inr ⟨d, ⟨hd, by simp [h]⟩, rfl⟩
  obtain ⟨before, after, hjoin⟩ := exists_join_eq_of_mem hmem
  refine ⟨Document.header package (a.combined units).imports ++ before, after, ?_⟩
  rw [DocumentPlan.document, hbody, ← String.join_append, hjoin]
  simp only [String.append_assoc]

theorem generates_of_outcome (hp : (earlier, p) ∈ withEarlier (emittedDeclarations units))
    (ho : a.outcome earlier p = .ok d) : a.Generates (a.run units) p := by
  have hd := mem_drafts.2 ⟨earlier, p, hp, ho⟩
  refine ⟨d, (outcome_eq_ok.1 ho).2, ?_⟩
  rw [run]
  cases a.config.mode with
  | perType =>
      rw [perType_eq]
      exact List.mem_map_of_mem hd
  | aggregate =>
      rw [aggregate_eq]
      exact ⟨_, List.mem_singleton_self _, holds_combined _ hd⟩

/-- The declaration that claims a name is generated if nothing in it is malformed. -/
theorem generates_claimant_iff (h : claimant? units n = some p) :
    a.Generates (a.run units) p ↔ ∃ d, a.draft p = .ok d := by
  constructor
  · rintro ⟨d, hd, -⟩
    exact ⟨d, hd⟩
  · rintro ⟨d, hd⟩
    obtain ⟨earlier, hp, hfirst⟩ := exists_earlier_of_claimant? h
    exact generates_of_outcome hp ((outcome_of_notMem hfirst).trans hd)

theorem mem_failures_run {cause : Cause}
    (hp : (earlier, p) ∈ withEarlier (emittedDeclarations units))
    (ho : a.outcome earlier p = .error cause) : ⟨p.name, cause⟩ ∈ (a.run units).failures := by
  rw [failures_run]
  exact mem_refusals hp ho

/-! ### Fates -/

/-- The declaration that claims a name is generated, or the report says why it cannot be read. -/
theorem nameFate_of_claimant? (h : claimant? units n = some p) :
    NameFate a units (a.run units) n := by
  obtain ⟨earlier, hp, hfirst⟩ := exists_earlier_of_claimant? h
  cases ho : a.outcome earlier p with
  | ok d => exact .generated p h (generates_of_outcome hp ho)
  | error cause =>
      have hrefused := outcome_eq_error.1 ho
      have hfailure := mem_failures_run hp ho
      rw [name_of_claimant? h] at hfailure
      obtain ⟨declaredType, fault, rfl⟩ := malformed_of_refusal? hfirst hrefused
      cases p with
      | type t => exact .malformed t h ⟨declaredType, fault, hfailure⟩
      | enum e => simp [refusal?] at hrefused

/-- The declared names are those with a fate. -/
theorem nameFate_iff : NameFate a units (a.run units) n ↔ n ∈ declaredNames units := by
  constructor
  · intro h
    cases h with
    | generated p claims present => exact mem_declaredNames_of_claimant? claims
    | malformed t claims reported => exact mem_declaredNames_of_claimant? claims
    | skipped declared interfaces => exact declared
  · intro hn
    by_cases hclaimed : n ∈ claimedNames units
    · obtain ⟨p, hp⟩ := exists_claimant?_iff.2 hclaimed
      exact nameFate_of_claimant? hp
    · exact .skipped hn (onlyInterfaces_of_notMem hclaimed)

end Assembler

end ProtoSchema
