import ProtoSchema.Proofs.Report.Drafts

/-!
The two ways of distributing declarations over documents are views of the same drafts and failures.
Each is a loop over the units: an invariant says what it has gathered from the declarations it has
taken, one unit keeps the invariant, and hence so does the run.
-/

namespace ProtoSchema.Assembler

variable {a : Assembler} {ps : List Primary} {p : Primary} {d : Draft} {cause : Cause}

/-- A loop over units keeps what one unit keeps. The units count through their declarations alone.
-/
theorem foldl_after {σ : Type} {step : σ → SourceUnit → σ} (After : σ → List Primary → Prop)
    (hstep : ∀ {st ps}, After st ps → ∀ u, After (step st u) (ps ++ u.emitted?.toList))
    {st : σ} (h : After st ps) (units : List SourceUnit) :
    After (units.foldl step st) (ps ++ emittedDeclarations units) := by
  induction units generalizing st ps with
  | nil => simpa [emittedDeclarations] using h
  | cons u us ih =>
      rw [List.foldl_cons, emittedDeclarations_cons, ← List.append_assoc]
      exact ih (hstep h u)

/-- What both loops have gathered once the declarations `ps` have been taken: their names, the
failures among them and the caveats of the others. -/
structure Gathered (a : Assembler) (ps : List Primary) (claimed : List String)
    (failures : List Failure) (caveats : List Caveat) : Prop where
  mem_claimed : ∀ n, n ∈ claimed ↔ n ∈ ps.map Primary.name
  failures_eq : failures = refusals a.config.excludeFields ps
  caveats_eq : caveats = (a.drafts ps).flatMap Draft.caveats

section

variable {claimed : List String} {failures : List Failure} {caveats : List Caveat}

theorem gathered_nil (a : Assembler) : Gathered a [] [] [] [] := ⟨by simp, rfl, rfl⟩

theorem Gathered.refuse (h : Gathered a ps claimed failures caveats)
    (ho : a.outcome ps p = .error cause) :
    Gathered a (ps ++ [p]) (p.name :: claimed) (failures ++ [⟨p.name, cause⟩]) caveats where
  mem_claimed n := by simp [h.mem_claimed, or_comm]
  failures_eq := by rw [refusals_of_error ho, h.failures_eq]
  caveats_eq := by rw [drafts_of_error ho, h.caveats_eq]

theorem Gathered.accept (h : Gathered a ps claimed failures caveats)
    (ho : a.outcome ps p = .ok d) :
    Gathered a (ps ++ [p]) (p.name :: claimed) failures (caveats ++ d.caveats) where
  mem_claimed n := by simp [h.mem_claimed, or_comm]
  failures_eq := by rw [refusals_of_ok ho, h.failures_eq]
  caveats_eq := by simp [drafts_of_ok ho, h.caveats_eq]

end

section

variable {claimed : List String}

/-- A message is planned as its outcome says. -/
theorem map_claimAndPlan (h : ∀ n, n ∈ claimed ↔ n ∈ ps.map Primary.name) (t : TypeDeclaration) :
    (a.claimAndPlan claimed t).map .message = a.outcome ps (.type t) := by
  by_cases hn : t.name ∈ claimed
  · rw [outcome_of_mem ((h t.name).1 hn)]
    simp [claimAndPlan, hn, Except.map]
  · rw [outcome_of_notMem fun h' => hn ((h t.name).2 h')]
    simp [claimAndPlan, hn, draft]

/-- An enum is refused if its name is claimed, and written otherwise. -/
theorem outcome_enum (h : ∀ n, n ∈ claimed ↔ n ∈ ps.map Primary.name) (e : EnumDeclaration) :
    a.outcome ps (.enum e) =
      if claimed.contains e.name then .error (.duplicateName e.name) else .ok (.enum e) := by
  by_cases hn : e.name ∈ claimed
  · rw [outcome_of_mem ((h e.name).1 hn)]
    simp [hn]
  · rw [outcome_of_notMem fun h' => hn ((h e.name).2 h')]
    simp [hn, draft]

end

/-! ### A document per declaration -/

structure PerTypeState.After (st : PerTypeState) (a : Assembler) (ps : List Primary) : Prop
    extends Gathered a ps st.claimed st.report.failures st.report.caveats where
  documents_eq : st.report.documents =
    (a.drafts ps).map fun d => d.documentPlan.document a.config.effectivePackage

theorem perTypeStep_of_none {u : SourceUnit} (h : u.emitted? = none) (st : PerTypeState) :
    a.perTypeStep st u = st := by
  cases hu : u.primary with
  | none => simp [perTypeStep, hu]
  | some p =>
      obtain ⟨t, rfl, hsilent⟩ := (SourceUnit.emitted?_eq_none.1 h p hu).exists_type
      simp [perTypeStep, hu, hsilent]

/-- Taking one more unit claims the name of its declaration and adds what becomes of that: a
failure, or a document and its caveats. -/
theorem perTypeStep_of_some {st : PerTypeState} {u : SourceUnit}
    (h : ∀ n, n ∈ st.claimed ↔ n ∈ ps.map Primary.name) (hu : u.emitted? = some p) :
    a.perTypeStep st u =
      { claimed := p.name :: st.claimed
        report :=
          match a.outcome ps p with
          | .error cause =>
              { st.report with failures := st.report.failures ++ [⟨p.name, cause⟩] }
          | .ok d =>
              { st.report with
                documents := st.report.documents ++
                  [d.documentPlan.document a.config.effectivePackage]
                caveats := st.report.caveats ++ d.caveats } } := by
  obtain ⟨hp, hemit⟩ := SourceUnit.emitted?_eq_some.1 hu
  rw [perTypeStep, hp]
  cases p with
  | type t =>
      have ho := map_claimAndPlan (a := a) h t
      simp only [t.emitsMessage_eq_isEmitted, hemit, if_true]
      cases hc : a.claimAndPlan st.claimed t with
      | error cause =>
          rw [hc] at ho
          rw [← ho]
          rfl
      | ok plan =>
          rw [hc] at ho
          have hname : plan.declaration.name = t.name := name_of_outcome ho.symm
          rw [← ho]
          simp [Except.map, Draft.documentPlan, DocumentPlan.document, hname]
  | enum e =>
      rw [outcome_enum h]
      by_cases hmem : st.claimed.contains e.name
      · rw [if_pos hmem]
        simp only [hmem, if_true]
        rfl
      · rw [if_neg hmem]
        simp only [hmem]
        -- An enum has no caveats, so the report keeps the caveats it has.
        simp [Draft.documentPlan, DocumentPlan.document]

/-- One unit keeps the invariant. -/
theorem PerTypeState.After.step {st : PerTypeState} (h : st.After a ps) (u : SourceUnit) :
    (a.perTypeStep st u).After a (ps ++ u.emitted?.toList) := by
  cases hu : u.emitted? with
  | none => simpa [perTypeStep_of_none hu] using h
  | some p =>
      rw [Option.toList_some, perTypeStep_of_some h.mem_claimed hu]
      cases ho : a.outcome ps p with
      | error cause =>
          refine ⟨h.refuse ho, ?_⟩
          rw [drafts_of_error ho]
          exact h.documents_eq
      | ok d =>
          refine ⟨h.accept ho, ?_⟩
          simp [drafts_of_ok ho, h.documents_eq]

/-- A per-type run writes a document for each draft of its units, and reports the refusals. -/
theorem perType_after (a : Assembler) (units : List SourceUnit) :
    (units.foldl a.perTypeStep {}).After a (emittedDeclarations units) := by
  have hstart : PerTypeState.After {} a [] := ⟨gathered_nil a, rfl⟩
  exact foldl_after (PerTypeState.After · a ·) (fun h u => h.step u) hstart units

theorem perType_eq (a : Assembler) (units : List SourceUnit) :
    a.perType units =
      { documents := (a.drafts (emittedDeclarations units)).map fun d =>
          d.documentPlan.document a.config.effectivePackage
        failures := refusals a.config.excludeFields (emittedDeclarations units)
        caveats := (a.drafts (emittedDeclarations units)).flatMap Draft.caveats } := by
  have h := perType_after a units
  rw [← h.documents_eq, ← h.failures_eq, ← h.caveats_eq]
  rfl

/-- The documents of a per-type run have the names of its drafts. -/
theorem fileName_perType (a : Assembler) (units : List SourceUnit) :
    (a.perType units).documents.map Document.fileName =
      ((a.drafts (emittedDeclarations units)).map Draft.name).map schemaFileName := by
  rw [perType_eq, List.map_map, List.map_map]
  rfl

/-! ### One document for all declarations -/

/-- Whether an import path stands for the type of a name: it is the file of that type, or the name
itself where it is not the path of a schema file. -/
def IsStem (n path : String) : Prop :=
  path = n ++ ".proto" ∨ path = n ∧ ¬∃ stem, path = stem ++ ".proto"

theorem isStem_iff {n path : String} : IsStem n path ↔ importStem path = n := by
  by_cases hfile : ∃ stem, path = stem ++ ".proto"
  · obtain ⟨stem, rfl⟩ := hfile
    have hstem : importStem (stem ++ ".proto") = stem := importStem_schemaFileName stem
    have hinj : stem ++ ".proto" = n ++ ".proto" ↔ stem = n := schemaFileName_inj
    rw [hstem, IsStem, hinj]
    simp
  · have hsuffix : ".proto".toList.isSuffixOf path.toList = false := by
      rw [← Bool.not_eq_true, List.isSuffixOf_iff_suffix]
      rintro ⟨stem, hpath⟩
      refine hfile ⟨String.ofList stem, String.toList_inj.1 ?_⟩
      rw [String.toList_append, String.toList_ofList, hpath]
    have hstem : importStem path = path := by rw [importStem, hsuffix, if_neg Bool.false_ne_true]
    have hother : path ≠ n ++ ".proto" := fun h => hfile ⟨n, h⟩
    rw [hstem, IsStem, or_iff_right hother, and_iff_left hfile]

theorem exists_primary_isStem_iff {units : List SourceUnit} {path : String} :
    (∃ u ∈ units, ∃ p, u.primary = some p ∧ IsStem p.name path) ↔
      importStem path ∈ declaredNames units := by
  simp only [declaredNames, List.mem_filterMap, SourceUnit.primaryName?, Option.map_eq_some_iff,
    isStem_iff, eq_comm]

structure AggregateState.After (st : AggregateState) (a : Assembler) (ps : List Primary) : Prop
    extends Gathered a ps st.claimed st.failures st.caveats where
  messages_eq : st.messages = String.join (((a.drafts ps).filter Draft.isMessage).map Draft.body)
  enums_eq : st.enums = String.join (((a.drafts ps).filter (!·.isMessage)).map Draft.body)
  mem_imports : ∀ path, path ∈ st.imports ↔ ∃ d ∈ a.drafts ps, path ∈ d.imports

/-- A refusal leaves the parts of the document alone. -/
theorem AggregateState.After.refuse {st : AggregateState} (h : st.After a ps)
    (ho : a.outcome ps p = .error cause) :
    AggregateState.After
      { st with claimed := p.name :: st.claimed, failures := st.failures ++ [⟨p.name, cause⟩] }
      a (ps ++ [p]) := by
  refine ⟨h.toGathered.refuse ho, ?_, ?_, ?_⟩ <;> rw [drafts_of_error ho]
  · exact h.messages_eq
  · exact h.enums_eq
  · exact h.mem_imports

theorem aggregateStep_of_none {u : SourceUnit} (h : u.emitted? = none) (st : AggregateState) :
    a.aggregateStep st u = st := by
  cases hu : u.primary with
  | none => simp [aggregateStep, hu]
  | some p =>
      obtain ⟨t, rfl, hsilent⟩ := (SourceUnit.emitted?_eq_none.1 h p hu).exists_type
      simp [aggregateStep, hu, hsilent]

/-- Taking one more unit claims the name of its declaration and adds what becomes of that. -/
theorem AggregateState.After.step {st : AggregateState} (h : st.After a ps) (u : SourceUnit) :
    (a.aggregateStep st u).After a (ps ++ u.emitted?.toList) := by
  cases hu : u.emitted? with
  | none => simpa [aggregateStep_of_none hu] using h
  | some p =>
      obtain ⟨hp, hemit⟩ := SourceUnit.emitted?_eq_some.1 hu
      rw [Option.toList_some, aggregateStep, hp]
      cases p with
      | type t =>
          have ho := (map_claimAndPlan (a := a) h.mem_claimed t).symm
          simp only [t.emitsMessage_eq_isEmitted, hemit, if_true]
          cases hc : a.claimAndPlan st.claimed t with
          | error cause =>
              rw [hc] at ho
              exact h.refuse ho
          | ok plan =>
              rw [hc] at ho
              refine ⟨h.accept ho, ?_, ?_, ?_⟩ <;> rw [drafts_of_ok ho]
              · simp [h.messages_eq, List.filter_cons]
              · simp [h.enums_eq]
              · intro path
                simp [h.mem_imports, or_and_right, exists_or]
      | enum e =>
          have ho := outcome_enum (a := a) h.mem_claimed e
          by_cases hmem : st.claimed.contains e.name
          · rw [if_pos hmem] at ho
            simp only [hmem, if_true]
            exact h.refuse ho
          · rw [if_neg hmem] at ho
            simp only [hmem]
            have hgathered := h.accept ho
            rw [Draft.caveats_enum, List.append_nil] at hgathered
            refine ⟨hgathered, ?_, ?_, ?_⟩ <;> rw [drafts_of_ok ho]
            · simp [h.messages_eq]
            · simp [h.enums_eq]
            · intro path
              simp [h.mem_imports, or_and_right, exists_or]

/-- An aggregate run joins the messages, the enums and the imports of the drafts of its units. -/
theorem aggregate_after (a : Assembler) (units : List SourceUnit) :
    (a.aggregateState units).After a (emittedDeclarations units) := by
  have hstart : AggregateState.After {} a [] :=
    ⟨gathered_nil a, rfl, rfl, by simp [drafts, withEarlier]⟩
  exact foldl_after (AggregateState.After · a ·) (fun h u => h.step u) hstart units

def combined (a : Assembler) (units : List SourceUnit) : DocumentPlan where
  fileName := schemaFileName a.config.projectName
  imports := a.externalImports (a.aggregateState units).imports
  body := (a.aggregateState units).messages ++ (a.aggregateState units).enums

theorem body_combined (a : Assembler) (units : List SourceUnit) :
    (a.combined units).body =
      String.join (((a.drafts (emittedDeclarations units)).filter Draft.isMessage).map
          Draft.body) ++
        String.join (((a.drafts (emittedDeclarations units)).filter (!·.isMessage)).map
          Draft.body) := by
  have h := aggregate_after a units
  rw [combined, h.messages_eq, h.enums_eq]

/-- The document imports what its drafts import, unless a declaration of the run has the name. -/
theorem mem_imports_combined (a : Assembler) (units : List SourceUnit) (path : String) :
    path ∈ (a.combined units).imports ↔
      (∃ d ∈ a.drafts (emittedDeclarations units), path ∈ d.imports) ∧
        importStem path ∉ a.declared := by
  simp [combined, externalImports, (aggregate_after a units).mem_imports]

theorem aggregate_eq (a : Assembler) (units : List SourceUnit) :
    a.aggregate units =
      { documents := [(a.combined units).document a.config.effectivePackage]
        failures := refusals a.config.excludeFields (emittedDeclarations units)
        caveats := (a.drafts (emittedDeclarations units)).flatMap Draft.caveats } := by
  have h := aggregate_after a units
  rw [← h.failures_eq, ← h.caveats_eq, aggregate, DocumentPlan.document, combined,
    String.append_assoc]

/-- The one document of an aggregate run: messages before enums. -/
theorem document_combined (a : Assembler) (units : List SourceUnit) :
    let drafts := a.drafts (emittedDeclarations units)
    (a.combined units).document a.config.effectivePackage =
      ⟨schemaFileName a.config.projectName,
        Document.header a.config.effectivePackage (a.combined units).imports ++
          String.join ((drafts.filter Draft.isMessage).map Draft.body) ++
          String.join ((drafts.filter (!·.isMessage)).map Draft.body)⟩ := by
  intro drafts
  rw [DocumentPlan.document, body_combined, ← String.append_assoc]
  rfl

theorem documents_aggregate (a : Assembler) (units : List SourceUnit) :
    let drafts := a.drafts (emittedDeclarations units)
    (a.aggregate units).documents =
      [⟨schemaFileName a.config.projectName,
        Document.header a.config.effectivePackage (a.combined units).imports ++
          String.join ((drafts.filter Draft.isMessage).map Draft.body) ++
          String.join ((drafts.filter (!·.isMessage)).map Draft.body)⟩] := by
  intro drafts
  rw [aggregate_eq, document_combined]

end ProtoSchema.Assembler

namespace ProtoSchema

/-! ### Either way -/

def documentPlans (config : Config) (pool : EnumPool) (units : List SourceUnit) :
    List DocumentPlan :=
  let a : Assembler := ⟨config, pool, declaredNames units⟩
  match config.mode with
  | .perType => (a.drafts (emittedDeclarations units)).map Draft.documentPlan
  | .aggregate => [a.combined units]

theorem documents_assemble (config : Config) (pool : EnumPool) (units : List SourceUnit) :
    (assemble config pool units).documents =
      (documentPlans config pool units).map (·.document config.effectivePackage) := by
  rw [assemble, documentPlans]
  cases config.mode with
  | perType => exact (congrArg Report.documents (Assembler.perType_eq _ units)).trans (by simp)
  | aggregate => exact congrArg Report.documents (Assembler.aggregate_eq _ units)

end ProtoSchema
