import ProtoSchema.Proofs.Report.Fates

/-!
Duplicates. A name is claimed by the first message or enum that has it, and the others are refused.
If the first one can be read, it is generated in favour of them; if not, then there is nothing of
that name.
-/

namespace ProtoSchema

section

variable {excluded : List String} {ps : List Primary} {p : Primary} {n : String}

theorem refusal?_eq_duplicateName :
    refusal? excluded ps p = some (.duplicateName n) ↔ p.name = n ∧ n ∈ ps.map Primary.name := by
  by_cases hn : p.name ∈ ps.map Primary.name
  · simp only [refusal?, hn, if_true, Option.some.injEq, Cause.duplicateName.injEq]
    constructor
    · rintro rfl
      exact ⟨rfl, hn⟩
    · exact And.left
  · constructor
    · intro h
      obtain ⟨declaredType, fault, hcause⟩ := malformed_of_refusal? hn h
      cases hcause
    · rintro ⟨rfl, hmem⟩
      exact absurd hmem hn

theorem refusals_append_singleton :
    refusals excluded (ps ++ [p]) =
      refusals excluded ps ++ ((refusal? excluded ps p).map (Failure.mk p.name)).toList := by
  cases h : refusal? excluded ps p <;> simp [refusals, withEarlier_append_singleton, h]

/-- A name is reported as a duplicate if and only if several declarations have it. -/
theorem exists_duplicate_iff :
    (∃ f ∈ refusals excluded ps, f.cause = .duplicateName n) ↔
      2 ≤ (ps.map Primary.name).count n := by
  -- The last declaration is a duplicate of those before it.
  induction ps using List.reverseRecOn with
  | nil => simp [refusals, withEarlier]
  | append_singleton ps p ih =>
      have hrefused : refusal? excluded ps p = some (.duplicateName n) ↔
          p.name = n ∧ n ∈ ps.map Primary.name := refusal?_eq_duplicateName
      have hlast : (∃ f ∈ ((refusal? excluded ps p).map (Failure.mk p.name)).toList,
          f.cause = .duplicateName n) ↔ p.name = n ∧ n ∈ ps.map Primary.name := by
        rw [← hrefused]
        cases refusal? excluded ps p <;> simp
      simp only [refusals_append_singleton, List.mem_append, or_and_right, exists_or]
      rw [ih, hlast, List.map_append, List.count_append, ← List.one_le_count_iff]
      by_cases hname : p.name = n
      · simp only [hname, true_and, List.map_cons, List.map_nil, List.count_singleton_self]
        omega
      · simp [hname]

end

/-- An enum is never malformed, and a type is not if its schema fields can be read. -/
theorem Assembler.exists_draft_iff {a : Assembler} {p : Primary} :
    (∃ d, a.draft p = .ok d) ↔
      ∀ t, p = .type t → ∀ f ∈ t.keptFields a.config.excludeFields, f.fault? = none := by
  cases p with
  | enum e => simp [draft]
  | type t =>
      simp only [Primary.type.injEq, forall_eq']
      rw [← exists_plan_iff, draft]
      cases a.plan t <;> simp [Except.map]

/-- Where a name is reported as a duplicate, the first declaration of the name is generated if and
only if its schema fields can be read. -/
theorem duplicate_favours_generated_iff (config : Config) (pool : EnumPool)
    (units : List SourceUnit) (n : String) :
    let a : Assembler := ⟨config, pool, declaredNames units⟩
    let report := assemble config pool units
    ((∃ f ∈ report.failures, f.cause = .duplicateName n) →
        ∃ p, claimant? units n = some p ∧ a.Generates report p) ↔
      (2 ≤ (claimedNames units).count n → ∀ t, claimant? units n = some (.type t) →
        ∀ f ∈ t.keptFields config.excludeFields, f.fault? = none) := by
  intro a report
  have hreport : report = a.run units := Assembler.assemble_eq_run config pool units
  rw [hreport, Assembler.failures_run, exists_duplicate_iff]
  refine imp_congr_right fun hcount => ?_
  have hclaimed : n ∈ claimedNames units := List.one_le_count_iff.1 (Nat.le_of_succ_le hcount)
  obtain ⟨p, hp⟩ := exists_claimant?_iff.2 hclaimed
  simp only [hp, Option.some.injEq, exists_eq_left']
  rw [Assembler.generates_claimant_iff hp, Assembler.exists_draft_iff]

/-- The first of two classes of a name cannot be read, and the second is refused in favour of it. -/
theorem duplicate_of_unreadable :
    let units := [
      SourceUnit.ofType { name := "Twice", kind := .classKind, fields :=
        [⟨"items", "List<", false⟩] },
      .ofType { name := "Twice", kind := .classKind, fields := [⟨"name", "String", false⟩] }]
    let a : Assembler := ⟨{}, .ofUnits units, declaredNames units⟩
    let report := generate ⟨units⟩ {}
    report =
        { documents := []
          failures :=
            [⟨"Twice", .malformedType "List<" .unclosed⟩, ⟨"Twice", .duplicateName "Twice"⟩]
          caveats := [] } ∧
      (generate ⟨units⟩ { singleFile := true }).documents =
        [⟨"schema.proto", "syntax = \"proto3\";\n\n"⟩] ∧
      ¬ ∀ n, (∃ f ∈ report.failures, f.cause = .duplicateName n) →
        ∃ p, claimant? units n = some p ∧ a.Generates report p := by
  intro units a report
  have hreport : report =
      { documents := []
        failures := [⟨"Twice", .malformedType "List<" .unclosed⟩, ⟨"Twice", .duplicateName "Twice"⟩]
        caveats := [] } := by decide +kernel
  refine ⟨hreport, by decide +kernel, fun h => ?_⟩
  have hfailure : ∃ f ∈ report.failures, f.cause = .duplicateName "Twice" := by
    rw [hreport]
    decide
  -- In this mode what is generated has a document, and there is none.
  obtain ⟨p, -, d, -, hdocument⟩ := h "Twice" hfailure
  have hmem : d.documentPlan.document none ∈ report.documents := hdocument
  rw [hreport] at hmem
  cases hmem

end ProtoSchema
