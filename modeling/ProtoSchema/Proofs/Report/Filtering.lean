import ProtoSchema.Proofs.Report.Outlines

/-!
Filtered fields leave no trace. Static fields, fields that are excluded by name and the fields of
interfaces might as well be missing: whatever their types are, a run in which they are deleted and
nothing is excluded ends with the same report. The two runs go through the same states, one unit at
a time.
-/

namespace ProtoSchema

namespace TypeDeclaration

def withoutFiltered (excluded : List String) (d : TypeDeclaration) : TypeDeclaration :=
  { d with fields := d.keptFields excluded }

section

variable (excluded : List String) (d : TypeDeclaration)

@[simp] theorem name_withoutFiltered : (d.withoutFiltered excluded).name = d.name := rfl

@[simp] theorem outline_withoutFiltered : (d.withoutFiltered excluded).outline = d.outline := rfl

@[simp] theorem keptFields_withoutFiltered :
    (d.withoutFiltered excluded).keptFields [] = d.keptFields excluded := by
  have hkind : (d.withoutFiltered excluded).kind = d.kind := rfl
  rw [keptFields, keptFields, withoutFiltered, keptFields, List.filter_filter]
  refine List.filter_congr fun f _ => ?_
  rw [filters, filters]
  cases d.kind == .interfaceKind <;> cases f.isStatic <;> simp

end

end TypeDeclaration

def SourceUnit.withoutFiltered (excluded : List String) (u : SourceUnit) : SourceUnit :=
  u.modifyType (TypeDeclaration.withoutFiltered excluded)

def DeclarationSet.withoutFiltered (excluded : List String) (s : DeclarationSet) : DeclarationSet :=
  ⟨s.units.map (SourceUnit.withoutFiltered excluded)⟩

@[simp] theorem SourceUnit.outline_withoutFiltered (excluded : List String) (u : SourceUnit) :
    (u.withoutFiltered excluded).outline = u.outline := by
  rw [withoutFiltered, outline, modifyType_modifyType]
  rfl

def MessagePlan.withoutFiltered (excluded : List String) (p : MessagePlan) : MessagePlan :=
  { p with declaration := p.declaration.withoutFiltered excluded }

@[simp] theorem MessagePlan.render_withoutFiltered (excluded : List String) (p : MessagePlan) :
    (p.withoutFiltered excluded).render = p.render := rfl

namespace Assembler

def includingAll (a : Assembler) : Assembler :=
  { a with config := { a.config with excludeFields := [] } }

variable (a : Assembler)

/-- The same fields are read and the same imports and guesses come of them. -/
theorem plan_withoutFiltered (d : TypeDeclaration) :
    a.includingAll.plan (d.withoutFiltered a.config.excludeFields) =
      (a.plan d).map (MessagePlan.withoutFiltered a.config.excludeFields) := by
  have hfields : (d.withoutFiltered a.config.excludeFields).keptFields
      a.includingAll.config.excludeFields = d.keptFields a.config.excludeFields :=
    d.keptFields_withoutFiltered a.config.excludeFields
  rw [plan, plan, TypeDeclaration.schemaFields_eq_keptFields,
    TypeDeclaration.schemaFields_eq_keptFields, hfields]
  cases readFieldTypes (d.keptFields a.config.excludeFields) <;> rfl

theorem claimAndPlan_withoutFiltered (claimed : List String) (d : TypeDeclaration) :
    a.includingAll.claimAndPlan claimed (d.withoutFiltered a.config.excludeFields) =
      (a.claimAndPlan claimed d).map (MessagePlan.withoutFiltered a.config.excludeFields) := by
  rw [claimAndPlan, claimAndPlan, plan_withoutFiltered, TypeDeclaration.name_withoutFiltered]
  split <;> rfl

theorem perTypeStep_withoutFiltered (st : PerTypeState) (u : SourceUnit) :
    a.includingAll.perTypeStep st (u.withoutFiltered a.config.excludeFields) =
      a.perTypeStep st u := by
  cases h : u.primary with
  | none =>
      rw [SourceUnit.withoutFiltered, SourceUnit.modifyType_of_none h, perTypeStep, perTypeStep, h]
  | some p =>
      cases p with
      | enum e =>
          rw [SourceUnit.withoutFiltered, SourceUnit.modifyType_of_enum h, perTypeStep, perTypeStep,
            h]
          rfl
      | type d =>
          simp only [SourceUnit.withoutFiltered, SourceUnit.modifyType_of_type h, perTypeStep, h,
            claimAndPlan_withoutFiltered]
          cases a.claimAndPlan st.claimed d <;> rfl

theorem aggregateStep_withoutFiltered (st : AggregateState) (u : SourceUnit) :
    a.includingAll.aggregateStep st (u.withoutFiltered a.config.excludeFields) =
      a.aggregateStep st u := by
  cases h : u.primary with
  | none =>
      rw [SourceUnit.withoutFiltered, SourceUnit.modifyType_of_none h, aggregateStep, aggregateStep,
        h]
  | some p =>
      cases p with
      | enum e =>
          rw [SourceUnit.withoutFiltered, SourceUnit.modifyType_of_enum h, aggregateStep,
            aggregateStep, h]
      | type d =>
          simp only [SourceUnit.withoutFiltered, SourceUnit.modifyType_of_type h, aggregateStep, h,
            claimAndPlan_withoutFiltered]
          cases a.claimAndPlan st.claimed d <;> rfl

theorem perType_withoutFiltered (units : List SourceUnit) :
    a.includingAll.perType (units.map (SourceUnit.withoutFiltered a.config.excludeFields)) =
      a.perType units := by
  rw [perType, perType, List.foldl_map]
  simp only [perTypeStep_withoutFiltered]

theorem aggregate_withoutFiltered (units : List SourceUnit) :
    a.includingAll.aggregate (units.map (SourceUnit.withoutFiltered a.config.excludeFields)) =
      a.aggregate units := by
  have hstate : a.includingAll.aggregateState
      (units.map (SourceUnit.withoutFiltered a.config.excludeFields)) = a.aggregateState units := by
    rw [aggregateState, aggregateState, List.foldl_map]
    simp only [aggregateStep_withoutFiltered]
  rw [aggregate, aggregate, hstate]
  rfl

end Assembler

section

variable (excluded : List String)

theorem TypeDeclaration.withoutFiltered_insert {d : TypeDeclaration} {f : Field}
    (h : d.filters excluded f = true) (fs gs : List Field) :
    withoutFiltered excluded { d with fields := fs ++ f :: gs } =
      withoutFiltered excluded { d with fields := fs ++ gs } := by
  have hf : filters { d with fields := fs ++ f :: gs } excluded f = true := h
  rw [withoutFiltered, withoutFiltered, keptFields, keptFields, List.filter_append,
    List.filter_append, List.filter_cons, hf]
  rfl

theorem DeclarationSet.enumPool_withoutFiltered (s : DeclarationSet) :
    (s.withoutFiltered excluded).enumPool = s.enumPool := by
  rw [enumPool, enumPool, ← EnumPool.ofUnits_outline, ← EnumPool.ofUnits_outline s.units,
    withoutFiltered]
  simp [Function.comp_def]

theorem DeclarationSet.declaredNames_withoutFiltered (s : DeclarationSet) :
    declaredNames (s.withoutFiltered excluded).units = declaredNames s.units := by
  rw [← declaredNames_outline, ← declaredNames_outline s.units, withoutFiltered]
  simp [Function.comp_def]

end

theorem generate_withoutFiltered (s : DeclarationSet) (config : Config) :
    generate (s.withoutFiltered config.excludeFields) { config with excludeFields := [] } =
      generate s config := by
  let a : Assembler := ⟨config, s.enumPool, declaredNames s.units⟩
  have hmode : ({ config with excludeFields := [] } : Config).mode = config.mode := rfl
  simp only [generate, assemble, DeclarationSet.enumPool_withoutFiltered,
    DeclarationSet.declaredNames_withoutFiltered, hmode]
  cases config.mode with
  | perType => exact a.perType_withoutFiltered s.units
  | aggregate => exact a.aggregate_withoutFiltered s.units

/-- A run over declarations without their filtered fields, with nothing excluded, ends with the same
report. So does a run with one more filtered field, wherever it stands and whatever its type is. -/
theorem filtered_fields_leave_no_trace (s : DeclarationSet) (config : Config) :
    generate (s.withoutFiltered config.excludeFields) { config with excludeFields := [] } =
        generate s config ∧
      ∀ (before after : List SourceUnit) (u : SourceUnit) (d : TypeDeclaration)
        (fs gs : List Field) (f : Field),
        s.units =
            before ++ { u with primary := some (.type { d with fields := fs ++ gs }) } :: after →
        d.filters config.excludeFields f = true →
        generate ⟨before ++
          { u with primary := some (.type { d with fields := fs ++ f :: gs }) } :: after⟩ config =
            generate s config := by
  refine ⟨generate_withoutFiltered s config, fun before after u d fs gs f hunits hf => ?_⟩
  let more : DeclarationSet :=
    ⟨before ++ { u with primary := some (.type { d with fields := fs ++ f :: gs }) } :: after⟩
  -- Without their filtered fields the two sets are the same.
  have hsame : more.withoutFiltered config.excludeFields =
      s.withoutFiltered config.excludeFields := by
    rw [DeclarationSet.withoutFiltered, DeclarationSet.withoutFiltered, hunits]
    simp [more, SourceUnit.withoutFiltered, SourceUnit.modifyType,
      TypeDeclaration.withoutFiltered_insert config.excludeFields hf]
  calc
    generate more config =
        generate (more.withoutFiltered config.excludeFields) { config with excludeFields := [] } :=
      (generate_withoutFiltered more config).symm
    _ = generate (s.withoutFiltered config.excludeFields) { config with excludeFields := [] } := by
      rw [hsame]
    _ = generate s config := generate_withoutFiltered s config

end ProtoSchema
