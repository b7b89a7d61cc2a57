import ProtoSchema.Report
import ProtoSchema.Proofs.Declaration.Emission

/-!
When the message of a declaration can be planned, and what the plan takes from the declaration. The
types of the schema fields are read up to the first fault; if there is none, the imports of the
message are those of the names that its fields refer to.
-/

namespace ProtoSchema

def Field.fault? (f : Field) : Option Cause :=
  match TypeRef.read f.declaredType with
  | .error cause => some cause
  | .ok _ => none

/-- A field that cannot be read is blamed for its own type text. -/
theorem Field.exists_of_fault?_eq_some {f : Field} {cause : Cause} (h : f.fault? = some cause) :
    ∃ fault, cause = .malformedType f.declaredType fault := by
  rw [Field.fault?] at h
  cases hr : TypeRef.readSegment (Text.trim f.declaredType.toList) with
  | error fault =>
      rw [TypeRef.read_of_error hr] at h
      exact ⟨fault, (Option.some.inj h).symm⟩
  | ok r => simp [TypeRef.read_of_ok hr] at h

/-- Reading fields fails with the fault of the first field that has one. -/
theorem readFieldTypes_eq_error {fields : List Field} {cause : Cause} :
    readFieldTypes fields = .error cause ↔ fields.findSome? Field.fault? = some cause := by
  induction fields with
  | nil => simp [readFieldTypes]
  | cons f fs ih =>
      rw [readFieldTypes, List.findSome?_cons, Field.fault?]
      cases TypeRef.read f.declaredType with
      | error c => simp
      | ok r =>
          rw [← ih]
          cases readFieldTypes fs <;> simp

/-- Reading fields gives the type of each of them, in their order. -/
theorem readFieldTypes_eq_ok {fields : List Field} {types : List TypeRef} {caveats : List Caveat}
    (h : readFieldTypes fields = .ok (types, caveats)) :
    ∃ readings : List TypeRef.Reading,
      fields.map (fun f => TypeRef.read f.declaredType) = readings.map .ok ∧
        types = readings.map TypeRef.Reading.ref ∧
        caveats = readings.flatMap TypeRef.Reading.caveats := by
  induction fields generalizing types caveats with
  | nil =>
      simp only [readFieldTypes, Except.ok.injEq, Prod.mk.injEq] at h
      exact ⟨[], rfl, h.1.symm, h.2.symm⟩
  | cons f fs ih =>
      rw [readFieldTypes] at h
      cases hr : TypeRef.read f.declaredType with
      | error c => simp [hr] at h
      | ok r =>
          cases hfs : readFieldTypes fs with
          | error c => simp [hr, hfs] at h
          | ok rest =>
              obtain ⟨readings, hmap, htypes, hcaveats⟩ := ih hfs
              simp only [hr, hfs, Except.ok.injEq, Prod.mk.injEq] at h
              refine ⟨r :: readings, by simp [hr, hmap], ?_, ?_⟩
              · rw [← h.1, htypes, List.map_cons]
              · rw [← h.2, hcaveats, List.flatMap_cons]

/-- Fields that can be read one by one can be read together. -/
theorem readFieldTypes_of_readings {fields : List Field} {readings : List TypeRef.Reading}
    (h : fields.map (fun f => TypeRef.read f.declaredType) = readings.map .ok) :
    readFieldTypes fields =
      .ok (readings.map TypeRef.Reading.ref, readings.flatMap TypeRef.Reading.caveats) := by
  induction fields generalizing readings with
  | nil =>
      rw [List.map_nil, eq_comm, List.map_eq_nil_iff] at h
      rw [h]
      rfl
  | cons f fs ih =>
      rw [List.map_cons, eq_comm, List.map_eq_cons_iff] at h
      obtain ⟨r, rs, rfl, hr, hrs⟩ := h
      rw [readFieldTypes, ← hr, ih hrs.symm]
      rfl

section

variable {fields more : List Field} {types types' : List TypeRef} {caveats caveats' : List Caveat}

theorem length_of_readFieldTypes (h : readFieldTypes fields = .ok (types, caveats)) :
    types.length = fields.length := by
  obtain ⟨readings, hmap, rfl, -⟩ := readFieldTypes_eq_ok h
  simpa using (congrArg List.length hmap).symm

/-- The type of each field is the one that it is read as. -/
theorem exists_read_of_readFieldTypes (h : readFieldTypes fields = .ok (types, caveats)) {k : Nat}
    {f : Field} (hf : fields[k]? = some f) :
    ∃ r, TypeRef.read f.declaredType = .ok r ∧ types[k]? = some r.ref := by
  obtain ⟨readings, hmap, rfl, -⟩ := readFieldTypes_eq_ok h
  have hk := congrArg (·[k]?) hmap
  simp only [List.getElem?_map, hf, Option.map_some] at hk
  obtain ⟨r, hr, hread⟩ := Option.map_eq_some_iff.1 hk.symm
  exact ⟨r, hread.symm, by rw [List.getElem?_map, hr, Option.map_some]⟩

theorem readFieldTypes_append (h : readFieldTypes fields = .ok (types, caveats))
    (h' : readFieldTypes more = .ok (types', caveats')) :
    readFieldTypes (fields ++ more) = .ok (types ++ types', caveats ++ caveats') := by
  induction fields generalizing types caveats with
  | nil =>
      cases h
      simpa using h'
  | cons f fs ih =>
      rw [readFieldTypes] at h
      cases hr : TypeRef.read f.declaredType with
      | error cause => simp [hr] at h
      | ok r =>
          cases hfs : readFieldTypes fs with
          | error cause => simp [hr, hfs] at h
          | ok rest =>
              simp only [hr, hfs, Except.ok.injEq, Prod.mk.injEq] at h
              obtain ⟨rfl, rfl⟩ := h
              simp [readFieldTypes, hr, ih hfs]

theorem exists_readFieldTypes (h : ∀ f ∈ fields, f.fault? = none) :
    ∃ types caveats, readFieldTypes fields = .ok (types, caveats) := by
  cases hread : readFieldTypes fields with
  | error cause =>
      obtain ⟨f, hf, hfault⟩ :=
        List.exists_of_findSome?_eq_some (readFieldTypes_eq_error.1 hread)
      simp [h f hf] at hfault
  | ok r => exact ⟨r.1, r.2, rfl⟩

end

/-- Whether a declaration refers to a name: the name is a leaf of the type of a schema field. -/
def TypeDeclaration.RefersTo (d : TypeDeclaration) (excluded : List String) (n : String) : Prop :=
  ∃ f ∈ d.keptFields excluded, ∃ r, TypeRef.read f.declaredType = .ok r ∧ n ∈ r.ref.leafNames

theorem refersTo_iff {d : TypeDeclaration} {excluded : List String} {types : List TypeRef}
    {caveats : List Caveat} (h : readFieldTypes (d.keptFields excluded) = .ok (types, caveats))
    (n : String) : d.RefersTo excluded n ↔ n ∈ types.flatMap TypeRef.leafNames := by
  obtain ⟨readings, hmap, rfl, -⟩ := readFieldTypes_eq_ok h
  simp only [List.mem_flatMap, List.mem_map]
  constructor
  -- Either way the reading of the field has to be found among the readings of all fields.
  · rintro ⟨f, hf, r, hr, hn⟩
    have hmem : Except.ok r ∈ readings.map (Except.ok (ε := Cause)) := by
      rw [← hmap, ← hr]
      exact List.mem_map_of_mem hf
    obtain ⟨r', hr', heq⟩ := List.mem_map.1 hmem
    cases heq
    exact ⟨r.ref, ⟨r, hr', rfl⟩, hn⟩
  · rintro ⟨_, ⟨r, hr, rfl⟩, hn⟩
    have hmem : Except.ok r ∈ (d.keptFields excluded).map fun f => TypeRef.read f.declaredType := by
      rw [hmap]
      exact List.mem_map_of_mem hr
    obtain ⟨f, hf, hread⟩ := List.mem_map.1 hmem
    exact ⟨f, hf, r, hread, hn⟩

theorem refersTo_iff_of_leafNames {d : TypeDeclaration} {excluded names : List String}
    (h : (readFieldTypes (d.keptFields excluded)).map (·.1.flatMap TypeRef.leafNames) = .ok names)
    (n : String) : d.RefersTo excluded n ↔ n ∈ names := by
  cases hread : readFieldTypes (d.keptFields excluded) with
  | error cause => simp [hread, Except.map] at h
  | ok r =>
      rw [hread] at h
      have hnames : r.1.flatMap TypeRef.leafNames = names := Except.ok.inj h
      rw [refersTo_iff hread, hnames]

namespace Assembler

variable {a : Assembler} {d : TypeDeclaration}

/-- Planning fails with the fault of the first schema field that has one. -/
theorem plan_eq_error {cause : Cause} :
    a.plan d = .error cause ↔
      (d.keptFields a.config.excludeFields).findSome? Field.fault? = some cause := by
  rw [← readFieldTypes_eq_error, plan, d.schemaFields_eq_keptFields]
  cases readFieldTypes (d.keptFields a.config.excludeFields) <;> simp

/-- A message can be planned if and only if each schema field can be read. -/
theorem exists_plan_iff :
    (∃ p, a.plan d = .ok p) ↔
      ∀ f ∈ d.keptFields a.config.excludeFields, f.fault? = none := by
  rw [← List.findSome?_eq_none_iff]
  cases h : a.plan d with
  | error cause => simp [plan_eq_error.1 h]
  | ok p =>
      cases hfault : (d.keptFields a.config.excludeFields).findSome? Field.fault? with
      | none => simp
      | some cause => simp [plan_eq_error.2 hfault] at h

theorem exists_plan_of_read {types : List TypeRef} {caveats : List Caveat}
    (h : readFieldTypes (d.keptFields a.config.excludeFields) = .ok (types, caveats)) :
    ∃ plan, a.plan d = .ok plan ∧ plan.declaration = d ∧
      plan.fields =
        SchemaField.ofFields a.pool ((d.keptFields a.config.excludeFields).zip types) := by
  rw [plan, d.schemaFields_eq_keptFields, h]
  exact ⟨_, rfl, rfl, rfl⟩

/-- What a plan takes from the declaration it is for. -/
theorem plan_eq_ok {p : MessagePlan} (h : a.plan d = .ok p) :
    ∃ types caveats, readFieldTypes (d.keptFields a.config.excludeFields) = .ok (types, caveats) ∧
      p.declaration = d ∧
      p.fields = SchemaField.ofFields a.pool ((d.keptFields a.config.excludeFields).zip types) ∧
      p.imports = importsFor a.pool d types ∧
      p.caveats = caveats ++ ((opaqueNames a.pool types).toList.filter
        (!a.declared.contains ·)).map (.ambiguousReference · d.name) := by
  rw [plan, d.schemaFields_eq_keptFields] at h
  cases hread : readFieldTypes (d.keptFields a.config.excludeFields) with
  | error c => simp [hread] at h
  | ok r =>
      simp only [hread, Except.ok.injEq] at h
      subst h
      exact ⟨r.1, r.2, rfl, rfl, rfl, rfl, rfl⟩

/-- The imports of a plan are those of the names that its declaration refers to. -/
theorem mem_imports_of_plan {p : MessagePlan} (h : a.plan d = .ok p) (path : String) :
    path ∈ p.imports ↔
      ∃ n, d.RefersTo a.config.excludeFields n ∧ importFor a.pool d n = some path := by
  obtain ⟨types, caveats, hread, -, -, himports, -⟩ := plan_eq_ok h
  rw [himports, importsFor, NameSet.mem_ofList, List.mem_filterMap]
  simp only [refersTo_iff hread]

end Assembler

end ProtoSchema
