import ProtoSchema.Proofs.FieldType.Leaves
import ProtoSchema.Proofs.Report.Accounting
import ProtoSchema.Proofs.Report.Outlines

/-!
Documents of their own are local. The report of a per-type run is put together from what each unit
contributes: nothing, or a document with its caveats, or a failure. What the first message of a name
contributes, its caveats aside, depends on the rest of the run only through the enums that the names
in its fields refer to.
-/

namespace ProtoSchema

def Report.join (rs : List Report) : Report where
  documents := rs.flatMap Report.documents
  failures := rs.flatMap Report.failures
  caveats := rs.flatMap Report.caveats

theorem Report.join_append_singleton (rs : List Report) (r : Report) :
    join (rs ++ [r]) =
      { documents := (join rs).documents ++ r.documents
        failures := (join rs).failures ++ r.failures
        caveats := (join rs).caveats ++ r.caveats } := by
  simp [join]

namespace Assembler

/-- What a unit adds to the report of a per-type run in which it follows others. -/
def contribution (a : Assembler) (earlier : List SourceUnit) (u : SourceUnit) : Report :=
  (a.perTypeStep { claimed := claimedNames earlier } u).report

section

variable {a : Assembler} {earlier : List SourceUnit} {u : SourceUnit} {p : Primary} {d : Draft}
  {cause : Cause}

theorem contribution_of_none (h : u.emitted? = none) : a.contribution earlier u = {} := by
  rw [contribution, perTypeStep_of_none h]

theorem contribution_of_error (hu : u.emitted? = some p)
    (ho : a.outcome (emittedDeclarations earlier) p = .error cause) :
    a.contribution earlier u = { failures := [⟨p.name, cause⟩] } := by
  rw [contribution, perTypeStep_of_some (fun _ => Iff.rfl) hu, ho]
  rfl

theorem contribution_of_ok (hu : u.emitted? = some p)
    (ho : a.outcome (emittedDeclarations earlier) p = .ok d) :
    a.contribution earlier u =
      { documents := [d.documentPlan.document a.config.effectivePackage]
        caveats := d.caveats } := by
  rw [contribution, perTypeStep_of_some (fun _ => Iff.rfl) hu, ho]
  rfl

/-- A unit that fails contributes one failure and nothing else. -/
theorem contribution_eq_failure (h : (a.contribution earlier u).failures ≠ []) :
    ∃ p cause, u.emitted? = some p ∧
      a.contribution earlier u = { failures := [⟨p.name, cause⟩] } := by
  cases hu : u.emitted? with
  | none => simp [contribution_of_none hu] at h
  | some p =>
      cases ho : a.outcome (emittedDeclarations earlier) p with
      | error cause => exact ⟨p, cause, rfl, contribution_of_error hu ho⟩
      | ok d => simp [contribution_of_ok hu ho] at h

end

/-- A per-type run reports what its units contribute, in their order. -/
theorem perType_eq_join (a : Assembler) (units : List SourceUnit) :
    a.perType units = Report.join ((withEarlier units).map fun q => a.contribution q.1 q.2) := by
  -- A unit is judged by those before it, so the list grows at its end.
  induction units using List.reverseRecOn with
  | nil => rfl
  | append_singleton units u ih =>
      have hclaimed := (perType_after a units).mem_claimed
      rw [withEarlier_append_singleton, List.map_append, List.map_singleton,
        Report.join_append_singleton, ← ih, perType, List.foldl_append, List.foldl_cons,
        List.foldl_nil, perType]
      cases hu : u.emitted? with
      | none => simp [perTypeStep_of_none hu, contribution_of_none hu]
      | some p =>
          rw [perTypeStep_of_some hclaimed hu]
          cases ho : a.outcome (emittedDeclarations units) p with
          | error cause => simp [contribution_of_error hu ho]
          | ok d => simp [contribution_of_ok hu ho]

end Assembler

/-! ### A message depends on its leaves -/

/-- Pools in which the leaves have the same origins give the same schema fields. -/
theorem SchemaField.ofFields_congr {pool pool' : EnumPool} (fields : List Field)
    {types : List TypeRef}
    (h : ∀ n ∈ types.flatMap TypeRef.leafNames,
      (pool.lookup? n).map PooledEnum.origin = (pool'.lookup? n).map PooledEnum.origin) :
    ofFields pool (fields.zip types) = ofFields pool' (fields.zip types) := by
  have htypes : ∀ f ∈ fields.zip types, f.2.schemaType pool = f.2.schemaType pool' := by
    rintro ⟨f, r⟩ hf
    refine TypeRef.schemaType_congr r fun n hn => contains_congr (h n ?_)
    exact List.mem_flatMap.2 ⟨r, (List.of_mem_zip hf).2, hn⟩
  rw [ofFields, ofFields, List.mapIdx_eq_mapIdx_iff]
  intro i hi
  rw [htypes _ (List.getElem_mem hi)]

/-- Whether the names that a type refers to stand for the same enums in two pools, as far as a
message can tell. -/
def TypeDeclaration.SeesSameEnums (t : TypeDeclaration) (excluded : List String)
    (pool pool' : EnumPool) : Prop :=
  ∀ n, t.RefersTo excluded n →
    (pool.lookup? n).map PooledEnum.origin = (pool'.lookup? n).map PooledEnum.origin

/-- Assemblers that see the same enums plan the same message, caveats aside. -/
theorem Assembler.plan_congr {a b : Assembler} {t : TypeDeclaration} {plan : MessagePlan}
    (hexcluded : a.config.excludeFields = b.config.excludeFields)
    (hpools : t.SeesSameEnums a.config.excludeFields a.pool b.pool) (hplan : a.plan t = .ok plan) :
    ∃ plan', b.plan t = .ok plan' ∧ plan'.imports = plan.imports ∧ plan'.render = plan.render := by
  obtain ⟨plan', hplan'⟩ : ∃ plan', b.plan t = .ok plan' := by
    rw [exists_plan_iff, ← hexcluded]
    exact exists_plan_iff.1 ⟨plan, hplan⟩
  obtain ⟨types, caveats, hread, hdecl, hfields, himports, -⟩ := plan_eq_ok hplan
  obtain ⟨types', caveats', hread', hdecl', hfields', himports', -⟩ := plan_eq_ok hplan'
  rw [← hexcluded, hread, Except.ok.injEq, Prod.mk.injEq] at hread'
  obtain ⟨rfl, -⟩ := hread'
  have hleaves : ∀ n ∈ types.flatMap TypeRef.leafNames,
      (a.pool.lookup? n).map PooledEnum.origin = (b.pool.lookup? n).map PooledEnum.origin :=
    fun n hn => hpools n ((refersTo_iff hread n).2 hn)
  refine ⟨plan', hplan', ?_, ?_⟩
  · rw [himports, himports', importsFor_congr t hleaves]
  · rw [MessagePlan.render, MessagePlan.render, hdecl, hdecl', hfields, hfields', ← hexcluded,
      SchemaField.ofFields_congr _ hleaves]

/-! ### A type in its surroundings -/

def Assembler.ofUnits (config : Config) (units : List SourceUnit) : Assembler :=
  ⟨config, .ofUnits units, declaredNames units⟩

structure Placement (t : TypeDeclaration) where
  before : List SourceUnit
  unit : SourceUnit
  after : List SourceUnit
  holds : unit.primary = some (.type t)
  emits : (Primary.type t).isEmitted = true
  first : t.name ∉ claimedNames before

namespace Placement

variable {t : TypeDeclaration}

def units (s : Placement t) : List SourceUnit := s.before ++ s.unit :: s.after

def pool (s : Placement t) : EnumPool := .ofUnits s.units

def contribution (s : Placement t) (config : Config) : Report :=
  (Assembler.ofUnits config s.units).contribution s.before s.unit

theorem emitted?_unit (s : Placement t) : s.unit.emitted? = some (.type t) :=
  SourceUnit.emitted?_eq_some.2 ⟨s.holds, s.emits⟩

theorem outcome_eq (s : Placement t) (a : Assembler) :
    a.outcome (emittedDeclarations s.before) (.type t) = (a.plan t).map .message :=
  Assembler.outcome_of_notMem s.first

theorem outcome_of_ok {a : Assembler} {plan : MessagePlan} (s : Placement t)
    (h : a.plan t = .ok plan) :
    a.outcome (emittedDeclarations s.before) (.type t) = .ok (.message plan) := by
  rw [s.outcome_eq, h]
  rfl

theorem contribution_of_error {config : Config} {cause : Cause} (s : Placement t)
    (h : (Assembler.ofUnits config s.units).plan t = .error cause) :
    s.contribution config = { failures := [⟨t.name, cause⟩] } := by
  refine Assembler.contribution_of_error s.emitted?_unit ?_
  rw [s.outcome_eq, h]
  rfl

theorem contribution_of_ok {config : Config} {plan : MessagePlan} (s : Placement t)
    (h : (Assembler.ofUnits config s.units).plan t = .ok plan) :
    s.contribution config =
      { documents :=
          [⟨schemaFileName t.name,
            Document.header config.effectivePackage plan.imports ++ plan.render⟩]
        caveats := plan.caveats } := by
  have ho := s.outcome_of_ok h
  have hname : plan.declaration.name = t.name := Assembler.name_of_outcome ho
  rw [contribution, Assembler.contribution_of_ok s.emitted?_unit ho, Draft.documentPlan,
    Draft.name_message, hname]
  rfl

end Placement

inductive SameOutcome (t : TypeDeclaration) (r r' : Report) : Prop
  | document (content : String) (left : r.documents = [⟨schemaFileName t.name, content⟩])
      (right : r'.documents = [⟨schemaFileName t.name, content⟩]) (leftClear : r.failures = [])
      (rightClear : r'.failures = [])
  | failure (declaredType : String) (fault : TypeFault)
      (left : r = { failures := [⟨t.name, .malformedType declaredType fault⟩] })
      (right : r' = { failures := [⟨t.name, .malformedType declaredType fault⟩] })

/-- What becomes of a type depends on the enums that it sees, and on nothing else around it. -/
theorem Placement.sameOutcome {t : TypeDeclaration} (config : Config) (s s' : Placement t)
    (hpools : t.SeesSameEnums config.excludeFields s.pool s'.pool) :
    SameOutcome t (s.contribution config) (s'.contribution config) := by
  cases hplan : (Assembler.ofUnits config s.units).plan t with
  | error cause =>
      -- The fault is one of the fields, whatever the run.
      have hfault := Assembler.plan_eq_error.1 hplan
      have hplan' : (Assembler.ofUnits config s'.units).plan t = .error cause :=
        Assembler.plan_eq_error.2 hfault
      obtain ⟨f, -, hf⟩ := List.exists_of_findSome?_eq_some hfault
      obtain ⟨fault, rfl⟩ := Field.exists_of_fault?_eq_some hf
      exact .failure f.declaredType fault (s.contribution_of_error hplan)
        (s'.contribution_of_error hplan')
  | ok plan =>
      have hexcluded : (Assembler.ofUnits config s.units).config.excludeFields =
          (Assembler.ofUnits config s'.units).config.excludeFields := rfl
      obtain ⟨plan', hplan', himports, hrender⟩ := Assembler.plan_congr hexcluded hpools hplan
      have hleft := s.contribution_of_ok hplan
      have hright := s'.contribution_of_ok hplan'
      rw [himports, hrender] at hright
      exact .document _ (congrArg Report.documents hleft) (congrArg Report.documents hright)
        (congrArg Report.failures hleft) (congrArg Report.failures hright)

/-! ### Changes elsewhere -/

def SourceUnit.isUnrelatedTo (n : String) (u : SourceUnit) : Bool :=
  match u.primary with
  | some (.type t) => t.nestedEnums.isEmpty && t.name != n
  | _ => false

/-- What the message of a name can depend on in the units around it: the outlines of those that are
related to it. -/
def relatedOutlines (n : String) (units : List SourceUnit) : List SourceUnit :=
  (units.filter (!·.isUnrelatedTo n)).map SourceUnit.outline

section

variable {n : String} {u : SourceUnit}

theorem SourceUnit.enums_of_isUnrelatedTo (h : u.isUnrelatedTo n = true) : u.enums = [] := by
  rw [isUnrelatedTo] at h
  split at h
  · next t hu => simp_all [enums]
  · simp at h

theorem SourceUnit.name_emitted?_of_isUnrelatedTo (h : u.isUnrelatedTo n = true) :
    u.emitted?.map Primary.name ≠ some n := by
  rw [isUnrelatedTo] at h
  split at h
  · next t hu =>
      intro hn
      obtain ⟨p, hp, rfl⟩ := Option.map_eq_some_iff.1 hn
      have hprimary := (emitted?_eq_some.1 hp).1
      rw [hu, Option.some.injEq] at hprimary
      subst hprimary
      simp at h
  · simp at h

theorem EnumPool.ofUnits_relatedOutlines (n : String) (units : List SourceUnit) :
    EnumPool.ofUnits (relatedOutlines n units) = .ofUnits units := by
  rw [relatedOutlines, EnumPool.ofUnits_outline]
  induction units with
  | nil => rfl
  | cons u units ih =>
      cases h : u.isUnrelatedTo n with
      | true => simpa [EnumPool.ofUnits, h, SourceUnit.enums_of_isUnrelatedTo h] using ih
      | false => simpa [EnumPool.ofUnits, h] using ih

theorem mem_claimedNames_relatedOutlines (n : String) (units : List SourceUnit) :
    n ∈ claimedNames (relatedOutlines n units) ↔ n ∈ claimedNames units := by
  rw [relatedOutlines, claimedNames_outline]
  simp only [claimedNames_eq, List.mem_filterMap, List.mem_filter]
  constructor
  · rintro ⟨u, ⟨hu, -⟩, hn⟩
    exact ⟨u, hu, hn⟩
  · rintro ⟨u, hu, hn⟩
    refine ⟨u, ⟨hu, ?_⟩, hn⟩
    cases h : u.isUnrelatedTo n with
    | true => exact absurd hn (SourceUnit.name_emitted?_of_isUnrelatedTo h)
    | false => rfl

end

theorem EnumPool.ofUnits_append (us vs : List SourceUnit) :
    EnumPool.ofUnits (us ++ vs) =
      ⟨(EnumPool.ofUnits us).entries ++ (EnumPool.ofUnits vs).entries⟩ := by
  simp [EnumPool.ofUnits]

theorem EnumPool.ofUnits_cons (u : SourceUnit) (us : List SourceUnit) :
    EnumPool.ofUnits (u :: us) =
      ⟨(EnumPool.ofUnits [u]).entries ++ (EnumPool.ofUnits us).entries⟩ :=
  ofUnits_append [u] us

namespace Placement

variable {t : TypeDeclaration} {before : List SourceUnit}

/-- The type among other units, of which those before it are related to it as those before it are
now. -/
def surroundedBy (s : Placement t)
    (hbefore : relatedOutlines t.name before = relatedOutlines t.name s.before)
    (after : List SourceUnit) : Placement t where
  before := before
  unit := s.unit
  after := after
  holds := s.holds
  emits := s.emits
  first h := s.first <| by
    rw [← mem_claimedNames_relatedOutlines, ← hbefore]
    exact (mem_claimedNames_relatedOutlines t.name before).2 h

theorem pool_surroundedBy {after : List SourceUnit} (s : Placement t)
    (hbefore : relatedOutlines t.name before = relatedOutlines t.name s.before)
    (hafter : relatedOutlines t.name after = relatedOutlines t.name s.after) :
    (s.surroundedBy hbefore after).pool = s.pool := by
  rw [pool, pool, units, units, EnumPool.ofUnits_append, EnumPool.ofUnits_append,
    EnumPool.ofUnits_cons, EnumPool.ofUnits_cons s.unit,
    ← EnumPool.ofUnits_relatedOutlines t.name s.before, ← hbefore,
    ← EnumPool.ofUnits_relatedOutlines t.name s.after, ← hafter,
    EnumPool.ofUnits_relatedOutlines, EnumPool.ofUnits_relatedOutlines]
  rfl

end Placement

/-- A per-type run reports what its units contribute, one after another, and a unit that fails
contributes that failure alone. What the first message of a name contributes is decided by the enums
that its fields refer to; it stays the same when the fields of other types change, and when types
without enums and with other names come or go. -/
theorem contributions_are_local (config : Config) :
    let config : Config := { config with singleFile := false }
    (∀ units : List SourceUnit,
        let a := Assembler.ofUnits config units
        let contributions := (withEarlier units).map fun q => a.contribution q.1 q.2
        generate ⟨units⟩ config = Report.join contributions ∧
          ∀ r ∈ contributions, r.failures ≠ [] → ∃ f, r = { failures := [f] }) ∧
      ∀ (t : TypeDeclaration) (s : Placement t),
        (∀ s' : Placement t, t.SeesSameEnums config.excludeFields s.pool s'.pool →
            SameOutcome t (s.contribution config) (s'.contribution config)) ∧
          ∀ before after
            (hbefore : relatedOutlines t.name before = relatedOutlines t.name s.before),
            relatedOutlines t.name after = relatedOutlines t.name s.after →
              SameOutcome t (s.contribution config)
                ((s.surroundedBy hbefore after).contribution config) := by
  intro config
  refine ⟨fun units => ⟨Assembler.perType_eq_join _ units, ?_⟩, fun t s => ⟨?_, ?_⟩⟩
  · intro r hr hfailures
    obtain ⟨q, -, rfl⟩ := List.mem_map.1 hr
    obtain ⟨p, cause, -, h⟩ := Assembler.contribution_eq_failure hfailures
    exact ⟨⟨p.name, cause⟩, h⟩
  · exact s.sameOutcome config
  · intro before after hbefore hafter
    refine s.sameOutcome config _ fun n _ => ?_
    rw [Placement.pool_surroundedBy s hbefore hafter]

/-- The message of an order, which refers to an enum and to a class, stays the same when an enum
that it does not refer to joins the run, when the class cannot be read, and when another class
joins. -/
theorem order_is_local :
    let order : TypeDeclaration :=
      { name := "Order", kind := .classKind
        fields := [⟨"state", "State", false⟩, ⟨"note", "Note", false⟩] }
    let state : SourceUnit := .ofEnum { name := "State", constants := ["OPEN"] }
    let color : SourceUnit := .ofEnum { name := "Color", constants := ["RED"] }
    let note (type : String) : SourceUnit :=
      .ofType { name := "Note", kind := .classKind, fields := [⟨"text", type, false⟩] }
    let item : SourceUnit := .ofType { name := "Item", kind := .classKind }
    let s : Placement order := ⟨[note "String"], .ofType order, [state], rfl, rfl, by decide⟩
    let colored : Placement order := ⟨[color], .ofType order, [state], rfl, rfl, by decide⟩
    let broken : Assembler := .ofUnits {} [note "List<"]
    (∃ f, broken.contribution [] (note "List<") = { failures := [f] }) ∧
      SameOutcome order (s.contribution {}) (colored.contribution {}) ∧
      ∃ hbefore : relatedOutlines "Order" [note "List<", item] = relatedOutlines "Order" s.before,
        SameOutcome order (s.contribution {})
          ((s.surroundedBy hbefore [item, state]).contribution {}) := by
  intro order state color note item s colored broken
  have hleaves : (readFieldTypes (order.keptFields [])).map
      (fun r => r.1.flatMap TypeRef.leafNames) = .ok ["State", "Note"] := by decide +kernel
  have hsees : order.SeesSameEnums [] s.pool colored.pool := by
    intro n hn
    cases hread : readFieldTypes (order.keptFields []) with
    | error cause => simp [hread, Except.map] at hleaves
    | ok r =>
        simp only [hread, Except.map, Except.ok.injEq] at hleaves
        rw [refersTo_iff hread, hleaves, List.mem_pair] at hn
        rcases hn with rfl | rfl <;> decide +kernel
  obtain ⟨hjoin, hlocal⟩ := contributions_are_local {}
  obtain ⟨hsees', hsurrounded⟩ := hlocal order s
  refine ⟨(hjoin [note "List<"]).2 _ (List.mem_singleton_self _) ?_, hsees' colored hsees, ?_, ?_⟩
  · decide +kernel
  · decide +kernel
  · exact hsurrounded _ _ _ (by decide +kernel)

end ProtoSchema
