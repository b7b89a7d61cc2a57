import ProtoSchema.Proofs.Report.Plan

/-!
What the names in field types stand for. Imports, schema types and the guesses at messages each look
a name up in their own way: imports ask for the enums nested in the declaration first, the others do
not ask for them at all. They agree on a name unless it is one of these enums by a name that the
pool does not know it by.
-/

namespace ProtoSchema

inductive Referent where
  | ownEnum (e : EnumDeclaration)
  | enum (e : PooledEnum)
  | known (c : Category)
  | message

/-- The lookups that imports make, in their order. -/
def referent (pool : EnumPool) (t : TypeDeclaration) (n : String) : Referent :=
  match t.nestedEnum? n with
  | some e => .ownEnum e
  | none =>
      match pool.lookup? n with
      | some e => .enum e
      | none =>
          match Category.ofName? n with
          | some c => .known c
          | none => .message

def Referent.import? (t : TypeDeclaration) (n : String) : Referent → Option String
  | ownEnum _ => none
  | enum e => e.importFor t
  | known (.wellKnown w) => some w.importPath
  | known _ => none
  | message => some (schemaFileName n)

section

variable {pool : EnumPool} {t : TypeDeclaration} {n : String}

theorem importFor_eq : importFor pool t n = (referent pool t n).import? t n := by
  rw [importFor, referent]
  cases t.nestedEnum? n with
  | some e => rfl
  | none =>
      cases pool.lookup? n with
      | some e => rfl
      | none =>
          cases Category.ofName? n with
          | none => rfl
          | some c => cases c <;> rfl

theorem referent_eq_ownEnum {e : EnumDeclaration} (h : t.nestedEnum? n = some e) :
    referent pool t n = .ownEnum e := by
  rw [referent, h]

theorem referent_eq_known {c : Category} (hinner : t.nestedEnum? n = none)
    (hmissing : pool.lookup? n = none) (hc : Category.ofName? n = some c) :
    referent pool t n = .known c := by
  rw [referent, hinner, hmissing, hc]

/-- Everything that the lookups can find. -/
theorem referent_cases (pool : EnumPool) (t : TypeDeclaration) (n : String) :
    (∃ e, t.nestedEnum? n = some e ∧ referent pool t n = .ownEnum e) ∨
      (∃ e, t.nestedEnum? n = none ∧ pool.lookup? n = some e ∧ referent pool t n = .enum e) ∨
      (∃ c, t.nestedEnum? n = none ∧ pool.lookup? n = none ∧ Category.ofName? n = some c ∧
        referent pool t n = .known c) ∨
      (t.nestedEnum? n = none ∧ pool.lookup? n = none ∧ Category.ofName? n = none ∧
        referent pool t n = .message) := by
  rw [referent]
  cases hinner : t.nestedEnum? n with
  | some e => exact .inl ⟨e, rfl, rfl⟩
  | none =>
      cases hfound : pool.lookup? n with
      | some e => exact .inr (.inl ⟨e, rfl, rfl, rfl⟩)
      | none =>
          cases hc : Category.ofName? n with
          | some c => exact .inr (.inr (.inl ⟨c, rfl, rfl, rfl, rfl⟩))
          | none => exact .inr (.inr (.inr ⟨rfl, rfl, rfl, rfl⟩))

theorem referent_eq_message_iff :
    referent pool t n = .message ↔
      t.nestedEnum? n = none ∧ pool.lookup? n = none ∧ Category.ofName? n = none := by
  constructor
  · intro h
    obtain ⟨e, -, hr⟩ | ⟨e, -, -, hr⟩ | ⟨c, -, -, -, hr⟩ | ⟨hinner, hmissing, hunknown, -⟩ :=
      referent_cases pool t n
    · simp [hr] at h
    · simp [hr] at h
    · simp [hr] at h
    · exact ⟨hinner, hmissing, hunknown⟩
  · rintro ⟨hinner, hmissing, hunknown⟩
    rw [referent, hinner, hmissing, hunknown]

/-! ### Schema types and guesses -/

theorem contains_eq_false_iff : pool.contains n = false ↔ pool.lookup? n = none := by
  rw [EnumPool.contains, Option.isSome_eq_false_iff, Option.isNone_iff_eq_none]

theorem leafSchemaType_of_contains (h : pool.contains n = true) :
    TypeRef.leafSchemaType pool n = n := if_pos h

theorem leafSchemaType_of_unknown (hunknown : Category.ofName? n = none) :
    TypeRef.leafSchemaType pool n = n := by
  rw [TypeRef.leafSchemaType, hunknown]
  exact ite_self n

theorem leafSchemaType_of_known {c : Category} (hmissing : pool.contains n = false)
    (hc : Category.ofName? n = some c) : TypeRef.leafSchemaType pool n = c.schemaType := by
  rw [TypeRef.leafSchemaType, hmissing, hc]
  rfl

theorem mem_opaqueNames {types : List TypeRef} :
    n ∈ opaqueNames pool types ↔ n ∈ types.flatMap TypeRef.leafNames ∧
      pool.contains n = false ∧ Category.ofName? n = none := by
  rw [opaqueNames, NameSet.mem_ofList, List.mem_filter, isOpaque, Bool.and_eq_true,
    Bool.not_eq_true', Option.isNone_iff_eq_none]

end

theorem Category.eq_wellKnown_of_schemaType {c : Category} {w : WellKnown}
    (h : c.schemaType = w.schemaType) : c = .wellKnown w := by
  cases c with
  | scalar s => cases s <;> cases w <;> revert h <;> decide
  | wellKnown v => cases v <;> cases w <;> revert h <;> decide
  | calendarPeriod => cases w <;> revert h <;> decide

theorem Category.exists_wellKnown_of_dot {c : Category} (h : '.' ∈ c.schemaType.toList) :
    ∃ w, c = .wellKnown w := by
  cases c with
  | scalar s => cases s <;> exact absurd h (by decide)
  | wellKnown w => exact ⟨w, rfl⟩
  | calendarPeriod => exact absurd h (by decide)

/-! ### The enums nested in a declaration -/

section

variable {units : List SourceUnit} {u : SourceUnit} {t : TypeDeclaration} {e : EnumDeclaration}
  {n : String}

theorem contains_of_mem_entries {pool : EnumPool} {e : PooledEnum} (he : e ∈ pool.entries)
    (hn : e.isNamedBy n = true) : pool.contains n = true :=
  List.find?_isSome.2 ⟨e, he, hn⟩

theorem mem_entries_of_mem_enums (hu : u ∈ units) (he : e ∈ u.enums) :
    ⟨e, u.package⟩ ∈ (EnumPool.ofUnits units).entries :=
  List.mem_flatMap.2 ⟨u, hu, List.mem_map.2 ⟨e, he, rfl⟩⟩

theorem contains_name_of_mem_enums (hu : u ∈ units) (he : e ∈ u.enums) :
    (EnumPool.ofUnits units).contains e.name = true :=
  contains_of_mem_entries (mem_entries_of_mem_enums hu he) (by simp [PooledEnum.isNamedBy])

theorem mem_enums_of_nested (ht : u.primary = some (.type t)) (he : e ∈ t.nestedEnums) :
    e ∈ u.enums := by
  rwa [SourceUnit.enums, ht]

/-- Where an enum records the type it is nested in, the pool knows it by the names of both, with and
without the package. -/
theorem contains_qualified_of_nested (hu : u ∈ units) (ht : u.primary = some (.type t))
    (he : e ∈ t.nestedEnums) (hrecorded : e.enclosingType = some t.name) :
    (EnumPool.ofUnits units).contains (t.name ++ "." ++ e.name) = true ∧
      ∀ package, u.package = some package → package ≠ "" →
        (EnumPool.ofUnits units).contains (package ++ "." ++ (t.name ++ "." ++ e.name)) = true := by
  have hentry := mem_entries_of_mem_enums hu (mem_enums_of_nested ht he)
  have hknown : ∀ n, Text.isTail n (⟨e, u.package⟩ : PooledEnum).qualifiedName = true →
      (EnumPool.ofUnits units).contains n = true := fun n hn =>
    contains_of_mem_entries hentry (by rw [PooledEnum.isNamedBy, hn, Bool.or_true])
  have hqualified : (⟨e, u.package⟩ : PooledEnum).qualifiedName =
      ((u.package.filter (· ≠ "")).map (· ++ ".")).getD "" ++ (t.name ++ "." ++ e.name) := by
    rw [PooledEnum.qualifiedName, PooledEnum.nameParts, hrecorded]
    cases u.package.filter (· ≠ "") <;> simp [String.intercalate_cons_cons, String.append_assoc]
  refine ⟨hknown _ ?_, fun package hpackage hne => hknown _ ?_⟩
  · rw [hqualified, Text.isTail_iff]
    cases u.package.filter (· ≠ "") with
    | none => exact .inl (by simp)
    | some package => exact .inr ⟨package.toList, by simp⟩
  · rw [hqualified, hpackage, Text.isTail_iff]
    exact .inl (by simp [Option.filter, hne])

theorem nestedEnum?_eq_some (h : t.nestedEnum? n = some e) :
    e ∈ t.nestedEnums ∧ (e.name = n ∨ '.' ∈ n.toList) := by
  have hnamed := List.find?_some h
  rw [Bool.or_eq_true, beq_iff_eq, Text.isTail_iff] at hnamed
  refine ⟨List.mem_of_find?_eq_some h, ?_⟩
  obtain hown | rfl | hsuffix := hnamed
  · exact .inl hown
  · exact .inr (by simp)
  · exact .inr (hsuffix.subset (List.mem_cons_self ..))

/-! ### Agreement -/

/-- The schema type, the import and the guess at a message agree on a name in the types of fields.
-/
structure LookupsAgree (pool : EnumPool) (t : TypeDeclaration) (types : List TypeRef) (n : String) :
    Prop where
  wellKnown : ∀ w : WellKnown, TypeRef.leafSchemaType pool n = w.schemaType →
    importFor pool t n = some w.importPath
  ownEnum : (t.nestedEnum? n).isSome = true →
    TypeRef.leafSchemaType pool n = n ∧ n ∉ opaqueNames pool types
  guess : n ∈ opaqueNames pool types ↔
    referent pool t n = .message ∧ importFor pool t n = some (schemaFileName n)

theorem leafSchemaType_schemaType (pool : EnumPool) (w : WellKnown) :
    TypeRef.leafSchemaType pool w.schemaType = w.schemaType := by
  rw [TypeRef.leafSchemaType]
  split
  · rfl
  · cases w <;> rfl

/-- Where the lookups agree, the pool knows the enums that a declaration nests by all their names.
-/
theorem LookupsAgree.contains_of_nested {types : List TypeRef} (hu : u ∈ units)
    (ht : u.primary = some (.type t)) (hn : n ∈ types.flatMap TypeRef.leafNames)
    (h : LookupsAgree (.ofUnits units) t types n) (hinner : (t.nestedEnum? n).isSome = true) :
    (EnumPool.ofUnits units).contains n = true := by
  rw [← Bool.not_eq_false]
  intro hcontains
  obtain ⟨hsame, hclear⟩ := h.ownEnum hinner
  obtain ⟨e, he⟩ := Option.isSome_iff_exists.1 hinner
  obtain ⟨hmem, hname⟩ := nestedEnum?_eq_some he
  cases hc : Category.ofName? n with
  | none => exact hclear (mem_opaqueNames.2 ⟨hn, hcontains, hc⟩)
  -- The vocabulary has the name and keeps it, so that only a well-known type can have dots in it.
  | some c =>
      rw [leafSchemaType_of_known hcontains hc] at hsame
      obtain rfl | hdot := hname
      · simp [contains_name_of_mem_enums hu (mem_enums_of_nested ht hmem)] at hcontains
      · obtain ⟨w, rfl⟩ := Category.exists_wellKnown_of_dot (hsame ▸ hdot)
        have himport := h.wellKnown w (leafSchemaType_of_known hcontains hc)
        rw [importFor_eq, referent_eq_ownEnum he] at himport
        cases himport

theorem lookupsAgree_of_known {pool : EnumPool} {types : List TypeRef}
    (hn : n ∈ types.flatMap TypeRef.leafNames)
    (hknown : (t.nestedEnum? n).isSome = true → pool.contains n = true)
    (hspelled : ∀ w : WellKnown, n = w.schemaType → importFor pool t n = some w.importPath) :
    LookupsAgree pool t types n := by
  have hinner : pool.contains n = false → t.nestedEnum? n = none := fun hcontains => by
    rw [← Option.not_isSome_iff_eq_none]
    exact fun h => by simp [hknown h] at hcontains
  refine ⟨fun w hw => ?_, fun h => ?_, ?_⟩
  · cases hcontains : pool.contains n with
    | true => exact hspelled w (by rwa [leafSchemaType_of_contains hcontains] at hw)
    | false =>
        cases hc : Category.ofName? n with
        | none => exact hspelled w (by rwa [leafSchemaType_of_unknown hc] at hw)
        | some c =>
            rw [leafSchemaType_of_known hcontains hc] at hw
            obtain rfl := Category.eq_wellKnown_of_schemaType hw
            have hmissing := contains_eq_false_iff.1 hcontains
            rw [importFor_eq, referent_eq_known (hinner hcontains) hmissing hc]
            rfl
  · refine ⟨leafSchemaType_of_contains (hknown h), fun hguessed => ?_⟩
    obtain ⟨-, hcontains, -⟩ := mem_opaqueNames.1 hguessed
    simp [hknown h] at hcontains
  · constructor
    · intro hguessed
      obtain ⟨-, hcontains, hunknown⟩ := mem_opaqueNames.1 hguessed
      have hmessage : referent pool t n = .message := referent_eq_message_iff.2
        ⟨hinner hcontains, contains_eq_false_iff.1 hcontains, hunknown⟩
      rw [importFor_eq, hmessage]
      exact ⟨rfl, rfl⟩
    · rintro ⟨hmessage, -⟩
      obtain ⟨-, hmissing, hunknown⟩ := referent_eq_message_iff.1 hmessage
      exact mem_opaqueNames.2 ⟨hn, contains_eq_false_iff.2 hmissing, hunknown⟩

/-- The lookups agree on a name unless it is that of an enum nested in the declaration and the pool
does not know it, or it is spelled like a well-known schema type and not imported like it. -/
theorem lookupsAgree_iff {types : List TypeRef} (hu : u ∈ units) (ht : u.primary = some (.type t))
    (hn : n ∈ types.flatMap TypeRef.leafNames) :
    let pool := EnumPool.ofUnits units
    LookupsAgree pool t types n ↔
      ((t.nestedEnum? n).isSome = true → pool.contains n = true) ∧
        ∀ w : WellKnown, n = w.schemaType → importFor pool t n = some w.importPath := by
  intro pool
  constructor
  · intro h
    refine ⟨h.contains_of_nested hu ht hn, fun w hw => h.wellKnown w ?_⟩
    rw [hw, leafSchemaType_schemaType]
  · rintro ⟨hknown, hspelled⟩
    exact lookupsAgree_of_known hn hknown hspelled

end

def qualifiedOrder : TypeDeclaration where
  name := "Order"
  kind := .classKind
  fields := [⟨"status", "com.acme.Order.Status", false⟩, ⟨"time", "com.acme.Order.Duration", false⟩]
  nestedEnums := [⟨"Status", some "Order", ["NEW"]⟩, ⟨"Duration", some "Order", ["SHORT"]⟩]

theorem lookupsAgree_iff_packaged :
    let u : SourceUnit := { package := some "com.acme", primary := some (.type qualifiedOrder) }
    let n := "com.acme.Order.Duration"
    LookupsAgree (.ofUnits [u]) qualifiedOrder [.named n] n := by
  intro u n
  have hu : u ∈ [u] := List.mem_cons_self ..
  have hn : n ∈ [TypeRef.named n].flatMap TypeRef.leafNames := by decide +kernel
  have hcontains := (contains_qualified_of_nested hu rfl
    (e := ⟨"Duration", some "Order", ["SHORT"]⟩) (by decide) rfl).2 "com.acme" rfl (by decide)
  have hspelled : ∀ w : WellKnown, n ≠ w.schemaType := fun w => by cases w <;> decide
  exact (lookupsAgree_iff hu rfl hn).2 ⟨fun _ => hcontains, fun w hw => absurd hw (hspelled w)⟩

/-- The package is not recorded. By their qualified names the enums are still the own enums of the
class, and yet one is taken for a message and the other becomes a span of time without an import. -/
theorem lookups_disagree_unpackaged :
    let pool := EnumPool.ofUnits [.ofType qualifiedOrder]
    let types := [TypeRef.named "com.acme.Order.Status", .named "com.acme.Order.Duration"]
    (qualifiedOrder.nestedEnum? "com.acme.Order.Status").isSome = true ∧
      "com.acme.Order.Status" ∈ opaqueNames pool types ∧
      ¬ LookupsAgree pool qualifiedOrder types "com.acme.Order.Status" ∧
      (qualifiedOrder.nestedEnum? "com.acme.Order.Duration").isSome = true ∧
      TypeRef.leafSchemaType pool "com.acme.Order.Duration" = "google.protobuf.Duration" ∧
      importFor pool qualifiedOrder "com.acme.Order.Duration" = none ∧
      ¬ LookupsAgree pool qualifiedOrder types "com.acme.Order.Duration" := by
  intro pool types
  have hstatus : (qualifiedOrder.nestedEnum? "com.acme.Order.Status").isSome = true := by
    decide +kernel
  have hguessed : "com.acme.Order.Status" ∈ opaqueNames pool types := by decide +kernel
  have hduration : (qualifiedOrder.nestedEnum? "com.acme.Order.Duration").isSome = true := by
    decide +kernel
  have hspan : TypeRef.leafSchemaType pool "com.acme.Order.Duration" =
      "google.protobuf.Duration" := by
    decide +kernel
  have hnone : importFor pool qualifiedOrder "com.acme.Order.Duration" = none := by decide +kernel
  refine ⟨hstatus, hguessed, fun h => (h.ownEnum hstatus).2 hguessed, hduration, hspan, hnone,
    fun h => ?_⟩
  have himport := h.wellKnown .duration hspan
  rw [hnone] at himport
  cases himport

end ProtoSchema
