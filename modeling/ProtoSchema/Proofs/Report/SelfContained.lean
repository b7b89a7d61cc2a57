import ProtoSchema.Proofs.Report.EnumFiles
import ProtoSchema.Proofs.Report.Fates
import ProtoSchema.Proofs.TypeRef.Grammar

/-!
Runs that refer to nothing but their own declarations. Such a run ought to make no guesses, and its
imports ought to lead to declarations of the run. This is so unless a class or interface is referred
to by its qualified name, which is not looked for among the declared names, or an enum leads to a
file of no declaration.
-/

namespace ProtoSchema

/-! ### Guesses -/

/-- Reading a type makes no guess at a message. -/
theorem TypeRef.Derives.exists_unresolvedShape {s : List Char} {r : Reading} (h : Derives s r)
    {c : Caveat} (hc : c ∈ r.caveats) :
    ∃ declaredType arity, c = .unresolvedShape declaredType arity := by
  induction h with
  | name hopen hne => cases hc
  | one happlies ha ih => exact ih hc
  | two happlies ha hb iha ihb => exact (List.mem_append.1 hc).elim iha ihb
  | many happlies harity => exact ⟨_, _, List.mem_singleton.1 hc⟩

theorem exists_unresolvedShape_of_readings {fields : List Field} {readings : List TypeRef.Reading}
    (h : fields.map (fun f => TypeRef.read f.declaredType) = readings.map .ok)
    {r : TypeRef.Reading} (hr : r ∈ readings) {c : Caveat} (hc : c ∈ r.caveats) :
    ∃ declaredType arity, c = .unresolvedShape declaredType arity := by
  have hread : Except.ok r ∈ fields.map fun f => TypeRef.read f.declaredType := by
    rw [h]
    exact List.mem_map_of_mem hr
  obtain ⟨f, -, hf⟩ := List.mem_map.1 hread
  exact (TypeRef.derives_of_readSegment (TypeRef.read_eq_ok_iff.1 hf)).exists_unresolvedShape hc

theorem ambiguousReference_notMem_of_readFieldTypes {fields : List Field} {types : List TypeRef}
    {caveats : List Caveat} (h : readFieldTypes fields = .ok (types, caveats))
    (n referrer : String) :
    .ambiguousReference n referrer ∉ caveats := by
  obtain ⟨readings, hmap, -, rfl⟩ := readFieldTypes_eq_ok h
  intro hmem
  obtain ⟨r, hr, hc⟩ := List.mem_flatMap.1 hmem
  obtain ⟨declaredType, arity, hshape⟩ := exists_unresolvedShape_of_readings hmap hr hc
  cases hshape

namespace Assembler

variable {a : Assembler} {units : List SourceUnit} {d : TypeDeclaration} {plan : MessagePlan}
  {n referrer path : String}

/-- A plan reports a guess for each name that its declaration refers to and that nothing is known
of. -/
theorem ambiguousReference_mem_plan_iff (h : a.plan d = .ok plan) :
    .ambiguousReference n referrer ∈ plan.caveats ↔
      referrer = d.name ∧ d.RefersTo a.config.excludeFields n ∧ a.pool.lookup? n = none ∧
        Category.ofName? n = none ∧ n ∉ a.declared := by
  constructor
  · intro hmem
    obtain ⟨types, caveats, hread, -, -, -, hcaveats⟩ := plan_eq_ok h
    rw [hcaveats] at hmem
    have hguess := (List.mem_append.1 hmem).resolve_left
      (ambiguousReference_notMem_of_readFieldTypes hread n referrer)
    obtain ⟨m, hm, heq⟩ := List.mem_map.1 hguess
    obtain ⟨rfl, rfl⟩ := Caveat.ambiguousReference.inj heq
    obtain ⟨hguessed, hdeclared⟩ := List.mem_filter.1 hm
    obtain ⟨hleaf, hmissing, hunknown⟩ := mem_opaqueNames.1 hguessed
    exact ⟨rfl, (refersTo_iff hread m).2 hleaf, contains_eq_false_iff.1 hmissing, hunknown,
      by simpa using hdeclared⟩
  · rintro ⟨rfl, hrefers, hmissing, hunknown, hdeclared⟩
    exact mem_caveats_of_plan h hrefers hmissing hunknown hdeclared

/-- The messages of a run are the plans of the declarations that become messages. -/
theorem message_mem_drafts_iff :
    .message plan ∈ a.drafts (emittedDeclarations units) ↔
      ∃ t, BecomesMessage a.config units t ∧ a.plan t = .ok plan := by
  rw [mem_drafts]
  constructor
  · rintro ⟨earlier, p, hp, ho⟩
    cases p with
    | enum e => cases enum_of_outcome ho
    | type t =>
        obtain ⟨plan', hplan, heq⟩ := plan_of_outcome ho
        cases heq
        exact ⟨t, ⟨earlier, hp, refusal?_of_ok ho⟩, hplan⟩
  · rintro ⟨t, ⟨earlier, hp, hfree⟩, hplan⟩
    obtain ⟨d, ho⟩ := exists_outcome_eq_ok hfree
    obtain ⟨plan', hplan', rfl⟩ := plan_of_outcome ho
    rw [hplan, Except.ok.injEq] at hplan'
    exact ⟨earlier, .type t, hp, hplan' ▸ ho⟩

theorem exists_plan_of_becomesMessage {t : TypeDeclaration} (h : BecomesMessage a.config units t) :
    ∃ plan, a.plan t = .ok plan := by
  obtain ⟨earlier, hp, hfree⟩ := h
  obtain ⟨d, ho⟩ := exists_outcome_eq_ok hfree
  obtain ⟨plan, hplan, -⟩ := plan_of_outcome ho
  exact ⟨plan, hplan⟩

/-- A run reports a guess for each name that one of its messages refers to and that nothing is known
of. -/
theorem ambiguousReference_mem_run_iff :
    .ambiguousReference n referrer ∈ (a.run units).caveats ↔
      ∃ t, BecomesMessage a.config units t ∧ referrer = t.name ∧
        t.RefersTo a.config.excludeFields n ∧ a.pool.lookup? n = none ∧
        Category.ofName? n = none ∧ n ∉ a.declared := by
  rw [caveats_run, List.mem_flatMap]
  constructor
  · rintro ⟨d, hd, hc⟩
    cases d with
    | enum e => cases hc
    | message plan =>
        obtain ⟨t, ht, hplan⟩ := message_mem_drafts_iff.1 hd
        exact ⟨t, ht, (ambiguousReference_mem_plan_iff hplan).1 hc⟩
  · rintro ⟨t, ht, hguess⟩
    obtain ⟨plan, hplan⟩ := exists_plan_of_becomesMessage ht
    exact ⟨.message plan, message_mem_drafts_iff.2 ⟨t, ht, hplan⟩,
      (ambiguousReference_mem_plan_iff hplan).2 hguess⟩

/-! ### Imports -/

/-- The imports of drafts are those of the names that the messages of the run refer to. -/
theorem exists_mem_imports_iff :
    (∃ d ∈ a.drafts (emittedDeclarations units), path ∈ d.imports) ↔
      ∃ t n, BecomesMessage a.config units t ∧ t.RefersTo a.config.excludeFields n ∧
        importFor a.pool t n = some path := by
  constructor
  · rintro ⟨d, hd, hpath⟩
    cases d with
    | enum e => exact absurd hpath (NameSet.not_mem_empty _)
    | message plan =>
        obtain ⟨t, ht, hplan⟩ := message_mem_drafts_iff.1 hd
        obtain ⟨n, hn, himport⟩ := (mem_imports_of_plan hplan path).1 hpath
        exact ⟨t, n, ht, hn, himport⟩
  · rintro ⟨t, n, ht, hn, himport⟩
    obtain ⟨plan, hplan⟩ := exists_plan_of_becomesMessage ht
    exact ⟨.message plan, message_mem_drafts_iff.2 ⟨t, ht, hplan⟩,
      (mem_imports_of_plan hplan path).2 ⟨n, hn, himport⟩⟩

end Assembler

/-- Whether an import leads to a type with a fixed file or to the file of a declared name. -/
def LeadsInside (units : List SourceUnit) (path : String) : Prop :=
  (∃ w : WellKnown, path = w.importPath) ∨ ∃ n ∈ declaredNames units, path = schemaFileName n

section

variable {units : List SourceUnit} {t : TypeDeclaration} {n path : String}

/-- Every import is a fixed path or the file of a name. -/
theorem exists_stem_of_importFor {pool : EnumPool} (h : importFor pool t n = some path) :
    (∃ w : WellKnown, path = w.importPath) ∨ ∃ stem, path = schemaFileName stem := by
  rw [importFor_eq] at h
  obtain ⟨e, -, hr⟩ | ⟨e, -, -, hr⟩ | ⟨c, -, -, -, hr⟩ | ⟨-, -, -, hr⟩ :=
    referent_cases pool t n <;>
    rw [hr] at h
  · cases h
  · have himport : e.importFor t = some path := h
    rw [PooledEnum.importFor_eq] at himport
    split at himport
    · cases himport
    · exact .inr ⟨_, (Option.some.inj himport).symm⟩
  · cases c with
    | wellKnown w => exact .inl ⟨w, (Option.some.inj h).symm⟩
    | scalar s => cases h
    | calendarPeriod => cases h
  · exact .inr ⟨n, (Option.some.inj h).symm⟩

/-- The documents of a run import what its messages need, but for the files of declared names that
the shared document leaves out. -/
theorem forall_imports_leadsInside_iff (config : Config) (pool : EnumPool)
    (units : List SourceUnit) :
    (∀ p ∈ documentPlans config pool units, ∀ path ∈ p.imports, LeadsInside units path) ↔
      ∀ t n path, BecomesMessage config units t → t.RefersTo config.excludeFields n →
        importFor pool t n = some path → LeadsInside units path := by
  let a : Assembler := ⟨config, pool, declaredNames units⟩
  have hdrafts : (∀ d ∈ a.drafts (emittedDeclarations units), ∀ path ∈ d.imports,
        LeadsInside units path) ↔
      ∀ t n path, BecomesMessage config units t → t.RefersTo config.excludeFields n →
        importFor pool t n = some path → LeadsInside units path := by
    constructor
    · intro h t n path ht hn himport
      obtain ⟨d, hd, hpath⟩ := a.exists_mem_imports_iff.2 ⟨t, n, ht, hn, himport⟩
      exact h d hd path hpath
    · intro h d hd path hpath
      obtain ⟨t, n, ht, hn, himport⟩ := a.exists_mem_imports_iff.1 ⟨d, hd, hpath⟩
      exact h t n path ht hn himport
  rw [← hdrafts, documentPlans]
  cases config.mode with
  | perType => exact List.forall_mem_map
  | aggregate =>
      simp only [List.forall_mem_singleton]
      constructor
      · intro h d hd path hpath
        by_cases hdeclared : Assembler.importStem path ∈ declaredNames units
        · obtain ⟨t, n, -, -, himport⟩ := a.exists_mem_imports_iff.1 ⟨d, hd, hpath⟩
          obtain hfixed | ⟨stem, rfl⟩ := exists_stem_of_importFor himport
          · exact .inl hfixed
          · rw [Assembler.importStem_schemaFileName] at hdeclared
            exact .inr ⟨stem, hdeclared, rfl⟩
        · exact h path ((a.mem_imports_combined units path).2 ⟨⟨d, hd, hpath⟩, hdeclared⟩)
      · intro h path hpath
        obtain ⟨⟨d, hd, hmem⟩, -⟩ := (a.mem_imports_combined units path).1 hpath
        exact h d hd path hmem

end

/-! ### References within a run -/

def SourceUnit.qualifiedTypeName? (u : SourceUnit) : Option String :=
  match u.package, u.primary with
  | some package, some (.type t) => some (package ++ "." ++ t.name)
  | _, _ => none

/-- Whether a name is known in a run: it is in the fixed vocabulary, or that of an enum, or the
simple or qualified name of a class or interface. -/
inductive IsFamiliar (units : List SourceUnit) (n : String) : Prop
  | vocabulary (c : Category) (known : Category.ofName? n = some c)
  | enum (e : PooledEnum) (found : (EnumPool.ofUnits units).lookup? n = some e)
  | simpleName (u : SourceUnit) (hu : u ∈ units) (t : TypeDeclaration)
      (primary : u.primary = some (.type t)) (own : n = t.name)
  | qualifiedName (u : SourceUnit) (hu : u ∈ units) (qualified : u.qualifiedTypeName? = some n)

/-- Whether the schema fields of a run refer to names that are known in it and to no others. -/
def RefersWithin (excluded : List String) (units : List SourceUnit) : Prop :=
  ∀ u ∈ units, ∀ t, u.primary = some (.type t) → ∀ n, t.RefersTo excluded n → IsFamiliar units n

structure StaysInside (units : List SourceUnit) (t : TypeDeclaration) (n : String) : Prop where
  named : ∀ u ∈ units, u.qualifiedTypeName? = some n →
    (EnumPool.ofUnits units).contains n = true ∨ (Category.ofName? n).isSome = true ∨
      n ∈ declaredNames units
  placed : ∀ e, t.nestedEnum? n = none → (EnumPool.ofUnits units).lookup? n = some e →
    LeadsInside units (schemaFileName e.fileStem)

section

variable {config : Config} {units : List SourceUnit} {t : TypeDeclaration} {n path : String}

theorem mem_declaredNames_of_primary {u : SourceUnit} {p : Primary} (hu : u ∈ units)
    (hp : u.primary = some p) : p.name ∈ declaredNames units :=
  List.mem_filterMap.2 ⟨u, hu, by rw [SourceUnit.primaryName?, hp, Option.map_some]⟩

theorem BecomesMessage.exists_unit (h : BecomesMessage config units t) :
    ∃ u ∈ units, u.primary = some (.type t) := by
  obtain ⟨earlier, hp, -⟩ := h
  obtain ⟨later, hsplit⟩ := mem_withEarlier.1 hp
  have hmem : .type t ∈ emittedDeclarations units := by simp [hsplit]
  obtain ⟨u, hu, hemitted⟩ := List.mem_filterMap.1 hmem
  exact ⟨u, hu, (SourceUnit.emitted?_eq_some.1 hemitted).1⟩

/-- A known name that is neither an enum's nor in the vocabulary is declared. -/
theorem StaysInside.mem_declaredNames (h : StaysInside units t n) (hfamiliar : IsFamiliar units n)
    (hmissing : (EnumPool.ofUnits units).lookup? n = none) (hunknown : Category.ofName? n = none) :
    n ∈ declaredNames units := by
  cases hfamiliar with
  | vocabulary c known => simp [hunknown] at known
  | enum e found => simp [hmissing] at found
  | simpleName u hu t primary own =>
      rw [own]
      exact mem_declaredNames_of_primary hu primary
  | qualifiedName u hu qualified =>
      obtain hcontains | hknown | hdeclared := h.named u hu qualified
      · simp [EnumPool.contains, hmissing] at hcontains
      · simp [hunknown] at hknown
      · exact hdeclared

theorem StaysInside.leadsInside (h : StaysInside units t n) (hfamiliar : IsFamiliar units n)
    (himport : importFor (.ofUnits units) t n = some path) : LeadsInside units path := by
  rw [importFor_eq] at himport
  obtain ⟨e, -, hr⟩ | ⟨e, hinner, hfound, hr⟩ | ⟨c, -, -, -, hr⟩ | ⟨-, hmissing, hunknown, hr⟩ :=
    referent_cases (.ofUnits units) t n <;> rw [hr] at himport
  · cases himport
  · have hpath : e.importFor t = some path := himport
    rw [PooledEnum.importFor_eq] at hpath
    split at hpath
    · cases hpath
    · rw [← Option.some.inj hpath]
      exact h.placed e hinner hfound
  · cases c with
    | wellKnown w => exact .inl ⟨w, (Option.some.inj himport).symm⟩
    | scalar s => cases himport
    | calendarPeriod => cases himport
  · exact .inr ⟨n, h.mem_declaredNames hfamiliar hmissing hunknown, (Option.some.inj himport).symm⟩

/-- A reference stays inside the run where it is no guess and its import leads inside. -/
theorem staysInside_of_leadsInside (ht : t.name ∈ declaredNames units)
    (hguess : (EnumPool.ofUnits units).lookup? n = none → Category.ofName? n = none →
      n ∈ declaredNames units)
    (himport : ∀ path, importFor (.ofUnits units) t n = some path → LeadsInside units path) :
    StaysInside units t n where
  named u hu hqualified := by
    by_contra hnone
    simp only [not_or, Bool.not_eq_true, Option.isSome_eq_false_iff,
      Option.isNone_iff_eq_none] at hnone
    obtain ⟨hmissing, hunknown, hdeclared⟩ := hnone
    exact hdeclared (hguess (contains_eq_false_iff.1 hmissing) hunknown)
  placed e hinner hfound := by
    -- An enum that records `t` without being nested in it is not imported, but `t` is declared.
    by_cases hown : e.declaration.enclosingType = some t.name
    · refine .inr ⟨t.name, ht, ?_⟩
      rw [PooledEnum.fileStem, hown, Option.getD_some]
    · refine himport _ ?_
      rw [importFor, hinner, Option.isSome_none, if_neg Bool.false_ne_true]
      simp only [hfound]
      rw [PooledEnum.importFor_eq, if_neg hown]

/-- Where the enums of a run record what they are nested in, all of them lead to files of the run.
-/
theorem leadsInside_of_recorded (hrecorded : ∀ p ∈ emittedDeclarations units, ∀ e ∈ p.enums,
      e.enclosingType = p.enclosing?) {e : PooledEnum}
    (hfound : (EnumPool.ofUnits units).lookup? n = some e) :
    LeadsInside units (schemaFileName e.fileStem) := by
  obtain ⟨p, hp, hheld⟩ := exists_holder_of_mem_entries (List.mem_of_find?_eq_some hfound)
  refine .inr ⟨p.name, name_mem_declaredNames hp, ?_⟩
  rw [schemaFileName_inj, PooledEnum.fileStem, hrecorded p hp _ hheld]
  cases p with
  | type t => rfl
  | enum e' => exact congrArg EnumDeclaration.name (List.mem_singleton.1 hheld)

end

/-- A run that refers to its own declarations alone reports no guesses and imports no files but
those of well-known types and declared names, exactly where all references of its messages stay
inside. -/
theorem self_contained_iff (config : Config) (units : List SourceUnit)
    (hwithin : RefersWithin config.excludeFields units) :
    let report := generate ⟨units⟩ config
    let plans := documentPlans config (.ofUnits units) units
    report.documents = plans.map (·.document config.effectivePackage) ∧
      (((∀ n referrer, .ambiguousReference n referrer ∉ report.caveats) ∧
          ∀ p ∈ plans, ∀ path ∈ p.imports, LeadsInside units path) ↔
        ∀ t n, BecomesMessage config units t → t.RefersTo config.excludeFields n →
          StaysInside units t n) := by
  intro report plans
  refine ⟨documents_assemble config _ units, ?_⟩
  let a : Assembler := ⟨config, .ofUnits units, declaredNames units⟩
  have hreport : report = a.run units := Assembler.assemble_eq_run config _ units
  rw [forall_imports_leadsInside_iff, hreport]
  simp only [Assembler.ambiguousReference_mem_run_iff]
  constructor
  · rintro ⟨hguesses, himports⟩ t n ht hn
    obtain ⟨u, hu, hp⟩ := ht.exists_unit
    refine staysInside_of_leadsInside (mem_declaredNames_of_primary hu hp) ?_ fun path =>
      himports t n path ht hn
    intro hmissing hunknown
    by_contra hdeclared
    exact hguesses n t.name ⟨t, ht, rfl, hn, hmissing, hunknown, hdeclared⟩
  · intro h
    have hfamiliar : ∀ t n, BecomesMessage config units t → t.RefersTo config.excludeFields n →
        IsFamiliar units n := by
      intro t n ht hn
      obtain ⟨u, hu, hp⟩ := ht.exists_unit
      exact hwithin u hu t hp n hn
    constructor
    · rintro n referrer ⟨t, ht, -, hn, hmissing, hunknown, hdeclared⟩
      exact hdeclared ((h t n ht hn).mem_declaredNames (hfamiliar t n ht hn) hmissing hunknown)
    · intro t n path ht hn himport
      exact (h t n ht hn).leadsInside (hfamiliar t n ht hn) himport

/-- A class refers to another by its simple name, to an enum nested in a third by its qualified
name, and to a library type: nothing is guessed, and nothing from outside is imported. -/
theorem self_contained_iff_person :
    let package := some "com.acme"
    let address : TypeDeclaration := { name := "Address", kind := .classKind }
    let order : TypeDeclaration :=
      { name := "Order", kind := .classKind, nestedEnums := [⟨"Status", some "Order", ["NEW"]⟩] }
    let person : TypeDeclaration :=
      { name := "Person", kind := .classKind
        fields := [⟨"addresses", "List<Address>", false⟩,
          ⟨"orders", "Map<java.time.Instant, com.acme.Order.Status>", false⟩] }
    let units := [address, order, person].map fun t => SourceUnit.mk none package (some (.type t))
    RefersWithin [] units ∧
      (∀ n referrer, .ambiguousReference n referrer ∉ (generate ⟨units⟩ {}).caveats) ∧
        ∀ p ∈ documentPlans {} (.ofUnits units) units, ∀ path ∈ p.imports,
          LeadsInside units path := by
  intro package address order person units
  let names := ["Address", "java.time.Instant", "com.acme.Order.Status"]
  have hnames : ∀ u ∈ units, ∀ t, u.primary = some (.type t) → ∀ n, t.RefersTo [] n →
      n ∈ names := by
    have hperson : ∀ n, person.RefersTo [] n ↔ n ∈ names :=
      refersTo_iff_of_leafNames (by decide +kernel)
    simp only [units, List.map_cons, List.map_nil, List.forall_mem_cons, List.not_mem_nil,
      false_imp_iff, implies_true, and_true, Option.some.injEq, Primary.type.injEq, forall_eq']
    refine ⟨?_, ?_, fun n => (hperson n).1⟩ <;> rintro n ⟨f, hf, -⟩ <;> cases hf
  have hwithin : RefersWithin [] units := by
    intro u hu t ht n hn
    have hn := hnames u hu t ht n hn
    simp only [names, List.mem_cons, List.not_mem_nil, or_false] at hn
    rcases hn with rfl | rfl | rfl
    · exact .simpleName ⟨none, package, some (.type address)⟩ (by simp [units]) address rfl rfl
    · exact .vocabulary (.wellKnown .timestamp) (by decide +kernel)
    · exact .enum ⟨⟨"Status", some "Order", ["NEW"]⟩, package⟩ (by decide +kernel)
  have hsimple : ∀ n ∈ names, ∀ u ∈ units, u.qualifiedTypeName? ≠ some n := by decide +kernel
  refine ⟨hwithin, (self_contained_iff {} units hwithin).2.2 fun t n ht hn => ⟨?_, ?_⟩⟩
  · intro v hv hqualified
    obtain ⟨u, hu, hp⟩ := ht.exists_unit
    exact absurd hqualified (hsimple n (hnames u hu t hp n hn) v hv)
  · exact fun e _ => leadsInside_of_recorded (by decide +kernel)

/-- A class refers to another by its qualified name. The other is declared in the run, and yet a
message is guessed and a file imported that is not generated. -/
theorem guess_at_qualified_class :
    let address : TypeDeclaration :=
      { name := "Address", kind := .classKind, fields := [⟨"city", "String", false⟩] }
    let person : TypeDeclaration :=
      { name := "Person", kind := .classKind, fields := [⟨"address", "com.acme.Address", false⟩] }
    let units := [address, person].map fun t =>
      SourceUnit.mk none (some "com.acme") (some (.type t))
    let report := generate ⟨units⟩ {}
    RefersWithin [] units ∧
      report.documents.map Document.fileName = ["Address.proto", "Person.proto"] ∧
      report.caveats = [.ambiguousReference "com.acme.Address" "Person"] ∧
      ∃ p ∈ documentPlans {} (.ofUnits units) units, "com.acme.Address.proto" ∈ p.imports ∧
        ¬ LeadsInside units "com.acme.Address.proto" := by
  intro address person units report
  have hwithin : RefersWithin [] units := by
    have haddress : ∀ n, address.RefersTo [] n ↔ n ∈ ["String"] :=
      refersTo_iff_of_leafNames (by decide +kernel)
    have hperson : ∀ n, person.RefersTo [] n ↔ n ∈ ["com.acme.Address"] :=
      refersTo_iff_of_leafNames (by decide +kernel)
    have hname : (SourceUnit.mk none (some "com.acme") (some (.type address))).qualifiedTypeName? =
        some "com.acme.Address" := by decide +kernel
    simp only [RefersWithin, units, List.map_cons, List.map_nil, List.forall_mem_cons,
      Option.some.injEq, Primary.type.injEq, forall_eq', haddress, hperson, List.mem_singleton,
      forall_eq]
    exact ⟨.vocabulary (.scalar .text) (by decide +kernel), .qualifiedName _ (by simp) hname⟩
  have himport : ∃ p ∈ documentPlans {} (.ofUnits units) units,
      "com.acme.Address.proto" ∈ p.imports := by decide +kernel
  have houtside : ¬ LeadsInside units "com.acme.Address.proto" := by
    rintro (⟨w, hw⟩ | hdeclared)
    · cases w <;> exact absurd hw (by decide)
    · exact absurd hdeclared (by decide +kernel)
  obtain ⟨p, hp, hpath⟩ := himport
  exact ⟨hwithin, by decide +kernel, by decide +kernel, p, hp, hpath, houtside⟩

end ProtoSchema
