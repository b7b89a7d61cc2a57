import ProtoSchema.Proofs.Report.Locality
import ProtoSchema.Proofs.Report.SelfContained
import ProtoSchema.Proofs.EnumPool.Naming

/-!
The caveats of a report, one by one. They come of the units that become messages, in the order of
the units: first those of the types of the schema fields, then a guess for each name that the
message refers to and that nothing is known of. Nothing else raises a caveat, so the fallbacks of a
run can be read off its report.
-/

namespace ProtoSchema

open Text (lastSegment)

theorem Category.ofName?_eq_none_iff {n : String} :
    ofName? n = none ↔ Scalar.ofName? (lastSegment n) = none ∧
      WellKnown.ofName? (lastSegment n) = none ∧ lastSegment n ≠ "Period" := by
  rw [ofName?, Text.simpleName_eq_lastSegment, ofSimpleName?]
  cases Scalar.ofName? (lastSegment n) <;> cases WellKnown.ofName? (lastSegment n) <;> simp

/-- Whether a name that a declaration refers to is taken for that of a message: no enum of the pool
has a qualified name that ends with its segments, the last of these is not in the vocabulary, and no
unit declares the name. -/
structure IsGuess (config : Config) (pool : EnumPool) (units : List SourceUnit)
    (t : TypeDeclaration) (n : String) : Prop where
  refers : t.RefersTo config.excludeFields n
  noEnum : ∀ e ∈ pool.entries, ¬e.EndsWith n
  noScalar : Scalar.ofName? (lastSegment n) = none
  noWellKnown : WellKnown.ofName? (lastSegment n) = none
  noPeriod : lastSegment n ≠ "Period"
  undeclared : ∀ u ∈ units, ∀ p, u.primary = some p → p.name ≠ n

/-- The caveats that a unit raises in a run, after the units in `earlier`. A message raises those of
its fields, in their order, and those of its guesses, in ascending order; an enum, a failure and a
unit without a message raise none. -/
inductive UnitCaveats (config : Config) (pool : EnumPool) (units earlier : List SourceUnit)
    (u : SourceUnit) : List Caveat → Prop
  | message (t : TypeDeclaration) (readings : List TypeRef.Reading) (guesses : NameSet)
      (emits : u.emitted? = some (.type t)) (first : t.name ∉ claimedNames earlier)
      (reads : (t.keptFields config.excludeFields).map (fun f => TypeRef.read f.declaredType) =
        readings.map .ok)
      (shapes : ∀ r ∈ readings, ∀ c ∈ r.caveats, ∃ text arity, c = .unresolvedShape text arity)
      (isGuess : ∀ n, n ∈ guesses ↔ IsGuess config pool units t n)
      (present : Assembler.Generates ⟨config, pool, declaredNames units⟩
        (assemble config pool units) (.type t)) :
      UnitCaveats config pool units earlier u
        (readings.flatMap TypeRef.Reading.caveats ++
          guesses.toList.map (.ambiguousReference · t.name))
  | enum (e : EnumDeclaration) (holds : u.primary = some (.enum e)) :
      UnitCaveats config pool units earlier u []
  | failed (p : Primary) (cause : Cause) (emits : u.emitted? = some p)
      (refused : refusal? config.excludeFields (emittedDeclarations earlier) p = some cause)
      (reported : ⟨p.name, cause⟩ ∈ (assemble config pool units).failures) :
      UnitCaveats config pool units earlier u []
  | skipped (silent : u.emitted? = none) : UnitCaveats config pool units earlier u []

section

variable {config : Config} {pool : EnumPool} {units earlier : List SourceUnit} {u : SourceUnit}
  {t : TypeDeclaration} {readings : List TypeRef.Reading}

/-! ### The caveats of a message -/

theorem mem_guesses_iff (pool : EnumPool) (units : List SourceUnit)
    (h : (t.keptFields config.excludeFields).map (fun f => TypeRef.read f.declaredType) =
      readings.map .ok) (n : String) :
    n ∈ (opaqueNames pool (readings.map TypeRef.Reading.ref)).filter
        (!(declaredNames units).contains ·) ↔ IsGuess config pool units t n := by
  rw [NameSet.mem_filter, mem_opaqueNames, ← refersTo_iff (readFieldTypes_of_readings h),
    contains_eq_false_iff, EnumPool.lookup?, Category.ofName?_eq_none_iff,
    find?_eq_none_iff_forall fun e => PooledEnum.isNamedBy_iff_endsWith e n]
  simp only [Bool.not_eq_true', List.contains_eq_mem, decide_eq_false_iff_not, declaredNames,
    List.mem_filterMap, SourceUnit.primaryName?, Option.map_eq_some_iff, not_exists, not_and]
  constructor
  · rintro ⟨⟨hrefers, henum, hscalar, hknown, hperiod⟩, hdeclared⟩
    exact ⟨hrefers, henum, hscalar, hknown, hperiod, hdeclared⟩
  · rintro ⟨hrefers, henum, hscalar, hknown, hperiod, hdeclared⟩
    exact ⟨⟨hrefers, henum, hscalar, hknown, hperiod⟩, hdeclared⟩

/-- The caveats of a plan are those of the readings of its fields and those of its guesses. -/
theorem caveats_of_plan {plan : MessagePlan} {guesses : NameSet}
    (hplan : Assembler.plan ⟨config, pool, declaredNames units⟩ t = .ok plan)
    (hreads : (t.keptFields config.excludeFields).map (fun f => TypeRef.read f.declaredType) =
      readings.map .ok)
    (hguesses : ∀ n, n ∈ guesses ↔ IsGuess config pool units t n) :
    plan.caveats = readings.flatMap TypeRef.Reading.caveats ++
      guesses.toList.map (.ambiguousReference · t.name) := by
  obtain ⟨types, caveats, hread, -, -, -, hcaveats⟩ := Assembler.plan_eq_ok hplan
  rw [readFieldTypes_of_readings hreads, Except.ok.injEq, Prod.mk.injEq] at hread
  obtain ⟨rfl, rfl⟩ := hread
  -- Two ascending lists of the same names are the same list.
  have hsame : guesses = (opaqueNames pool (readings.map TypeRef.Reading.ref)).filter
      (!(declaredNames units).contains ·) :=
    NameSet.ext fun n => (hguesses n).trans (mem_guesses_iff pool units hreads n).symm
  rw [hcaveats, hsame]
  rfl

/-! ### The caveats of a unit -/

theorem mem_withEarlier_emittedDeclarations {p : Primary} (h : (earlier, u) ∈ withEarlier units)
    (hu : u.emitted? = some p) :
    (emittedDeclarations earlier, p) ∈ withEarlier (emittedDeclarations units) := by
  obtain ⟨later, rfl⟩ := mem_withEarlier.1 h
  exact mem_withEarlier.2 ⟨_, emittedDeclarations_append_cons hu earlier later⟩

theorem UnitCaveats.eq_contribution {cs : List Caveat}
    (hcs : UnitCaveats config pool units earlier u cs) :
    cs = (Assembler.contribution ⟨config, pool, declaredNames units⟩ earlier u).caveats := by
  let a : Assembler := ⟨config, pool, declaredNames units⟩
  cases hcs with
  | message t readings guesses emits first reads shapes isGuess present =>
      obtain ⟨d, hd, -⟩ := present
      obtain ⟨plan, hplan, rfl⟩ := Assembler.draft_type_eq_ok.1 hd
      have ho : a.outcome (emittedDeclarations earlier) (.type t) = .ok (.message plan) :=
        Assembler.outcome_eq_ok.2 ⟨first, hd⟩
      rw [Assembler.contribution_of_ok emits ho]
      exact (caveats_of_plan hplan reads isGuess).symm
  | enum e holds =>
      have emits : u.emitted? = some (.enum e) := SourceUnit.emitted?_eq_some.2 ⟨holds, rfl⟩
      cases ho : a.outcome (emittedDeclarations earlier) (.enum e) with
      | error cause => rw [Assembler.contribution_of_error emits ho]
      | ok d =>
          obtain rfl := Assembler.enum_of_outcome ho
          rw [Assembler.contribution_of_ok emits ho]
          rfl
  | failed p cause emits refused reported =>
      have ho : a.outcome (emittedDeclarations earlier) p = .error cause :=
        Assembler.outcome_eq_error.2 refused
      rw [Assembler.contribution_of_error emits ho]
  | skipped silent => rw [Assembler.contribution_of_none silent]

theorem unitCaveats_contribution (h : (earlier, u) ∈ withEarlier units) :
    UnitCaveats config pool units earlier u
      (Assembler.contribution ⟨config, pool, declaredNames units⟩ earlier u).caveats := by
  let a : Assembler := ⟨config, pool, declaredNames units⟩
  cases hu : u.emitted? with
  | none =>
      rw [Assembler.contribution_of_none hu]
      exact .skipped hu
  | some p =>
      have hp := mem_withEarlier_emittedDeclarations h hu
      cases ho : a.outcome (emittedDeclarations earlier) p with
      | error cause =>
          rw [Assembler.contribution_of_error hu ho]
          exact .failed p cause hu (Assembler.outcome_eq_error.1 ho)
            (Assembler.mem_failures_run hp ho)
      | ok d =>
          have hpresent := Assembler.generates_of_outcome hp ho
          rw [Assembler.contribution_of_ok hu ho]
          cases p with
          | enum e =>
              obtain rfl := Assembler.enum_of_outcome ho
              exact .enum e (SourceUnit.emitted?_eq_some.1 hu).1
          | type t =>
              obtain ⟨plan, hplan, rfl⟩ := Assembler.plan_of_outcome ho
              obtain ⟨types, caveats, hread, -⟩ := Assembler.plan_eq_ok hplan
              obtain ⟨readings, hreads, -, -⟩ := readFieldTypes_eq_ok hread
              have hguesses := mem_guesses_iff pool units hreads
              rw [Draft.caveats_message, caveats_of_plan hplan hreads hguesses]
              exact .message t readings _ hu (Assembler.outcome_eq_ok.1 ho).1 hreads
                (fun _ hr _ => exists_unresolvedShape_of_readings hreads hr) hguesses hpresent

end

/-! ### The caveats of a run -/

/-- A relation that gives each element one value relates a list to the list of the values. -/
theorem forall₂_iff_eq_map {α β : Type} {R : α → β → Prop} {f : α → β} {xs : List α} {ys : List β}
    (h : ∀ x ∈ xs, ∀ y, R x y ↔ y = f x) : List.Forall₂ R xs ys ↔ ys = xs.map f := by
  induction xs generalizing ys with
  | nil => simp
  | cons x xs ih =>
      obtain ⟨hx, hxs⟩ := List.forall_mem_cons.1 h
      simp [List.forall₂_cons_left_iff, hx, ih hxs]

theorem caveats_assemble (config : Config) (pool : EnumPool) (units : List SourceUnit) :
    (assemble config pool units).caveats = (withEarlier units).flatMap fun q =>
      (Assembler.contribution ⟨config, pool, declaredNames units⟩ q.1 q.2).caveats := by
  let a : Assembler := ⟨config, pool, declaredNames units⟩
  have hmodes : (assemble config pool units).caveats = (a.perType units).caveats :=
    (a.caveats_run units).trans (congrArg Report.caveats (a.perType_eq units)).symm
  rw [hmodes, Assembler.perType_eq_join]
  exact List.flatMap_map _ _ _

/-- The caveats of a report are those that its units raise, one unit after the other. -/
theorem caveats_iff_units (config : Config) (pool : EnumPool) (units : List SourceUnit)
    (cs : List Caveat) :
    cs = (assemble config pool units).caveats ↔
      ∃ parts : List (List Caveat),
        List.Forall₂ (fun q => UnitCaveats config pool units q.1 q.2) (withEarlier units) parts ∧
          cs = parts.flatten := by
  have hunit : ∀ q ∈ withEarlier units, ∀ cs, UnitCaveats config pool units q.1 q.2 cs ↔
      cs = (Assembler.contribution ⟨config, pool, declaredNames units⟩ q.1 q.2).caveats := by
    intro q hq cs
    exact ⟨UnitCaveats.eq_contribution, fun h => h ▸ unitCaveats_contribution hq⟩
  simp only [forall₂_iff_eq_map hunit, exists_eq_left]
  rw [caveats_assemble, List.flatMap_def]

/-- A holder refers to strings, points of time and an enum by qualified names, which say what they
are. That leaves a class that is referred to twice and the name of the type of three arguments,
whose arguments are given up. Static fields, interfaces and failures make no guesses. -/
theorem caveats_iff_units_holder :
    let holder : TypeDeclaration :=
      { name := "Holder", kind := .classKind
        fields := [⟨"peer", "com.acme.Peer", false⟩, ⟨"name", "java.lang.String", false⟩,
          ⟨"start", "java.time.Instant", false⟩, ⟨"term", "java.time.Period", false⟩,
          ⟨"tuple", "Tuple<A, B, C>", false⟩, ⟨"colors", "List<acme.Color>", false⟩,
          ⟨"others", "Map<Holder, com.acme.Peer>", false⟩, ⟨"CACHE", "Cache", true⟩] }
    let marker : TypeDeclaration :=
      { name := "Marker", kind := .interfaceKind, fields := [⟨"other", "Other", false⟩] }
    let broken : TypeDeclaration :=
      { name := "Broken", kind := .classKind
        fields := [⟨"other", "Other", false⟩, ⟨"items", "List<", false⟩] }
    let units : List SourceUnit := [.ofType holder, .ofType marker, .ofType broken,
      { package := some "com.acme", primary := some (.enum { name := "Color" }) }]
    let caveats : List Caveat := [.unresolvedShape "Tuple<A, B, C>" 3,
      .ambiguousReference "Tuple" "Holder", .ambiguousReference "com.acme.Peer" "Holder"]
    (assemble {} (.ofUnits units) units).caveats = caveats ∧
      ∃ parts : List (List Caveat),
        List.Forall₂ (fun q => UnitCaveats {} (.ofUnits units) units q.1 q.2) (withEarlier units)
          parts ∧ caveats = parts.flatten := by
  intro holder marker broken units caveats
  have hcaveats : (assemble {} (.ofUnits units) units).caveats = caveats := by decide +kernel
  exact ⟨hcaveats, (caveats_iff_units {} (.ofUnits units) units caveats).1 hcaveats.symm⟩

end ProtoSchema
