import ProtoSchema.Proofs.Report.Agreement

/-!
The order of the units. Where the declarations of a run have names of their own, each is judged by
itself, and where no reference is to several enums, the pool finds the same enum in whatever order
it has them. Units in another order then give the same drafts in another order.
-/

namespace ProtoSchema

/-- A search finds the same in another order where there is at most one thing to find. -/
theorem find?_eq_of_perm {α : Type} {l l' : List α} {p : α → Bool} (h : l.Perm l')
    (hone : (l.filter p).length ≤ 1) : l.find? p = l'.find? p := by
  have hfilter : (l'.filter p).Perm (l.filter p) := (h.filter p).symm
  rw [← List.head?_filter, ← List.head?_filter]
  cases hfound : l.filter p with
  | nil =>
      rw [hfound] at hfilter
      rw [hfilter.eq_nil]
  | cons x xs =>
      obtain rfl : xs = [] := by simpa [hfound] using hone
      rw [hfound] at hfilter
      rw [hfilter.eq_singleton]

/-! ### Declarations by themselves -/

theorem map_snd_withEarlier {α : Type} (xs : List α) : (withEarlier xs).map Prod.snd = xs := by
  induction xs with
  | nil => rfl
  | cons x xs ih => simpa [withEarlier, Function.comp_def] using ih

theorem filterMap_withEarlier {α β : Type} {xs : List α} {f : List α × α → Option β}
    {g : α → Option β} (h : ∀ q ∈ withEarlier xs, f q = g q.2) :
    (withEarlier xs).filterMap f = xs.filterMap g := by
  calc
    (withEarlier xs).filterMap f = (withEarlier xs).filterMap (g ∘ Prod.snd) :=
      List.filterMap_congr h
    _ = ((withEarlier xs).map Prod.snd).filterMap g := List.filterMap_map.symm
    _ = xs.filterMap g := by rw [map_snd_withEarlier]

section

variable {ps : List Primary}

theorem notMem_names_of_nodup (h : (ps.map Primary.name).Nodup) {earlier : List Primary}
    {p : Primary} (hp : (earlier, p) ∈ withEarlier ps) : p.name ∉ earlier.map Primary.name := by
  obtain ⟨later, rfl⟩ := mem_withEarlier.1 hp
  rw [List.map_append, List.map_cons, List.nodup_append] at h
  intro hmem
  exact h.2.2 _ hmem _ List.mem_cons_self rfl

/-- Declarations with names of their own become drafts each by itself. -/
theorem Assembler.drafts_eq_filterMap (a : Assembler) (h : (ps.map Primary.name).Nodup) :
    a.drafts ps = ps.filterMap fun p => (a.draft p).toOption := by
  refine filterMap_withEarlier ?_
  rintro ⟨earlier, p⟩ hp
  rw [outcome_of_notMem (notMem_names_of_nodup h hp)]

/-- Declarations with names of their own are refused each by itself. -/
theorem refusals_eq_filterMap (excluded : List String) (h : (ps.map Primary.name).Nodup) :
    refusals excluded ps =
      ps.filterMap fun p => (refusal? excluded [] p).map (Failure.mk p.name) := by
  refine filterMap_withEarlier ?_
  rintro ⟨earlier, p⟩ hp
  have hsame : refusal? excluded earlier p = refusal? excluded [] p := by
    simp [refusal?, notMem_names_of_nodup h hp]
  rw [hsame]

end

/-! ### Units in another order -/

/-- Whether the declarations that claim names claim different ones, and no schema field refers to a
name that several enums have. -/
structure Unambiguous (excluded : List String) (units : List SourceUnit) : Prop where
  names : (claimedNames units).Nodup
  references : ∀ u ∈ units, ∀ t, u.primary = some (.type t) → ∀ n, t.RefersTo excluded n →
    ((EnumPool.ofUnits units).entries.filter (·.isNamedBy n)).length ≤ 1

section

variable {config : Config} {units units' : List SourceUnit}

theorem draft_of_perm (h : units.Perm units') (hclear : Unambiguous config.excludeFields units)
    {p : Primary} (hp : p ∈ emittedDeclarations units) :
    (Assembler.ofUnits config units).draft p = (Assembler.ofUnits config units').draft p := by
  cases p with
  | enum e => rfl
  | type t =>
      obtain ⟨u, hu, hemitted⟩ := List.mem_filterMap.1 hp
      have hprimary := (SourceUnit.emitted?_eq_some.1 hemitted).1
      -- The pools list the same enums, and of those at most one has the name.
      have hpools : t.SeesSameEnums config.excludeFields (.ofUnits units) (.ofUnits units') := by
        intro n hn
        have hentries : (EnumPool.ofUnits units).entries.Perm (EnumPool.ofUnits units').entries :=
          h.flatMap_right _
        rw [EnumPool.lookup?, EnumPool.lookup?,
          find?_eq_of_perm hentries (hclear.references u hu t hprimary n hn)]
      have hplan : (Assembler.ofUnits config units).plan t =
          (Assembler.ofUnits config units').plan t :=
        Assembler.plan_eq_of_agree rfl hpools fun n => (h.filterMap _).mem_iff
      rw [Assembler.draft, Assembler.draft, hplan]

theorem emittedDeclarations_perm (h : units.Perm units') :
    (emittedDeclarations units).Perm (emittedDeclarations units') := h.filterMap _

theorem nodup_claimedNames_of_perm (h : units.Perm units') (hnames : (claimedNames units).Nodup) :
    (claimedNames units').Nodup :=
  ((emittedDeclarations_perm h).map Primary.name).nodup_iff.1 hnames

/-- The drafts of a run do not depend on the order of its units. -/
theorem draftsOf_perm (h : units.Perm units') (hclear : Unambiguous config.excludeFields units) :
    (draftsOf config units).Perm (draftsOf config units') := by
  rw [draftsOf, draftsOf, Assembler.drafts_eq_filterMap _ hclear.names,
    Assembler.drafts_eq_filterMap _ (nodup_claimedNames_of_perm h hclear.names),
    List.filterMap_congr fun p hp => congrArg Except.toOption (draft_of_perm h hclear hp)]
  exact (emittedDeclarations_perm h).filterMap _

theorem refusals_perm (excluded : List String) (h : units.Perm units')
    (hnames : (claimedNames units).Nodup) :
    (refusals excluded (emittedDeclarations units)).Perm
      (refusals excluded (emittedDeclarations units')) := by
  rw [refusals_eq_filterMap excluded hnames,
    refusals_eq_filterMap excluded (nodup_claimedNames_of_perm h hnames)]
  exact (emittedDeclarations_perm h).filterMap _

theorem imports_combined_of_perm (h : units.Perm units')
    (hclear : Unambiguous config.excludeFields units) :
    ((Assembler.ofUnits config units).combined units).imports =
      ((Assembler.ofUnits config units').combined units').imports := by
  have hdeclared : ∀ n, n ∈ declaredNames units ↔ n ∈ declaredNames units' := fun n =>
    (h.filterMap _).mem_iff
  ext path
  rw [Assembler.mem_imports_combined, Assembler.mem_imports_combined]
  exact and_congr (exists_congr fun d => and_congr_left' (draftsOf_perm h hclear).mem_iff)
    (not_congr (hdeclared _))

end

/-- Where nothing is ambiguous, the order of the units shows in nothing but the order of what comes
of them. The one document of an aggregate run keeps its name and its header. -/
theorem unit_order_is_immaterial (config : Config) {units units' : List SourceUnit}
    (h : units.Perm units') (hclear : Unambiguous config.excludeFields units) :
    (generate ⟨units⟩ config).failures.Perm (generate ⟨units'⟩ config).failures ∧
      (generate ⟨units⟩ config).caveats.Perm (generate ⟨units'⟩ config).caveats ∧
      match config.mode with
      | .perType => (generate ⟨units⟩ config).documents.Perm (generate ⟨units'⟩ config).documents
      | .aggregate =>
          (messageBodies config units).Perm (messageBodies config units') ∧
            (enumBodies config units).Perm (enumBodies config units') ∧
            ∃ imports : NameSet, ∀ us ∈ [units, units'], (generate ⟨us⟩ config).documents =
              [⟨schemaFileName config.projectName,
                Document.header config.effectivePackage imports ++
                  String.join (messageBodies config us) ++
                  String.join (enumBodies config us)⟩] := by
  have hdrafts := draftsOf_perm h hclear
  refine ⟨?_, ?_, ?_⟩
  · rw [failures_generate, failures_generate]
    exact refusals_perm config.excludeFields h hclear.names
  · rw [caveats_generate, caveats_generate]
    exact hdrafts.flatMap_right _
  · cases hmode : config.mode with
    | perType =>
        simp only [documents_of_perType hmode]
        exact hdrafts.map _
    | aggregate =>
        let imports := ((Assembler.ofUnits config units).combined units).imports
        refine ⟨(hdrafts.filter _).map _, (hdrafts.filter _).map _, imports, fun us hus => ?_⟩
        have himports : ((Assembler.ofUnits config us).combined us).imports = imports := by
          rcases List.mem_pair.1 hus with rfl | rfl
          · rfl
          · exact (imports_combined_of_perm h hclear).symm
        rw [documents_of_aggregate hmode, ← himports]
        exact congrArg (fun document => [document]) (Assembler.document_combined _ us)

/-- An enum, a class that refers to it, to an enum of its own and to something unknown, and a class
that cannot be read: the last unit comes first, and the reports agree but for their order. -/
theorem unit_order_is_immaterial_rotated :
    let state : SourceUnit := .ofEnum { name := "State", constants := ["OPEN"] }
    let order : TypeDeclaration :=
      { name := "Order", kind := .classKind
        fields := [⟨"state", "State", false⟩, ⟨"kinds", "List<Order.Kind>", false⟩,
          ⟨"note", "Note", false⟩]
        nestedEnums := [⟨"Kind", some "Order", ["SMALL"]⟩] }
    let broken : TypeDeclaration :=
      { name := "Broken", kind := .classKind, fields := [⟨"items", "List<", false⟩] }
    let units := [state, .ofType order, .ofType broken]
    let units' := [.ofType broken, state, .ofType order]
    units.Perm units' ∧ Unambiguous [] units ∧
      (generate ⟨units⟩ {}).documents.Perm (generate ⟨units'⟩ {}).documents ∧
      (generate ⟨units⟩ {}).failures.Perm (generate ⟨units'⟩ {}).failures := by
  intro state order broken units units'
  have hperm : units.Perm units' := by decide +kernel
  have hclear : Unambiguous [] units := by
    refine ⟨by decide +kernel, ?_⟩
    have horder : ∀ n, order.RefersTo [] n ↔ n ∈ ["State", "Order.Kind", "Note"] :=
      refersTo_iff_of_leafNames (by decide +kernel)
    have hbroken : ∀ n, ¬ broken.RefersTo [] n := by
      rintro n ⟨f, hf, r, hr, -⟩
      have hfault : ∀ f ∈ broken.keptFields [], f.fault? ≠ none := by decide +kernel
      exact hfault f hf (by rw [Field.fault?, hr])
    have hfew : ∀ n ∈ ["State", "Order.Kind", "Note"],
        ((EnumPool.ofUnits units).entries.filter (·.isNamedBy n)).length ≤ 1 := by decide +kernel
    intro u hu t ht n hn
    simp only [units, List.mem_cons, List.not_mem_nil, or_false] at hu
    rcases hu with rfl | rfl | rfl <;> cases ht
    · exact hfew n ((horder n).1 hn)
    · exact absurd hn (hbroken n)
  obtain ⟨hfailures, -, hdocuments⟩ := unit_order_is_immaterial {} hperm hclear
  exact ⟨hperm, hclear, hdocuments, hfailures⟩

end ProtoSchema
