import ProtoSchema.Proofs.Report.Fates
import ProtoSchema.Proofs.Report.Locality

/-!
When the drafts of two runs agree. A message is planned alike where its leaves stand for the same
enums and the same names are declared, and a declaration that takes the place of another of its name
changes its own draft alone.
-/

namespace ProtoSchema

def draftsOf (config : Config) (units : List SourceUnit) : List Draft :=
  (Assembler.ofUnits config units).drafts (emittedDeclarations units)

def messageBodies (config : Config) (units : List SourceUnit) : List String :=
  ((draftsOf config units).filter Draft.isMessage).map Draft.body

def enumBodies (config : Config) (units : List SourceUnit) : List String :=
  ((draftsOf config units).filter (!·.isMessage)).map Draft.body

section

variable {config : Config} {units : List SourceUnit}

theorem failures_generate (config : Config) (units : List SourceUnit) :
    (generate ⟨units⟩ config).failures =
      refusals config.excludeFields (emittedDeclarations units) :=
  (Assembler.ofUnits config units).failures_run units

theorem caveats_generate (config : Config) (units : List SourceUnit) :
    (generate ⟨units⟩ config).caveats = (draftsOf config units).flatMap Draft.caveats :=
  (Assembler.ofUnits config units).caveats_run units

theorem documents_of_perType (hmode : config.mode = .perType) :
    (generate ⟨units⟩ config).documents =
      (draftsOf config units).map fun d => d.documentPlan.document config.effectivePackage := by
  refine (documents_assemble config (.ofUnits units) units).trans ?_
  simp [documentPlans, hmode, draftsOf, Assembler.ofUnits]

/-- The one document of an aggregate run: messages before enums. -/
theorem documents_of_aggregate (hmode : config.mode = .aggregate) :
    (generate ⟨units⟩ config).documents =
      [((Assembler.ofUnits config units).combined units).document config.effectivePackage] := by
  refine (documents_assemble config (.ofUnits units) units).trans ?_
  simp [documentPlans, hmode, Assembler.ofUnits]

/-- Every draft of a run is in one of its documents. -/
theorem exists_document_of_mem_draftsOf {d : Draft} (hd : d ∈ draftsOf config units) :
    ∃ document ∈ (generate ⟨units⟩ config).documents, document.Holds d.body := by
  cases hmode : config.mode with
  | perType =>
      rw [documents_of_perType hmode]
      refine ⟨_, List.mem_map_of_mem hd, Document.header config.effectivePackage d.imports, "", ?_⟩
      rw [String.append_empty]
      rfl
  | aggregate =>
      rw [documents_of_aggregate hmode]
      exact ⟨_, List.mem_singleton_self _, Assembler.holds_combined _ hd⟩

end

/-- Pools in which the leaves have the same origins give the same guesses. -/
theorem opaqueNames_congr {pool pool' : EnumPool} {types : List TypeRef}
    (h : ∀ n ∈ types.flatMap TypeRef.leafNames,
      (pool.lookup? n).map PooledEnum.origin = (pool'.lookup? n).map PooledEnum.origin) :
    opaqueNames pool types = opaqueNames pool' types := by
  have hguesses : ∀ n ∈ types.flatMap TypeRef.leafNames, isOpaque pool n = isOpaque pool' n := by
    intro n hn
    rw [isOpaque, isOpaque, contains_congr (h n hn)]
  rw [opaqueNames, opaqueNames, List.filter_congr hguesses]

namespace Assembler

variable {a b : Assembler}

/-- Assemblers that see the same enums and know the same names as declared plan the same message. -/
theorem plan_eq_of_agree {t : TypeDeclaration}
    (hexcluded : a.config.excludeFields = b.config.excludeFields)
    (hpools : t.SeesSameEnums a.config.excludeFields a.pool b.pool)
    (hdeclared : ∀ n, n ∈ a.declared ↔ n ∈ b.declared) : a.plan t = b.plan t := by
  rw [plan, plan, ← hexcluded, t.schemaFields_eq_keptFields]
  cases hread : readFieldTypes (t.keptFields a.config.excludeFields) with
  | error cause => rfl
  | ok r =>
      have hleaves : ∀ n ∈ r.1.flatMap TypeRef.leafNames,
          (a.pool.lookup? n).map PooledEnum.origin = (b.pool.lookup? n).map PooledEnum.origin :=
        fun n hn => hpools n ((refersTo_iff hread n).2 hn)
      have hcontains : ∀ n, a.declared.contains n = b.declared.contains n := fun n => by
        simp only [List.contains_eq_mem, hdeclared]
      simp only [SchemaField.ofFields_congr _ hleaves, importsFor_congr t hleaves,
        opaqueNames_congr hleaves, hcontains]

theorem drafts_congr {ps : List Primary} (h : ∀ t, .type t ∈ ps → a.plan t = b.plan t) :
    a.drafts ps = b.drafts ps := by
  refine List.filterMap_congr ?_
  rintro ⟨earlier, p⟩ hp
  obtain ⟨later, rfl⟩ := mem_withEarlier.1 hp
  cases p with
  | enum e => rfl
  | type t => simp only [outcome, draft, h t (by simp)]

/-- A declaration counts for those after it through its name alone. -/
theorem outcome_replace (ps qs : List Primary) {p p' : Primary} (h : p'.name = p.name)
    (q : Primary) : a.outcome (ps ++ p' :: qs) q = a.outcome (ps ++ p :: qs) q := by
  simp only [outcome, List.map_append, List.map_cons, h]

end Assembler

/-- A declaration that takes the place of another of its name leaves the drafts around it alone. -/
theorem Assembler.exists_drafts_eq {a : Assembler} {ps : List Primary} (qs : List Primary)
    {p p' : Primary} {d d' : Draft} (hname : p'.name = p.name) (h : a.outcome ps p = .ok d)
    (h' : a.outcome ps p' = .ok d') :
    ∃ left right, a.drafts (ps ++ p :: qs) = left ++ d :: right ∧
      a.drafts (ps ++ p' :: qs) = left ++ d' :: right := by
  have hsplit : ∀ {p d}, a.outcome ps p = .ok d → a.drafts (ps ++ p :: qs) =
      a.drafts ps ++
        d :: (withEarlier qs).filterMap fun q => (a.outcome (ps ++ p :: q.1) q.2).toOption := by
    intro p d ho
    rw [drafts, drafts, withEarlier_append, withEarlier, List.map_cons, List.filterMap_append,
      List.filterMap_cons, List.map_map, List.filterMap_map, List.append_nil]
    simp [ho, Except.toOption, Function.comp_def]
  -- Both lists end alike, since those that come after see the name and nothing else.
  refine ⟨_, _, hsplit h, ?_⟩
  simp only [hsplit h', outcome_replace ps _ hname]

end ProtoSchema
