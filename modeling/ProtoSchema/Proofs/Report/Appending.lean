import ProtoSchema.Proofs.Document.Growth
import ProtoSchema.Proofs.Report.EnumFiles
import ProtoSchema.Proofs.Report.Numbering

/-!
Declarations that grow at their end. What is appended to the fields of a class or to the constants
of an enum comes after what is there, so that no field or constant of a schema is renumbered and no
field gets another type, and the rest of the run stays as it is.
-/

namespace ProtoSchema

/-! ### Fields -/

def TypeDeclaration.appendFields (t : TypeDeclaration) (more : List Field) : TypeDeclaration :=
  { t with fields := t.fields ++ more }

section

variable {a : Assembler} {t : TypeDeclaration} {plan : MessagePlan} {more : List Field}

theorem TypeDeclaration.keptFields_appendFields (t : TypeDeclaration) (more : List Field)
    (excluded : List String) :
    ∃ added, (∀ f ∈ added, f ∈ more) ∧
      (t.appendFields more).keptFields excluded = t.keptFields excluded ++ added :=
  ⟨_, fun _ hf => (List.mem_filter.1 hf).1, List.filter_append ..⟩

/-- A message keeps its fields, as they are, when fields that can be read are appended. -/
theorem exists_plan_appendFields (h : a.plan t = .ok plan) (hmore : ∀ f ∈ more, f.fault? = none) :
    ∃ plan' added, a.plan (t.appendFields more) = .ok plan' ∧
      plan'.declaration = t.appendFields more ∧ plan'.fields = plan.fields ++ added := by
  obtain ⟨types, caveats, hread, hdecl, hfields, -, -⟩ := Assembler.plan_eq_ok h
  obtain ⟨added, hsub, hschema⟩ := t.keptFields_appendFields more a.config.excludeFields
  obtain ⟨types', caveats', hread'⟩ := exists_readFieldTypes fun f hf => hmore f (hsub f hf)
  have hboth := readFieldTypes_append hread hread'
  rw [← hschema] at hboth
  obtain ⟨plan', hplan', hdecl', hfields'⟩ := Assembler.exists_plan_of_read hboth
  rw [hschema, List.zip_append (length_of_readFieldTypes hread).symm, SchemaField.ofFields,
    List.mapIdx_append, ← SchemaField.ofFields, ← hfields] at hfields'
  exact ⟨plan', _, hplan', hdecl', hfields'⟩

theorem exists_plan_appendFields_growsBefore (h : a.plan t = .ok plan)
    (hmore : ∀ f ∈ more, f.fault? = none) :
    ∃ plan', a.plan (t.appendFields more) = .ok plan' ∧
      GrowsBefore "\x7d\n\n" plan.render plan'.render := by
  obtain ⟨plan', added, hplan', hdecl', hfields'⟩ := exists_plan_appendFields h hmore
  obtain ⟨-, -, -, hdecl, -⟩ := Assembler.plan_eq_ok h
  refine ⟨plan', hplan', ?_⟩
  rw [MessagePlan.render, MessagePlan.render, hfields', hdecl', hdecl]
  exact Document.message_growsBefore t.name t.nestedEnums plan.fields added

end

def Placement.appendFields {t : TypeDeclaration} (s : Placement t) (more : List Field) :
    Placement (t.appendFields more) where
  before := s.before
  unit := { s.unit with primary := some (.type (t.appendFields more)) }
  after := s.after
  holds := rfl
  emits := s.emits
  first := s.first

theorem Placement.emittedDeclarations_units {t : TypeDeclaration} (s : Placement t) :
    emittedDeclarations s.units =
      emittedDeclarations s.before ++ .type t :: emittedDeclarations s.after :=
  emittedDeclarations_append_cons s.emitted?_unit s.before s.after

theorem Placement.ofUnits_appendFields {t : TypeDeclaration} (s : Placement t) (config : Config)
    (more : List Field) :
    Assembler.ofUnits config (s.appendFields more).units = .ofUnits config s.units := by
  have houtline : (s.appendFields more).units.map SourceUnit.outline =
      s.units.map SourceUnit.outline := by
    have hunit : (s.appendFields more).unit.outline = s.unit.outline := by
      rw [SourceUnit.outline, SourceUnit.outline, SourceUnit.modifyType_of_type s.holds,
        SourceUnit.modifyType_of_type (s.appendFields more).holds]
      rfl
    rw [units, units, List.map_append, List.map_append, List.map_cons, List.map_cons, hunit]
    rfl
  rw [Assembler.ofUnits, Assembler.ofUnits, ← EnumPool.ofUnits_outline,
    ← declaredNames_outline (s.appendFields more).units, houtline, EnumPool.ofUnits_outline,
    declaredNames_outline]

/-- Fields that are appended to a class come at the end of its message, and nothing else in the run
changes. -/
theorem Placement.exists_draftsOf_appendFields {t : TypeDeclaration} (s : Placement t)
    {config : Config} {plan : MessagePlan}
    (h : (Assembler.ofUnits config s.units).plan t = .ok plan) {more : List Field}
    (hmore : ∀ f ∈ more, f.fault? = none) :
    ∃ plan' left right,
      (Assembler.ofUnits config (s.appendFields more).units).plan (t.appendFields more) =
          .ok plan' ∧
        draftsOf config s.units = left ++ .message plan :: right ∧
        draftsOf config (s.appendFields more).units = left ++ .message plan' :: right ∧
        GrowsBefore "\x7d\n\n" plan.render plan'.render := by
  let a := Assembler.ofUnits config s.units
  obtain ⟨plan', hplan', hgrows⟩ := exists_plan_appendFields_growsBefore h hmore
  have hname : Primary.name (.type (t.appendFields more)) = Primary.name (.type t) := rfl
  have ho' : a.outcome (emittedDeclarations s.before) (.type (t.appendFields more)) =
      .ok (.message plan') := (s.appendFields more).outcome_of_ok hplan'
  obtain ⟨left, right, hold, hnew⟩ := Assembler.exists_drafts_eq (emittedDeclarations s.after)
    hname (s.outcome_of_ok h) ho'
  refine ⟨plan', left, right, ?_, ?_, ?_, hgrows⟩
  · rw [s.ofUnits_appendFields, hplan']
  · rw [draftsOf, s.emittedDeclarations_units, hold]
  · rw [draftsOf, s.ofUnits_appendFields, (s.appendFields more).emittedDeclarations_units]
    exact hnew

/-! ### Constants -/

/-- Another enum in the place of one of a message changes its own block alone. -/
theorem Assembler.exists_plan_replaceEnum {a : Assembler} {t : TypeDeclaration}
    {plan : MessagePlan} {preceding following : List EnumDeclaration} {e : EnumDeclaration}
    (h : t.nestedEnums = preceding ++ e :: following) (hplan : a.plan t = .ok plan)
    (e' : EnumDeclaration) :
    ∃ plan' before after,
      a.plan { t with nestedEnums := preceding ++ e' :: following } = .ok plan' ∧
        plan.render = before ++ Document.enumBlock "  " e ++ after ∧
        plan'.render = before ++ Document.enumBlock "  " e' ++ after := by
  let t' : TypeDeclaration := { t with nestedEnums := preceding ++ e' :: following }
  obtain ⟨types, caveats, hread, hdecl, hfields, -, -⟩ := plan_eq_ok hplan
  have hread' : readFieldTypes (t'.keptFields a.config.excludeFields) = .ok (types, caveats) :=
    hread
  obtain ⟨plan', hplan', hdecl', hfields'⟩ := exists_plan_of_read hread'
  have hsame : plan'.fields = plan.fields := hfields'.trans hfields.symm
  obtain ⟨before, after, hmessage⟩ :=
    Document.exists_message_eq t.name plan.fields preceding following
  refine ⟨plan', before, after, hplan', ?_, ?_⟩
  · rw [MessagePlan.render, hdecl, h, hmessage]
  · rw [MessagePlan.render, hdecl', hsame, hmessage]

namespace Primary

/-- The declaration with another enum in the place of the one at an index. -/
def setEnum (i : Nat) (e : EnumDeclaration) : Primary → Primary
  | .type t => .type { t with nestedEnums := t.nestedEnums.set i e }
  | .enum _ => .enum e

def enumIndent : Primary → String
  | .type _ => "  "
  | .enum _ => ""

variable {p : Primary} {preceding following : List EnumDeclaration} {e e' : EnumDeclaration}

theorem eq_of_enums_enum {e₀ : EnumDeclaration}
    (h : (Primary.enum e₀).enums = preceding ++ e :: following) :
    preceding = [] ∧ e₀ = e ∧ following = [] := by
  cases preceding with
  | nil => simpa [enums] using h
  | cons x xs => simp [enums] at h

theorem enums_setEnum (h : p.enums = preceding ++ e :: following) :
    (p.setEnum preceding.length e').enums = preceding ++ e' :: following := by
  cases p with
  | type t =>
      have hnested : t.nestedEnums = preceding ++ e :: following := h
      simp [setEnum, enums, hnested]
  | enum e₀ =>
      obtain ⟨rfl, -, rfl⟩ := eq_of_enums_enum h
      rfl

theorem name_setEnum (h : p.enums = preceding ++ e :: following) (hname : e'.name = e.name) :
    (p.setEnum preceding.length e').name = p.name := by
  cases p with
  | type t => rfl
  | enum e₀ =>
      obtain ⟨-, rfl, -⟩ := eq_of_enums_enum h
      exact hname

theorem exists_draft_setEnum {a : Assembler} {d : Draft} (h : p.enums = preceding ++ e :: following)
    (hd : a.draft p = .ok d) (e' : EnumDeclaration) :
    ∃ d' before after, a.draft (p.setEnum preceding.length e') = .ok d' ∧
      d.body = before ++ Document.enumBlock p.enumIndent e ++ after ∧
      d'.body = before ++ Document.enumBlock p.enumIndent e' ++ after := by
  cases p with
  | enum e₀ =>
      obtain ⟨-, rfl, -⟩ := eq_of_enums_enum h
      cases hd
      refine ⟨.enum e', "", "\n", rfl, ?_, ?_⟩
      · simp [Document.enum, enumIndent]
      · simp [Document.enum, enumIndent]
  | type t =>
      have hnested : t.nestedEnums = preceding ++ e :: following := h
      obtain ⟨plan, hplan, rfl⟩ := Assembler.draft_type_eq_ok.1 hd
      obtain ⟨plan', before, after, hplan', hbody, hbody'⟩ :=
        Assembler.exists_plan_replaceEnum hnested hplan e'
      refine ⟨.message plan', before, after, ?_, hbody, hbody'⟩
      rw [setEnum, hnested, List.set_append_right _ _ (Nat.le_refl _), Nat.sub_self,
        List.set_cons_zero]
      exact Assembler.draft_type_eq_ok.2 ⟨plan', hplan', rfl⟩

end Primary

def PooledEnum.bare (e : PooledEnum) : PooledEnum :=
  { e with declaration := { e.declaration with constants := [] } }

/-- Pools whose enums differ in nothing but constants are the same to a message. -/
theorem EnumPool.origin_lookup?_of_bare {pool pool' : EnumPool}
    (h : pool.entries.map PooledEnum.bare = pool'.entries.map PooledEnum.bare) (n : String) :
    (pool.lookup? n).map PooledEnum.origin = (pool'.lookup? n).map PooledEnum.origin := by
  have hbare : ∀ pool : EnumPool, (pool.entries.map PooledEnum.bare).find? (·.isNamedBy n) =
      (pool.lookup? n).map PooledEnum.bare := fun pool => List.find?_map
  have horigin : PooledEnum.origin ∘ PooledEnum.bare = PooledEnum.origin := rfl
  rw [← horigin, ← Option.map_map, ← Option.map_map, ← hbare, ← hbare, h]

namespace EnumPlace

variable (p : EnumPlace)

def appendConstants (more : List String) : EnumPlace where
  before := p.before
  unit :=
    { p.unit with
      primary := some (p.holder.setEnum p.preceding.length (p.enum.appendConstants more)) }
  after := p.after
  holder := p.holder.setEnum p.preceding.length (p.enum.appendConstants more)
  preceding := p.preceding
  enum := p.enum.appendConstants more
  following := p.following
  holds := rfl
  listed := Primary.enums_setEnum p.listed

theorem name_holder_appendConstants (more : List String) :
    (p.appendConstants more).holder.name = p.holder.name :=
  Primary.name_setEnum p.listed rfl

theorem emitted?_unit : p.unit.emitted? = some p.holder := by
  have hmem : p.enum ∈ p.holder.enums := by simp [p.listed]
  exact SourceUnit.emitted?_eq_some.2 ⟨p.holds, Primary.isEmitted_of_mem_enums hmem⟩

theorem emittedDeclarations_units :
    emittedDeclarations p.units =
      emittedDeclarations p.before ++ p.holder :: emittedDeclarations p.after :=
  emittedDeclarations_append_cons p.emitted?_unit p.before p.after

/-- The constants of an enum count for nothing in the messages of a run. -/
theorem plan_appendConstants (config : Config) (more : List String) (t : TypeDeclaration) :
    (Assembler.ofUnits config (p.appendConstants more).units).plan t =
      (Assembler.ofUnits config p.units).plan t := by
  have hentries : (p.appendConstants more).pool.entries.map PooledEnum.bare =
      p.pool.entries.map PooledEnum.bare := by
    rw [entries_pool, entries_pool, List.map_append, List.map_append, List.map_cons, List.map_cons]
    rfl
  have hdeclared : declaredNames (p.appendConstants more).units = declaredNames p.units := by
    have hname : (p.appendConstants more).unit.primaryName? = p.unit.primaryName? := by
      rw [SourceUnit.primaryName?, SourceUnit.primaryName?, p.holds,
        (p.appendConstants more).holds, Option.map_some, Option.map_some,
        p.name_holder_appendConstants]
    rw [declaredNames, declaredNames, units, units, List.filterMap_append, List.filterMap_append,
      List.filterMap_cons, List.filterMap_cons, hname]
    rfl
  refine Assembler.plan_eq_of_agree rfl (fun n _ => EnumPool.origin_lookup?_of_bare hentries n) ?_
  intro n
  exact iff_of_eq (congrArg (n ∈ ·) hdeclared)

/-- Constants that are appended to an enum come at the end of its block, and nothing else in the run
changes. -/
theorem exists_draftsOf_appendConstants {config : Config} {d : Draft}
    (h : (Assembler.ofUnits config p.units).outcome (emittedDeclarations p.before) p.holder = .ok d)
    (more : List String) :
    ∃ d' left right before after,
      draftsOf config p.units = left ++ d :: right ∧
        draftsOf config (p.appendConstants more).units = left ++ d' :: right ∧
        d.body = before ++ Document.enumBlock p.holder.enumIndent p.enum ++ after ∧
        d'.body = before ++
          Document.enumBlock p.holder.enumIndent (p.enum.appendConstants more) ++ after := by
  let a := Assembler.ofUnits config p.units
  obtain ⟨hfirst, hdraft⟩ := Assembler.outcome_eq_ok.1 h
  obtain ⟨d', before, after, hdraft', hbody, hbody'⟩ :=
    Primary.exists_draft_setEnum p.listed hdraft (p.enum.appendConstants more)
  have hname := p.name_holder_appendConstants more
  have h' : a.outcome (emittedDeclarations p.before) (p.appendConstants more).holder = .ok d' :=
    Assembler.outcome_eq_ok.2 ⟨by rwa [hname], hdraft'⟩
  obtain ⟨left, right, hold, hnew⟩ :=
    Assembler.exists_drafts_eq (emittedDeclarations p.after) hname h h'
  refine ⟨d', left, right, before, after, ?_, ?_, hbody, hbody'⟩
  · rw [draftsOf, p.emittedDeclarations_units, hold]
  · rw [draftsOf, Assembler.drafts_congr fun t _ => p.plan_appendConstants config more t,
      (p.appendConstants more).emittedDeclarations_units]
    exact hnew

end EnumPlace

/-- The fields of messages and the constants of enums are numbered in the order of their
declaration, whatever of a run comes into its documents. When fields that can be read are appended
to a class, or constants to an enum, its message or its block grows before the closing brace, and
every other draft stays as it is. -/
theorem numbers_are_stable (config : Config) :
    (∀ units, ∀ d ∈ draftsOf config units,
        (∃ p ∈ emittedDeclarations units, d.name = p.name ∧
            NumberedText (.ofUnits units) config.excludeFields p d.body) ∧
          ∃ document ∈ (generate ⟨units⟩ config).documents, document.Holds d.body) ∧
      (∀ (t : TypeDeclaration) (s : Placement t) (plan : MessagePlan) (more : List Field),
        (Assembler.ofUnits config s.units).plan t = .ok plan → (∀ f ∈ more, f.fault? = none) →
          ∃ plan' left right,
            draftsOf config s.units = left ++ .message plan :: right ∧
              draftsOf config (s.appendFields more).units = left ++ .message plan' :: right ∧
              MessageText s.pool config.excludeFields t plan.render ∧
              MessageText (s.appendFields more).pool config.excludeFields (t.appendFields more)
                plan'.render ∧
              GrowsBefore "\x7d\n\n" plan.render plan'.render) ∧
      ∀ (p : EnumPlace) (d : Draft) (more : List String),
        (Assembler.ofUnits config p.units).outcome (emittedDeclarations p.before) p.holder = .ok d →
          ∃ d' left right before after block block',
            draftsOf config p.units = left ++ d :: right ∧
              draftsOf config (p.appendConstants more).units = left ++ d' :: right ∧
              d.body = before ++ block ++ after ∧ d'.body = before ++ block' ++ after ∧
              EnumText p.holder.enumIndent p.enum block ∧
              EnumText p.holder.enumIndent (p.enum.appendConstants more) block' ∧
              GrowsBefore "\x7d\n" block block' := by
  refine ⟨fun units d hd => ⟨exists_numberedText_of_mem_draftsOf hd,
    exists_document_of_mem_draftsOf hd⟩, ?_, ?_⟩
  · intro t s plan more h hmore
    obtain ⟨plan', left, right, hplan', hold, hnew, hgrows⟩ :=
      s.exists_draftsOf_appendFields h hmore
    exact ⟨plan', left, right, hold, hnew, messageText_of_plan h, messageText_of_plan hplan',
      hgrows⟩
  · intro p d more h
    obtain ⟨d', left, right, before, after, hold, hnew, hbody, hbody'⟩ :=
      p.exists_draftsOf_appendConstants h more
    exact ⟨d', left, right, before, after, _, _, hold, hnew, hbody, hbody', enumText_enumBlock _ _,
      enumText_enumBlock _ _, Document.enumBlock_growsBefore _ _ _⟩

/-- A class with an enum grows by a static field, one that is excluded and another one, which gets
the next number, and its enum grows by a constant. -/
theorem numbers_are_stable_order :
    let order : TypeDeclaration :=
      { name := "Order", kind := .classKind
        fields := [⟨"COUNT", "int", true⟩, ⟨"note", "String", false⟩, ⟨"id", "long", false⟩]
        nestedEnums := [⟨"Status", some "Order", ["NEW"]⟩] }
    let more : List Field :=
      [⟨"LIMIT", "int", true⟩, ⟨"note", "String", false⟩, ⟨"states", "List<Status>", false⟩]
    let color : SourceUnit := .ofEnum { name := "Color" }
    let config : Config := { excludeFields := ["note"] }
    let s : Placement order := ⟨[color], .ofType order, [], rfl, rfl, by decide⟩
    let p : EnumPlace :=
      { before := [color], unit := .ofType order, after := [], holder := .type order
        preceding := [], enum := ⟨"Status", some "Order", ["NEW"]⟩, following := [], holds := rfl
        listed := rfl }
    (∃ plan plan', .message plan ∈ draftsOf config s.units ∧
        .message plan' ∈ draftsOf config (s.appendFields more).units ∧
        plan.render = "message Order \x7b\n  enum Status \x7b\n    NEW = 0;\n  \x7d\n\n" ++
          "  int64 id = 1;\n\x7d\n\n" ∧
        plan'.render = "message Order \x7b\n  enum Status \x7b\n    NEW = 0;\n  \x7d\n\n" ++
          "  int64 id = 1;\n  repeated Status states = 2;\n\x7d\n\n" ∧
        (∃ document ∈ (generate ⟨(s.appendFields more).units⟩ config).documents,
          document.Holds plan'.render) ∧
        GrowsBefore "\x7d\n\n" plan.render plan'.render) ∧
      ∃ d' ∈ draftsOf config (p.appendConstants ["SENT"]).units, ∃ before block after,
        d'.body = before ++ block ++ after ∧
          EnumText "  " ⟨"Status", some "Order", ["NEW", "SENT"]⟩ block := by
  intro order more color config s p
  obtain ⟨hnumbered, hfields, hconstants⟩ := numbers_are_stable config
  obtain ⟨plan, hplan⟩ : ∃ plan, (Assembler.ofUnits config s.units).plan order = .ok plan :=
    Assembler.exists_plan_iff.2 (by decide +kernel)
  obtain ⟨plan', left, right, hold, hnew, -, -, hgrows⟩ :=
    hfields order s plan more hplan (by decide +kernel)
  have hmem : .message plan ∈ draftsOf config s.units := by simp [hold]
  have hmem' : .message plan' ∈ draftsOf config (s.appendFields more).units := by simp [hnew]
  -- The run has one message, so a message of it has the text of that one.
  have hrender : ∀ d ∈ draftsOf config s.units, d.isMessage = true → d.body =
      "message Order \x7b\n  enum Status \x7b\n    NEW = 0;\n  \x7d\n\n" ++
        "  int64 id = 1;\n\x7d\n\n" := by decide +kernel
  have hrender' : ∀ d ∈ draftsOf config (s.appendFields more).units, d.isMessage = true → d.body =
      "message Order \x7b\n  enum Status \x7b\n    NEW = 0;\n  \x7d\n\n" ++
        "  int64 id = 1;\n  repeated Status states = 2;\n\x7d\n\n" := by decide +kernel
  obtain ⟨d', left', right', before, after, -, block, -, hnew', -, hbody, -, htext, -⟩ :=
    hconstants p (.message plan) ["SENT"] (s.outcome_of_ok hplan)
  exact ⟨⟨plan, plan', hmem, hmem', hrender _ hmem rfl, hrender' _ hmem' rfl,
    (hnumbered _ _ hmem').2, hgrows⟩, d', by simp [hnew'], before, block, after, hbody, htext⟩

end ProtoSchema
