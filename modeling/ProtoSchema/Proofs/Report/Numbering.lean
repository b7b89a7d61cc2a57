import ProtoSchema.Proofs.Report.Agreement

/-!
The numbers of fields and constants. The lines of a message are its schema fields in the order of
their declaration, counted from one, and the lines of an enum are its constants, counted from zero.
-/

namespace ProtoSchema

/-- The lines of schema fields. Each has the schema type that the declared type of its field is read
as, the name of the field, and its place among the schema fields, counted from one. -/
structure FieldLines (pool : EnumPool) (fields : List Field) (lines : List String) : Prop where
  length_eq : lines.length = fields.length
  line : ∀ (k : Nat) f, fields[k]? = some f → ∃ r, TypeRef.read f.declaredType = .ok r ∧
    lines[k]? = some
      ("  " ++ r.ref.schemaType pool ++ " " ++ f.name ++ " = " ++ toString (k + 1) ++ ";\n")

structure ConstantLines (indent : String) (constants lines : List String) : Prop where
  length_eq : lines.length = constants.length
  line : ∀ (i : Nat) c, constants[i]? = some c →
    lines[i]? = some (indent ++ "  " ++ c ++ " = " ++ toString i ++ ";\n")

/-- The text of an enum: its lines, and none besides, between braces. -/
def EnumText (indent : String) (e : EnumDeclaration) (text : String) : Prop :=
  ∃ lines, ConstantLines indent e.constants lines ∧
    text = indent ++ "enum " ++ e.name ++ " \x7b\n" ++ String.join lines ++ indent ++ "\x7d\n"

/-- The text of a message: its enums and then its lines, and none besides, between braces. -/
def MessageText (pool : EnumPool) (excluded : List String) (t : TypeDeclaration) (text : String) :
    Prop :=
  ∃ enums lines, List.Forall₂ (EnumText "  ") t.nestedEnums enums ∧
    FieldLines pool (t.keptFields excluded) lines ∧
    text = "message " ++ t.name ++ " \x7b\n" ++
      "\n".intercalate (enums ++ if lines.isEmpty then [] else [String.join lines]) ++ "\x7d\n\n"

def NumberedText (pool : EnumPool) (excluded : List String) (p : Primary) (text : String) : Prop :=
  match p with
  | .type t => MessageText pool excluded t text
  | .enum e => ∃ block, EnumText "" e block ∧ text = block ++ "\n"

theorem enumText_enumBlock (indent : String) (e : EnumDeclaration) :
    EnumText indent e (Document.enumBlock indent e) := by
  refine ⟨(Document.constants e).map (Document.constantLine indent), ⟨?_, ?_⟩, rfl⟩
  · simp [Document.constants]
  · intro i c hc
    simp [Document.constants, hc, Document.constantLine]

section

variable {a : Assembler} {t : TypeDeclaration} {plan : MessagePlan}

theorem fieldLines_of_plan (h : a.plan t = .ok plan) :
    FieldLines a.pool (t.keptFields a.config.excludeFields)
      (plan.fields.map Document.fieldLine) := by
  obtain ⟨types, caveats, hread, -, hfields, -, -⟩ := Assembler.plan_eq_ok h
  rw [hfields]
  constructor
  · simp [SchemaField.ofFields, length_of_readFieldTypes hread]
  · intro k f hf
    obtain ⟨r, hr, htype⟩ := exists_read_of_readFieldTypes hread hf
    refine ⟨r, hr, ?_⟩
    have hzip : ((t.keptFields a.config.excludeFields).zip types)[k]? = some (f, r.ref) :=
      List.getElem?_zip_eq_some.2 ⟨hf, htype⟩
    simp [SchemaField.ofFields, hzip, Document.fieldLine]

theorem messageText_of_plan (h : a.plan t = .ok plan) :
    MessageText a.pool a.config.excludeFields t plan.render := by
  obtain ⟨-, -, -, rfl, -⟩ := Assembler.plan_eq_ok h
  refine ⟨plan.declaration.nestedEnums.map (Document.enumBlock "  "), _, ?_, fieldLines_of_plan h,
    ?_⟩
  · exact List.forall₂_map_right_iff.2 (List.forall₂_same.2 fun e _ => enumText_enumBlock "  " e)
  · rw [MessagePlan.render, Document.message, Document.messageBlocks, List.isEmpty_map]

/-- What comes of a declaration is numbered. -/
theorem numberedText_of_outcome {earlier : List Primary} {p : Primary} {d : Draft}
    (ho : a.outcome earlier p = .ok d) :
    NumberedText a.pool a.config.excludeFields p d.body := by
  cases p with
  | enum e =>
      rw [Assembler.enum_of_outcome ho]
      exact ⟨_, enumText_enumBlock "" e, rfl⟩
  | type t =>
      obtain ⟨plan, hplan, rfl⟩ := Assembler.plan_of_outcome ho
      exact messageText_of_plan hplan

/-- Every draft of a run is that of a declaration, and is numbered. -/
theorem exists_numberedText_of_mem_draftsOf {config : Config} {units : List SourceUnit} {d : Draft}
    (hd : d ∈ draftsOf config units) :
    ∃ p ∈ emittedDeclarations units, d.name = p.name ∧
      NumberedText (.ofUnits units) config.excludeFields p d.body := by
  obtain ⟨earlier, p, hp, ho⟩ := Assembler.mem_drafts.1 hd
  obtain ⟨later, hsplit⟩ := mem_withEarlier.1 hp
  exact ⟨p, by simp [hsplit], Assembler.name_of_outcome ho, numberedText_of_outcome ho⟩

end

end ProtoSchema
