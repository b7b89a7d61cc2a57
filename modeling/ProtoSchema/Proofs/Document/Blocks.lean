import ProtoSchema.Proofs.Document.Identifiers
import ProtoSchema.Proofs.Text.Blocks

/-!
The messages and enums in a text. A field or constant is a line that ends with a semicolon, and the
blocks around it open and close with braces; so where all names are identifiers, the text that a
message or an enum begins says what is in it and what follows it. An enum is written without the
type that it is nested in.
-/

namespace ProtoSchema

open Text (TellsBlocks NoBlock IsLine)

structure MessageParts where
  name : String
  fields : List SchemaField
  nested : List EnumDeclaration
  deriving DecidableEq, Repr

def EnumDeclaration.unplaced (e : EnumDeclaration) : EnumDeclaration :=
  { e with enclosingType := none }

namespace MessageParts

def text (m : MessageParts) : String := Document.message m.name m.fields m.nested

def unplaced (m : MessageParts) : MessageParts :=
  { m with nested := m.nested.map EnumDeclaration.unplaced }

end MessageParts

theorem Document.enumBlock_unplaced (indent : String) (e : EnumDeclaration) :
    enumBlock indent e.unplaced = enumBlock indent e := rfl

theorem Document.enum_unplaced (e : EnumDeclaration) : enum e.unplaced = enum e := rfl

/-- The type that an enum is nested in is not written. -/
theorem MessageParts.text_unplaced (m : MessageParts) : m.unplaced.text = m.text := by
  simp [text, unplaced, Document.message, Document.messageBlocks, Function.comp_def,
    Document.enumBlock_unplaced]

/-! ### Names -/

structure SchemaField.WellNamed (f : SchemaField) : Prop where
  name : IsWord f.name
  schemaType : IsSchemaType f.schemaType

structure EnumDeclaration.WellNamed (e : EnumDeclaration) : Prop where
  name : IsWord e.name
  constants : ∀ c ∈ e.constants, IsWord c

structure MessageParts.WellNamed (m : MessageParts) : Prop where
  name : IsWord m.name
  fields : ∀ f ∈ m.fields, f.WellNamed
  nested : ∀ e ∈ m.nested, e.WellNamed

namespace Document

/-! ### Lines -/

/-- A line that gives a number to a name: a field after its type, or a constant after its indent. -/
def numberedLine (lead : List Char) (name : String) (ordinal : Nat) : List Char :=
  lead ++ ' ' :: name.toList ++ [' ', '='] ++ ' ' :: (toString ordinal).toList ++ [';']

theorem isLine_numberedLine {lead : List Char} {name : String} (hlead : '\n' ∉ lead)
    (hname : IsWord name) (ordinal : Nat) : IsLine (numberedLine lead name ordinal) ';' := by
  have hword : '\n' ∉ name.toList := notMem_of_isWord hname (by decide)
  have hdigits : '\n' ∉ (toString ordinal).toList := fun h => by
    cases isDigit_of_mem_toString h
  apply Text.isLine_concat _ (by decide)
  simp only [List.mem_append, List.mem_cons, not_or]
  exact ⟨⟨⟨hlead, by decide, hword⟩, by decide, by decide, by simp⟩, by decide, hdigits⟩

/-- The number follows the last blank of its line, and the name the last blank but two. -/
theorem numberedLine_inj {lead lead' : List Char} {name name' : String} {ordinal ordinal' : Nat}
    (hname : IsWord name) (hname' : IsWord name')
    (h : numberedLine lead name ordinal = numberedLine lead' name' ordinal') :
    lead = lead' ∧ name = name' ∧ ordinal = ordinal' := by
  have hdigits : ∀ n : Nat, ' ' ∉ (toString n).toList := fun n h => by
    cases isDigit_of_mem_toString h
  obtain ⟨hfront, hordinal⟩ := Text.append_sep_inj_of_notMem_right (hdigits _) (hdigits _)
    (List.append_cancel_right h)
  obtain ⟨hlead, hword⟩ := Text.append_sep_inj_of_notMem_right
    (notMem_of_isWord hname (by decide)) (notMem_of_isWord hname' (by decide))
    (List.append_cancel_right hfront)
  exact ⟨hlead, String.toList_inj.1 hword, eq_of_toList_toString_eq hordinal⟩

def opening (lead name : String) : List Char :=
  lead.toList ++ name.toList ++ [' '] ++ ['\x7b']

theorem isLine_opening {lead name : String} (hlead : '\n' ∉ lead.toList) (hname : IsWord name) :
    IsLine (opening lead name) '\x7b' := by
  have hword : '\n' ∉ name.toList := notMem_of_isWord hname (by decide)
  exact Text.isLine_concat (by simp [hlead, hword]) (by decide)

theorem opening_inj {lead name name' : String} (h : opening lead name = opening lead name') :
    name = name' :=
  String.toList_inj.1 (by simpa [opening] using h)

/-! ### Fields -/

theorem toList_fieldLine_append (f : SchemaField) (r : List Char) :
    (fieldLine f).toList ++ r =
      numberedLine (' ' :: ' ' :: f.schemaType.toList) f.name f.ordinal ++ '\n' :: r := by
  simp [fieldLine, numberedLine]

theorem isLine_fieldLine {f : SchemaField} (hf : f.WellNamed) :
    IsLine (numberedLine (' ' :: ' ' :: f.schemaType.toList) f.name f.ordinal) ';' := by
  have htype := newline_notMem_of_isSchemaType hf.schemaType
  exact isLine_numberedLine (by simp [htype]) hf.name _

theorem fieldLine_tellsBlocks :
    TellsBlocks SchemaField.WellNamed (fun f => (fieldLine f).toList) id := by
  intro f f' r r' hf hf' h
  simp only [toList_fieldLine_append] at h
  obtain ⟨hline, hrest⟩ := (isLine_fieldLine hf).append_inj (isLine_fieldLine hf') h
  obtain ⟨hlead, hname, hordinal⟩ := numberedLine_inj hf.name hf'.name hline
  have htype : f.schemaType = f'.schemaType := String.toList_inj.1 (by simpa using hlead)
  cases f
  cases f'
  cases hname
  cases hordinal
  cases htype
  exact ⟨rfl, hrest⟩

/-! ### Enums -/

section

variable {indent : String}

theorem toList_constantLine_append (indent : String) (c : SchemaConstant) (r : List Char) :
    (constantLine indent c).toList ++ r =
      numberedLine (indent.toList ++ [' ']) c.name c.ordinal ++ '\n' :: r := by
  simp [constantLine, numberedLine]

def enumClosing (indent : String) : List Char := indent.toList ++ ['\x7d']

theorem toList_enumBlock_append (indent : String) (e : EnumDeclaration) (r : List Char) :
    (enumBlock indent e).toList ++ r =
      opening (indent ++ "enum ") e.name ++ '\n' ::
        ((constants e).flatMap (fun c => (constantLine indent c).toList) ++
          (enumClosing indent ++ '\n' :: r)) := by
  simp [enumBlock, opening, enumClosing, List.flatMap_map]

theorem isLine_constantLine (hindent : '\n' ∉ indent.toList) {c : SchemaConstant}
    (hc : IsWord c.name) :
    IsLine (numberedLine (indent.toList ++ [' ']) c.name c.ordinal) ';' :=
  isLine_numberedLine (by simp [hindent]) hc _

theorem isLine_enumClosing (hindent : '\n' ∉ indent.toList) :
    IsLine (enumClosing indent) '\x7d' :=
  Text.isLine_concat hindent (by decide)

theorem constantLine_tellsBlocks (hindent : '\n' ∉ indent.toList) :
    TellsBlocks (fun c : SchemaConstant => IsWord c.name)
      (fun c => (constantLine indent c).toList) id := by
  intro c c' r r' hc hc' h
  simp only [toList_constantLine_append] at h
  obtain ⟨hline, hrest⟩ :=
    (isLine_constantLine hindent hc).append_inj (isLine_constantLine hindent hc') h
  obtain ⟨-, hname, hordinal⟩ := numberedLine_inj hc hc' hline
  cases c
  cases c'
  cases hname
  cases hordinal
  exact ⟨rfl, hrest⟩

theorem noBlock_enumClosing (hindent : '\n' ∉ indent.toList) (r : List Char) :
    NoBlock (fun c : SchemaConstant => IsWord c.name)
      (fun c => (constantLine indent c).toList) (enumClosing indent ++ '\n' :: r) := by
  intro c s hc
  rw [toList_constantLine_append]
  exact (isLine_constantLine hindent hc).append_ne (isLine_enumClosing hindent) (by decide)

theorem map_name_constants (e : EnumDeclaration) :
    (constants e).map SchemaConstant.name = e.constants := by
  apply List.ext_getElem <;> simp [constants]

theorem isWord_of_mem_constants {e : EnumDeclaration} (he : e.WellNamed) :
    ∀ c ∈ constants e, IsWord c.name := by
  intro c hc
  apply he.constants
  rw [← map_name_constants e]
  exact List.mem_map_of_mem hc

theorem enumBlock_tellsBlocks (hindent : '\n' ∉ indent.toList) :
    TellsBlocks EnumDeclaration.WellNamed (fun e => (enumBlock indent e).toList)
      EnumDeclaration.unplaced := by
  intro e e' r r' he he' h
  simp only [toList_enumBlock_append] at h
  have hlead : '\n' ∉ (indent ++ "enum ").toList := by simp [hindent]
  obtain ⟨hopening, hbody⟩ :=
    (isLine_opening hlead he.name).append_inj (isLine_opening hlead he'.name) h
  have hname : e.name = e'.name := opening_inj hopening
  obtain ⟨hconstants, hrest⟩ := (constantLine_tellsBlocks hindent).flatMap
    (isWord_of_mem_constants he) (isWord_of_mem_constants he') (noBlock_enumClosing hindent r)
    (noBlock_enumClosing hindent r') hbody
  have hnames : e.constants = e'.constants := by
    rw [← map_name_constants e, ← map_name_constants e']
    rw [List.map_id, List.map_id] at hconstants
    rw [hconstants]
  have hafter : r = r' := by simpa using hrest
  exact ⟨by simp [EnumDeclaration.unplaced, hname, hnames], hafter⟩

end

/-! ### Messages -/

def fieldRows (fields : List SchemaField) : List Char :=
  if fields.isEmpty then [] else '\n' :: fields.flatMap fun f => (fieldLine f).toList

def rows (fields : List SchemaField) (nested : List EnumDeclaration) : List Char :=
  (nested.flatMap fun e => '\n' :: (enumBlock "  " e).toList) ++ fieldRows fields

theorem cons_intercalate_cons (b : List Char) (bs : List (List Char)) :
    '\n' :: List.intercalate ['\n'] (b :: bs) = (b :: bs).flatMap ('\n' :: ·) := by
  induction bs generalizing b with
  | nil => simp [List.intercalate]
  | cons c cs ih =>
      rw [List.flatMap_cons, ← ih c]
      simp [List.intercalate]

theorem flatMap_messageBlocks (fields : List SchemaField) (nested : List EnumDeclaration) :
    ((messageBlocks fields nested).map String.toList).flatMap ('\n' :: ·) = rows fields nested := by
  cases fields <;> simp [messageBlocks, rows, fieldRows, List.flatMap_map]

theorem exists_indent_of_mem_messageBlocks {fields : List SchemaField}
    {nested : List EnumDeclaration} {b : String} (hb : b ∈ messageBlocks fields nested) :
    ∃ s, b.toList = ' ' :: s := by
  rcases List.mem_append.1 hb with hb | hb
  · obtain ⟨e, -, rfl⟩ := List.mem_map.1 hb
    simp [enumBlock]
  · cases fields with
    | nil => cases hb
    | cons f fs =>
        rw [List.mem_singleton.1 hb]
        simp [fieldLine]

/-- The blocks of a message are none, or begin with an indent; and they are written as rows without
the first empty line. -/
theorem messageBlocks_cases (fields : List SchemaField) (nested : List EnumDeclaration) :
    (rows fields nested = [] ∧ ("\n".intercalate (messageBlocks fields nested)).toList = []) ∨
      ∃ s, rows fields nested = '\n' :: ' ' :: s ∧
        ("\n".intercalate (messageBlocks fields nested)).toList = ' ' :: s := by
  rw [← flatMap_messageBlocks, String.toList_intercalate]
  cases hblocks : messageBlocks fields nested with
  | nil => exact .inl ⟨rfl, rfl⟩
  | cons b bs =>
      right
      obtain ⟨s, hs⟩ := exists_indent_of_mem_messageBlocks (hblocks ▸ List.mem_cons_self ..)
      have hbody : ∃ t, List.intercalate ['\n'] ((b :: bs).map String.toList) = ' ' :: t := by
        cases bs <;> simp [List.intercalate, hs]
      obtain ⟨t, ht⟩ := hbody
      exact ⟨t, by rw [List.map_cons, ← cons_intercalate_cons, ← List.map_cons, ht], ht⟩

theorem rows_append_eq {fields fields' : List SchemaField} {nested nested' : List EnumDeclaration}
    {r r' : List Char}
    (h : ("\n".intercalate (messageBlocks fields nested)).toList ++ '\x7d' :: r =
      ("\n".intercalate (messageBlocks fields' nested')).toList ++ '\x7d' :: r') :
    rows fields nested ++ '\x7d' :: r = rows fields' nested' ++ '\x7d' :: r' := by
  rcases messageBlocks_cases fields nested with ⟨hrows, hbody⟩ | ⟨s, hrows, hbody⟩
  all_goals rcases messageBlocks_cases fields' nested' with ⟨hrows', hbody'⟩ | ⟨s', hrows', hbody'⟩
  all_goals rw [hbody, hbody'] at h; rw [hrows, hrows']
  · exact h
  · simp at h
  · simp at h
  · exact congrArg ('\n' :: ·) h

theorem noBlock_fieldRows {fields : List SchemaField} (hfields : ∀ f ∈ fields, f.WellNamed)
    (r : List Char) :
    NoBlock EnumDeclaration.WellNamed (fun e => '\n' :: (enumBlock "  " e).toList)
      (fieldRows fields ++ '\x7d' :: r) := by
  intro e s he h
  cases fields with
  | nil => simp [fieldRows] at h
  | cons f fs =>
      -- Behind the empty line an enum opens a brace, and a field does not.
      simp only [fieldRows, List.isEmpty_cons, Bool.false_eq_true, if_false, List.flatMap_cons,
        List.cons_append, List.append_assoc, toList_enumBlock_append, toList_fieldLine_append,
        List.cons.injEq, true_and] at h
      exact (isLine_opening (by decide) he.name).append_ne
        (isLine_fieldLine (hfields f (List.mem_cons_self ..))) (by decide) h

theorem fieldRows_inj {fields fields' : List SchemaField} (hfields : ∀ f ∈ fields, f.WellNamed)
    (hfields' : ∀ f ∈ fields', f.WellNamed) {r r' : List Char}
    (h : fieldRows fields ++ '\x7d' :: r = fieldRows fields' ++ '\x7d' :: r') :
    fields = fields' ∧ r = r' := by
  have hstop : ∀ r,
      NoBlock SchemaField.WellNamed (fun f => (fieldLine f).toList) ('\x7d' :: r) := by
    intro r f s _
    simp [fieldLine]
  cases fields with
  | nil =>
      cases fields' with
      | nil => exact ⟨rfl, (List.cons.inj h).2⟩
      | cons f' fs' => simp [fieldRows] at h
  | cons f fs =>
      cases fields' with
      | nil => simp [fieldRows] at h
      | cons f' fs' =>
          obtain ⟨hmap, hrest⟩ :=
            fieldLine_tellsBlocks.flatMap hfields hfields' (hstop r) (hstop r')
            (List.cons.inj h).2
          rw [List.map_id, List.map_id] at hmap
          exact ⟨hmap, (List.cons.inj hrest).2⟩

theorem rows_inj {m m' : MessageParts} (hm : m.WellNamed) (hm' : m'.WellNamed) {r r' : List Char}
    (h : rows m.fields m.nested ++ '\x7d' :: r = rows m'.fields m'.nested ++ '\x7d' :: r') :
    m.nested.map EnumDeclaration.unplaced = m'.nested.map EnumDeclaration.unplaced ∧
      m.fields = m'.fields ∧ r = r' := by
  have hblocks : TellsBlocks EnumDeclaration.WellNamed
      (fun e => '\n' :: (enumBlock "  " e).toList) EnumDeclaration.unplaced :=
    fun e e' r r' he he' h => enumBlock_tellsBlocks (by decide) he he' (List.cons.inj h).2
  rw [rows, rows, List.append_assoc, List.append_assoc] at h
  obtain ⟨hnested, hrest⟩ := hblocks.flatMap hm.nested hm'.nested (noBlock_fieldRows hm.fields r)
    (noBlock_fieldRows hm'.fields r') h
  exact ⟨hnested, fieldRows_inj hm.fields hm'.fields hrest⟩

theorem toList_message_append (m : MessageParts) (r : List Char) :
    m.text.toList ++ r = opening "message " m.name ++ '\n' ::
      (("\n".intercalate (messageBlocks m.fields m.nested)).toList ++
        '\x7d' :: '\n' :: '\n' :: r) := by
  simp [MessageParts.text, message, opening]

theorem message_tellsBlocks :
    TellsBlocks MessageParts.WellNamed (fun m => m.text.toList) MessageParts.unplaced := by
  intro m m' r r' hm hm' h
  simp only [toList_message_append] at h
  have hlead : '\n' ∉ "message ".toList := by decide
  obtain ⟨hopening, hbody⟩ :=
    (isLine_opening hlead hm.name).append_inj (isLine_opening hlead hm'.name) h
  have hname : m.name = m'.name := opening_inj hopening
  obtain ⟨hnested, hfields, hrest⟩ := rows_inj hm hm' (rows_append_eq hbody)
  have hafter : r = r' := by simpa using hrest
  exact ⟨by simp [MessageParts.unplaced, hname, hnested, hfields], hafter⟩

end Document

end ProtoSchema
