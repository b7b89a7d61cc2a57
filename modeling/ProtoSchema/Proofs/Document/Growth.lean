import ProtoSchema.Document

/-!
How the text of messages and enums grows. What is appended to the fields of a message or to the
constants of an enum comes right before the closing brace, and the text before it stays as it is.
-/

namespace ProtoSchema

/-- Whether a text grows into another by something that is put in before its end. -/
def GrowsBefore (closing old new : String) : Prop :=
  ∃ opening added, old = opening ++ closing ∧ new = opening ++ added ++ closing

/-! ### Texts between separators -/

theorem exists_intercalate_append_eq (separator : String) (xs ys : List String) :
    ∃ added, separator.intercalate (xs ++ ys) = separator.intercalate xs ++ added := by
  by_cases hxs : xs = []
  · exact ⟨separator.intercalate ys, by simp [hxs]⟩
  · by_cases hys : ys = []
    · exact ⟨"", by simp [hys]⟩
    · refine ⟨separator ++ separator.intercalate ys, ?_⟩
      rw [String.intercalate_append_of_ne_nil hxs hys, String.append_assoc]

/-- What stands around a text in a row of texts does not depend on it. -/
theorem exists_intercalate_eq (separator : String) (xs ys : List String) :
    ∃ before after, ∀ x, separator.intercalate (xs ++ x :: ys) = before ++ x ++ after := by
  obtain ⟨after, hafter⟩ : ∃ after, ∀ x, separator.intercalate (x :: ys) = x ++ after := by
    by_cases hys : ys = []
    · exact ⟨"", fun x => by simp [hys]⟩
    · refine ⟨separator ++ separator.intercalate ys, fun x => ?_⟩
      rw [String.intercalate_cons_of_ne_nil hys, String.append_assoc]
  by_cases hxs : xs = []
  · exact ⟨"", after, fun x => by simp [hxs, hafter]⟩
  · refine ⟨separator.intercalate xs ++ separator, after, fun x => ?_⟩
    rw [String.intercalate_append_of_ne_nil hxs (List.cons_ne_nil x ys), hafter,
      ← String.append_assoc]

theorem intercalate_concat_append (separator : String) (xs : List String) (x y : String) :
    separator.intercalate (xs ++ [x ++ y]) = separator.intercalate (xs ++ [x]) ++ y := by
  by_cases hxs : xs = []
  · simp [hxs]
  · rw [String.intercalate_append_of_ne_nil hxs (List.cons_ne_nil _ _),
      String.intercalate_append_of_ne_nil hxs (List.cons_ne_nil _ _), String.intercalate_singleton,
      String.intercalate_singleton, String.append_assoc, String.append_assoc, String.append_assoc]

/-! ### Enums -/

def EnumDeclaration.appendConstants (e : EnumDeclaration) (more : List String) : EnumDeclaration :=
  { e with constants := e.constants ++ more }

namespace Document

theorem constants_appendConstants (e : EnumDeclaration) (more : List String) :
    constants (e.appendConstants more) =
      constants e ++ more.mapIdx fun i name => ⟨name, i + e.constants.length⟩ := by
  rw [constants, constants, EnumDeclaration.appendConstants, List.mapIdx_append]

/-- The lines of constants begin with the indent that the closing brace of their enum has. -/
theorem exists_join_constantLine_eq (indent : String) (cs : List SchemaConstant) :
    ∃ added, String.join (cs.map (constantLine indent)) ++ indent = indent ++ added := by
  cases cs with
  | nil => exact ⟨"", by simp⟩
  | cons c cs =>
      refine ⟨"  " ++ c.name ++ " = " ++ toString c.ordinal ++ ";\n" ++
        String.join (cs.map (constantLine indent)) ++ indent, ?_⟩
      rw [List.map_cons, String.join_cons, constantLine]
      simp only [String.append_assoc]

theorem enumBlock_growsBefore (indent : String) (e : EnumDeclaration) (more : List String) :
    GrowsBefore "\x7d\n" (enumBlock indent e) (enumBlock indent (e.appendConstants more)) := by
  let lines := String.join ((constants e).map (constantLine indent))
  let newLines := String.join
    ((more.mapIdx fun i name => ⟨name, i + e.constants.length⟩).map (constantLine indent))
  -- The indent of the closing brace is taken by the first of the new lines.
  obtain ⟨added, hadded⟩ : ∃ added, newLines ++ indent = indent ++ added :=
    exists_join_constantLine_eq indent _
  refine ⟨indent ++ "enum " ++ e.name ++ " \x7b\n" ++ lines ++ indent, added, rfl, ?_⟩
  calc
    enumBlock indent (e.appendConstants more) =
        indent ++ "enum " ++ e.name ++ " \x7b\n" ++ (lines ++ newLines) ++ indent ++ "\x7d\n" := by
      rw [enumBlock, constants_appendConstants, List.map_append, String.join_append]
      rfl
    _ = indent ++ "enum " ++ e.name ++ " \x7b\n" ++ lines ++ (newLines ++ indent) ++ "\x7d\n" := by
      simp only [String.append_assoc]
    _ = indent ++ "enum " ++ e.name ++ " \x7b\n" ++ lines ++ indent ++ added ++ "\x7d\n" := by
      rw [hadded, ← String.append_assoc]

/-! ### Messages -/

theorem exists_intercalate_messageBlocks_eq (nested : List EnumDeclaration)
    (fields more : List SchemaField) :
    ∃ added, "\n".intercalate (messageBlocks (fields ++ more) nested) =
      "\n".intercalate (messageBlocks fields nested) ++ added := by
  cases fields with
  | nil =>
      -- Fields that are the first of their message form a block of their own.
      have hblocks : messageBlocks [] nested = nested.map (enumBlock "  ") := by
        simp [messageBlocks]
      rw [List.nil_append, hblocks, messageBlocks]
      exact exists_intercalate_append_eq _ _ _
  | cons f fs =>
      refine ⟨String.join (more.map fieldLine), ?_⟩
      simp only [messageBlocks, List.cons_append, List.isEmpty_cons, Bool.false_eq_true, if_false]
      rw [← intercalate_concat_append, ← String.join_append, ← List.map_append, List.cons_append]

theorem message_growsBefore (name : String) (nested : List EnumDeclaration)
    (fields more : List SchemaField) :
    GrowsBefore "\x7d\n\n" (message name fields nested) (message name (fields ++ more) nested) := by
  obtain ⟨added, hadded⟩ := exists_intercalate_messageBlocks_eq nested fields more
  refine ⟨"message " ++ name ++ " \x7b\n" ++ "\n".intercalate (messageBlocks fields nested), added,
    rfl, ?_⟩
  rw [message, hadded]
  simp only [String.append_assoc]

/-- The rest of a message does not depend on what one of its nested enums holds. -/
theorem exists_message_eq (name : String) (fields : List SchemaField)
    (es fs : List EnumDeclaration) :
    ∃ before after, ∀ e,
      message name fields (es ++ e :: fs) = before ++ enumBlock "  " e ++ after := by
  obtain ⟨before, after, hblocks⟩ := exists_intercalate_eq "\n" (es.map (enumBlock "  "))
    (messageBlocks fields fs)
  refine ⟨"message " ++ name ++ " \x7b\n" ++ before, after ++ "\x7d\n\n", fun e => ?_⟩
  have hsplit : messageBlocks fields (es ++ e :: fs) =
      es.map (enumBlock "  ") ++ enumBlock "  " e :: messageBlocks fields fs := by
    simp [messageBlocks]
  rw [message, hsplit, hblocks]
  simp only [String.append_assoc]

end Document

end ProtoSchema
