import ProtoSchema.Declaration

/-!
What of a declaration reaches a schema, by its kind, its enums and the fields themselves. A class
has a message with its fields, less those that are static or excluded by name. An interface has one
for the enums nested in it, without fields, and none if there are no enums. The theory of reports
speaks of declarations in these terms; the functions that select for the documents agree with them.
-/

namespace ProtoSchema

namespace TypeDeclaration

/-- Whether a field of a declaration is never generated: it is static or excluded by name, or the
declaration is an interface. -/
def filters (d : TypeDeclaration) (excluded : List String) (f : Field) : Bool :=
  d.kind == .interfaceKind || f.isStatic || excluded.contains f.name

def keptFields (d : TypeDeclaration) (excluded : List String) : List Field :=
  d.fields.filter (!d.filters excluded ·)

theorem schemaFields_eq_keptFields (d : TypeDeclaration) (excluded : List String) :
    d.schemaFields excluded = d.keptFields excluded := by
  refine List.filter_congr fun f _ => ?_
  rw [isInterface, filters, Bool.not_or, Bool.not_or]

end TypeDeclaration

namespace Primary

def IsPlainInterface (p : Primary) : Prop :=
  ∃ t, p = .type t ∧ t.kind = .interfaceKind ∧ t.nestedEnums = []

/-- Whether a message or a top-level enum comes of a declaration: it is a class, an interface with
enums, or an enum. -/
def isEmitted : Primary → Bool
  | type t => t.kind != .interfaceKind || !t.nestedEnums.isEmpty
  | enum _ => true

theorem isEmitted_eq_false_iff {p : Primary} : p.isEmitted = false ↔ p.IsPlainInterface := by
  cases p with
  | enum e => simp [isEmitted, IsPlainInterface]
  | type t => simp [isEmitted, IsPlainInterface]

end Primary

theorem TypeDeclaration.emitsMessage_eq_isEmitted (t : TypeDeclaration) :
    t.emitsMessage = (Primary.type t).isEmitted := by
  rw [emitsMessage, isInterface, Primary.isEmitted, bne]

theorem Primary.IsPlainInterface.exists_type {p : Primary} (h : p.IsPlainInterface) :
    ∃ t, p = .type t ∧ t.emitsMessage = false := by
  have hsilent := isEmitted_eq_false_iff.2 h
  obtain ⟨t, rfl, -⟩ := h
  exact ⟨t, rfl, t.emitsMessage_eq_isEmitted.trans hsilent⟩

end ProtoSchema
