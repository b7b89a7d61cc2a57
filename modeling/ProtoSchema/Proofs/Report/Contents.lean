import ProtoSchema.Proofs.Report.Agreement
import ProtoSchema.Proofs.Document.Unambiguous

/-!
What the documents of a run hold can be read off their text. Every document of a report is a header,
then messages, then enums, and the text of such a document determines all of them.
-/

namespace ProtoSchema

namespace Draft

def message? : Draft → Option MessageParts
  | message p => some ⟨p.declaration.name, p.fields, p.declaration.nestedEnums⟩
  | enum _ => none

def enum? : Draft → Option EnumDeclaration
  | message _ => none
  | enum e => some e

section

variable (plan : MessagePlan) (e : EnumDeclaration)

@[simp] theorem message?_message : (message plan).message? =
    some ⟨plan.declaration.name, plan.fields, plan.declaration.nestedEnums⟩ := rfl
@[simp] theorem message?_enum : (enum e).message? = none := rfl
@[simp] theorem enum?_message : (message plan).enum? = none := rfl
@[simp] theorem enum?_enum : (enum e).enum? = some e := rfl

end

end Draft

def DocumentParts.ofDrafts (package : Option String) (imports : NameSet) (ds : List Draft) :
    DocumentParts :=
  ⟨package, imports, ds.filterMap Draft.message?, ds.filterMap Draft.enum?⟩

theorem map_text_message? (ds : List Draft) :
    (ds.filterMap Draft.message?).map MessageParts.text =
      (ds.filter Draft.isMessage).map Draft.body := by
  induction ds with
  | nil => rfl
  | cons d ds ih =>
      cases d with
      | message p => simp [List.filter_cons, ih, MessageParts.text, MessagePlan.render]
      | enum e => simpa [List.filterMap_cons, List.filter_cons] using ih

theorem map_enum_enum? (ds : List Draft) :
    (ds.filterMap Draft.enum?).map Document.enum =
      (ds.filter (!·.isMessage)).map Draft.body := by
  induction ds with
  | nil => rfl
  | cons d ds ih =>
      cases d with
      | message p => simpa [List.filterMap_cons, List.filter_cons] using ih
      | enum e => simp [ih]

theorem text_ofDrafts (package : Option String) (imports : NameSet) (ds : List Draft) :
    (DocumentParts.ofDrafts package imports ds).text =
      Document.header package imports ++
        String.join ((ds.filter Draft.isMessage).map Draft.body) ++
        String.join ((ds.filter (!·.isMessage)).map Draft.body) := by
  rw [DocumentParts.text, ← map_text_message?, ← map_enum_enum?]
  rfl

/-- The document of one draft. -/
theorem content_documentPlan (package : Option String) (d : Draft) :
    (d.documentPlan.document package).content =
      (DocumentParts.ofDrafts package d.imports [d]).text := by
  rw [text_ofDrafts]
  cases d <;> simp [Draft.documentPlan, DocumentPlan.document, List.filter_cons]

/-- Every document of a report is a header, messages and enums. -/
theorem exists_parts_of_mem_documents {s : DeclarationSet} {config : Config} {document : Document}
    (h : document ∈ (generate s config).documents) :
    ∃ d : DocumentParts, d.package = config.effectivePackage ∧ document.content = d.text := by
  cases hmode : config.mode with
  | perType =>
      rw [documents_of_perType hmode] at h
      obtain ⟨d, -, rfl⟩ := List.mem_map.1 h
      exact ⟨_, rfl, content_documentPlan _ d⟩
  | aggregate =>
      rw [documents_of_aggregate hmode] at h
      let a := Assembler.ofUnits config s.units
      refine ⟨.ofDrafts config.effectivePackage (a.combined s.units).imports
        (a.drafts (emittedDeclarations s.units)), rfl, ?_⟩
      rw [text_ofDrafts, List.mem_singleton.1 h]
      exact congrArg Document.content (a.document_combined s.units)

/-- The documents of all runs are headers, messages and enums, and where names are identifiers the
text of a document tells its package, its imports, its messages and its enums. -/
theorem text_tells_contents :
    (∀ (s : DeclarationSet) (config : Config), ∀ document ∈ (generate s config).documents,
        ∃ d : DocumentParts, d.package = config.effectivePackage ∧ document.content = d.text) ∧
      ∀ d d' : DocumentParts, d.WellNamed → d'.WellNamed →
        (d.text = d'.text ↔ d.package = d'.package ∧ d.imports = d'.imports ∧
          d.messages.map MessageParts.unplaced = d'.messages.map MessageParts.unplaced ∧
          d.enums.map EnumDeclaration.unplaced = d'.enums.map EnumDeclaration.unplaced) :=
  ⟨fun _ _ _ => exists_parts_of_mem_documents, fun _ _ => DocumentParts.text_eq_iff⟩

/-- Where an enum is declared is not written; the order of its constants is. -/
theorem text_tells_contents_enum :
    let visits : SchemaField := ⟨"map<string, google.type.Date>", "visits", 1⟩
    let document : EnumDeclaration → DocumentParts := fun e =>
      ⟨some "org.example", .ofList ["google/type/date.proto"], [⟨"Visitor", [visits], [e]⟩], []⟩
    let nested := document ⟨"Level", some "Visitor", ["LOW", "HIGH"]⟩
    let unplaced := document ⟨"Level", none, ["LOW", "HIGH"]⟩
    let reversed := document ⟨"Level", none, ["HIGH", "LOW"]⟩
    nested.WellNamed ∧ nested.text = unplaced.text ∧ nested.text ≠ reversed.text := by
  intro visits document nested unplaced reversed
  have hvisits : visits.WellNamed := by
    refine ⟨by decide +kernel, ⟨[]⟩, .mk "Map" [.mk "String" [], .mk "LocalDate" []], ?_, ?_⟩
    all_goals decide +kernel
  have hdocument : ∀ e : EnumDeclaration, e.WellNamed → (document e).WellNamed := by
    intro e he
    refine ⟨?_, ?_, ?_, by simp [document]⟩
    · rintro p ⟨⟩
      decide +kernel
    · have hpaths : ∀ path ∈ NameSet.ofList ["google/type/date.proto"],
          '"' ∉ path.toList ∧ '\n' ∉ path.toList := by decide +kernel
      exact hpaths
    · intro m hm
      obtain rfl := List.mem_singleton.1 hm
      have hname : IsWord "Visitor" := by decide +kernel
      exact ⟨hname, by simpa using hvisits, by simpa using he⟩
  have hnested := hdocument ⟨"Level", some "Visitor", ["LOW", "HIGH"]⟩ (by
    constructor <;> decide +kernel)
  have hunplaced := hdocument ⟨"Level", none, ["LOW", "HIGH"]⟩ (by constructor <;> decide +kernel)
  have hreversed := hdocument ⟨"Level", none, ["HIGH", "LOW"]⟩ (by constructor <;> decide +kernel)
  refine ⟨hnested, ?_, ?_⟩
  · exact (text_tells_contents.2 nested unplaced hnested hunplaced).2 ⟨rfl, rfl, rfl, rfl⟩
  · intro h
    obtain ⟨-, -, hmessages, -⟩ := (text_tells_contents.2 nested reversed hnested hreversed).1 h
    revert hmessages
    decide +kernel

end ProtoSchema
