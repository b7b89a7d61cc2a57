import ProtoSchema.Declaration.Codec
import ProtoSchema.Proofs.Json.Building
import ProtoSchema.Proofs.Json.Records

/-!
Declaration sets are read back from their JSON text, also where members stand in another order or
those with a default are left out. A class or interface that says it is an enum is refused, so no
set that is read holds one.
-/

namespace ProtoSchema

open Json (Node Value Origin Result ReadsAs FillsAs Suffices partIf getD_partIf fillsAs_of_readsAs
  readsAs_string readsAs_bool readsAs_option readsAs_list)

namespace Json.Value

theorem ofOption_eq_null {α : Type} {write : α → Value} (hwrite : ∀ a, write a ≠ .null)
    {o : Option α} : ofOption write o = .null ↔ o = none := by
  cases o with
  | none => exact ⟨fun _ => Eq.refl _, fun _ => Eq.refl _⟩
  | some a => simpa [ofOption] using hwrite a

theorem ofList_eq_nil {α : Type} {write : α → Value} {as : List α} :
    ofList write as = .array [] ↔ as = [] := by
  simp [ofList]

theorem text_ne_null (s : String) : text s ≠ null := nofun

end Json.Value

/-- The members that may be left out, with the values that stand for them then. -/
def DeclarationSet.defaults : List (String × Value) :=
  [("source", .null), ("package", .null), ("primary", .null), ("enclosing_type", .null),
    ("is_static", .bool false), ("fields", .array []), ("nested_enums", .array []),
    ("constants", .array []), ("units", .array [])]

open DeclarationSet (defaults)

/-! ### Records -/

namespace Field

def part (f : Field) (given : String → Bool) : Partial where
  name := partIf (given "name") f.name
  declaredType := partIf (given "declared_type") f.declaredType
  isStatic := partIf (given "is_static") f.isStatic

def members (f : Field) : List (String × Value) :=
  [("name", .text f.name), ("declared_type", .text f.declaredType), ("is_static", .bool f.isStatic)]

theorem suffices_iff {f : Field} {given : String → Bool} : Suffices defaults f.members given ↔
    given "name" = true ∧ given "declared_type" = true ∧
      (given "is_static" = true ∨ f.isStatic = false) := by
  simp [Suffices, members, defaults]

theorem fillsAs (f : Field) : ∀ m ∈ f.members, FillsAs defaults record.slots f.part m := by
  simp only [members, List.forall_mem_cons]
  refine ⟨?_, ?_, ?_, by simp⟩
  · exact fillsAs_of_readsAs rfl (readsAs_string _) (fun _ => rfl) fun given => by simp [part]
  · exact fillsAs_of_readsAs rfl (readsAs_string _) (fun _ => rfl) fun given => by simp [part]
  · exact fillsAs_of_readsAs rfl (readsAs_bool _) (fun _ => rfl) fun given => by simp [part]

theorem readsAs (origin : Origin) (f : Field) : ReadsAs defaults (ofNode origin) f.toJson f := by
  intro w hw
  obtain ⟨given, hgiven, hread⟩ := Json.exists_read_rearranged record origin f.part {} rfl
    (by simp [members]) f.fillsAs
    (fun given h => by simp [Json.Record.missing?, record, Json.Slot.of, part, suffices_iff.1 h]) hw
  obtain ⟨hname, htype, hstatic⟩ := suffices_iff.1 hgiven
  rw [ofNode, hread]
  simp [Except.map, part, hname, htype, getD_partIf hstatic]

end Field

namespace EnumDeclaration

def part (e : EnumDeclaration) (given : String → Bool) : Partial where
  name := partIf (given "name") e.name
  enclosingType := partIf (given "enclosing_type") e.enclosingType
  constants := partIf (given "constants") e.constants

theorem suffices_iff {e : EnumDeclaration} {given : String → Bool} :
    Suffices defaults e.members given ↔ given "name" = true ∧
      (given "enclosing_type" = true ∨ e.enclosingType = none) ∧
      (given "constants" = true ∨ e.constants = []) := by
  simp [Suffices, members, defaults, Value.ofOption_eq_null Value.text_ne_null, Value.ofStrings,
    Value.ofList_eq_nil]

theorem fillsAs (e : EnumDeclaration) :
    ∀ m ∈ e.members, FillsAs defaults record.slots e.part m := by
  simp only [members, List.forall_mem_cons]
  refine ⟨?_, ?_, ?_, by simp⟩
  · exact fillsAs_of_readsAs rfl (readsAs_string _) (fun _ => rfl) fun given => by simp [part]
  · exact fillsAs_of_readsAs rfl (readsAs_option Value.text_ne_null fun s _ => readsAs_string s)
      (fun _ => rfl) fun given => by simp [part]
  · exact fillsAs_of_readsAs rfl (readsAs_list fun s _ => readsAs_string s) (fun _ => rfl)
      fun given => by simp [part]

theorem readsAs (origin : Origin) (e : EnumDeclaration) :
    ReadsAs defaults (ofNode origin) e.toJson e := by
  intro w hw
  obtain ⟨given, hgiven, hread⟩ := Json.exists_read_rearranged record origin e.part {} rfl
    (by simp [members]) e.fillsAs
    (fun given h => by simp [Json.Record.missing?, record, Json.Slot.of, part, suffices_iff.1 h]) hw
  obtain ⟨hname, htype, hconstants⟩ := suffices_iff.1 hgiven
  rw [ofNode, hread]
  simp [Except.map, part, hname, getD_partIf htype, getD_partIf hconstants]

end EnumDeclaration

theorem Kind.readsAs (origin : Origin) (kind : Kind) :
    ReadsAs defaults (Node.readEnum origin names) (.text kind.toText) kind := by
  rintro w ⟨⟩
  cases kind <;> rfl

namespace TypeDeclaration

def part (d : TypeDeclaration) (given : String → Bool) : Partial where
  name := partIf (given "name") d.name
  kind := partIf (given "kind") d.kind
  fields := partIf (given "fields") d.fields
  nestedEnums := partIf (given "nested_enums") d.nestedEnums

theorem suffices_iff {d : TypeDeclaration} {given : String → Bool} :
    Suffices defaults d.members given ↔ given "name" = true ∧ given "kind" = true ∧
      (given "fields" = true ∨ d.fields = []) ∧
      (given "nested_enums" = true ∨ d.nestedEnums = []) := by
  simp [Suffices, members, defaults, Value.ofList_eq_nil]

theorem fillsAs (origin : Origin) (d : TypeDeclaration) :
    ∀ m ∈ d.members, FillsAs defaults (record origin).slots d.part m := by
  simp only [members, List.forall_mem_cons]
  refine ⟨?_, ?_, ?_, ?_, by simp⟩
  · exact fillsAs_of_readsAs rfl (readsAs_string _) (fun _ => rfl) fun given => by simp [part]
  · exact fillsAs_of_readsAs rfl (Kind.readsAs origin _) (fun _ => rfl) fun given => by simp [part]
  · exact fillsAs_of_readsAs rfl (readsAs_list fun f _ => f.readsAs origin) (fun _ => rfl)
      fun given => by simp [part]
  · exact fillsAs_of_readsAs rfl (readsAs_list fun e _ => e.readsAs origin) (fun _ => rfl)
      fun given => by simp [part]

theorem readsAs (origin : Origin) {d : TypeDeclaration} (hd : d.kind ≠ .enumKind) :
    ReadsAs defaults (ofNode origin) d.toJson d := by
  intro w hw
  obtain ⟨given, hgiven, hread⟩ := Json.exists_read_rearranged (record origin) origin d.part {} rfl
    (by simp [members]) (d.fillsAs origin)
    (fun given h => by simp [Json.Record.missing?, record, Json.Slot.of, part, suffices_iff.1 h]) hw
  obtain ⟨hname, hkind, hfields, hnested⟩ := suffices_iff.1 hgiven
  rw [ofNode, hread]
  simp [part, hname, hkind, getD_partIf hfields, getD_partIf hnested, hd]

end TypeDeclaration

/-! ### Primary declarations -/

theorem isKeepable_ofOption_text (o : Option String) (depth : Nat) :
    (Node.ofValue (.ofOption .text o)).isKeepable depth = true := by
  cases o <;> rfl

theorem isKeepable_ofList {α : Type} {write : α → Value} {depth : Nat}
    (hwrite : ∀ a, (Node.ofValue (write a)).isKeepable depth = true) (as : List α) :
    (Node.ofValue (.ofList write as)).isKeepable (depth + 1) = true := by
  simp [Value.ofList, Node.ofValue, Node.isKeepable, Value.areKeepable_eq_all, hwrite]

theorem Field.isKeepable_toJson (f : Field) (depth : Nat) :
    (Node.ofValue f.toJson).isKeepable (depth + 1) = true := by
  simp [toJson, Node.ofValue, Node.ofMembers, Node.isKeepable, Node.membersKeepable]

theorem EnumDeclaration.membersKeepable (e : EnumDeclaration) (depth : Nat) :
    Node.membersKeepable (depth + 1) (Node.ofMembers e.members) = true := by
  have hconstants : (Node.ofValue (.ofStrings e.constants)).isKeepable (depth + 1) = true :=
    isKeepable_ofList (fun _ => rfl) e.constants
  simp only [members, Node.ofMembers, Node.membersKeepable, isKeepable_ofOption_text, hconstants]
  rfl

theorem EnumDeclaration.isKeepable_toJson (e : EnumDeclaration) (depth : Nat) :
    (Node.ofValue e.toJson).isKeepable (depth + 2) = true := by
  rw [toJson, Node.ofValue, Node.isKeepable, Nat.add_sub_cancel (depth + 1) 1, membersKeepable]
  simp

theorem TypeDeclaration.membersKeepable (d : TypeDeclaration) (depth : Nat) :
    Node.membersKeepable (depth + 3) (Node.ofMembers d.members) = true := by
  have hfields := isKeepable_ofList (fun f => Field.isKeepable_toJson f (depth + 1)) d.fields
  have hnested :=
    isKeepable_ofList (fun e => EnumDeclaration.isKeepable_toJson e depth) d.nestedEnums
  simp only [members, Node.ofMembers, Node.membersKeepable, hfields, hnested]
  rfl

theorem Primary.readsAs {p : Primary} (hp : ∀ d, p = .type d → d.kind ≠ .enumKind) :
    ReadsAs defaults ofNode p.toJson p := by
  intro w hw
  cases p with
  | type d =>
      have htag : Node.readIdentifier tagNames (.text (some "type")) = .ok .type := rfl
      have hkeep : Node.membersKeepable (Json.maxDepth - depth) (Node.ofMembers d.members) = true :=
        d.membersKeepable 120
      obtain ⟨rest, hrest, hread⟩ := Json.Tagged.exists_read_rearranged
        "internally tagged enum PrimaryType" (by simp [TypeDeclaration.members]) htag
        (by simp [defaults]) hkeep hw
      rw [ofNode, hread]
      exact congrArg (Except.map type) (TypeDeclaration.readsAs .kept (hp d rfl) rest hrest)
  | enum e =>
      have htag : Node.readIdentifier tagNames (.text (some "enum")) = .ok .enum := rfl
      have hkeep : Node.membersKeepable (Json.maxDepth - depth) (Node.ofMembers e.members) = true :=
        e.membersKeepable 122
      obtain ⟨rest, hrest, hread⟩ := Json.Tagged.exists_read_rearranged
        "internally tagged enum PrimaryType" (by simp [EnumDeclaration.members]) htag
        (by simp [defaults]) hkeep hw
      rw [ofNode, hread]
      exact congrArg (Except.map enum) (EnumDeclaration.readsAs .kept e rest hrest)

theorem Primary.toJson_ne_null (p : Primary) : p.toJson ≠ .null := by
  cases p <;> nofun

/-! ### Units and sets -/

namespace SourceUnit

def part (u : SourceUnit) (given : String → Bool) : Partial where
  source := partIf (given "source") u.source
  package := partIf (given "package") u.package
  primary := partIf (given "primary") u.primary

def members (u : SourceUnit) : List (String × Value) :=
  [("source", .ofOption .text u.source), ("package", .ofOption .text u.package),
    ("primary", .ofOption Primary.toJson u.primary)]

theorem suffices_iff {u : SourceUnit} {given : String → Bool} :
    Suffices defaults u.members given ↔ (given "source" = true ∨ u.source = none) ∧
      (given "package" = true ∨ u.package = none) ∧
      (given "primary" = true ∨ u.primary = none) := by
  simp [Suffices, members, defaults, Value.ofOption_eq_null Value.text_ne_null,
    Value.ofOption_eq_null Primary.toJson_ne_null]

theorem fillsAs {u : SourceUnit} (hu : ∀ d, u.primary = some (.type d) → d.kind ≠ .enumKind) :
    ∀ m ∈ u.members, FillsAs defaults record.slots u.part m := by
  have hprimary : ∀ p ∈ u.primary, ReadsAs defaults Primary.ofNode p.toJson p := by
    rintro p hp
    refine Primary.readsAs ?_
    rintro d rfl
    exact hu d hp
  simp only [members, List.forall_mem_cons]
  refine ⟨?_, ?_, ?_, by simp⟩
  · exact fillsAs_of_readsAs rfl (readsAs_option Value.text_ne_null fun s _ => readsAs_string s)
      (fun _ => rfl) fun given => by simp [part]
  · exact fillsAs_of_readsAs rfl (readsAs_option Value.text_ne_null fun s _ => readsAs_string s)
      (fun _ => rfl) fun given => by simp [part]
  · exact fillsAs_of_readsAs rfl (readsAs_option Primary.toJson_ne_null hprimary) (fun _ => rfl)
      fun given => by simp [part]

theorem readsAs {u : SourceUnit} (hu : ∀ d, u.primary = some (.type d) → d.kind ≠ .enumKind) :
    ReadsAs defaults ofNode u.toJson u := by
  intro w hw
  obtain ⟨given, hgiven, hread⟩ := Json.exists_read_rearranged record .direct u.part {} rfl
    (by simp [members]) (fillsAs hu)
    (fun given _ => by simp [Json.Record.missing?, record, Json.Slot.of]) hw
  obtain ⟨hsource, hpackage, hprimary⟩ := suffices_iff.1 hgiven
  rw [ofNode, hread]
  simp [Except.map, part, getD_partIf hsource, getD_partIf hpackage, getD_partIf hprimary]

end SourceUnit

namespace DeclarationSet

/-- Whether no class or interface of a set says that it is an enum. -/
def KindsFit (s : DeclarationSet) : Prop :=
  ∀ u ∈ s.units, ∀ d, u.primary = some (.type d) → d.kind ≠ .enumKind

def part (s : DeclarationSet) (given : String → Bool) : Partial where
  units := partIf (given "units") s.units

def members (s : DeclarationSet) : List (String × Value) :=
  [("units", .ofList SourceUnit.toJson s.units)]

theorem suffices_iff {s : DeclarationSet} {given : String → Bool} :
    Suffices defaults s.members given ↔ given "units" = true ∨ s.units = [] := by
  simp [Suffices, members, defaults, Value.ofList_eq_nil]

theorem readsAs {s : DeclarationSet} (hs : s.KindsFit) : ReadsAs defaults ofNode s.toJson s := by
  have hfills : ∀ m ∈ s.members, FillsAs defaults record.slots s.part m := by
    simp only [members, List.forall_mem_cons]
    refine ⟨?_, by simp⟩
    exact fillsAs_of_readsAs rfl (readsAs_list fun u hu => SourceUnit.readsAs (hs u hu))
      (fun _ => rfl) fun given => by simp [part]
  intro w hw
  obtain ⟨given, hgiven, hread⟩ := Json.exists_read_rearranged record .direct s.part {} rfl
    (by simp [members]) hfills
    (fun given _ => by simp [Json.Record.missing?, record, Json.Slot.of]) hw
  have hunits := suffices_iff.1 hgiven
  rw [ofNode, hread]
  simp [Except.map, part, getD_partIf hunits]

end DeclarationSet

/-! ### Texts without numbers -/

theorem isWorded_ofOption {α : Type} {write : α → Value} (hwrite : ∀ a, (write a).isWorded = true)
    (o : Option α) : (Value.ofOption write o).isWorded = true := by
  cases o with
  | none => rfl
  | some a => exact hwrite a

theorem isWorded_ofList {α : Type} {write : α → Value} (hwrite : ∀ a, (write a).isWorded = true)
    (as : List α) : (Value.ofList write as).isWorded = true := by
  simp [Value.ofList, Value.isWorded, Value.areWorded_eq_all, hwrite]

theorem isWorded_text (s : String) : (Value.text s).isWorded = true := rfl

theorem Field.isWorded_toJson (f : Field) : f.toJson.isWorded = true := rfl

theorem EnumDeclaration.membersWorded (e : EnumDeclaration) :
    Value.membersWorded e.members = true := by
  simp only [members, Value.membersWorded, isWorded_text, isWorded_ofOption isWorded_text,
    Value.ofStrings, isWorded_ofList isWorded_text, Bool.and_self]

theorem TypeDeclaration.membersWorded (d : TypeDeclaration) :
    Value.membersWorded d.members = true := by
  have hnested : ∀ e : EnumDeclaration, e.toJson.isWorded = true := EnumDeclaration.membersWorded
  simp only [members, Value.membersWorded, isWorded_text, isWorded_ofList Field.isWorded_toJson,
    isWorded_ofList hnested, Bool.and_self]

theorem Primary.isWorded_toJson (p : Primary) : p.toJson.isWorded = true := by
  cases p with
  | type d => exact d.membersWorded
  | enum e => exact e.membersWorded

theorem SourceUnit.isWorded_toJson (u : SourceUnit) : u.toJson.isWorded = true := by
  simp only [toJson, Value.isWorded, Value.membersWorded, isWorded_ofOption isWorded_text,
    isWorded_ofOption Primary.isWorded_toJson, Bool.and_self]

theorem DeclarationSet.isWorded_toJson (s : DeclarationSet) : s.toJson.isWorded = true := by
  simp only [toJson, Value.isWorded, Value.membersWorded,
    isWorded_ofList SourceUnit.isWorded_toJson, Bool.and_self]

/-! ### Sets that are read -/

theorem TypeDeclaration.kind_ne_of_read {origin : Origin} {n : Node} {d : TypeDeclaration}
    (h : ofNode origin n = .ok d) : d.kind ≠ .enumKind := by
  rw [ofNode] at h
  split at h
  · cases h
  · simp only at h
    split at h
    · cases h
    · next hkind =>
        cases h
        exact hkind

theorem Primary.kind_ne_of_read {n : Node} {d : TypeDeclaration} (h : ofNode n = .ok (.type d)) :
    d.kind ≠ .enumKind := by
  rw [ofNode] at h
  split at h
  · cases h
  · obtain ⟨d', hread, hd⟩ := Json.exists_of_map_eq_ok h
    cases hd
    exact TypeDeclaration.kind_ne_of_read hread
  · obtain ⟨e, -, he⟩ := Json.exists_of_map_eq_ok h
    cases he

theorem SourceUnit.kind_ne_of_read {n : Node} {u : SourceUnit} (h : ofNode n = .ok u)
    {d : TypeDeclaration} (hd : u.primary = some (.type d)) : d.kind ≠ .enumKind := by
  obtain ⟨st, hread, rfl⟩ := Json.exists_of_map_eq_ok h
  have hholds : ∀ d, st.primary = some (some (.type d)) → d.kind ≠ .enumKind := by
    refine Json.holds_of_read
      (P := fun st => ∀ d, st.primary = some (some (.type d)) → d.kind ≠ .enumKind)
      (fun d hd => by cases hd) ?_ hread
    simp only [record, List.forall_mem_cons]
    refine ⟨?_, ?_, ?_, by simp⟩
    · intro n st st' hst hfill d hd
      obtain ⟨a, -, rfl⟩ := Json.exists_of_map_eq_ok hfill
      exact hst d hd
    · intro n st st' hst hfill d hd
      obtain ⟨a, -, rfl⟩ := Json.exists_of_map_eq_ok hfill
      exact hst d hd
    · intro n st st' hst hfill d hd
      obtain ⟨a, ha, rfl⟩ := Json.exists_of_map_eq_ok hfill
      cases hd
      exact Primary.kind_ne_of_read (Json.read_of_readOption ha)
  cases hprimary : st.primary with
  | none => simp [hprimary] at hd
  | some p =>
      rw [hprimary] at hd
      cases hd
      exact hholds d hprimary

theorem DeclarationSet.kindsFit_of_read {n : Node} {s : DeclarationSet} (h : ofNode n = .ok s) :
    s.KindsFit := by
  obtain ⟨st, hread, rfl⟩ := Json.exists_of_map_eq_ok h
  have hholds : ∀ us ∈ st.units, ∀ u ∈ us, ∃ n, SourceUnit.ofNode n = .ok u := by
    refine Json.holds_of_read
      (P := fun st => ∀ us ∈ st.units, ∀ u ∈ us, ∃ n, SourceUnit.ofNode n = .ok u)
      (fun us hus => by cases hus) ?_ hread
    simp only [record, List.forall_mem_cons]
    refine ⟨?_, by simp⟩
    intro n st st' hst hfill us hus u hu
    obtain ⟨a, ha, rfl⟩ := Json.exists_of_map_eq_ok hfill
    cases hus
    exact Json.exists_read_of_mem_readList ha hu
  intro u hu d hd
  cases hunits : st.units with
  | none => simp [hunits] at hu
  | some us =>
      rw [hunits] at hu
      obtain ⟨n, hn⟩ := hholds us hunits u hu
      exact SourceUnit.kind_ne_of_read hn hd

namespace DeclarationSet

/-- A declaration set of which no class or interface says that it is an enum is read back from its
JSON text, in whatever order the members of its objects stand and whichever defaults are left out;
and no other set is read from any bytes. -/
theorem read_of_rearranged :
    (∀ s : DeclarationSet, s.KindsFit →
        ofJson s.toJson.toText.toByteArray.toList = .ok s ∧
          ∀ v, s.toJson.Rearranged defaults v →
            ofJson v.toText.toByteArray.toList = .ok s) ∧
      ∀ (bytes : List UInt8) (s : DeclarationSet), ofJson bytes = .ok s → s.KindsFit := by
  have hread : ∀ s : DeclarationSet, s.KindsFit → ∀ v, s.toJson.Rearranged defaults v →
      ofJson v.toText.toByteArray.toList = .ok s := by
    intro s hs v hv
    have hsource : Json.Source.ofBytes v.toText.toByteArray.toList = ⟨Node.ofValue v, true⟩ :=
      Json.ofText_toText (hv.isWorded s.isWorded_toJson)
    rw [ofJson, hsource, Json.Source.read, readsAs hs v hv]
    rfl
  refine ⟨fun s hs => ⟨hread s hs _ (.rfl _), hread s hs⟩, fun bytes s h => ?_⟩
  rw [ofJson, Json.Source.read] at h
  split at h
  · cases h
  · next s' hs' =>
      split at h
      · cases h
        exact kindsFit_of_read hs'
      · cases h

/-- A set whose members are written from last to first, without the defaults. -/
theorem read_of_rearranged_backwards :
    let size : Field := ⟨"gr\u00f6\u00dfe", "Map<String, int>", false⟩
    let page : TypeDeclaration := ⟨"\"Page\"\n", .classKind, [size], []⟩
    let s : DeclarationSet := ⟨[⟨none, some "org.example", some (.type page)⟩]⟩
    let v : Value := .object [("units", .array [.object [
      ("primary", .object [
        ("fields", .array [.object [
          ("declared_type", .text "Map<String, int>"), ("name", .text "gr\u00f6\u00dfe")]]),
        ("kind", .text "class"), ("name", .text "\"Page\"\n"), ("declaration", .text "type")]),
      ("package", .text "org.example")]])]
    s.KindsFit ∧ s.toJson.Rearranged defaults v ∧
      v.toText = "\x7b\"units\":[\x7b\"primary\":\x7b\"fields\":[\x7b" ++
        "\"declared_type\":\"Map<String, int>\",\"name\":\"gr\u00f6\u00dfe\"\x7d]," ++
        "\"kind\":\"class\",\"name\":\"\\\"Page\\\"\\n\",\"declaration\":\"type\"\x7d," ++
        "\"package\":\"org.example\"\x7d]\x7d" ∧
      ofJson v.toText.toByteArray.toList = .ok s ∧
      ofJson s.toJson.toText.toByteArray.toList = .ok s := by
  intro size page s v
  have hs : s.KindsFit := by
    intro u hu d hd
    cases List.mem_singleton.1 hu
    cases hd
    decide
  have hsize : size.toJson.Rearranged defaults _ :=
    .object (.keep (.text _) (.keep (.text _) (.drop (by simp [defaults, size]) .nil)))
      (List.reverse_perm _).symm
  have hpage : (Primary.type page).toJson.Rearranged defaults _ :=
    .object (.keep (.text _) (.keep (.text _) (.keep (.text _)
      (.keep (.array (.cons hsize .nil)) (.drop (by simp [defaults, page, Value.ofList]) .nil)))))
      (List.reverse_perm _).symm
  have hv : s.toJson.Rearranged defaults v :=
    .object (.keep (.array (.cons (.object (.drop (by simp [defaults, Value.ofOption])
      (.keep (.text _) (.keep hpage .nil))) (List.reverse_perm _).symm) .nil)) .nil) (.refl _)
  have hread := (read_of_rearranged.1 s hs).2 v hv
  exact ⟨read_of_rearranged.2 _ s hread, hv, by decide +kernel, hread,
    (read_of_rearranged.1 s hs).1⟩

end DeclarationSet

end ProtoSchema
