import ProtoSchema.Proofs.Document.Blocks

/-!
The text of a document says what is in it. A document is a header, then messages, then enums; where
all names are identifiers, two documents of the same text have the same package, imports, messages
and enums.
-/

namespace ProtoSchema

open Text (TellsBlocks NoBlock IsLine)

structure DocumentParts where
  package : Option String
  imports : NameSet
  messages : List MessageParts
  enums : List EnumDeclaration

def DocumentParts.text (d : DocumentParts) : String :=
  Document.header d.package d.imports ++ String.join (d.messages.map MessageParts.text) ++
    String.join (d.enums.map Document.enum)

/-- Whether names are identifiers, field types are schema types over dotted identifiers, the package
is absent or a dotted identifier, and import paths can stand between quotes. -/
structure DocumentParts.WellNamed (d : DocumentParts) : Prop where
  package : ∀ p ∈ d.package, p ≠ "" ∧ IsDottedWord p
  imports : ∀ path ∈ d.imports, '"' ∉ path.toList ∧ '\n' ∉ path.toList
  messages : ∀ m ∈ d.messages, m.WellNamed
  enums : ∀ e ∈ d.enums, e.WellNamed

namespace Document

/-! ### Headers -/

theorem packageBlock_inj {package package' : Option String} {r r' : List Char}
    (hpackage : ∀ p ∈ package, p ≠ "" ∧ IsDottedWord p)
    (hpackage' : ∀ p ∈ package', p ≠ "" ∧ IsDottedWord p) (hr : r.head? ≠ some 'p')
    (hr' : r'.head? ≠ some 'p')
    (h : (packageBlock package).toList ++ r = (packageBlock package').toList ++ r') :
    package = package' ∧ r = r' := by
  have hline : ∀ p : String, p ≠ "" → ∀ r, ∃ s, (packageBlock (some p)).toList ++ r =
      "package ".toList ++ p.toList ++ [';'] ++ '\n' :: s := by
    intro p hp r
    simp [packageBlock, hp]
  have hword : ∀ p : String, IsDottedWord p →
      IsLine ("package ".toList ++ p.toList ++ [';']) ';' := by
    intro p hp
    have hnewline : '\n' ∉ p.toList := notMem_of_isDottedWord hp (by decide) (by decide)
    exact Text.isLine_concat (by simp [hnewline]) (by decide)
  have hhead : ∀ p : String, p ≠ "" → ∀ r,
      ((packageBlock (some p)).toList ++ r).head? = some 'p' := by
    intro p hp r
    simp [packageBlock, hp]
  cases package with
  | none =>
      cases package' with
      | none => exact ⟨rfl, h⟩
      | some p' =>
          have hbegin := hhead p' (hpackage' p' rfl).1 r'
          rw [← h] at hbegin
          exact absurd hbegin hr
  | some p =>
      obtain ⟨hp, hdotted⟩ := hpackage p rfl
      cases package' with
      | none =>
          have hbegin := hhead p hp r
          rw [h] at hbegin
          exact absurd hbegin hr'
      | some p' =>
          obtain ⟨hp', hdotted'⟩ := hpackage' p' rfl
          obtain ⟨s, hs⟩ := hline p hp r
          obtain ⟨s', hs'⟩ := hline p' hp' r'
          obtain ⟨hsame, -⟩ :=
            (hword p hdotted).append_inj (hword p' hdotted') (hs.symm.trans (h.trans hs'))
          have hname : p = p' := String.toList_inj.1 (by simpa using hsame)
          subst hname
          exact ⟨rfl, List.append_cancel_left h⟩

theorem importLine_tellsBlocks :
    TellsBlocks (fun path : String => '\n' ∉ path.toList) (fun path => (importLine path).toList)
      id := by
  have hline : ∀ path : String, '\n' ∉ path.toList →
      IsLine ("import \"".toList ++ path.toList ++ ['"'] ++ [';']) ';' := by
    intro path hpath
    exact Text.isLine_concat (by simp [hpath]) (by decide)
  have htext : ∀ (path : String) (r : List Char), (importLine path).toList ++ r =
      "import \"".toList ++ path.toList ++ ['"'] ++ [';'] ++ '\n' :: r := by
    intro path r
    simp [importLine]
  intro path path' r r' hpath hpath' h
  simp only [htext] at h
  obtain ⟨hsame, hrest⟩ := (hline path hpath).append_inj (hline path' hpath') h
  exact ⟨String.toList_inj.1 (by simpa using hsame), hrest⟩

theorem toList_importBlock_append (imports : NameSet) (r : List Char) :
    (importBlock imports).toList ++ r =
      if imports.toList = [] then r
      else (imports.toList.flatMap fun path => (importLine path).toList) ++ '\n' :: r := by
  by_cases himports : imports.toList = []
  · simp [importBlock, NameSet.isEmpty, himports]
  · simp [importBlock, NameSet.isEmpty, himports, List.flatMap_map]

theorem head?_importBlock_append (imports : NameSet) (r : List Char) :
    ((importBlock imports).toList ++ r).head? = r.head? ∨
      ((importBlock imports).toList ++ r).head? = some 'i' := by
  rw [toList_importBlock_append]
  split
  · exact .inl rfl
  · next himports =>
    obtain ⟨path, paths, hpaths⟩ := List.exists_cons_of_ne_nil himports
    right
    simp [hpaths, importLine]

theorem importBlock_inj {imports imports' : NameSet} {r r' : List Char}
    (himports : ∀ path ∈ imports, '\n' ∉ path.toList)
    (himports' : ∀ path ∈ imports', '\n' ∉ path.toList) (hr : r.head? ≠ some 'i')
    (hr' : r'.head? ≠ some 'i')
    (h : (importBlock imports).toList ++ r = (importBlock imports').toList ++ r') :
    imports = imports' ∧ r = r' := by
  have hstop : ∀ r, NoBlock (fun path : String => '\n' ∉ path.toList)
      (fun path => (importLine path).toList) ('\n' :: r) := by
    intro r path s _
    simp [importLine]
  have hhead : ∀ (path : String) (paths : List String) (r : List Char),
      ((path :: paths).flatMap (fun path => (importLine path).toList) ++ r).head? = some 'i' := by
    intro path paths r
    simp [importLine]
  simp only [toList_importBlock_append] at h
  suffices hpaths : imports.toList = imports'.toList ∧ r = r' by
    refine ⟨?_, hpaths.2⟩
    ext path
    rw [NameSet.mem_def, NameSet.mem_def, hpaths.1]
  cases hs : imports.toList with
  | nil =>
      cases hs' : imports'.toList with
      | nil => exact ⟨rfl, by simpa [hs, hs'] using h⟩
      | cons path' paths' =>
          rw [hs, hs', if_pos rfl, if_neg (List.cons_ne_nil _ _)] at h
          rw [h] at hr
          exact absurd (hhead path' paths' _) hr
  | cons path paths =>
      cases hs' : imports'.toList with
      | nil =>
          rw [hs, hs', if_pos rfl, if_neg (List.cons_ne_nil _ _)] at h
          rw [← h] at hr'
          exact absurd (hhead path paths _) hr'
      | cons path' paths' =>
          rw [hs, hs', if_neg (List.cons_ne_nil _ _), if_neg (List.cons_ne_nil _ _)] at h
          obtain ⟨hmap, hrest⟩ := importLine_tellsBlocks.flatMap
            (fun path hpath => himports path (by rwa [NameSet.mem_def, hs]))
            (fun path hpath => himports' path (by rwa [NameSet.mem_def, hs']))
            (hstop r) (hstop r') h
          rw [List.map_id, List.map_id] at hmap
          exact ⟨hmap, (List.cons.inj hrest).2⟩

/-! ### Documents -/

theorem enum_tellsBlocks :
    TellsBlocks EnumDeclaration.WellNamed (fun e => (enum e).toList) EnumDeclaration.unplaced := by
  intro e e' r r' he he' h
  simp only [enum, String.toList_append, List.append_assoc] at h
  obtain ⟨hsame, hrest⟩ := enumBlock_tellsBlocks (by decide) he he' h
  exact ⟨hsame, List.append_cancel_left hrest⟩

end Document

namespace DocumentParts

open Document

variable {d d' : DocumentParts}

def body (d : DocumentParts) : List Char :=
  (d.messages.flatMap fun m => m.text.toList) ++ d.enums.flatMap fun e => (enum e).toList

/-- All documents begin alike. -/
theorem exists_toList_text : ∃ front : String, ∀ d : DocumentParts, d.text.toList =
    front.toList ++
      ((packageBlock d.package).toList ++ ((importBlock d.imports).toList ++ d.body)) := by
  obtain ⟨front, hfront⟩ : ∃ front, ∀ package imports,
      header package imports = front ++ packageBlock package ++ importBlock imports :=
    ⟨_, fun _ _ => rfl⟩
  refine ⟨front, fun d => ?_⟩
  rw [text, hfront]
  simp [body, List.flatMap_map]

theorem head?_body (d : DocumentParts) :
    d.body.head? = none ∨ d.body.head? = some 'm' ∨ d.body.head? = some 'e' := by
  rw [body]
  cases d.messages with
  | cons m ms =>
      right; left
      simp [MessageParts.text, message]
  | nil =>
      cases d.enums with
      | nil => exact .inl rfl
      | cons e es =>
          right; right
          simp [enum, enumBlock]

theorem body_inj (hd : d.WellNamed) (hd' : d'.WellNamed) (h : d.body = d'.body) :
    d.messages.map MessageParts.unplaced = d'.messages.map MessageParts.unplaced ∧
      d.enums.map EnumDeclaration.unplaced = d'.enums.map EnumDeclaration.unplaced := by
  have hmessages : ∀ es : List EnumDeclaration,
      NoBlock MessageParts.WellNamed (fun m => m.text.toList)
        (es.flatMap fun e => (enum e).toList) := by
    intro es m s _
    cases es <;> simp [MessageParts.text, message, enum, enumBlock]
  have henums : NoBlock EnumDeclaration.WellNamed (fun e => (enum e).toList) [] := by
    intro e s _
    simp [enum, enumBlock]
  obtain ⟨hsame, hrest⟩ := message_tellsBlocks.flatMap hd.messages hd'.messages
    (hmessages d.enums) (hmessages d'.enums) h
  refine ⟨hsame, ?_⟩
  apply And.left
  exact enum_tellsBlocks.flatMap hd.enums hd'.enums henums henums (by simpa using hrest)

/-- Documents of well-named parts have the same text if and only if they have the same package,
imports, messages and enums. -/
theorem text_eq_iff (hd : d.WellNamed) (hd' : d'.WellNamed) :
    d.text = d'.text ↔ d.package = d'.package ∧ d.imports = d'.imports ∧
      d.messages.map MessageParts.unplaced = d'.messages.map MessageParts.unplaced ∧
      d.enums.map EnumDeclaration.unplaced = d'.enums.map EnumDeclaration.unplaced := by
  constructor
  · intro h
    obtain ⟨front, hfront⟩ := exists_toList_text
    have htail := congrArg String.toList h
    rw [hfront, hfront] at htail
    have hbody : ∀ (d : DocumentParts) (c : Char), c ≠ 'm' → c ≠ 'e' → d.body.head? ≠ some c := by
      intro d c hm he hc
      rcases d.head?_body with h | h | h <;> rw [h] at hc <;> cases hc
      · exact hm rfl
      · exact he rfl
    have hblock : ∀ d : DocumentParts,
        ((importBlock d.imports).toList ++ d.body).head? ≠ some 'p' := by
      intro d hp
      rcases head?_importBlock_append d.imports d.body with h | h <;> rw [h] at hp
      · exact hbody d 'p' (by decide) (by decide) hp
      · cases hp
    obtain ⟨hpackage, hafter⟩ := packageBlock_inj hd.package hd'.package (hblock d) (hblock d')
      (List.append_cancel_left htail)
    obtain ⟨himports, hrest⟩ := importBlock_inj (fun path hpath => (hd.imports path hpath).2)
      (fun path hpath => (hd'.imports path hpath).2) (hbody d 'i' (by decide) (by decide))
      (hbody d' 'i' (by decide) (by decide)) hafter
    exact ⟨hpackage, himports, body_inj hd hd' hrest⟩
  · rintro ⟨hpackage, himports, hmessages, henums⟩
    have hbodies : ∀ d : DocumentParts, d.text = header d.package d.imports ++
        String.join ((d.messages.map MessageParts.unplaced).map MessageParts.text) ++
        String.join ((d.enums.map EnumDeclaration.unplaced).map enum) := by
      intro d
      simp [text, MessageParts.text_unplaced, enum_unplaced, Function.comp_def]
    rw [hbodies d, hbodies d', hpackage, himports, hmessages, henums]

end DocumentParts

end ProtoSchema
