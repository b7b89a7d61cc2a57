import ProtoSchema.Proofs.FieldType.Leaves
import ProtoSchema.Proofs.Report.Referents
import ProtoSchema.Proofs.Text.Segments
import Mathlib.Data.List.Forall2

/-!
Qualifiers in front of library names. A collection, a map and a name of the fixed vocabulary are
told by their last segments, so a type means the same with qualifiers in front of them: it has the
same schema type, needs the same imports and leaves the same names to be taken for messages. Enums
are looked up by the whole name, and so it is asked that no leaf is one, with a qualifier or
without.
-/

namespace ProtoSchema

/-- Whether the name of a reference is that of a library type: the reference is a collection or a
map with its arguments, or a leaf with a name of the fixed vocabulary. -/
def TypeRef.IsLibrary (t : TypeRef) : Prop :=
  match t.shape with
  | .leaf n => (Category.ofName? n).isSome = true
  | _ => True

/-- Whether a reference becomes another by qualifiers that are put in front of some of its library
names, wherever they stand in it. -/
inductive TypeRef.QualifiesTo : TypeRef → TypeRef → Prop
  | plain (n : String) {args args' : List TypeRef}
      (arguments : List.Forall₂ QualifiesTo args args') :
      QualifiesTo (mk n args) (mk n args')
  | qualified (qualifier n : String) {args args' : List TypeRef} (library : (mk n args).IsLibrary)
      (arguments : List.Forall₂ QualifiesTo args args') :
      QualifiesTo (mk n args) (mk (qualifier ++ "." ++ n) args')

inductive LeafQualifies (n : String) : String → Prop
  | same : LeafQualifies n n
  | qualified (qualifier : String) (known : (Category.ofName? n).isSome = true) :
      LeafQualifies n (qualifier ++ "." ++ n)

inductive Shape.QualifiesTo : Shape → Shape → Prop
  | repeated {element element' : TypeRef} (inner : element.QualifiesTo element') :
      QualifiesTo (repeated element) (repeated element')
  | map {key key' value value' : TypeRef} (keys : key.QualifiesTo key')
      (values : value.QualifiesTo value') : QualifiesTo (map key value) (map key' value')
  | leaf {n n' : String} (names : LeafQualifies n n') : QualifiesTo (leaf n) (leaf n')

namespace TypeRef

variable {t t' : TypeRef} {n n' : String} {args args' : List TypeRef}

/-! ### Decomposition -/

/-- The name of a node keeps its last segment, and it is kept itself at a leaf outside of the
vocabulary. -/
theorem QualifiesTo.exists_nodes (h : t.QualifiesTo t') :
    ∃ n n' args args', t = mk n args ∧ t' = mk n' args' ∧
      List.Forall₂ QualifiesTo args args' ∧ Text.simpleName n' = Text.simpleName n ∧
      ((mk n args).shape = .leaf n → LeafQualifies n n') := by
  cases h with
  | plain n arguments => exact ⟨n, n, _, _, rfl, rfl, arguments, rfl, fun _ => .same⟩
  | qualified qualifier n library arguments =>
      refine ⟨n, _, _, _, rfl, rfl, arguments, Text.simpleName_qualified qualifier n, ?_⟩
      intro hleaf
      rw [IsLibrary, hleaf] at library
      exact .qualified qualifier library

theorem QualifiesTo.shape (h : t.QualifiesTo t') : t.shape.QualifiesTo t'.shape := by
  obtain ⟨n, n', args, args', rfl, rfl, harguments, hsimple, hleaf⟩ := h.exists_nodes
  -- What a name with given arguments is depends on how many there are.
  cases harguments with
  | nil => exact .leaf (hleaf rfl)
  | cons ha hrest =>
      cases hrest with
      | nil =>
          simp only [TypeRef.shape, hsimple] at hleaf ⊢
          split
          · exact .repeated ha
          · next hother => exact .leaf (hleaf (if_neg hother))
      | cons hb hrest =>
          cases hrest with
          | nil =>
              simp only [TypeRef.shape, hsimple] at hleaf ⊢
              split
              · exact .map ha hb
              · next hother => exact .leaf (hleaf (if_neg hother))
          | cons hc hrest => exact .leaf (hleaf rfl)

/-- Induction on two references at once, which are decomposed alike. -/
theorem QualifiesTo.induction_on_shapes {t t' : TypeRef} {motive : TypeRef → TypeRef → Prop}
    (repeated : ∀ {t t' element element'}, t.shape = .repeated element →
      t'.shape = .repeated element' → motive element element' → motive t t')
    (map : ∀ {t t' key key' value value'}, t.shape = .map key value → t'.shape = .map key' value' →
      motive key key' → motive value value' → motive t t')
    (leaf : ∀ {t t' n n'}, t.shape = .leaf n → t'.shape = .leaf n' → LeafQualifies n n' →
      motive t t')
    (h : t.QualifiesTo t') : motive t t' := by
  have hshapes := h.shape
  generalize hshape : t.shape = shape, hshape' : t'.shape = shape' at hshapes
  cases hshapes with
  | repeated inner =>
      exact repeated hshape hshape' (inner.induction_on_shapes repeated map leaf)
  | map keys values =>
      exact map hshape hshape' (keys.induction_on_shapes repeated map leaf)
        (values.induction_on_shapes repeated map leaf)
  | leaf names => exact leaf hshape hshape' names
termination_by sizeOf t
decreasing_by
  · exact sizeOf_lt_of_shape_repeated hshape
  · exact (sizeOf_lt_of_shape_map hshape).1
  · exact (sizeOf_lt_of_shape_map hshape).2

/-- The leaves are the same one by one, but for the qualifiers of those in the vocabulary. -/
theorem QualifiesTo.leafNames (h : t.QualifiesTo t') :
    List.Forall₂ LeafQualifies t.leafNames t'.leafNames := by
  refine h.induction_on_shapes (motive := fun t t' =>
    List.Forall₂ LeafQualifies t.leafNames t'.leafNames) ?_ ?_ ?_
  · intro t t' element element' hshape hshape' ih
    rwa [leafNames_of_repeated hshape, leafNames_of_repeated hshape']
  · intro t t' key key' value value' hshape hshape' ihkey ihvalue
    rw [leafNames_of_map hshape, leafNames_of_map hshape']
    exact List.rel_append ihkey ihvalue
  · intro t t' n n' hshape hshape' names
    rw [leafNames_of_leaf hshape, leafNames_of_leaf hshape']
    exact .cons names .nil

end TypeRef

/-! ### Leaves -/

structure NamesNoEnum (pool : EnumPool) (d : TypeDeclaration) (n : String) : Prop where
  missing : pool.lookup? n = none
  inner : d.nestedEnum? n = none

section

variable {pool : EnumPool} {d : TypeDeclaration} {n n' : String}

theorem LeafQualifies.category_eq (h : LeafQualifies n n') :
    Category.ofName? n' = Category.ofName? n := by
  cases h with
  | same => rfl
  | qualified qualifier known =>
      rw [Category.ofName?, Category.ofName?, Text.simpleName_qualified]

/-- A leaf name that is not kept stands for the same thing in the vocabulary. -/
theorem LeafQualifies.eq_or_known (h : LeafQualifies n n') :
    n' = n ∨ ∃ c, Category.ofName? n = some c ∧ Category.ofName? n' = some c := by
  have hcategory := h.category_eq
  cases h with
  | same => exact .inl rfl
  | qualified qualifier known =>
      obtain ⟨c, hc⟩ := Option.isSome_iff_exists.1 known
      exact .inr ⟨c, hc, hcategory.trans hc⟩

theorem LeafQualifies.leafSchemaType_eq (h : LeafQualifies n n') (hn : NamesNoEnum pool d n)
    (hn' : NamesNoEnum pool d n') :
    TypeRef.leafSchemaType pool n' = TypeRef.leafSchemaType pool n := by
  obtain rfl | ⟨c, hc, hc'⟩ := h.eq_or_known
  · rfl
  · rw [leafSchemaType_of_known (contains_eq_false_iff.2 hn.missing) hc,
      leafSchemaType_of_known (contains_eq_false_iff.2 hn'.missing) hc']

theorem LeafQualifies.importFor_eq (h : LeafQualifies n n') (hn : NamesNoEnum pool d n)
    (hn' : NamesNoEnum pool d n') : importFor pool d n' = importFor pool d n := by
  obtain rfl | ⟨c, hc, hc'⟩ := h.eq_or_known
  · rfl
  · rw [ProtoSchema.importFor_eq, ProtoSchema.importFor_eq,
      referent_eq_known hn.inner hn.missing hc, referent_eq_known hn'.inner hn'.missing hc']
    cases c <;> rfl

theorem LeafQualifies.guard_isOpaque_eq (h : LeafQualifies n n') (pool : EnumPool) :
    Option.guard (isOpaque pool) n' = Option.guard (isOpaque pool) n := by
  obtain rfl | ⟨c, hc, hc'⟩ := h.eq_or_known
  · rfl
  · simp [Option.guard, isOpaque, hc, hc']

end

theorem filterMap_eq_of_forall₂ {α β : Type} {R : α → α → Prop} {xs ys : List α} {f : α → Option β}
    (h : List.Forall₂ R xs ys) (hf : ∀ x ∈ xs, ∀ y ∈ ys, R x y → f y = f x) :
    ys.filterMap f = xs.filterMap f := by
  induction h with
  | nil => rfl
  | @cons x y xs ys hxy _ ih =>
      have hhead : f y = f x := hf x (List.mem_cons_self ..) y (List.mem_cons_self ..) hxy
      have hrest : ys.filterMap f = xs.filterMap f :=
        ih fun x hx y hy => hf x (List.mem_cons_of_mem _ hx) y (List.mem_cons_of_mem _ hy)
      rw [List.filterMap_cons, List.filterMap_cons, hhead, hrest]

namespace TypeRef

variable {pool : EnumPool} {d : TypeDeclaration} {t t' : TypeRef}

def AvoidsEnums (pool : EnumPool) (d : TypeDeclaration) (t : TypeRef) : Prop :=
  ∀ n ∈ t.leafNames, NamesNoEnum pool d n

theorem QualifiesTo.schemaType_eq (h : t.QualifiesTo t') (ht : t.AvoidsEnums pool d)
    (ht' : t'.AvoidsEnums pool d) : t'.schemaType pool = t.schemaType pool := by
  revert ht ht'
  refine h.induction_on_shapes (motive := fun t t' =>
    t.AvoidsEnums pool d → t'.AvoidsEnums pool d → t'.schemaType pool = t.schemaType pool) ?_ ?_ ?_
  · intro t t' element element' hshape hshape' ih ht ht'
    rw [AvoidsEnums, leafNames_of_repeated hshape] at ht
    rw [AvoidsEnums, leafNames_of_repeated hshape'] at ht'
    rw [schemaType_of_repeated hshape, schemaType_of_repeated hshape', ih ht ht']
  · intro t t' key key' value value' hshape hshape' ihkey ihvalue ht ht'
    rw [AvoidsEnums, leafNames_of_map hshape, List.forall_mem_append] at ht
    rw [AvoidsEnums, leafNames_of_map hshape', List.forall_mem_append] at ht'
    rw [schemaType_of_map hshape, schemaType_of_map hshape', ihkey ht.1 ht'.1, ihvalue ht.2 ht'.2]
  · intro t t' n n' hshape hshape' names ht ht'
    rw [AvoidsEnums, leafNames_of_leaf hshape, List.forall_mem_singleton] at ht
    rw [AvoidsEnums, leafNames_of_leaf hshape', List.forall_mem_singleton] at ht'
    rw [schemaType_of_leaf hshape, schemaType_of_leaf hshape', names.leafSchemaType_eq ht ht']

theorem QualifiesTo.importsFor_eq (h : t.QualifiesTo t') (ht : t.AvoidsEnums pool d)
    (ht' : t'.AvoidsEnums pool d) : importsFor pool d [t'] = importsFor pool d [t] := by
  have hleaves := filterMap_eq_of_forall₂ h.leafNames fun n hn n' hn' names =>
    names.importFor_eq (ht n hn) (ht' n' hn')
  rw [importsFor, importsFor, List.flatMap_singleton, List.flatMap_singleton, hleaves]

theorem QualifiesTo.opaqueNames_eq (h : t.QualifiesTo t') :
    opaqueNames pool [t'] = opaqueNames pool [t] := by
  have hleaves := filterMap_eq_of_forall₂ h.leafNames fun n _ n' _ names =>
    names.guard_isOpaque_eq pool
  rw [List.filterMap_eq_filter] at hleaves
  rw [opaqueNames, opaqueNames, List.flatMap_singleton, List.flatMap_singleton, hleaves]

end TypeRef

/-- Qualifiers in front of library names leave the schema type of a reference, its imports and its
guesses at messages as they are, provided that no leaf is named like an enum, before or after. -/
theorem qualifiers_leave_meaning {pool : EnumPool} {d : TypeDeclaration} {t t' : TypeRef}
    (h : t.QualifiesTo t') (ht : t.AvoidsEnums pool d) (ht' : t'.AvoidsEnums pool d) :
    t'.schemaType pool = t.schemaType pool ∧ importsFor pool d [t'] = importsFor pool d [t] ∧
      opaqueNames pool [t'] = opaqueNames pool [t] :=
  ⟨h.schemaType_eq ht ht', h.importsFor_eq ht ht', h.opaqueNames_eq⟩

/-- A map and a point in time with qualifiers, and in the same type a collection and a class
without; the run has an enum of another name. -/
theorem qualifiers_leave_meaning_map :
    let addresses : TypeRef := .mk "List" [.named "Address"]
    let t : TypeRef := .mk "Map" [.named "Instant", addresses]
    let t' : TypeRef := .mk ("java.util" ++ "." ++ "Map")
      [.named ("java.time" ++ "." ++ "Instant"), addresses]
    let visit : TypeDeclaration :=
      { name := "Visit", kind := .classKind, nestedEnums := [⟨"Kind", some "Visit", ["FIRST"]⟩] }
    let pool := EnumPool.ofUnits [.ofType visit]
    t.QualifiesTo t' ∧ t.AvoidsEnums pool visit ∧ t'.AvoidsEnums pool visit ∧
      t'.schemaType pool = "map<google.protobuf.Timestamp, repeated Address>" ∧
      importsFor pool visit [t'] = importsFor pool visit [t] ∧
      opaqueNames pool [t'] = opaqueNames pool [t] := by
  intro addresses t t' visit pool
  have hname : mapNames.contains (Text.simpleName "Map") = true := by decide +kernel
  have hmap : t.shape = .map (.named "Instant") addresses := by
    simp only [t, TypeRef.shape, hname, if_true]
  have hinstant : (Category.ofName? "Instant").isSome = true := by decide +kernel
  have haddresses : addresses.QualifiesTo addresses := .plain _ (.cons (.plain _ .nil) .nil)
  have hqualifies : t.QualifiesTo t' := by
    refine .qualified "java.util" "Map" ?_ (.cons (.qualified "java.time" "Instant" ?_ .nil)
      (.cons haddresses .nil))
    · rw [TypeRef.IsLibrary, hmap]
      trivial
    · exact hinstant
  have hleaves : t.leafNames = ["Instant", "Address"] := by decide +kernel
  have hleaves' : t'.leafNames = ["java.time.Instant", "Address"] := by decide +kernel
  have ht : t.AvoidsEnums pool visit := by
    rw [TypeRef.AvoidsEnums, hleaves, List.forall_mem_cons, List.forall_mem_singleton]
    constructor <;> constructor <;> decide +kernel
  have ht' : t'.AvoidsEnums pool visit := by
    rw [TypeRef.AvoidsEnums, hleaves', List.forall_mem_cons, List.forall_mem_singleton]
    constructor <;> constructor <;> decide +kernel
  have hschema : t.schemaType pool = "map<google.protobuf.Timestamp, repeated Address>" := by
    decide +kernel
  obtain ⟨hsame, himports, hguesses⟩ := qualifiers_leave_meaning hqualifies ht ht'
  exact ⟨hqualifies, ht, ht', hsame.trans hschema, himports, hguesses⟩

end ProtoSchema
