import ProtoSchema.Proofs.FieldType.Leaves
import ProtoSchema.Proofs.Text.Segments

/-!
The schema type of a reference as a form that is filled in. The collections and maps of a reference
give the form, which has one hole for each leaf and asks no enum pool; the leaf names, each mapped
on its own, fill the holes from left to right. Arguments that are not taken apart are in neither.
-/

namespace ProtoSchema

inductive Skeleton where
  | hole
  | repeated (element : Skeleton)
  | map (key value : Skeleton)
  deriving DecidableEq, Repr

def Shape.onRefs (f : TypeRef → TypeRef) : Shape → Shape
  | repeated element => repeated (f element)
  | map key value => map (f key) (f value)
  | leaf n => leaf n

namespace Skeleton

/-- Fills the holes from left to right, and gives the text with the names that are left over. Fails
if there are fewer names than holes. -/
def fillFrom? : Skeleton → List String → Option (String × List String)
  | hole, [] => none
  | hole, n :: ns => some (n, ns)
  | repeated element, ns => (element.fillFrom? ns).map fun p => ("repeated " ++ p.1, p.2)
  | map key value, ns =>
      (key.fillFrom? ns).bind fun k =>
        (value.fillFrom? k.2).map fun v => ("map<" ++ k.1 ++ ", " ++ v.1 ++ ">", v.2)

def fill? (s : Skeleton) (names : List String) : Option String :=
  match s.fillFrom? names with
  | some (text, []) => some text
  | _ => none

theorem fill?_of_fillFrom? {s : Skeleton} {names : List String} {text : String}
    (h : s.fillFrom? names = some (text, [])) : s.fill? names = some text := by
  rw [fill?, h]

end Skeleton

namespace TypeRef

def skeleton (t : TypeRef) : Skeleton :=
  match _h : t.shape with
  | .repeated element => .repeated element.skeleton
  | .map key value => .map key.skeleton value.skeleton
  | .leaf _ => .hole
  termination_by sizeOf t
  decreasing_by
    · exact sizeOf_lt_of_shape_repeated ‹_›
    · exact (sizeOf_lt_of_shape_map ‹_›).1
    · exact (sizeOf_lt_of_shape_map ‹_›).2

/-- Whether a name with so many arguments is a collection or a map, by its last segment. -/
def isWrapper (n : String) (arity : Nat) : Bool :=
  collectionNames.contains (Text.lastSegment n) && arity == 1 ||
    mapNames.contains (Text.lastSegment n) && arity == 2

/-- Drops the arguments of all names that are no collection or map with so many arguments. -/
def pruned : TypeRef → TypeRef
  | mk n args => if isWrapper n args.length then mk n (args.map pruned) else named n

section

variable {t element key value : TypeRef} {n : String} {args : List TypeRef} {pool : EnumPool}

theorem skeleton_of_repeated (h : t.shape = .repeated element) :
    t.skeleton = .repeated element.skeleton := by
  rw [skeleton]
  split <;> simp_all

theorem skeleton_of_map (h : t.shape = .map key value) :
    t.skeleton = .map key.skeleton value.skeleton := by
  rw [skeleton]
  split <;> simp_all

theorem skeleton_of_leaf (h : t.shape = .leaf n) : t.skeleton = .hole := by
  rw [skeleton]
  split <;> simp_all

/-! ### Holes and leaves -/

/-- The mapped leaf names fill the holes of the form and leave other names over. Form and leaves go
along the same decomposition. -/
theorem fillFrom?_leafNames (pool : EnumPool) (t : TypeRef) (others : List String) :
    t.skeleton.fillFrom? (t.leafNames.map (leafSchemaType pool) ++ others) =
      some (t.schemaType pool, others) := by
  induction t using leafNames.induct generalizing others with
  | case1 t element hshape ih =>
      rw [skeleton_of_repeated hshape, leafNames_of_repeated hshape, schemaType_of_repeated hshape,
        Skeleton.fillFrom?, ih]
      rfl
  | case2 t key value hshape ihkey ihvalue =>
      rw [skeleton_of_map hshape, leafNames_of_map hshape, schemaType_of_map hshape,
        Skeleton.fillFrom?, List.map_append, List.append_assoc, ihkey, Option.bind_some, ihvalue]
      rfl
  | case3 t n hshape =>
      rw [skeleton_of_leaf hshape, leafNames_of_leaf hshape, schemaType_of_leaf hshape]
      rfl

theorem fill?_leafNames (pool : EnumPool) (t : TypeRef) :
    t.skeleton.fill? (t.leafNames.map (leafSchemaType pool)) = some (t.schemaType pool) := by
  have hfill := fillFrom?_leafNames pool t []
  rw [List.append_nil] at hfill
  exact Skeleton.fill?_of_fillFrom? hfill

/-- A schema type is told from its form and from what its leaves are mapped to. -/
theorem schemaType_eq_of_skeleton {t' : TypeRef} (hskeleton : t'.skeleton = t.skeleton)
    (hleaves : t'.leafNames = t.leafNames) : t'.schemaType pool = t.schemaType pool := by
  have hfill := fill?_leafNames pool t'
  rw [hskeleton, hleaves, fill?_leafNames, Option.some.injEq] at hfill
  exact hfill.symm

/-! ### Arguments that are not taken apart -/

theorem isWrapper_one (n : String) :
    isWrapper n 1 = collectionNames.contains (Text.simpleName n) := by
  simp [isWrapper, Text.simpleName_eq_lastSegment]

theorem isWrapper_two (n : String) : isWrapper n 2 = mapNames.contains (Text.simpleName n) := by
  simp [isWrapper, Text.simpleName_eq_lastSegment]

theorem shape_of_not_wrapper (h : isWrapper n args.length = false) :
    (mk n args).shape = .leaf n := by
  rcases args with _ | ⟨a, _ | ⟨b, _ | ⟨c, others⟩⟩⟩
  · rfl
  · rw [List.length_singleton, isWrapper_one] at h
    rw [shape, h]
    rfl
  · rw [List.length_cons, List.length_singleton, isWrapper_two] at h
    rw [shape, h]
    rfl
  · rfl

theorem pruned_of_not_wrapper (h : isWrapper n args.length = false) :
    (mk n args).pruned = named n := by
  rw [pruned, h]
  rfl

/-- A name that is a leaf because of the number of its arguments is one without arguments as well.
-/
theorem shape_pruned (t : TypeRef) : t.pruned.shape = t.shape.onRefs pruned := by
  obtain ⟨n, args⟩ := t
  cases hwrapper : isWrapper n args.length with
  | false =>
      rw [pruned_of_not_wrapper hwrapper, shape_of_not_wrapper hwrapper]
      rfl
  | true =>
      rw [pruned, hwrapper, if_pos rfl]
      -- The number of arguments says which of the two kinds it is.
      rcases args with _ | ⟨a, _ | ⟨b, _ | ⟨c, others⟩⟩⟩
      · simp [isWrapper] at hwrapper
      · rw [List.length_singleton, isWrapper_one] at hwrapper
        rw [List.map_singleton, shape, shape, hwrapper]
        rfl
      · rw [List.length_cons, List.length_singleton, isWrapper_two] at hwrapper
        rw [List.map_cons, List.map_singleton, shape, shape, hwrapper]
        rfl
      · simp [isWrapper] at hwrapper

theorem skeleton_leafNames_pruned (t : TypeRef) :
    t.pruned.skeleton = t.skeleton ∧ t.pruned.leafNames = t.leafNames := by
  induction t using leafNames.induct with
  | case1 t element hshape ih =>
      have hpruned : t.pruned.shape = .repeated element.pruned := by
        rw [shape_pruned, hshape]
        rfl
      rw [skeleton_of_repeated hpruned, skeleton_of_repeated hshape, leafNames_of_repeated hpruned,
        leafNames_of_repeated hshape, ih.1, ih.2]
      exact ⟨rfl, rfl⟩
  | case2 t key value hshape ihkey ihvalue =>
      have hpruned : t.pruned.shape = .map key.pruned value.pruned := by
        rw [shape_pruned, hshape]
        rfl
      rw [skeleton_of_map hpruned, skeleton_of_map hshape, leafNames_of_map hpruned,
        leafNames_of_map hshape, ihkey.1, ihkey.2, ihvalue.1, ihvalue.2]
      exact ⟨rfl, rfl⟩
  | case3 t n hshape =>
      have hpruned : t.pruned.shape = .leaf n := by
        rw [shape_pruned, hshape]
        rfl
      rw [skeleton_of_leaf hpruned, skeleton_of_leaf hshape, leafNames_of_leaf hpruned,
        leafNames_of_leaf hshape]
      exact ⟨rfl, rfl⟩

end

/-- The schema type of a reference is its form, filled from left to right with what its leaf names
are mapped to, each of them once. So the enum pool counts only for these names, and arguments that
are not taken apart count for neither the form nor the leaves. -/
theorem schemaType_fills_skeleton (t : TypeRef) :
    (∀ pool, t.skeleton.fill? (t.leafNames.map (leafSchemaType pool)) =
        some (t.schemaType pool)) ∧
      (∀ pool pool' : EnumPool, (∀ n ∈ t.leafNames, pool.contains n = pool'.contains n) →
        t.schemaType pool = t.schemaType pool') ∧
      ∀ t' : TypeRef, t'.pruned = t.pruned →
        t'.skeleton = t.skeleton ∧ t'.leafNames = t.leafNames ∧
          ∀ pool, t'.schemaType pool = t.schemaType pool := by
  refine ⟨fun pool => fill?_leafNames pool t, fun pool pool' => schemaType_congr t, ?_⟩
  intro t' hpruned
  obtain ⟨hskeleton, hleaves⟩ := skeleton_leafNames_pruned t
  obtain ⟨hskeleton', hleaves'⟩ := skeleton_leafNames_pruned t'
  rw [hpruned] at hskeleton' hleaves'
  have hsame : t'.skeleton = t.skeleton := hskeleton'.symm.trans hskeleton
  have hnames : t'.leafNames = t.leafNames := hleaves'.symm.trans hleaves
  exact ⟨hsame, hnames, fun pool => schemaType_eq_of_skeleton hsame hnames⟩

/-- A set of two arguments is a leaf, and these may be others. One of the pools has an enum more,
that is named like an argument of the set. -/
theorem schemaType_fills_skeleton_set :
    let set : List TypeRef → TypeRef := mk "Set"
    let t := mk "java.util.Map" [named "Duration", mk "List" [set [named "A", named "B"]]]
    let t' := mk "java.util.Map" [named "Duration", mk "List" [set [named "C", named "D"]]]
    let duration : PooledEnum := ⟨⟨"Duration", none, ["SHORT"]⟩, none⟩
    let pool : EnumPool := ⟨[duration]⟩
    let pool' : EnumPool := ⟨[duration, ⟨⟨"A", none, ["FIRST"]⟩, none⟩]⟩
    t.leafNames = ["Duration", "Set"] ∧ t.skeleton = .map .hole (.repeated .hole) ∧
      Skeleton.fill? (.map .hole (.repeated .hole)) ["Duration", "Set"] =
        some "map<Duration, repeated Set>" ∧
      t.schemaType pool = "map<Duration, repeated Set>" ∧
      (∀ n ∈ t.leafNames, pool.contains n = pool'.contains n) ∧
      t.schemaType pool' = "map<Duration, repeated Set>" ∧ t'.pruned = t.pruned ∧
      t'.schemaType pool' = "map<Duration, repeated Set>" := by
  intro set t t' duration pool pool'
  have hleaves : t.leafNames = ["Duration", "Set"] := by decide +kernel
  have hskeleton : t.skeleton = .map .hole (.repeated .hole) := by decide +kernel
  have hmapped : t.leafNames.map (leafSchemaType pool) = ["Duration", "Set"] := by decide +kernel
  have htext : Skeleton.fill? (.map .hole (.repeated .hole)) ["Duration", "Set"] =
      some "map<Duration, repeated Set>" := by decide +kernel
  have hknown : ∀ n ∈ t.leafNames, pool.contains n = pool'.contains n := by decide +kernel
  have hpruned : t'.pruned = t.pruned := by
    have hmap : isWrapper "java.util.Map" 2 = true := by decide +kernel
    have hlist : isWrapper "List" 1 = true := by decide +kernel
    have hset : isWrapper "Set" 2 = false := by decide +kernel
    simp [t, t', set, pruned, hmap, hlist, hset]
  obtain ⟨hfill, hpools, hignored⟩ := schemaType_fills_skeleton t
  have hschema : t.schemaType pool = "map<Duration, repeated Set>" := by
    have h := hfill pool
    rw [hskeleton, hmapped, htext, Option.some.injEq] at h
    exact h.symm
  have hschema' := (hpools pool pool' hknown).symm.trans hschema
  exact ⟨hleaves, hskeleton, htext, hschema, hknown, hschema', hpruned,
    ((hignored t' hpruned).2.2 pool').trans hschema'⟩

end TypeRef

end ProtoSchema
