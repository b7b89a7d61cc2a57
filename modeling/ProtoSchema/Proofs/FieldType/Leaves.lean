import ProtoSchema.Imports
import Mathlib.Data.List.Basic

/-!
The leaves of a type reference decide what comes of it. Its schema type, the imports and the guesses
at messages ask the enum pool for the names of the leaves and for nothing else.
-/

namespace ProtoSchema

namespace TypeRef

section

variable {t element key value : TypeRef} {n : String} {pool : EnumPool}

theorem leafNames_of_repeated (h : t.shape = .repeated element) :
    t.leafNames = element.leafNames := by
  rw [leafNames]
  split <;> simp_all

theorem leafNames_of_map (h : t.shape = .map key value) :
    t.leafNames = key.leafNames ++ value.leafNames := by
  rw [leafNames]
  split <;> simp_all

theorem leafNames_of_leaf (h : t.shape = .leaf n) : t.leafNames = [n] := by
  rw [leafNames]
  split <;> simp_all

theorem schemaType_of_repeated (h : t.shape = .repeated element) :
    t.schemaType pool = "repeated " ++ element.schemaType pool := by
  rw [schemaType]
  split <;> simp_all

theorem schemaType_of_map (h : t.shape = .map key value) :
    t.schemaType pool =
      "map<" ++ key.schemaType pool ++ ", " ++ value.schemaType pool ++ ">" := by
  rw [schemaType]
  split <;> simp_all

theorem schemaType_of_leaf (h : t.shape = .leaf n) :
    t.schemaType pool = leafSchemaType pool n := by
  rw [schemaType]
  split <;> simp_all

end

/-- Pools that know the same leaves give the same schema type. -/
theorem schemaType_congr {pool pool' : EnumPool} (t : TypeRef)
    (h : ∀ n ∈ t.leafNames, pool.contains n = pool'.contains n) :
    t.schemaType pool = t.schemaType pool' := by
  induction t using leafNames.induct with
  | case1 t element hshape ih =>
      rw [leafNames_of_repeated hshape] at h
      rw [schemaType_of_repeated hshape, schemaType_of_repeated hshape, ih h]
  | case2 t key value hshape ihkey ihvalue =>
      simp only [leafNames_of_map hshape, List.mem_append] at h
      rw [schemaType_of_map hshape, schemaType_of_map hshape, ihkey fun n hn => h n (.inl hn),
        ihvalue fun n hn => h n (.inr hn)]
  | case3 t n hshape =>
      have hn : pool.contains n = pool'.contains n := h n (by simp [leafNames_of_leaf hshape])
      rw [schemaType_of_leaf hshape, schemaType_of_leaf hshape, leafSchemaType, leafSchemaType, hn]

end TypeRef

/-! ### Imports -/

/-- What an import takes from an enum. -/
def PooledEnum.origin (e : PooledEnum) : String × Option String :=
  (e.declaration.name, e.declaration.enclosingType)

section

variable {pool pool' : EnumPool} {n : String}

theorem PooledEnum.importFor_congr {e e' : PooledEnum} (h : e.origin = e'.origin)
    (t : TypeDeclaration) : e.importFor t = e'.importFor t := by
  obtain ⟨hname, henclosing⟩ := Prod.mk.inj h
  rw [importFor, importFor, hname, henclosing]

theorem contains_congr
    (h : (pool.lookup? n).map PooledEnum.origin = (pool'.lookup? n).map PooledEnum.origin) :
    pool.contains n = pool'.contains n := by
  rw [EnumPool.contains, EnumPool.contains, ← Option.isSome_map (f := PooledEnum.origin), h,
    Option.isSome_map]

theorem importFor_congr (t : TypeDeclaration)
    (h : (pool.lookup? n).map PooledEnum.origin = (pool'.lookup? n).map PooledEnum.origin) :
    importFor pool t n = importFor pool' t n := by
  rw [importFor, importFor]
  cases hfound : pool.lookup? n with
  | none =>
      rw [hfound, Option.map_none, eq_comm, Option.map_eq_none_iff] at h
      rw [h]
  | some e =>
      rw [hfound, Option.map_some, eq_comm, Option.map_eq_some_iff] at h
      obtain ⟨e', hfound', horigin⟩ := h
      simp only [hfound', PooledEnum.importFor_congr horigin]

/-- The imports of a document are those of the leaf names in the types of its fields. -/
theorem mem_importsFor {t : TypeDeclaration} {types : List TypeRef} {path : String} :
    path ∈ importsFor pool t types ↔
      ∃ n ∈ types.flatMap TypeRef.leafNames, importFor pool t n = some path := by
  rw [importsFor, NameSet.mem_ofList, List.mem_filterMap]

/-- Pools in which the leaves have the same origins give the same imports. -/
theorem importsFor_congr (t : TypeDeclaration) {types : List TypeRef}
    (h : ∀ n ∈ types.flatMap TypeRef.leafNames,
      (pool.lookup? n).map PooledEnum.origin = (pool'.lookup? n).map PooledEnum.origin) :
    importsFor pool t types = importsFor pool' t types := by
  rw [importsFor, importsFor, List.filterMap_congr fun n hn => importFor_congr t (h n hn)]

end

end ProtoSchema
