import ProtoSchema.TypeRef
import ProtoSchema.Vocabulary
import ProtoSchema.EnumPool

/-!
How a type reference is decomposed, and the schema type it becomes. A collection of one argument is
repeated, a map of two is a map, and everything else is a leaf that stands for its name alone.
-/

namespace ProtoSchema

inductive Shape where
  | repeated (element : TypeRef)
  | map (key value : TypeRef)
  | leaf (name : String)

namespace TypeRef

/-- Decomposes one level. A collection or map with another number of arguments is a leaf. -/
def shape : TypeRef → Shape
  | mk n [element] =>
      if collectionNames.contains (Text.simpleName n) then .repeated element else .leaf n
  | mk n [key, value] =>
      if mapNames.contains (Text.simpleName n) then .map key value else .leaf n
  | mk n _ => .leaf n

theorem sizeOf_lt_of_shape_repeated {t element : TypeRef} (h : t.shape = .repeated element) :
    sizeOf element < sizeOf t := by
  unfold shape at h
  split at h
  · split at h
    · simp only [Shape.repeated.injEq] at h
      subst h
      simp only [mk.sizeOf_spec, List.cons.sizeOf_spec, List.nil.sizeOf_spec]
      omega
    · simp at h
  · split at h <;> simp at h
  · simp at h

theorem sizeOf_lt_of_shape_map {t key value : TypeRef} (h : t.shape = .map key value) :
    sizeOf key < sizeOf t ∧ sizeOf value < sizeOf t := by
  unfold shape at h
  split at h
  · split at h <;> simp at h
  · split at h
    · simp only [Shape.map.injEq] at h
      obtain ⟨rfl, rfl⟩ := h
      simp only [mk.sizeOf_spec, List.cons.sizeOf_spec, List.nil.sizeOf_spec]
      omega
    · simp at h
  · simp at h

def leafNames (t : TypeRef) : List String :=
  match _h : t.shape with
  | .repeated element => leafNames element
  | .map key value => leafNames key ++ leafNames value
  | .leaf n => [n]
  termination_by sizeOf t
  decreasing_by
    · exact sizeOf_lt_of_shape_repeated ‹_›
    · exact (sizeOf_lt_of_shape_map ‹_›).1
    · exact (sizeOf_lt_of_shape_map ‹_›).2

/-- The schema type of a leaf. An enum of the run shadows the fixed vocabulary, and a name that is
in neither stands for the message of that name. -/
def leafSchemaType (pool : EnumPool) (n : String) : String :=
  if pool.contains n then n
  else
    match Category.ofName? n with
    | some c => c.schemaType
    | none => n

def schemaType (pool : EnumPool) (t : TypeRef) : String :=
  match _h : t.shape with
  | .repeated element => "repeated " ++ schemaType pool element
  | .map key value => "map<" ++ schemaType pool key ++ ", " ++ schemaType pool value ++ ">"
  | .leaf n => leafSchemaType pool n
  termination_by sizeOf t
  decreasing_by
    · exact sizeOf_lt_of_shape_repeated ‹_›
    · exact (sizeOf_lt_of_shape_map ‹_›).1
    · exact (sizeOf_lt_of_shape_map ‹_›).2

end TypeRef

end ProtoSchema
