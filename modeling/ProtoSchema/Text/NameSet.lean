/-!
Finite sets of names, kept as strictly ascending lists, so that a set has one representation and is
listed in code point order.
-/

namespace ProtoSchema

structure NameSet where
  toList : List String
  ascending : toList.Pairwise (· < ·)

namespace NameSet

def insertInto (x : String) : List String → List String
  | [] => [x]
  | y :: ys => if x < y then x :: y :: ys else if y < x then y :: insertInto x ys else y :: ys

theorem mem_insertInto {x z : String} {l : List String} :
    z ∈ insertInto x l ↔ z = x ∨ z ∈ l := by
  induction l with
  | nil => simp [insertInto]
  | cons y ys ih =>
      rw [insertInto]
      split
      · simp
      · split
        · simp only [List.mem_cons, ih]
          constructor
          · rintro (h | h | h) <;> simp [h]
          · rintro (h | h | h) <;> simp [h]
        · have hxy : x = y := String.le_antisymm ‹_› ‹_›
          simp [hxy]

theorem pairwise_insertInto {x : String} {l : List String} (h : l.Pairwise (· < ·)) :
    (insertInto x l).Pairwise (· < ·) := by
  induction l with
  | nil => simp [insertInto]
  | cons y ys ih =>
      have hy := List.pairwise_cons.1 h
      rw [insertInto]
      split
      · rename_i hxy
        refine List.pairwise_cons.2 ⟨fun z hz => ?_, h⟩
        rcases List.mem_cons.1 hz with rfl | hz
        · exact hxy
        · exact String.lt_trans hxy (hy.1 z hz)
      · split
        · rename_i hyx
          refine List.pairwise_cons.2 ⟨fun z hz => ?_, ih hy.2⟩
          rcases mem_insertInto.1 hz with rfl | hz
          · exact hyx
          · exact hy.1 z hz
        · exact h

instance : Membership String NameSet := ⟨fun s x => x ∈ s.toList⟩

instance (x : String) (s : NameSet) : Decidable (x ∈ s) :=
  inferInstanceAs (Decidable (x ∈ s.toList))

def empty : NameSet := ⟨[], .nil⟩

def insert (s : NameSet) (x : String) : NameSet :=
  ⟨insertInto x s.toList, pairwise_insertInto s.ascending⟩

def insertAll (s : NameSet) (xs : List String) : NameSet := xs.foldl insert s

def ofList (xs : List String) : NameSet := empty.insertAll xs

def union (s t : NameSet) : NameSet := s.insertAll t.toList

def filter (p : String → Bool) (s : NameSet) : NameSet :=
  ⟨s.toList.filter p, s.ascending.filter p⟩

def isEmpty (s : NameSet) : Bool := s.toList.isEmpty

def size (s : NameSet) : Nat := s.toList.length

theorem mem_def {x : String} {s : NameSet} : x ∈ s ↔ x ∈ s.toList := Iff.rfl

@[simp] theorem not_mem_empty (x : String) : x ∉ empty := by simp [mem_def, empty]

@[simp] theorem mem_insert {x y : String} {s : NameSet} : y ∈ s.insert x ↔ y = x ∨ y ∈ s :=
  mem_insertInto

@[simp] theorem mem_insertAll {y : String} {s : NameSet} {xs : List String} :
    y ∈ s.insertAll xs ↔ y ∈ s ∨ y ∈ xs := by
  induction xs generalizing s with
  | nil => simp [insertAll]
  | cons x xs ih =>
      have h : s.insertAll (x :: xs) = (s.insert x).insertAll xs := rfl
      rw [h, ih, mem_insert, List.mem_cons]
      grind

@[simp] theorem mem_ofList {x : String} {xs : List String} : x ∈ ofList xs ↔ x ∈ xs := by
  simp [ofList]

@[simp] theorem mem_union {x : String} {s t : NameSet} : x ∈ s.union t ↔ x ∈ s ∨ x ∈ t := by
  rw [union, mem_insertAll]
  rfl

@[simp] theorem mem_filter {x : String} {p : String → Bool} {s : NameSet} :
    x ∈ s.filter p ↔ x ∈ s ∧ p x = true := List.mem_filter

/-- Sets of the same names are the same. -/
@[ext] theorem ext {s t : NameSet} (h : ∀ x, x ∈ s ↔ x ∈ t) : s = t := by
  have hnodup : ∀ s : NameSet, s.toList.Nodup := fun s =>
    s.ascending.imp fun hlt => by
      rintro rfl
      exact String.lt_irrefl _ hlt
  have hperm : s.toList.Perm t.toList := (List.perm_ext_iff_of_nodup (hnodup s) (hnodup t)).2 h
  have hlist : s.toList = t.toList :=
    hperm.eq_of_pairwise (fun x y _ _ hlt hgt => absurd hgt (String.lt_asymm hlt)) s.ascending
      t.ascending
  cases s
  cases t
  cases hlist
  rfl

end NameSet

end ProtoSchema
