/-!
Cutting a text at every occurrence of a character.
-/

namespace ProtoSchema.Text

/-- The parts between the separators; a text without separators is its only part. -/
def parts (sep : Char) : List Char → List (List Char)
  | [] => [[]]
  | c :: r =>
      if c = sep then [] :: parts sep r
      else
        match parts sep r with
        | [] => [[c]]
        | s :: ss => (c :: s) :: ss

theorem parts_ne_nil (sep : Char) (s : List Char) : parts sep s ≠ [] := by
  cases s with
  | nil => simp [parts]
  | cons c r =>
      rw [parts]
      split
      · simp
      · split <;> simp

/-- Writing the parts with separators between them gives the text back. -/
theorem intercalate_parts (sep : Char) (s : List Char) :
    List.intercalate [sep] (parts sep s) = s := by
  induction s with
  | nil => rfl
  | cons c r ih =>
      rw [parts]
      split
      · next h =>
        subst h
        cases hp : parts c r with
        | nil => exact absurd hp (parts_ne_nil c r)
        | cons p ps => simp_all [List.intercalate]
      · cases hp : parts sep r with
        | nil => exact absurd hp (parts_ne_nil sep r)
        | cons p ps =>
            rw [hp] at ih
            cases ps <;> simp_all [List.intercalate]

/-- No part contains the separator. -/
theorem sep_notMem_of_mem_parts {sep : Char} {s p : List Char} (h : p ∈ parts sep s) : sep ∉ p := by
  induction s generalizing p with
  | nil => simp_all [parts]
  | cons c r ih =>
      rw [parts] at h
      split at h
      · rcases List.mem_cons.1 h with rfl | h
        · simp
        · exact ih h
      · next hc =>
        cases hp : parts sep r with
        | nil => exact absurd hp (parts_ne_nil sep r)
        | cons q qs =>
            rw [hp] at h ih
            rcases List.mem_cons.1 h with rfl | h
            · simpa [Ne.symm hc] using ih (List.mem_cons_self ..)
            · exact ih (List.mem_cons_of_mem _ h)

/-- Every character but the separators is in one of the parts. -/
theorem exists_mem_parts {sep c : Char} {s : List Char} (hc : c ∈ s) (hne : c ≠ sep) :
    ∃ p ∈ parts sep s, c ∈ p := by
  induction s with
  | nil => cases hc
  | cons d r ih =>
      rw [parts]
      obtain rfl | hc := List.mem_cons.1 hc
      · rw [if_neg hne]
        cases parts sep r <;> simp
      · obtain ⟨p, hp, hcp⟩ := ih hc
        split
        · exact ⟨p, List.mem_cons_of_mem _ hp, hcp⟩
        · cases hr : parts sep r with
          | nil => simp [hr] at hp
          | cons q qs =>
              rw [hr] at hp
              obtain rfl | hp := List.mem_cons.1 hp
              · exact ⟨d :: p, by simp, List.mem_cons_of_mem _ hcp⟩
              · exact ⟨p, List.mem_cons_of_mem _ hp, hcp⟩

theorem parts_of_notMem {sep : Char} {s : List Char} (h : sep ∉ s) : parts sep s = [s] := by
  induction s with
  | nil => rfl
  | cons c r ih =>
      rw [List.mem_cons, not_or] at h
      rw [parts, if_neg (Ne.symm h.1), ih h.2]

/-- A text is cut at each of its separators. -/
theorem parts_append_sep (sep : Char) (s t : List Char) :
    parts sep (s ++ sep :: t) = parts sep s ++ parts sep t := by
  induction s with
  | nil => simp [parts]
  | cons c r ih =>
      by_cases hc : c = sep
      · simp [parts, hc, ih]
      · cases hr : parts sep r with
        | nil => exact absurd hr (parts_ne_nil sep r)
        | cons p ps => simp [parts, hc, ih, hr]

/-- What stands before the first separator, and what stands behind it, can be told from the whole.
-/
theorem append_sep_inj {sep : Char} {s t r r' : List Char} (hs : sep ∉ s) (ht : sep ∉ t)
    (h : s ++ sep :: r = t ++ sep :: r') : s = t ∧ r = r' := by
  induction s generalizing t with
  | nil =>
      cases t with
      | nil => exact ⟨rfl, (List.cons.inj h).2⟩
      | cons c t =>
          obtain ⟨rfl, -⟩ := List.cons.inj h
          exact absurd (List.mem_cons_self ..) ht
  | cons c s ih =>
      cases t with
      | nil =>
          obtain ⟨rfl, -⟩ := List.cons.inj h
          exact absurd (List.mem_cons_self ..) hs
      | cons d t =>
          obtain ⟨rfl, htail⟩ := List.cons.inj h
          rw [List.mem_cons, not_or] at hs ht
          obtain ⟨rfl, rfl⟩ := ih hs.2 ht.2 htail
          exact ⟨rfl, rfl⟩

/-- The same for the last separator. -/
theorem append_sep_inj_of_notMem_right {sep : Char} {s t r r' : List Char} (hr : sep ∉ r)
    (hr' : sep ∉ r') (h : s ++ sep :: r = t ++ sep :: r') : s = t ∧ r = r' := by
  have hreverse : r.reverse ++ sep :: s.reverse = r'.reverse ++ sep :: t.reverse := by
    simpa using congrArg List.reverse h
  obtain ⟨hrest, hstart⟩ := append_sep_inj (by simpa using hr) (by simpa using hr') hreverse
  exact ⟨List.reverse_inj.1 hstart, List.reverse_inj.1 hrest⟩

end ProtoSchema.Text
