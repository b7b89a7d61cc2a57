import ProtoSchema.FileTree
import Mathlib.Tactic.SplitIfs

/-!
Where paths lead in a tree that grows. A walk that succeeds passes through directories only, so it
leads to the same place in every tree that keeps these; and the path of a plain name in a directory
leads to that name at the place of the directory.
-/

namespace ProtoSchema

/-! ### Paths of names in directories -/

namespace Path

variable {o n : String}

theorem names_of_notMem (hn : n ≠ "") (hslash : '/' ∉ n.toList) : names n = [n] := by
  have hne : n.toList ≠ [] := fun h => hn (String.toList_inj.1 h)
  simp [names, Text.parts_of_notMem hslash, hne]

theorem isAbsolute_eq_false (hslash : '/' ∉ n.toList) : isAbsolute n = false := by
  rw [isAbsolute, beq_eq_false_iff_ne]
  intro h
  exact hslash (List.mem_of_mem_head? h)

/-- The path of a plain name in a directory. -/
theorem join_cases (o : String) (hslash : '/' ∉ n.toList) :
    (o = "" ∧ join o n = n) ∨
      ∃ a : List Char, join o n = String.ofList (a ++ '/' :: n.toList) ∧
        (o.toList = a ∨ o.toList = a ++ ['/']) ∧ o ≠ "" := by
  rw [join, isAbsolute_eq_false hslash]
  by_cases ho : o = ""
  · subst ho
    exact .inl ⟨rfl, by simp⟩
  · right
    have hempty : o.isEmpty = false := by simpa [String.isEmpty_iff] using ho
    by_cases hend : endsWithSlash o = true
    · obtain ⟨a, ha⟩ := List.getLast?_eq_some_iff.1 (beq_iff_eq.1 hend)
      refine ⟨a, ?_, .inr ha, ho⟩
      apply String.toList_inj.1
      simp [hend, ha]
    · refine ⟨o.toList, ?_, .inl rfl, ho⟩
      apply String.toList_inj.1
      simp [hend, hempty]

theorem names_join (o : String) (hn : n ≠ "") (hslash : '/' ∉ n.toList) :
    names (join o n) = names o ++ [n] := by
  have hname := names_of_notMem hn hslash
  rcases join_cases o hslash with ⟨rfl, hjoin⟩ | ⟨a, hjoin, ha, -⟩
  · rw [hjoin, hname]
    rfl
  · have hfront : names o = ((Text.parts '/' a).filter (!·.isEmpty)).map String.ofList := by
      rcases ha with ha | ha
      · rw [names, ha]
      · simp [names, ha, Text.parts_append_sep, Text.parts]
    rw [← hname, hfront, hjoin]
    simp [names, Text.parts_append_sep]

theorem isAbsolute_join (o : String) (hslash : '/' ∉ n.toList) :
    isAbsolute (join o n) = isAbsolute o := by
  rcases join_cases o hslash with ⟨rfl, hjoin⟩ | ⟨a, hjoin, ha, ho⟩
  · rw [hjoin, isAbsolute_eq_false hslash]
    rfl
  · have hne : o.toList ≠ [] := fun h => ho (String.toList_inj.1 h)
    rw [isAbsolute, isAbsolute, hjoin, String.toList_ofList]
    rcases ha with ha | ha <;> rw [ha] at hne ⊢ <;> cases a <;> simp_all

theorem endsWithSlash_join (o : String) (hn : n ≠ "") (hslash : '/' ∉ n.toList) :
    endsWithSlash (join o n) = false := by
  rcases List.eq_nil_or_concat n.toList with hnil | ⟨m, c, hlast⟩
  · exact absurd (String.toList_inj.1 hnil) hn
  · have hc : c ≠ '/' := by
      rintro rfl
      exact hslash (by simp [hlast])
    rw [endsWithSlash, beq_eq_false_iff_ne]
    rcases join_cases o hslash with ⟨-, hjoin⟩ | ⟨a, hjoin, -, -⟩
    · simp [hjoin, hlast, hc]
    · rw [hjoin, String.toList_ofList, hlast, List.concat_eq_append, ← List.cons_append,
        ← List.append_assoc, List.getLast?_concat]
      simpa using hc

end Path

/-! ### Growing trees -/

namespace FileTree

/-- A tree that has grown: what was there is there still, and directories are directories. -/
structure Grows (t t' : FileTree) : Prop where
  workingDirectory : t'.workingDirectory = t.workingDirectory
  directory : ∀ p, t.get? p = some .directory → t'.get? p = some .directory
  present : ∀ p, (t.get? p).isSome = true → (t'.get? p).isSome = true

theorem Grows.refl (t : FileTree) : t.Grows t := ⟨rfl, fun _ h => h, fun _ h => h⟩

theorem Grows.trans {t t' t'' : FileTree} (h : t.Grows t') (h' : t'.Grows t'') : t.Grows t'' where
  workingDirectory := h'.workingDirectory.trans h.workingDirectory
  directory p hp := h'.directory p (h.directory p hp)
  present p hp := h'.present p (h.present p hp)

/-- A tree grows by an entry that takes the place of no directory. -/
theorem grows_put {t : FileTree} {p : Place} {e : Entry} (hp : t.get? p ≠ some .directory) :
    t.Grows (t.put p e) := by
  have hne : p ≠ [] := by
    rintro rfl
    exact hp t.get?_root
  refine ⟨rfl, fun q hq => ?_, fun q hq => ?_⟩
  · rw [get?_put t hne, if_neg, hq]
    rintro rfl
    exact hp hq
  · rw [get?_put t hne]
    split
    · rfl
    · exact hq

variable {t t' : FileTree} {p q : Place}

theorem walk_nil (t : FileTree) (p : Place) : t.walk p [] = .ok p := rfl

/-- A walk goes name by name. -/
theorem walk_cons (t : FileTree) (p : Place) (n : String) (ns : List String) :
    t.walk p (n :: ns) = (t.walk p [n]).bind fun q => t.walk q ns := by
  rw [walk, walk]
  cases t.get? p with
  | none => rfl
  | some e =>
      cases e with
      | file content => rfl
      | directory =>
          simp only [walk_nil]
          split_ifs <;> rfl

theorem walk_append (t : FileTree) (p : Place) (ns ms : List String) :
    t.walk p (ns ++ ms) = (t.walk p ns).bind fun q => t.walk q ms := by
  induction ns generalizing p with
  | nil => rfl
  | cons n ns ih =>
      rw [List.cons_append, walk_cons, walk_cons t p n ns]
      cases t.walk p [n] with
      | error fault => rfl
      | ok q => exact ih q

theorem walk_append_eq_ok {ns ms : List String} :
    t.walk p (ns ++ ms) = .ok q ↔ ∃ r, t.walk p ns = .ok r ∧ t.walk r ms = .ok q := by
  rw [walk_append]
  cases t.walk p ns with
  | error fault => simp [Except.bind]
  | ok r => simp [Except.bind]

/-- A dot stays where it is, in a directory. -/
theorem walk_dot : t.walk p ["."] = .ok q ↔ p = q ∧ t.get? p = some .directory := by
  rw [walk]
  cases t.get? p with
  | none => simp
  | some e => cases e <;> simp [walk_nil]

theorem walk_name {n : String} (hdots : isDots n = false) (hlong : isTooLong n = false) :
    t.walk p [n] = .ok q ↔
      q = n :: p ∧ t.get? p = some .directory ∧ (t.get? (n :: p)).isSome = true := by
  rw [isDots, Bool.or_eq_false_iff, beq_eq_false_iff_ne, beq_eq_false_iff_ne] at hdots
  rw [walk]
  cases t.get? p with
  | none => simp
  | some e =>
      cases e with
      | file content => simp
      | directory =>
          simp only [hdots.1, hdots.2, hlong, walk_nil, Bool.false_eq_true, if_false]
          split_ifs with h <;> simp [h, eq_comm]

/-- A walk that succeeds leads to the same place when the tree has grown. -/
theorem Grows.walk (h : t.Grows t') {ns : List String} (hwalk : t.walk p ns = .ok q) :
    t'.walk p ns = .ok q := by
  induction ns generalizing p with
  | nil => exact hwalk
  | cons n ns ih =>
      rw [← List.singleton_append, walk_append_eq_ok] at hwalk ⊢
      obtain ⟨r, hn, hns⟩ := hwalk
      refine ⟨r, ?_, ih hns⟩
      rw [FileTree.walk] at hn ⊢
      cases hp : t.get? p with
      | none => simp [hp] at hn
      | some e =>
          cases e with
          | file content => simp [hp] at hn
          | directory =>
              simp only [hp] at hn
              simp only [h.directory p hp]
              split_ifs at hn with hdot hdots hlong hpresent
              · rwa [if_pos hdot]
              · rwa [if_neg hdot, if_pos hdots]
              · rwa [if_neg hdot, if_neg hdots, if_neg hlong, if_pos (h.present _ hpresent)]

end FileTree

end ProtoSchema
