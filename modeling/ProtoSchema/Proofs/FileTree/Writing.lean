import ProtoSchema.Document
import ProtoSchema.Proofs.FileTree.Walking

/-!
Writing files into a directory. A file with a plain name is put beside the others in the directory
that the path leads to, nothing else changes, and it is found there again.
-/

namespace ProtoSchema.FileTree

variable {t t' : FileTree} {o n path : String} {p q : Place} {bytes : List UInt8}

theorem Grows.find (h : t.Grows t') (hfind : t.find path = .ok q) : t'.find path = .ok q := by
  rw [FileTree.find] at hfind ⊢
  cases hfault : pathFault? path with
  | some fault => simp [hfault] at hfind
  | none =>
      simp only [hfault, start, h.workingDirectory] at hfind ⊢
      exact h.walk hfind

def folder (t : FileTree) (o : String) : Except FileFault Place :=
  t.walk (t.start o) (Path.names o ++ ["."])

theorem Grows.folder (h : t.Grows t') (hfolder : t.folder o = .ok p) : t'.folder o = .ok p := by
  rw [FileTree.folder, start] at hfolder ⊢
  rw [h.workingDirectory]
  exact h.walk hfolder

theorem findParent_join (hn : n ≠ "") (hslash : '/' ∉ n.toList)
    (hfault : pathFault? (Path.join o n) = none) :
    t.findParent (Path.join o n) = (t.folder o).map (·, some n) := by
  rw [findParent, hfault]
  simp [Path.names_join o hn hslash, folder, start, Path.isAbsolute_join o hslash]

structure IsFileName (o n : String) : Prop where
  path : pathFault? (Path.join o n) = none
  dots : isDots n = false
  short : isTooLong n = false

/-- A file is written beside the others in a directory, if it takes the place of no directory. -/
theorem writeFile_join (hn : n ≠ "") (hslash : '/' ∉ n.toList) :
    t.writeFile (Path.join o n) bytes = .ok t' ↔ IsFileName o n ∧ ∃ p, t.folder o = .ok p ∧
      t.get? (n :: p) ≠ some .directory ∧ t' = t.put (n :: p) (.file bytes) := by
  rw [writeFile]
  cases hfault : pathFault? (Path.join o n) with
  | some fault =>
      have hno : ¬IsFileName o n := fun h => by simp [h.path] at hfault
      simp [findParent, hfault, hno]
  | none =>
      rw [findParent_join hn hslash hfault]
      cases t.folder o with
      | error fault => simp [Except.map]
      | ok p =>
          simp only [Except.map, Path.endsWithSlash_join o hn hslash, Bool.or_false]
          cases hdots : isDots n with
          | true =>
              have hno : ¬IsFileName o n := fun h => by simp [h.dots] at hdots
              simp [hno]
          | false =>
              cases hlong : isTooLong n with
              | true =>
                  have hno : ¬IsFileName o n := fun h => by simp [h.short] at hlong
                  simp [hno]
              | false =>
                  have hyes : IsFileName o n := ⟨hfault, hdots, hlong⟩
                  by_cases hget : t.get? (n :: p) = some .directory
                  · simp [hget]
                  · simp only [hget, hyes, if_false, Bool.false_eq_true, Except.ok.injEq, true_and,
                      exists_eq_left', ne_eq, not_false_eq_true]
                    exact eq_comm

/-- Writing a file with a plain name leaves the directory where it is, and all else as it is. -/
theorem frame_writeFile_join (hn : n ≠ "") (hslash : '/' ∉ n.toList)
    (h : t.writeFile (Path.join o n) bytes = .ok t') :
    ∃ p, t.folder o = .ok p ∧ t'.folder o = .ok p ∧ ∀ q, q ≠ n :: p → t'.get? q = t.get? q := by
  obtain ⟨-, p, hfolder, hfree, rfl⟩ := (writeFile_join hn hslash).1 h
  refine ⟨p, hfolder, (grows_put hfree).folder hfolder, fun q hq => ?_⟩
  rw [get?_put t (List.cons_ne_nil _ _), if_neg hq]

/-- The file at a plain name in a directory. -/
theorem find_join (hn : n ≠ "") (hslash : '/' ∉ n.toList) (hname : IsFileName o n)
    (hfolder : t.folder o = .ok p) (hpresent : (t.get? (n :: p)).isSome = true) :
    t.find (Path.join o n) = .ok (n :: p) := by
  obtain ⟨r, hwalk, hdot⟩ := walk_append_eq_ok.1 hfolder
  obtain ⟨rfl, hdirectory⟩ := walk_dot.1 hdot
  rw [find, hname.path]
  simp only [Path.endsWithSlash_join o hn hslash, Bool.false_eq_true, if_false, List.append_nil,
    Path.names_join o hn hslash, start, Path.isAbsolute_join o hslash]
  exact walk_append_eq_ok.2
    ⟨r, hwalk, (walk_name hname.dots hname.short).2 ⟨rfl, hdirectory, hpresent⟩⟩

theorem content_of_find (h : t.find path = .ok q) (hq : t.get? q = some (.file bytes)) :
    t.content path = .ok bytes := by
  rw [content, h]
  simp only [hq]

/-! ### Documents -/

def putDocument (t : FileTree) (p : Place) (d : Document) : FileTree :=
  t.put (d.fileName :: p) (.file d.content.toByteArray.toList)

def putAll (t : FileTree) (p : Place) : List Document → FileTree
  | [] => t
  | d :: ds => (t.putDocument p d).putAll p ds

variable {d : Document} {ds : List Document}

theorem get?_putDocument (t : FileTree) (p : Place) (d : Document) (q : Place) :
    (t.putDocument p d).get? q =
      if q = d.fileName :: p then some (.file d.content.toByteArray.toList) else t.get? q :=
  get?_put t (List.cons_ne_nil _ _) _ q

theorem get?_putAll_of_ne (hq : ∀ d ∈ ds, q ≠ d.fileName :: p) :
    (t.putAll p ds).get? q = t.get? q := by
  induction ds generalizing t with
  | nil => rfl
  | cons d ds ih =>
      rw [putAll, ih fun d hd => hq d (List.mem_cons_of_mem _ hd), get?_putDocument,
        if_neg (hq d (List.mem_cons_self ..))]

/-- No document takes the place of another. -/
theorem get?_putAll (hnodup : (ds.map Document.fileName).Nodup) (hd : d ∈ ds) :
    (t.putAll p ds).get? (d.fileName :: p) = some (.file d.content.toByteArray.toList) := by
  induction ds generalizing t with
  | nil => cases hd
  | cons e ds ih =>
      rw [List.map_cons, List.nodup_cons] at hnodup
      rcases List.mem_cons.1 hd with rfl | hd
      · have hlater : ∀ e ∈ ds, d.fileName :: p ≠ e.fileName :: p := by
          rintro e he heq
          rw [(List.cons.inj heq).1] at hnodup
          exact hnodup.1 (List.mem_map_of_mem he)
        rw [putAll, get?_putAll_of_ne hlater, get?_putDocument, if_pos rfl]
      · exact ih hnodup.2 hd

structure Admits (t : FileTree) (o : String) (p : Place) (ds : List Document) : Prop where
  folder : ∀ d ∈ ds, t.folder o = .ok p
  name : ∀ d ∈ ds, d.fileName ≠ "" ∧ '/' ∉ d.fileName.toList ∧ IsFileName o d.fileName
  free : ∀ d ∈ ds, t.get? (d.fileName :: p) ≠ some .directory

namespace Admits

theorem grows_putDocument (h : t.Admits o p (d :: ds)) : t.Grows (t.putDocument p d) :=
  grows_put (h.free d (List.mem_cons_self ..))

theorem putDocument (h : t.Admits o p (d :: ds)) : (t.putDocument p d).Admits o p ds := by
  refine ⟨fun e he => ?_, fun e he => h.name e (List.mem_cons_of_mem _ he), fun e he => ?_⟩
  · exact h.grows_putDocument.folder (h.folder e (List.mem_cons_of_mem _ he))
  · rw [get?_putDocument]
    split
    · simp
    · exact h.free e (List.mem_cons_of_mem _ he)

theorem grows_putAll (h : t.Admits o p ds) : t.Grows (t.putAll p ds) := by
  induction ds generalizing t with
  | nil => exact .refl t
  | cons d ds ih => exact h.grows_putDocument.trans (ih h.putDocument)

theorem writeFile (h : t.Admits o p ds) (hd : d ∈ ds) :
    t.writeFile (Path.join o d.fileName) d.content.toByteArray.toList =
      .ok (t.putDocument p d) := by
  obtain ⟨hne, hslash, hname⟩ := h.name d hd
  exact (writeFile_join hne hslash).2 ⟨hname, p, h.folder d hd, h.free d hd, rfl⟩

/-- Each document is found where it has been put. -/
theorem find_putAll (h : t.Admits o p ds) (hnodup : (ds.map Document.fileName).Nodup)
    (hd : d ∈ ds) : (t.putAll p ds).find (Path.join o d.fileName) = .ok (d.fileName :: p) := by
  obtain ⟨hne, hslash, hname⟩ := h.name d hd
  refine find_join hne hslash hname (h.grows_putAll.folder (h.folder d hd)) ?_
  rw [get?_putAll hnodup hd]
  rfl

theorem content_putAll (h : t.Admits o p ds) (hnodup : (ds.map Document.fileName).Nodup)
    (hd : d ∈ ds) : (t.putAll p ds).content (Path.join o d.fileName) =
      .ok d.content.toByteArray.toList :=
  content_of_find (h.find_putAll hnodup hd) (get?_putAll hnodup hd)

end Admits

/-- Where each document can be written, all of them can. -/
theorem exists_admits (hname : ∀ d ∈ ds, d.fileName ≠ "" ∧ '/' ∉ d.fileName.toList)
    (hwrite : ∀ d ∈ ds, ∃ t', t.writeFile (Path.join o d.fileName) d.content.toByteArray.toList =
      .ok t') : ∃ p, t.Admits o p ds := by
  have hplace : ∀ d ∈ ds, IsFileName o d.fileName ∧
      ∃ p, t.folder o = .ok p ∧ t.get? (d.fileName :: p) ≠ some .directory := by
    intro d hd
    obtain ⟨t', ht'⟩ := hwrite d hd
    obtain ⟨hfile, p, hfolder, hfree, -⟩ := (writeFile_join (hname d hd).1 (hname d hd).2).1 ht'
    exact ⟨hfile, p, hfolder, hfree⟩
  have hnames : ∀ d ∈ ds, d.fileName ≠ "" ∧ '/' ∉ d.fileName.toList ∧ IsFileName o d.fileName :=
    fun d hd => ⟨(hname d hd).1, (hname d hd).2, (hplace d hd).1⟩
  cases hfolder : t.folder o with
  | error fault =>
      refine ⟨[], fun d hd => ?_, hnames, fun d hd => ?_⟩
      all_goals
        obtain ⟨-, p, hp, -⟩ := hplace d hd
        rw [hfolder] at hp
        cases hp
  | ok p =>
      refine ⟨p, fun _ _ => hfolder, hnames, fun d hd => ?_⟩
      obtain ⟨-, p', hp, hfree⟩ := hplace d hd
      rw [hfolder] at hp
      cases hp
      exact hfree

end ProtoSchema.FileTree
