import ProtoSchema.Proofs.FileTree.Writing

/-!
Making a directory and those above it. Whether or not it succeeds, the tree only grows, by
directories to which the paths that were asked for lead.
-/

namespace ProtoSchema

namespace FileTree

structure GrowsAlong (paths : List String) (t t' : FileTree) : Prop where
  grows : t.Grows t'
  new : ∀ q, t'.get? q ≠ t.get? q → t.get? q = none ∧ t'.get? q = some .directory ∧
    ∃ path ∈ paths, t'.find path = .ok q

variable {paths paths' : List String} {t t' t'' : FileTree} {path : String}

theorem GrowsAlong.refl (t : FileTree) : GrowsAlong paths t t := ⟨.refl t, fun _ h => absurd rfl h⟩

theorem GrowsAlong.trans (h : GrowsAlong paths t t') (h' : GrowsAlong paths t' t'') :
    GrowsAlong paths t t'' := by
  refine ⟨h.grows.trans h'.grows, fun q hq => ?_⟩
  by_cases hfirst : t'.get? q = t.get? q
  · rw [← hfirst] at hq ⊢
    exact h'.new q hq
  · obtain ⟨habsent, hdirectory, path, hpath, hfind⟩ := h.new q hfirst
    exact ⟨habsent, h'.grows.directory q hdirectory, path, hpath, h'.grows.find hfind⟩

theorem GrowsAlong.mono (h : GrowsAlong paths t t') (hpaths : ∀ path ∈ paths, path ∈ paths') :
    GrowsAlong paths' t t' := by
  refine ⟨h.grows, fun q hq => ?_⟩
  obtain ⟨habsent, hdirectory, path, hpath, hfind⟩ := h.new q hq
  exact ⟨habsent, hdirectory, path, hpaths path hpath, hfind⟩

theorem findParent_eq_ok {p : Place} {n : String} :
    t.findParent path = .ok (p, some n) ↔ pathFault? path = none ∧
      ∃ ns, Path.names path = ns ++ [n] ∧ t.walk (t.start path) (ns ++ ["."]) = .ok p := by
  rw [findParent]
  cases pathFault? path with
  | some fault => simp
  | none =>
      rcases List.eq_nil_or_concat (Path.names path) with hnames | ⟨ns, m, hnames⟩
      · simp [hnames]
      · simp only [hnames, List.concat_eq_append, List.reverse_append, List.reverse_cons,
          List.reverse_nil, List.nil_append, List.cons_append, List.reverse_reverse, true_and]
        constructor
        · intro h
          cases hwalk : t.walk (t.start path) (ns ++ ["."]) with
          | error fault => simp [hwalk, Except.map] at h
          | ok q =>
              simp only [hwalk, Except.map, Except.ok.injEq, Prod.mk.injEq, Option.some.injEq] at h
              obtain ⟨rfl, rfl⟩ := h
              exact ⟨ns, rfl, hwalk⟩
        · rintro ⟨ns', heq, hwalk⟩
          obtain ⟨rfl, hlast⟩ := List.append_inj' heq rfl
          cases hlast
          rw [hwalk]
          rfl

theorem Grows.findParent (h : t.Grows t') {p : Place} {n : String}
    (hparent : t.findParent path = .ok (p, some n)) : t'.findParent path = .ok (p, some n) := by
  obtain ⟨hfault, ns, hnames, hwalk⟩ := findParent_eq_ok.1 hparent
  refine findParent_eq_ok.2 ⟨hfault, ns, hnames, ?_⟩
  rw [start, h.workingDirectory]
  exact h.walk hwalk

/-- The end of a path is found as soon as a directory is there. -/
theorem find_of_findParent {p : Place} {n : String} (hparent : t.findParent path = .ok (p, some n))
    (hdots : isDots n = false) (hlong : isTooLong n = false)
    (hdirectory : t.get? (n :: p) = some .directory) : t.find path = .ok (n :: p) := by
  obtain ⟨hfault, ns, hnames, hwalk⟩ := findParent_eq_ok.1 hparent
  obtain ⟨r, hfront, hdot⟩ := walk_append_eq_ok.1 hwalk
  obtain ⟨rfl, habove⟩ := walk_dot.1 hdot
  have hname : t.walk r [n] = .ok (n :: r) :=
    (walk_name hdots hlong).2 ⟨rfl, habove, by rw [hdirectory]; rfl⟩
  have hslash : t.walk (n :: r) (if Path.endsWithSlash path then ["."] else []) = .ok (n :: r) := by
    split
    · exact walk_dot.2 ⟨rfl, hdirectory⟩
    · rfl
  rw [find, hfault]
  simp only [hnames]
  exact walk_append_eq_ok.2 ⟨n :: r, walk_append_eq_ok.2 ⟨r, hfront, hname⟩, hslash⟩

/-- A directory that is made was not there, and its path leads to it afterwards. -/
theorem growsAlong_makeDirectory (h : t.makeDirectory path = .ok t') : GrowsAlong [path] t t' := by
  rw [makeDirectory] at h
  split at h
  · cases h
  · cases h
  · next p n hparent =>
      split_ifs at h with hdots hlong hpresent
      cases h
      have habsent : t.get? (n :: p) = none := by simpa using hpresent
      have hgrows : t.Grows (t.put (n :: p) .directory) := grows_put (by simp [habsent])
      have hput : (t.put (n :: p) .directory).get? (n :: p) = some .directory := by
        rw [get?_put t (List.cons_ne_nil _ _), if_pos rfl]
      refine ⟨hgrows, fun q hq => ?_⟩
      rw [get?_put t (List.cons_ne_nil _ _)] at hq
      split_ifs at hq with hplace
      · subst hplace
        refine ⟨habsent, hput, path, List.mem_singleton_self _, ?_⟩
        exact find_of_findParent (hgrows.findParent hparent) (by simpa using hdots)
          (by simpa using hlong) hput
      · exact absurd rfl hq

/-- What has changed after directories were made and documents written is where a document was
written, or where a directory was made. -/
theorem GrowsAlong.changed_putAll (h : GrowsAlong paths t t') {o : String} {p : Place}
    {ds : List Document} (hadmits : t'.Admits o p ds)
    (hnodup : (ds.map Document.fileName).Nodup) {q : Place}
    (hq : (t'.putAll p ds).get? q ≠ t.get? q) :
    (∃ d ∈ ds, (t'.putAll p ds).find (Path.join o d.fileName) = .ok q) ∨
      (t.get? q = none ∧ (t'.putAll p ds).get? q = some .directory ∧
        ∃ path ∈ paths, (t'.putAll p ds).find path = .ok q) := by
  by_cases hplace : ∃ d ∈ ds, q = d.fileName :: p
  · obtain ⟨d, hd, rfl⟩ := hplace
    exact .inl ⟨d, hd, hadmits.find_putAll hnodup hd⟩
  · have hkept : (t'.putAll p ds).get? q = t'.get? q :=
      get?_putAll_of_ne fun d hd heq => hplace ⟨d, hd, heq⟩
    rw [hkept] at hq ⊢
    obtain ⟨habsent, hdirectory, path, hpath, hfind⟩ := h.new q hq
    exact .inr ⟨habsent, hdirectory, path, hpath, hadmits.grows_putAll.find hfind⟩

end FileTree

namespace Session

open FileTree (GrowsAlong)
open Surroundings (makeDirectory makeLineage orPresent)

variable {α β : Type} {x : StateM Session α} {f : α → StateM Session β} {a : α} {s s' : Session}
  {t : FileTree} {paths paths' : List String} {path : String} {fault : FileFault}

theorem bind_apply (h : x s = (a, s')) : (x >>= f) s = f a s' := by
  change f (x s).1 (x s).2 = f a s'
  rw [h]

theorem attempt_of_ok {change : FileTree → Except FileFault FileTree} (h : change s.tree = .ok t) :
    attempt change s = (.ok (), { s with tree := t }) := by
  simp only [attempt, h]

theorem attempt_of_error {change : FileTree → Except FileFault FileTree}
    (h : change s.tree = .error fault) : attempt change s = (.error fault, s) := by
  simp only [attempt, h]

/-- In the given tree, an action makes directories at the ends of some paths, and does nothing else
to a session. Its result depends on the tree alone. -/
def Makes (paths : List String) (t : FileTree) (x : StateM Session α) : Prop :=
  ∃ a t', GrowsAlong paths t t' ∧ ∀ s : Session, s.tree = t → x s = (a, { s with tree := t' })

theorem makes_pure (a : α) : Makes paths t (pure a) := by
  refine ⟨a, t, .refl t, ?_⟩
  rintro s rfl
  rfl

theorem Makes.bind (h : Makes paths t x) (hf : ∀ a t', Makes paths t' (f a)) :
    Makes paths t (x >>= f) := by
  obtain ⟨a, t', hgrows, hx⟩ := h
  obtain ⟨b, t'', hgrows', hfa⟩ := hf a t'
  refine ⟨b, t'', hgrows.trans hgrows', fun s hs => ?_⟩
  rw [bind_apply (hx s hs)]
  exact hfa _ rfl

theorem Makes.mono (h : Makes paths t x) (hpaths : ∀ path ∈ paths, path ∈ paths') :
    Makes paths' t x := by
  obtain ⟨a, t', hgrows, hx⟩ := h
  exact ⟨a, t', hgrows.mono hpaths, hx⟩

theorem makes_makeDirectory (hpath : path ∈ paths) :
    Makes paths t (makeDirectory path : StateM Session (Except FileFault Unit)) := by
  cases hmade : t.makeDirectory path with
  | ok t' =>
      have hgrows := (FileTree.growsAlong_makeDirectory hmade).mono (by simpa using hpath)
      refine ⟨.ok (), t', hgrows, ?_⟩
      rintro s rfl
      exact attempt_of_ok hmade
  | error fault =>
      refine ⟨.error fault, t, .refl t, ?_⟩
      rintro s rfl
      exact attempt_of_error hmade

theorem makes_orPresent (path : String) (fault : FileFault) :
    Makes paths t (orPresent path fault : StateM Session (Except FileFault Unit)) := by
  refine Makes.bind ⟨t.isDirectory path, t, .refl t, ?_⟩ fun present t' => ?_
  · rintro s rfl
    rfl
  · cases present <;> exact makes_pure _

/-- Making a directory and those above it makes nothing else. -/
theorem makes_makeLineage (paths : List String) (t : FileTree) :
    Makes paths t (makeLineage paths : StateM Session (Except FileFault Unit)) := by
  induction paths generalizing t with
  | nil => exact makes_pure _
  | cons path above ih =>
      have hpath : path ∈ path :: above := List.mem_cons_self ..
      rw [makeLineage]
      refine (makes_makeDirectory hpath).bind fun first t₁ => ?_
      cases first with
      | ok _ => exact makes_pure _
      | error fault =>
          cases fault with
          | notFound =>
              refine ((ih t₁).mono fun _ => List.mem_cons_of_mem _).bind fun made t₂ => ?_
              cases made with
              | error fault => exact makes_pure _
              | ok _ =>
                  refine (makes_makeDirectory hpath).bind fun second t₃ => ?_
                  cases second with
                  | ok _ => exact makes_pure _
                  | error fault => exact makes_orPresent path fault
          | _ => exact makes_orPresent path _

end Session

end ProtoSchema
