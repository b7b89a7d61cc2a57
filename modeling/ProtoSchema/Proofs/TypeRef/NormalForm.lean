import ProtoSchema.Proofs.TypeRef.Grammar
import ProtoSchema.Proofs.TypeRef.Layout

/-!
The written form of a reference is a normal form of the texts that it is read from. What is read
from a text of matching brackets has at most two arguments at each node, and names that can be told
from the brackets around them; commas are left in the name of the whole alone. Such a reference is
read back from its written form, without caveats.
-/

namespace ProtoSchema.TypeRef

open Text (trim)

inductive IsNodeOf (x : TypeRef) : TypeRef → Prop
  | root : IsNodeOf x x
  | argument {n : String} {args : List TypeRef} {a : TypeRef} (ha : a ∈ args)
      (hx : IsNodeOf x a) : IsNodeOf x (mk n args)

structure IsNormal (t : TypeRef) : Prop where
  arity : ∀ x, IsNodeOf x t → x.arguments.length ≤ 2
  names : ∀ x, IsNodeOf x t → IsBareName x.name
  commas : ∀ a ∈ t.arguments, ∀ x, IsNodeOf x a → ',' ∉ x.name.toList

/-! ### Nodes -/

theorem Regular.arity {t : TypeRef} (h : t.Regular) : t.arguments.length ≤ 2 := by
  cases h with
  | node name arity arguments => exact arity

theorem Regular.of_isNodeOf {x t : TypeRef} (h : t.Regular) (hx : IsNodeOf x t) : x.Regular := by
  induction hx with
  | root => exact h
  | argument ha hx ih => exact ih (h.arguments _ ha)

theorem regular_of_nodes : ∀ t : TypeRef,
    (∀ x, IsNodeOf x t → x.arguments.length ≤ 2 ∧ IsPlainName x.name) → t.Regular
  | mk n args => fun h =>
      .node (h _ .root).2 (h _ .root).1 fun a ha =>
        regular_of_nodes a fun x hx => h x (.argument ha hx)

/-- A reference is normal if its arguments are regular and its own name is bare. -/
theorem isNormal_iff {n : String} {args : List TypeRef} :
    (mk n args).IsNormal ↔ IsBareName n ∧ args.length ≤ 2 ∧ ∀ a ∈ args, a.Regular := by
  constructor
  · intro h
    refine ⟨h.names _ .root, h.arity _ .root, fun a ha => regular_of_nodes a fun x hx => ?_⟩
    have hx' : IsNodeOf x (mk n args) := .argument ha hx
    exact ⟨h.arity x hx', (h.names x hx').isPlainName (h.commas a ha x hx)⟩
  · rintro ⟨hname, harity, hargs⟩
    have hregular : ∀ a ∈ args, ∀ x, IsNodeOf x a → x.Regular := fun a ha x hx =>
      (hargs a ha).of_isNodeOf hx
    refine ⟨fun x hx => ?_, fun x hx => ?_, fun a ha x hx => ?_⟩
    · cases hx with
      | root => exact harity
      | argument ha hx => exact (hregular _ ha x hx).arity
    · cases hx with
      | root => exact hname
      | argument ha hx => exact (hregular _ ha x hx).name.isBareName
    · exact fun hcomma => ((hregular a ha x hx).name.plain ',' hcomma).2.2 rfl

theorem IsNormal.regular {t : TypeRef} (ht : t.IsNormal) (hcomma : ',' ∉ t.name.toList) :
    t.Regular := by
  cases t with
  | mk n args =>
      obtain ⟨hname, harity, hargs⟩ := isNormal_iff.1 ht
      exact .node (hname.isPlainName hcomma) harity hargs

/-! ### What is read -/

theorem isBareName_trim {s : List Char} (hne : trim s ≠ []) (hopen : '<' ∉ s) (hclose : '>' ∉ s) :
    IsBareName (String.ofList (trim s)) where
  nonempty := by simpa using hne
  openless h := hopen (Text.mem_of_mem_trim (by simpa using h))
  closeless h := hclose (Text.mem_of_mem_trim (by simpa using h))
  leading c hc := Text.isBlank_head?_trim (by simpa using hc)
  trailing c hc := Text.isBlank_getLast?_trim (by simpa using hc)

theorem IsPiece.trim {p : List Char} (h : IsPiece p) : IsPiece (trim p) where
  matching := bracketsMatch_trim.2 h.matching
  commas u v huv := by
    obtain ⟨before, after, hbefore, -, hp⟩ := Text.exists_append_trim p
    rw [huv] at hp
    have hlt := h.commas (before ++ u) (v ++ after) (by simpa using hp)
    have hplain := plain_of_allBlank hbefore
    rw [List.count_append, List.count_append, List.count_eq_zero.2 hplain.open_notMem,
      List.count_eq_zero.2 fun hc => (hplain '>' hc).2.1 rfl] at hlt
    omega

/-- Before its first bracket a piece has no comma. -/
theorem IsPiece.comma_notMem {s lead : List Char} (h : IsPiece s) (hstart : lead <+: s)
    (hlead : '<' ∉ lead) : ',' ∉ lead := by
  intro hcomma
  obtain ⟨rest, rfl⟩ := hstart
  obtain ⟨u, v, rfl⟩ := List.append_of_mem hcomma
  have hlt := h.commas u (v ++ rest) (by simp)
  rw [List.count_eq_zero.2 fun hu => hlead (List.mem_append_left _ hu)] at hlt
  exact absurd hlt (Nat.not_lt_zero _)

/-- Where brackets match, none is closed before the first that is opened. -/
theorem BracketsMatch.close_notMem {lead rest : List Char} (h : BracketsMatch (lead ++ rest))
    (hlead : '<' ∉ lead) : '>' ∉ lead := by
  have hle := h.beginnings lead (List.prefix_append _ _)
  rw [List.count_eq_zero.2 hlead] at hle
  exact List.count_eq_zero.1 (Nat.le_zero.1 hle)

section

variable {s base : List Char} {arguments : List (List Char)} {r : Reading}

theorem Applies.isBareName_base (h : Applies s base arguments) (hs : BracketsMatch s) :
    IsBareName (String.ofList base) := by
  cases h with
  | intro hlead hname hps hpieces harguments =>
      exact isBareName_trim hname hlead (hs.close_notMem hlead)

theorem Applies.comma_notMem_base (h : Applies s base arguments) (hs : IsPiece s) :
    ',' ∉ base := by
  cases h with
  | intro hlead hname hps hpieces harguments =>
      exact fun hcomma =>
        hs.comma_notMem (List.prefix_append _ _) hlead (Text.mem_of_mem_trim hcomma)

/-- Arguments are trimmed pieces. -/
theorem Applies.isPiece_argument {a : List Char} (h : Applies s base arguments)
    (ha : a ∈ arguments) : IsPiece a ∧ trim a = a := by
  cases h with
  | intro hlead hname hps hpieces harguments =>
      obtain ⟨p, hp, rfl⟩ := List.mem_map.1 ha
      exact ⟨(hpieces p hp).trim, Text.trim_trim p⟩

theorem isBareName_of_notMem (hs : BracketsMatch s) (htrim : trim s = s) (hopen : '<' ∉ s)
    (hne : s ≠ []) : IsBareName (String.ofList s) := by
  have hclose : '>' ∉ s := fun h => hopen (hs.open_mem h)
  have hname := isBareName_trim (htrim.symm ▸ hne) hopen hclose
  rwa [htrim] at hname

/-- A comma in the name would have been a cut. -/
theorem Derives.comma_notMem (h : Derives s r) (hs : IsPiece s) : ',' ∉ r.ref.name.toList := by
  cases h with
  | name hopen hne => simpa [named] using hs.comma_notMem List.prefix_rfl hopen
  | one happlies ha => simpa using happlies.comma_notMem_base hs
  | two happlies ha hb => simpa using happlies.comma_notMem_base hs
  | many happlies harity => simpa [named] using happlies.comma_notMem_base hs

theorem Applies.regular_argument (h : Applies s base arguments) {a : List Char}
    (ha : a ∈ arguments) (hr : Derives a r)
    (hnormal : BracketsMatch a → trim a = a → r.ref.IsNormal) : r.ref.Regular := by
  obtain ⟨hpiece, htrim⟩ := h.isPiece_argument ha
  exact (hnormal hpiece.matching htrim).regular (hr.comma_notMem hpiece)

/-- What is read from a text of matching brackets is normal, by induction on the way it is read. The
text itself stands in no brackets, so that its name may have commas. -/
theorem Derives.isNormal (h : Derives s r) (hs : BracketsMatch s) (htrim : trim s = s) :
    r.ref.IsNormal := by
  induction h with
  | name hopen hne =>
      exact isNormal_iff.2 ⟨isBareName_of_notMem hs htrim hopen hne, by simp, by simp⟩
  | @one s base a x happlies ha ih =>
      have hregular := happlies.regular_argument (by simp) ha ih
      exact isNormal_iff.2 ⟨happlies.isBareName_base hs, by simp, by simpa using hregular⟩
  | @two s base a b x y happlies ha hb iha ihb =>
      have hfirst := happlies.regular_argument (by simp) ha iha
      have hsecond := happlies.regular_argument (by simp) hb ihb
      exact isNormal_iff.2 ⟨happlies.isBareName_base hs, by simp, by simp [hfirst, hsecond]⟩
  | many happlies harity => exact isNormal_iff.2 ⟨happlies.isBareName_base hs, by simp, by simp⟩

end

/-! ### What is written -/

/-- A normal reference is read back from any of its layouts that has no white space around it. -/
theorem IsNormal.readSegment {t : TypeRef} {s : List Char} (ht : t.IsNormal)
    (hs : BareLayout t s) : readSegment s = .ok ⟨t, []⟩ := by
  cases hs with
  | name n =>
      obtain ⟨hname, -, -⟩ := isNormal_iff.1 ht
      have hread := Segment.read_eq_plain_iff.2
        ⟨rfl, hname.nonempty, hname.openless, hname.closeless⟩
      rw [readSegment_of_plain hread, String.ofList_toList]
      rfl
  | generic hgap hinner =>
      obtain ⟨hname, harity, hargs⟩ := isNormal_iff.1 ht
      exact readSegment_of_argumentsLayout hname harity hargs
        (fun a ha s hs => readSegment_of_bareLayout (hargs a ha) hs) hgap hinner

theorem IsNormal.read_render {t : TypeRef} (ht : t.IsNormal) : read t.render = .ok ⟨t, []⟩ := by
  have hlayout := bareLayout_render t
  have htrim := hlayout.trim_eq (ht.names t .root)
  exact read_of_ok (htrim.symm ▸ ht.readSegment hlayout)

/-- What is read from a text of matching brackets is normal, and its written form is read as the
same reference, without caveats. -/
theorem read_render_of_read {s : String} {r : Reading} (hs : BracketsMatch s.toList)
    (h : read s = .ok r) : r.ref.IsNormal ∧ read r.ref.render = .ok ⟨r.ref, []⟩ := by
  have hderives := derives_of_readSegment (read_eq_ok_iff.1 h)
  have hnormal := hderives.isNormal (bracketsMatch_trim.2 hs) (Text.trim_trim _)
  exact ⟨hnormal, hnormal.read_render⟩

/-- Three arguments collapse to the bare name, and the name of the whole has a comma. Written
without the blanks, the reference is read again. -/
theorem read_render_of_read_collapsed :
    let s := " Pair , Sum<Triple<A, B<C>, D>, List< E > >"
    let t := mk "Pair , Sum" [named "Triple", mk "List" [named "E"]]
    BracketsMatch s.toList ∧ read s = .ok ⟨t, [.unresolvedShape "Triple<A, B<C>, D>" 3]⟩ ∧
      t.IsNormal ∧ t.render = "Pair , Sum<Triple, List<E>>" ∧
      read "Pair , Sum<Triple, List<E>>" = .ok ⟨t, []⟩ := by
  intro s t
  have hs : BracketsMatch s.toList := by decide
  have htrim : trim s.toList = "Pair , Sum<Triple<A, B<C>, D>, List< E > >".toList := by decide
  have htriple : readSegment "Triple<A, B<C>, D>".toList =
      .ok ⟨named "Triple", [.unresolvedShape "Triple<A, B<C>, D>" 3]⟩ :=
    readSegment_of_many (s := "Triple<A, B<C>, D>".toList) rfl
  have helement : readSegment "E".toList = .ok ⟨named "E", []⟩ :=
    readSegment_of_plain (s := "E".toList) rfl
  have hlist : readSegment "List< E >".toList = .ok ⟨mk "List" [named "E"], []⟩ :=
    readSegment_of_one (s := "List< E >".toList) rfl helement
  have hread : read s = .ok ⟨t, [.unresolvedShape "Triple<A, B<C>, D>" 3]⟩ := by
    refine read_of_ok ?_
    rw [htrim]
    exact readSegment_of_two rfl htriple hlist
  have hrender : t.render = "Pair , Sum<Triple, List<E>>" := by decide +kernel
  obtain ⟨hnormal, hback⟩ := read_render_of_read hs hread
  exact ⟨hs, hread, hnormal, hrender, hrender ▸ hback⟩

end ProtoSchema.TypeRef
