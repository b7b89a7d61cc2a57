import ProtoSchema.Proofs.TypeRef.Brackets
import Mathlib.Data.List.Forall2

/-!
The layouts of a type reference are its texts with any white space around the names, brackets and
commas. Whatever the layout, the reader gives the reference back.
-/

namespace ProtoSchema.TypeRef

open Text (trim isBlank AllBlank)

structure IsPlainName (n : String) : Prop where
  nonempty : n.toList ≠ []
  plain : Plain n.toList
  leading : ∀ c ∈ n.toList.head?, isBlank c = false
  trailing : ∀ c ∈ n.toList.getLast?, isBlank c = false

instance (n : String) : Decidable (IsPlainName n) :=
  decidable_of_iff
    (n.toList ≠ [] ∧ Plain n.toList ∧ n.toList.head?.all (!isBlank ·) = true ∧
      n.toList.getLast?.all (!isBlank ·) = true) (by
    simp only [Option.all_eq_true, Bool.not_eq_true']
    exact ⟨fun h => ⟨h.1, h.2.1, h.2.2.1, h.2.2.2⟩,
      fun h => ⟨h.nonempty, h.plain, h.leading, h.trailing⟩⟩)

structure IsBareName (n : String) : Prop where
  nonempty : n.toList ≠ []
  openless : '<' ∉ n.toList
  closeless : '>' ∉ n.toList
  leading : ∀ c ∈ n.toList.head?, isBlank c = false
  trailing : ∀ c ∈ n.toList.getLast?, isBlank c = false

inductive Regular : TypeRef → Prop
  | node {n : String} {args : List TypeRef} (name : IsPlainName n) (arity : args.length ≤ 2)
      (arguments : ∀ a ∈ args, Regular a) : Regular (mk n args)

mutual

inductive BareLayout : TypeRef → List Char → Prop
  | name (n : String) : BareLayout (mk n []) n.toList
  | generic {n : String} {a : TypeRef} {as : List TypeRef} {gap inner : List Char}
      (hgap : AllBlank gap) (hinner : ArgumentsLayout (a :: as) inner) :
      BareLayout (mk n (a :: as)) (n.toList ++ gap ++ '<' :: (inner ++ ['>']))

inductive Layout : TypeRef → List Char → Prop
  | padded {t : TypeRef} {before core after : List Char} (hbefore : AllBlank before)
      (hcore : BareLayout t core) (hafter : AllBlank after) : Layout t (before ++ core ++ after)

inductive ArgumentsLayout : List TypeRef → List Char → Prop
  | last {a : TypeRef} {s : List Char} (hs : Layout a s) : ArgumentsLayout [a] s
  | more {a b : TypeRef} {bs : List TypeRef} {s rest : List Char} (hs : Layout a s)
      (hrest : ArgumentsLayout (b :: bs) rest) : ArgumentsLayout (a :: b :: bs) (s ++ ',' :: rest)

end

theorem IsPlainName.isBareName {n : String} (hn : IsPlainName n) : IsBareName n where
  nonempty := hn.nonempty
  openless := hn.plain.open_notMem
  closeless h := (hn.plain '>' h).2.1 rfl
  leading := hn.leading
  trailing := hn.trailing

theorem IsBareName.isPlainName {n : String} (hn : IsBareName n) (hcomma : ',' ∉ n.toList) :
    IsPlainName n where
  nonempty := hn.nonempty
  plain _ hc := ⟨fun h => hn.openless (h ▸ hc), fun h => hn.closeless (h ▸ hc),
    fun h => hcomma (h ▸ hc)⟩
  leading := hn.leading
  trailing := hn.trailing

theorem IsBareName.trim_eq {n : String} (hn : IsBareName n) : trim n.toList = n.toList :=
  Text.trim_eq_self hn.leading hn.trailing

theorem Regular.name {t : TypeRef} (h : t.Regular) : IsPlainName t.name := by
  cases h with
  | node name arity arguments => exact name

theorem Regular.arguments {n : String} {args : List TypeRef} (h : (mk n args).Regular) :
    ∀ a ∈ args, a.Regular := by
  cases h with
  | node name arity arguments => exact arguments

/-! ### Layouts are balanced and are not cut -/

theorem Layout.uncut_of_bare {t : TypeRef} {s : List Char} (h : Layout t s)
    (ht : ∀ c, BareLayout t c → Uncut c) : Uncut s := by
  cases h with
  | @padded _ before core after hbefore hcore hafter =>
      have hleft := (plain_of_allBlank hbefore).uncut.append (ht core hcore)
      exact hleft.append (plain_of_allBlank hafter).uncut

theorem ArgumentsLayout.balanced_of_bare {args : List TypeRef} {s : List Char}
    (h : ArgumentsLayout args s) (hargs : ∀ a ∈ args, ∀ c, BareLayout a c → Uncut c) :
    Balanced s := by
  induction args generalizing s with
  | nil => cases h
  | cons a as ih =>
      cases h with
      | last hs => exact (hs.uncut_of_bare (hargs a (by simp))).balanced
      | more hs hrest =>
          have hfirst := (hs.uncut_of_bare (hargs a (by simp))).balanced
          have hothers := ih hrest fun b hb => hargs b (by simp [hb])
          exact hfirst.append hothers.comma

/-- The commas of a layout stand in its brackets. -/
theorem BareLayout.uncut {t : TypeRef} {s : List Char} (h : BareLayout t s) (ht : t.Regular) :
    Uncut s := by
  induction ht generalizing s with
  | @node n args name arity arguments ih =>
      cases h with
      | name n => exact name.plain.uncut
      | generic hgap hinner =>
          have hbase := name.plain.append (plain_of_allBlank hgap)
          have hbrackets := hinner.balanced_of_bare fun a ha c hc => ih a ha hc
          exact hbase.uncut.append hbrackets.uncut_brackets

theorem Layout.uncut {t : TypeRef} {s : List Char} (h : Layout t s) (ht : t.Regular) :
    Uncut s := h.uncut_of_bare fun _ hc => hc.uncut ht

theorem ArgumentsLayout.balanced {args : List TypeRef} {s : List Char}
    (h : ArgumentsLayout args s) (hargs : ∀ a ∈ args, a.Regular) : Balanced s :=
  h.balanced_of_bare fun a ha _ hc => hc.uncut (hargs a ha)

/-- White space around a layout is all that trimming takes off. -/
theorem BareLayout.trim_eq {t : TypeRef} {s : List Char} (h : BareLayout t s)
    (hname : IsBareName t.name) : trim s = s := by
  cases h with
  | name n => exact hname.trim_eq
  | @generic n a as gap inner hgap hinner =>
      rw [name_mk] at hname
      -- The text starts as the name does, and ends with a bracket.
      refine Text.trim_eq_self ?_ ?_
      · intro c hc
        refine hname.leading c ?_
        rw [List.append_assoc, List.head?_append_of_ne_nil _ hname.nonempty] at hc
        exact hc
      · intro c hc
        rw [← List.cons_append, ← List.append_assoc, List.getLast?_concat] at hc
        obtain rfl := Option.mem_some.1 hc
        decide

theorem BareLayout.ne_nil {t : TypeRef} {s : List Char} (h : BareLayout t s) (ht : t.Regular) :
    s ≠ [] := by
  cases h with
  | name n => exact ht.name.nonempty
  | generic hgap hinner => simp

theorem Layout.trim_bare {t : TypeRef} {s : List Char} (h : Layout t s) (ht : t.Regular) :
    BareLayout t (trim s) := by
  cases h with
  | padded hbefore hcore hafter =>
      rw [Text.trim_append_right hafter, Text.trim_append_left hbefore,
        hcore.trim_eq ht.name.isBareName]
      exact hcore

theorem nil_notMem_of_bareLayouts {args : List TypeRef} {ps : List (List Char)}
    (h : List.Forall₂ BareLayout args ps) (hargs : ∀ a ∈ args, a.Regular) : [] ∉ ps := by
  induction h with
  | nil => simp
  | cons ha hrest ih =>
      have hne := ha.ne_nil (hargs _ (by simp))
      have htail := ih fun b hb => hargs b (by simp [hb])
      simp [Ne.symm hne, htail]

/-- The pieces of the arguments are layouts of one argument each. -/
theorem ArgumentsLayout.pieces {args : List TypeRef} {s : List Char} (h : ArgumentsLayout args s)
    (hargs : ∀ a ∈ args, a.Regular) :
    List.Forall₂ BareLayout args ((TypeRef.pieces 0 s).map trim) := by
  induction args generalizing s with
  | nil => cases h
  | cons a as ih =>
      cases h with
      | last hs =>
          have ha := hargs a (by simp)
          rw [(hs.uncut ha).pieces_eq]
          exact .cons (hs.trim_bare ha) .nil
      | more hs hrest =>
          have ha := hargs a (by simp)
          rw [(hs.uncut ha).pieces_comma]
          exact .cons (hs.trim_bare ha) (ih hrest fun b hb => hargs b (by simp [hb]))

/-! ### Reading -/

/-- One level of a layout is taken apart into the name and layouts of the arguments. -/
theorem Segment.read_of_argumentsLayout {n : String} {args : List TypeRef} {gap inner : List Char}
    (hname : IsBareName n) (hargs : ∀ a ∈ args, a.Regular) (hgap : AllBlank gap)
    (hinner : ArgumentsLayout args inner) :
    Segment.read (n.toList ++ gap ++ '<' :: (inner ++ ['>'])) =
      .ok (.generic n.toList ((pieces 0 inner).map trim)) := by
  have htrim : trim (n.toList ++ gap) = n.toList := by
    rw [Text.trim_append_right hgap, hname.trim_eq]
  have hbase : '<' ∉ n.toList ++ gap := by
    rw [List.mem_append, not_or]
    exact ⟨hname.openless, (plain_of_allBlank hgap).open_notMem⟩
  have h := Segment.read_of_brackets hbase (htrim.symm ▸ hname.nonempty) (hinner.balanced hargs)
    (nil_notMem_of_bareLayouts (hinner.pieces hargs) hargs)
  rwa [htrim] at h

/-- A name with arguments is read as such if each argument is read as itself. -/
theorem readSegment_of_argumentsLayout {n : String} {args : List TypeRef} {gap inner : List Char}
    (hname : IsBareName n) (harity : args.length ≤ 2) (hargs : ∀ a ∈ args, a.Regular)
    (hread : ∀ a ∈ args, ∀ s, BareLayout a s → readSegment s = .ok ⟨a, []⟩) (hgap : AllBlank gap)
    (hinner : ArgumentsLayout args inner) :
    readSegment (n.toList ++ gap ++ '<' :: (inner ++ ['>'])) = .ok ⟨mk n args, []⟩ := by
  have hsegment := Segment.read_of_argumentsLayout hname hargs hgap hinner
  have hpieces := hinner.pieces hargs
  generalize (pieces 0 inner).map trim = ps at hsegment hpieces
  obtain - | @⟨a, p, as, ps, ha, hrest⟩ := hpieces
  · cases hinner
  · have hfirst := hread a (by simp) p ha
    obtain - | @⟨b, q, bs, qs, hb, hrest⟩ := hrest
    · rw [readSegment_of_one hsegment hfirst, String.ofList_toList]
    · have hsecond := hread b (by simp) q hb
      -- A third argument would be one too many.
      obtain - | - := hrest
      · rw [readSegment_of_two hsegment hfirst hsecond, String.ofList_toList, List.append_nil]
      · simp at harity

/-- The induction is over the reference: its arguments are read from layouts of their own. -/
theorem readSegment_of_bareLayout {t : TypeRef} {s : List Char} (ht : t.Regular)
    (h : BareLayout t s) : readSegment s = .ok ⟨t, []⟩ := by
  induction ht generalizing s with
  | @node n args name arity arguments ih =>
      cases h with
      | name n =>
          rw [readSegment_of_plain (Segment.read_of_plain name.plain name.nonempty),
            String.ofList_toList]
          rfl
      | generic hgap hinner =>
          exact readSegment_of_argumentsLayout name.isBareName arity arguments
            (fun a ha s hs => ih a ha hs) hgap hinner

/-! ### The written form -/

mutual

theorem bareLayout_render : ∀ t : TypeRef, BareLayout t t.render.toList
  | mk n [] => by
      rw [render]
      exact .name n
  | mk n (a :: as) => by
      have hinner := argumentsLayout_render as Text.allBlank_nil (bareLayout_render a)
      have h := BareLayout.generic (n := n) Text.allBlank_nil hinner
      rw [render]
      simpa using h

theorem argumentsLayout_render : ∀ (as : List TypeRef) {a : TypeRef} {before : List Char},
    AllBlank before → BareLayout a a.render.toList →
      ArgumentsLayout (a :: as) (before ++ a.render.toList ++ (renderRest as).toList)
  | [], a, before, hbefore, ha => .last (.padded hbefore ha Text.allBlank_nil)
  -- The blank after a comma belongs to the argument that follows.
  | b :: bs, a, before, hbefore, ha => by
      have hspace : AllBlank [' '] := by simp [AllBlank, show isBlank ' ' = true by decide]
      have hrest := argumentsLayout_render bs hspace (bareLayout_render b)
      have h := ArgumentsLayout.more (.padded hbefore ha Text.allBlank_nil) hrest
      rw [renderRest]
      simpa using h

end

theorem layout_render (t : TypeRef) : Layout t t.render.toList := by
  simpa using Layout.padded Text.allBlank_nil (bareLayout_render t) Text.allBlank_nil

/-- Every layout of a regular reference is read as the reference, without caveats. The written form
is one of them. -/
theorem read_of_layout (t : TypeRef) (ht : t.Regular) :
    (∀ s : String, Layout t s.toList → read s = .ok ⟨t, []⟩) ∧ read t.render = .ok ⟨t, []⟩ := by
  have hread : ∀ s : String, Layout t s.toList → read s = .ok ⟨t, []⟩ := by
    intro s hs
    exact read_of_ok (readSegment_of_bareLayout ht (hs.trim_bare ht))
  exact ⟨hread, hread t.render (layout_render t)⟩

theorem read_of_layout_nested :
    let t := mk "Map" [named "String", mk "List" [named "Address"]]
    t.Regular ∧ read "\tMap <String,List< Address > > " = .ok ⟨t, []⟩ ∧
      read t.render = .ok ⟨t, []⟩ := by
  intro t
  have hstring : (named "String").Regular := .node (by decide) (by simp) (by simp)
  have haddress : (named "Address").Regular := .node (by decide) (by simp) (by simp)
  have hlist : (mk "List" [named "Address"]).Regular := .node (by decide) (by simp) (by simpa)
  have ht : t.Regular := .node (by decide) (by simp) (by simp [hstring, hlist])
  have haddressText : Layout (named "Address") " Address ".toList :=
    .padded (by decide : AllBlank [' ']) (.name "Address") (by decide : AllBlank [' '])
  have hlistText : Layout (mk "List" [named "Address"]) "List< Address > ".toList :=
    .padded Text.allBlank_nil (.generic Text.allBlank_nil (.last haddressText))
      (by decide : AllBlank [' '])
  have hstringText : Layout (named "String") "String".toList :=
    .padded Text.allBlank_nil (.name "String") Text.allBlank_nil
  have htext : Layout t "\tMap <String,List< Address > > ".toList :=
    .padded (by decide : AllBlank ['\t'])
      (.generic (by decide : AllBlank [' ']) (.more hstringText (.last hlistText)))
      (by decide : AllBlank [' '])
  exact ⟨ht, (read_of_layout t ht).1 _ htext, (read_of_layout t ht).2⟩

end ProtoSchema.TypeRef
