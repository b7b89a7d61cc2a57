import ProtoSchema.Text.Parts
import ProtoSchema.Proofs.TypeRef.Scanning

/-!
The grammar of type texts, and what the reader makes of a text. On texts of matching brackets the
reader accepts exactly what the grammar derives. Of the other texts it accepts those whose unmatched
brackets all stand in the name before the first opening bracket.
-/

namespace ProtoSchema.TypeRef

open Text (trim append_sep_inj)

/-- A name applied to arguments: the name is what stands before the first opening bracket, and the
arguments, each of them trimmed, are the pieces of what stands between this bracket and the one that
closes it, which is the last character. -/
inductive Applies : List Char → List Char → List (List Char) → Prop
  | intro {lead : List Char} {ps : List (List Char)} (hlead : '<' ∉ lead)
      (hname : trim lead ≠ []) (hps : ps ≠ []) (hpieces : ∀ p ∈ ps, IsPiece p)
      (harguments : [] ∉ ps.map trim) :
      Applies (lead ++ '<' :: (List.intercalate [','] ps ++ ['>'])) (trim lead) (ps.map trim)

/-- The grammar of trimmed segments, with the reading that a derivation gives. -/
inductive Derives : List Char → Reading → Prop
  | name {s : List Char} (hopen : '<' ∉ s) (hne : s ≠ []) :
      Derives s ⟨named (String.ofList s), []⟩
  | one {s base a : List Char} {x : Reading} (h : Applies s base [a]) (ha : Derives a x) :
      Derives s ⟨mk (String.ofList base) [x.ref], x.caveats⟩
  | two {s base a b : List Char} {x y : Reading} (h : Applies s base [a, b])
      (ha : Derives a x) (hb : Derives b y) :
      Derives s ⟨mk (String.ofList base) [x.ref, y.ref], x.caveats ++ y.caveats⟩
  | many {s base : List Char} {arguments : List (List Char)} (h : Applies s base arguments)
      (harity : 3 ≤ arguments.length) :
      Derives s ⟨named (String.ofList base),
        [.unresolvedShape (String.ofList s) arguments.length]⟩

/-! ### One level -/

theorem bracketsMatch_intercalate {ps : List (List Char)} (hps : ∀ p ∈ ps, IsPiece p) :
    BracketsMatch (List.intercalate [','] ps) := by
  rw [← balanced_iff]
  induction ps with
  | nil => rfl
  | cons p ps ih =>
      have hp := (hps p (by simp)).uncut.balanced
      have hrest := ih fun q hq => hps q (List.mem_cons_of_mem _ hq)
      cases ps with
      | nil => rwa [List.intercalate_singleton]
      | cons q qs =>
          rw [List.intercalate_cons_cons, List.append_assoc]
          exact hp.append hrest.comma

theorem Applies.arguments_ne_nil {s base : List Char} {arguments : List (List Char)}
    (h : Applies s base arguments) : arguments ≠ [] := by
  cases h with
  | intro hlead hname hps hpieces harguments => simpa using hps

theorem Applies.bracketsMatch_argument {s base a : List Char} {arguments : List (List Char)}
    (h : Applies s base arguments) (ha : a ∈ arguments) : BracketsMatch a := by
  cases h with
  | intro hlead hname hps hpieces harguments =>
      obtain ⟨p, hp, rfl⟩ := List.mem_map.1 ha
      exact bracketsMatch_trim.2 (hpieces p hp).matching

theorem Segment.read_eq_plain_iff {s n : List Char} :
    Segment.read s = .ok (.plain n) ↔ n = s ∧ s ≠ [] ∧ '<' ∉ s ∧ '>' ∉ s := by
  by_cases hopen : '<' ∈ s
  · obtain ⟨lead, rest, rfl, hlead⟩ := List.eq_append_cons_of_mem hopen
    rw [Segment.read_append_open hlead]
    simp only [hopen, not_true_eq_false, false_and, and_false, iff_false]
    split
    · simp
    · split
      · simp
      · split
        · simp
        · split <;> simp
  · rw [Segment.read_of_notMem hopen]
    by_cases hclose : '>' ∈ s
    · simp [hclose]
    · by_cases hempty : s = [] <;> simp [hclose, hempty, hopen, eq_comm]

theorem Segment.read_eq_generic_iff {s base : List Char} {arguments : List (List Char)} :
    Segment.read s = .ok (.generic base arguments) ↔ Applies s base arguments := by
  constructor
  · intro h
    by_cases hopen : '<' ∈ s
    · obtain ⟨lead, rest, rfl, hlead⟩ := List.eq_append_cons_of_mem hopen
      rw [Segment.read_append_open hlead] at h
      split at h
      · cases h
      · next hname =>
        split at h
        · cases h
        · next inner after hcut =>
          split at h
          · cases h
          · next hafter =>
            split at h
            · cases h
            · next hnonempty =>
              cases h
              obtain ⟨rfl, hend⟩ := cutAtClose_eq_some_iff.1 hcut
              have hinner : BracketsMatch inner := balanced_iff.1 hend
              have happlies := Applies.intro hlead hname (pieces_ne_nil 0 inner)
                (fun p hp => isPiece_of_mem_pieces hinner hp) hnonempty
              rw [intercalate_pieces] at happlies
              rwa [Classical.not_not.1 hafter]
    · rw [Segment.read_of_notMem hopen] at h
      split at h
      · cases h
      · split at h <;> cases h
  · intro h
    cases h with
    | @intro lead ps hlead hname hps hpieces harguments =>
        have hinner := balanced_iff.2 (bracketsMatch_intercalate hpieces)
        have hcut := pieces_intercalate hps hpieces
        have hread := Segment.read_of_brackets hlead hname hinner (by rwa [hcut])
        rwa [hcut] at hread

/-! ### All levels -/

/-- What is read is derived. Arguments are shorter than the segment they stand in. -/
theorem derives_of_readSegment {s : List Char} {r : Reading} (h : readSegment s = .ok r) :
    Derives s r := by
  obtain ⟨n, hs, rfl⟩ | ⟨base, a, x, hs, ha, rfl⟩ | ⟨base, a, b, x, y, hs, ha, hb, rfl⟩ |
    ⟨base, arguments, hs, hone, htwo, rfl⟩ := readSegment_eq_ok h
  · obtain ⟨rfl, hne, hopen, -⟩ := Segment.read_eq_plain_iff.1 hs
    exact .name hopen hne
  · exact .one (Segment.read_eq_generic_iff.1 hs) (derives_of_readSegment ha)
  · exact .two (Segment.read_eq_generic_iff.1 hs) (derives_of_readSegment ha)
      (derives_of_readSegment hb)
  · have happlies := Segment.read_eq_generic_iff.1 hs
    match arguments, happlies.arguments_ne_nil, hone, htwo with
    | [a], _, hone, _ => exact absurd rfl (hone a)
    | [a, b], _, _, htwo => exact absurd rfl (htwo a b)
    | a :: b :: c :: others, _, _, _ => exact .many happlies (by simp)
  termination_by s.length
  decreasing_by all_goals exact Segment.length_argument_lt hs (by simp)

/-- What is derived is read, unless it is taken for a name and has a closing bracket in it. -/
theorem readSegment_of_derives {s : List Char} {r : Reading} (h : Derives s r)
    (hs : '>' ∈ s → '<' ∈ s) : readSegment s = .ok r := by
  induction h with
  | name hopen hne =>
      have hclose := fun h => hopen (hs h)
      exact readSegment_of_plain (Segment.read_eq_plain_iff.2 ⟨rfl, hne, hopen, hclose⟩)
  | @one s base a x h ha ih =>
      have hmatch : BracketsMatch a := h.bracketsMatch_argument (by simp)
      exact readSegment_of_one (Segment.read_eq_generic_iff.2 h) (ih hmatch.open_mem)
  | @two s base a b x y h ha hb iha ihb =>
      have hfirst : BracketsMatch a := h.bracketsMatch_argument (by simp)
      have hsecond : BracketsMatch b := h.bracketsMatch_argument (by simp)
      exact readSegment_of_two (Segment.read_eq_generic_iff.2 h) (iha hfirst.open_mem)
        (ihb hsecond.open_mem)
  | @many s base arguments h harity =>
      match arguments, harity with
      | a :: b :: c :: others, _ =>
          exact readSegment_of_many (Segment.read_eq_generic_iff.2 h)

theorem open_mem_of_readSegment {s : List Char} {r : Reading} (h : readSegment s = .ok r)
    (hclose : '>' ∈ s) : '<' ∈ s := by
  by_cases hopen : '<' ∈ s
  · exact hopen
  · have hread := Segment.read_of_notMem hopen
    rw [if_pos hclose] at hread
    obtain ⟨n, hs, -⟩ | ⟨base, a, x, hs, -⟩ | ⟨base, a, b, x, y, hs, -⟩ |
      ⟨base, arguments, hs, -⟩ := readSegment_eq_ok h <;> simp [hread] at hs

/-- The texts that the reader accepts, and what it makes of them. -/
theorem readSegment_eq_ok_iff {s : List Char} {r : Reading} :
    readSegment s = .ok r ↔ Derives s r ∧ ('>' ∈ s → '<' ∈ s) :=
  ⟨fun h => ⟨derives_of_readSegment h, open_mem_of_readSegment h⟩,
    fun h => readSegment_of_derives h.1 h.2⟩

theorem read_eq_ok_iff {s : String} {r : Reading} :
    read s = .ok r ↔ readSegment (trim s.toList) = .ok r := by
  constructor
  · intro h
    cases hread : readSegment (trim s.toList) with
    | ok x => rwa [read_of_ok hread, Except.ok.injEq, ← @Except.ok.injEq TypeFault] at h
    | error fault => simp [read_of_error hread] at h
  · exact read_of_ok

theorem exists_fault_iff {s : String} :
    (∃ fault, read s = .error (.malformedType s fault)) ↔
      ∀ r, readSegment (trim s.toList) ≠ .ok r := by
  cases hread : readSegment (trim s.toList) with
  | ok x => simp [read_of_ok hread]
  | error fault => simp [read_of_error hread]

/-- On texts of matching brackets the reader accepts what the grammar derives, with the same tree
and the same caveats, and refuses everything else. -/
theorem read_eq_ok_iff_derives (s : String) (hs : BracketsMatch s.toList) :
    (∀ r, read s = .ok r ↔ Derives (trim s.toList) r) ∧
      ((∀ r, ¬ Derives (trim s.toList) r) →
        ∃ fault, read s = .error (.malformedType s fault)) := by
  have hopen := (bracketsMatch_trim.2 hs).open_mem
  have hread : ∀ r, readSegment (trim s.toList) = .ok r ↔ Derives (trim s.toList) r := fun r =>
    readSegment_eq_ok_iff.trans (and_iff_left hopen)
  refine ⟨fun r => read_eq_ok_iff.trans (hread r), fun hnone => ?_⟩
  exact exists_fault_iff.2 fun r hr => hnone r ((hread r).1 hr)

theorem read_eq_ok_iff_derives_triple :
    let s := " List< Triple<A, B<C>, D> >"
    let r : Reading := ⟨mk "List" [named "Triple"], [.unresolvedShape "Triple<A, B<C>, D>" 3]⟩
    BracketsMatch s.toList ∧ Derives (trim s.toList) r ∧ read s = .ok r := by
  intro s r
  have hs : BracketsMatch s.toList := by decide
  have htriple : Applies "Triple<A, B<C>, D>".toList "Triple".toList
      ["A".toList, "B<C>".toList, "D".toList] := Segment.read_eq_generic_iff.1 rfl
  have htrim : trim s.toList = "List< Triple<A, B<C>, D> >".toList := by decide
  have hlist : Applies (trim s.toList) "List".toList ["Triple<A, B<C>, D>".toList] := by
    rw [htrim]
    exact Segment.read_eq_generic_iff.1 rfl
  have hderives : Derives (trim s.toList) r := .one hlist (.many htriple (by decide))
  exact ⟨hs, hderives, ((read_eq_ok_iff_derives s hs).1 r).2 hderives⟩

/-! ### Brackets that do not match -/

theorem Applies.relabel {lead other rest base : List Char} {arguments : List (List Char)}
    (h : Applies (lead ++ '<' :: rest) base arguments) (hlead : '<' ∉ lead) (hother : '<' ∉ other)
    (hname : trim other ≠ []) : Applies (other ++ '<' :: rest) (trim other) arguments := by
  generalize hs : lead ++ '<' :: rest = s at h
  cases h with
  | intro hlead' hname' hps hpieces harguments =>
      obtain ⟨-, rfl⟩ := append_sep_inj hlead hlead' hs
      exact .intro hother hname hps hpieces harguments

/-- Where the brackets of a text with arguments do not match, its name is to blame. -/
theorem Applies.exists_close_of_unmatched {s base : List Char} {arguments : List (List Char)}
    (h : Applies s base arguments) (hs : ¬ BracketsMatch s) :
    ∃ lead rest, s = lead ++ '<' :: rest ∧ '<' ∉ lead ∧ '>' ∈ lead := by
  cases h with
  | @intro lead ps hlead hname hps hpieces harguments =>
      refine ⟨lead, _, rfl, hlead, Classical.byContradiction fun hclose => hs ?_⟩
      have hbefore := balanced_iff.2 (bracketsMatch_of_notMem hlead hclose)
      have hinner := balanced_iff.2 (bracketsMatch_intercalate hpieces)
      exact balanced_iff.1 (hbefore.append hinner.brackets)

/-- A derivation looks at the name before the first bracket only to copy it. -/
theorem Derives.relabel {lead other rest : List Char} {r : Reading}
    (h : Derives (lead ++ '<' :: rest) r) (hlead : '<' ∉ lead) (hother : '<' ∉ other)
    (hname : trim other ≠ []) : ∃ r', Derives (other ++ '<' :: rest) r' := by
  generalize hs : lead ++ '<' :: rest = s at h
  cases h with
  | name hopen hne => exact absurd (by simp [← hs]) hopen
  | one happlies ha =>
      rw [← hs] at happlies
      exact ⟨_, .one (happlies.relabel hlead hother hname) ha⟩
  | two happlies ha hb =>
      rw [← hs] at happlies
      exact ⟨_, .two (happlies.relabel hlead hother hname) ha hb⟩
  | many happlies harity =>
      rw [← hs] at happlies
      exact ⟨_, .many (happlies.relabel hlead hother hname) harity⟩

theorem Derives.exists_applies {s : List Char} {r : Reading} (h : Derives s r) (hopen : '<' ∈ s) :
    ∃ base arguments, Applies s base arguments := by
  cases h with
  | name hnone hne => exact absurd hopen hnone
  | one happlies ha => exact ⟨_, _, happlies⟩
  | two happlies ha hb => exact ⟨_, _, happlies⟩
  | many happlies harity => exact ⟨_, _, happlies⟩

/-- If the brackets of a text do not match, the text is refused, but for one exception: there is a
closing bracket before the first opening one, and without what stands before it the text is that of
arguments. -/
theorem refused_iff_of_unmatched (s : String) (hs : ¬ BracketsMatch s.toList) :
    (∃ fault, read s = .error (.malformedType s fault)) ↔
      ¬ ∃ lead rest, trim s.toList = lead ++ '<' :: rest ∧ '<' ∉ lead ∧ '>' ∈ lead ∧
        ∃ r, Derives ('T' :: '<' :: rest) r := by
  have hT : '<' ∉ ['T'] ∧ trim ['T'] ≠ [] := by decide
  rw [exists_fault_iff]
  constructor
  · rintro hrefused ⟨lead, rest, htext, hlead, hclose, r, hr⟩
    have hname : trim lead ≠ [] := Text.trim_ne_nil hclose (by decide)
    have happlied : Derives (['T'] ++ '<' :: rest) r := hr
    obtain ⟨r', hr'⟩ := happlied.relabel hT.1 hlead hname
    refine hrefused r' ?_
    rw [htext]
    exact readSegment_of_derives hr' fun _ => by simp
  · intro hnone r hread
    have hopen : '<' ∈ trim s.toList := by
      by_cases hclose : '>' ∈ trim s.toList
      · exact open_mem_of_readSegment hread hclose
      · refine Classical.byContradiction fun hopen => hs ?_
        exact bracketsMatch_trim.1 (bracketsMatch_of_notMem hopen hclose)
    have hderives := derives_of_readSegment hread
    obtain ⟨base, arguments, happlies⟩ := hderives.exists_applies hopen
    obtain ⟨lead, rest, htext, hlead, hclose⟩ :=
      happlies.exists_close_of_unmatched fun h => hs (bracketsMatch_trim.1 h)
    rw [htext] at hderives
    exact hnone ⟨lead, rest, htext, hlead, hclose, hderives.relabel hlead hT.1 hT.2⟩

/-- A bracket too many, behind the arguments. -/
theorem refused_iff_of_unmatched_trailing :
    let s := "Map<String, List<Address>>>"
    ¬ BracketsMatch s.toList ∧ ∃ fault, read s = .error (.malformedType s fault) := by
  intro s
  have hs : ¬ BracketsMatch s.toList := by decide
  refine ⟨hs, (refused_iff_of_unmatched s hs).2 ?_⟩
  rintro ⟨lead, rest, htext, hlead, hclose, -⟩
  have hmap : trim s.toList = "Map".toList ++ '<' :: "String, List<Address>>>".toList := by decide
  obtain ⟨rfl, -⟩ := append_sep_inj hlead (by decide) (htext.symm.trans hmap)
  exact absurd hclose (by decide)

/-- A closing bracket in a name is read as part of the name, if arguments follow. -/
theorem unmatched_name_accepted :
    ¬ BracketsMatch "List><String>".toList ∧
      read "List><String>" = .ok ⟨mk "List>" [named "String"], []⟩ ∧
      ¬ ∀ s : String, ¬ BracketsMatch s.toList →
        ∃ fault, read s = .error (.malformedType s fault) := by
  have hs : ¬ BracketsMatch "List><String>".toList := by decide
  have htrim : trim "List><String>".toList = "List><String>".toList := by decide
  have hsegment : Segment.read "List><String>".toList =
      .ok (.generic "List>".toList ["String".toList]) := rfl
  have hstring : readSegment "String".toList = .ok ⟨named "String", []⟩ :=
    readSegment_of_plain (Segment.read_of_plain (by decide) (by decide))
  have hread : read "List><String>" = .ok ⟨mk "List>" [named "String"], []⟩ := by
    refine read_of_ok ?_
    rw [htrim]
    exact readSegment_of_one hsegment hstring
  refine ⟨hs, hread, fun hall => ?_⟩
  obtain ⟨fault, hfault⟩ := hall "List><String>" hs
  rw [hread] at hfault
  cases hfault

end ProtoSchema.TypeRef
