import ProtoSchema.Proofs.TypeRef.Brackets

/-!
What the scans of a type text find, said without them. Brackets match when they do so by number; the
closing bracket is the one that follows a text of matching brackets; the pieces between the commas
are the texts of matching brackets that give the whole when commas are put between them, and whose
own commas stand inside brackets.
-/

namespace ProtoSchema.TypeRef

open Text (trim AllBlank)

/-! ### Matching by number -/

/-- The brackets of a text match: no beginning of it closes more brackets than it opens, and the
whole closes as many as it opens. -/
structure BracketsMatch (s : List Char) : Prop where
  beginnings : ∀ p, p <+: s → p.count '>' ≤ p.count '<'
  totals : s.count '<' = s.count '>'

/-- Where a bracket may be closed, the depth is that before the character, one up or one down. -/
theorem depthAfter_add_count {depth : Nat} {c : Char} (h : ¬ (c = '>' ∧ depth = 0)) :
    depthAfter depth c + [c].count '>' = depth + [c].count '<' := by
  rw [depthAfter]
  by_cases hopen : c = '<'
  · subst hopen
    simp
  · by_cases hclose : c = '>'
    · have hdepth : depth ≠ 0 := fun h0 => h ⟨hclose, h0⟩
      subst hclose
      simp only [if_neg hopen, List.count_singleton, beq_self_eq_true, if_true]
      rw [if_neg (by decide)]
      omega
    · simp [hopen, hclose]

/-- The depth at the end of a text counts the brackets that are open there. -/
theorem endDepth?_eq_some_iff {depth e : Nat} {s : List Char} :
    endDepth? depth s = some e ↔
      (∀ p, p <+: s → p.count '>' ≤ depth + p.count '<') ∧
        depth + s.count '<' = e + s.count '>' := by
  induction s generalizing depth with
  | nil => simp [endDepth?]
  | cons c s ih =>
      rw [endDepth?_cons_eq_some, ih]
      have hcons : ∀ (x : Char) (p : List Char), (c :: p).count x = [c].count x + p.count x := by
        intro x p
        rw [← List.singleton_append, List.count_append]
      constructor
      · rintro ⟨hinside, hbegin, htotal⟩
        have hstep := depthAfter_add_count hinside
        refine ⟨fun p hp => ?_, ?_⟩
        · obtain rfl | ⟨q, rfl, hq⟩ := List.prefix_cons_iff.1 hp
          · simp
          · have := hbegin q hq
            rw [hcons '>' q, hcons '<' q]
            omega
        · rw [hcons '>' s, hcons '<' s]
          omega
      · rintro ⟨hbegin, htotal⟩
        -- The first character alone is a beginning of the text.
        have hinside : ¬ (c = '>' ∧ depth = 0) := by
          rintro ⟨rfl, rfl⟩
          have := hbegin ['>'] (List.prefix_cons_iff.2 (.inr ⟨[], rfl, List.nil_prefix⟩))
          simp at this
        have hstep := depthAfter_add_count hinside
        refine ⟨hinside, fun p hp => ?_, ?_⟩
        · have := hbegin (c :: p) (List.prefix_cons_iff.2 (.inr ⟨p, rfl, hp⟩))
          rw [hcons '>' p, hcons '<' p] at this
          omega
        · rw [hcons '>' s, hcons '<' s] at htotal
          omega

theorem balanced_iff {s : List Char} : Balanced s ↔ BracketsMatch s := by
  rw [Balanced, endDepth?_eq_some_iff]
  simp only [Nat.zero_add]
  exact ⟨fun h => ⟨h.1, h.2⟩, fun h => ⟨h.beginnings, h.totals⟩⟩

instance (s : List Char) : Decidable (BracketsMatch s) :=
  decidable_of_iff (endDepth? 0 s = some 0) balanced_iff

theorem Plain.endDepth? {s : List Char} (hs : Plain s) (depth : Nat) :
    endDepth? depth s = some depth := by
  induction depth with
  | zero => exact hs.balanced
  | succ depth ih => exact endDepth?_succ ih

theorem bracketsMatch_trim {s : List Char} : BracketsMatch (trim s) ↔ BracketsMatch s := by
  obtain ⟨before, after, hbefore, hafter, hs⟩ := Text.exists_append_trim s
  have hleft := plain_of_allBlank hbefore
  have hright := plain_of_allBlank hafter
  rw [← balanced_iff, ← balanced_iff]
  constructor
  · intro h
    rw [hs]
    exact (hleft.balanced.append h).append hright.balanced
  · intro h
    rw [hs, Balanced, endDepth?_append, endDepth?_append, hleft.endDepth?, Option.bind_some] at h
    obtain ⟨e, he, hrest⟩ := Option.bind_eq_some_iff.1 h
    rw [hright.endDepth?, Option.some.injEq] at hrest
    rwa [hrest] at he

theorem BracketsMatch.open_mem {s : List Char} (hs : BracketsMatch s) (h : '>' ∈ s) : '<' ∈ s := by
  have hclose := List.count_pos_iff.2 h
  rw [← hs.totals] at hclose
  exact List.count_pos_iff.1 hclose

theorem bracketsMatch_of_notMem {s : List Char} (hopen : '<' ∉ s) (hclose : '>' ∉ s) :
    BracketsMatch s where
  beginnings p hp := by
    rw [List.count_eq_zero.2 fun h => hclose (hp.subset h)]
    exact Nat.zero_le _
  totals := by rw [List.count_eq_zero.2 hopen, List.count_eq_zero.2 hclose]

/-! ### The closing bracket -/

/-- The search for the closing bracket stops behind the first text that closes what it opens. -/
theorem cutAtClose_eq_some_iff {depth : Nat} {s inner after : List Char} :
    cutAtClose depth s = some (inner, after) ↔
      s = inner ++ '>' :: after ∧ endDepth? depth inner = some 0 := by
  constructor
  · intro h
    induction s generalizing depth inner with
    | nil => simp [cutAtClose] at h
    | cons c s ih =>
        rw [cutAtClose] at h
        split at h
        · next hc =>
          obtain ⟨rfl, rfl⟩ := hc
          simp only [Option.some.injEq, Prod.mk.injEq] at h
          obtain ⟨rfl, rfl⟩ := h
          exact ⟨rfl, rfl⟩
        · next hc =>
          obtain ⟨⟨inner', after'⟩, hcut, heq⟩ := Option.map_eq_some_iff.1 h
          simp only [Prod.mk.injEq] at heq
          obtain ⟨rfl, rfl⟩ := heq
          obtain ⟨rfl, hend⟩ := ih hcut
          exact ⟨rfl, endDepth?_cons_eq_some.2 ⟨hc, hend⟩⟩
  · rintro ⟨rfl, hend⟩
    rw [cutAtClose_append hend, TypeRef.cutAtClose]
    simp

theorem cutAtClose_eq_none_iff {depth : Nat} {s : List Char} :
    cutAtClose depth s = none ↔ ∃ e, endDepth? depth s = some e := by
  induction s generalizing depth with
  | nil => simp [cutAtClose, endDepth?]
  | cons c s ih =>
      rw [cutAtClose, endDepth?]
      split
      · simp
      · rw [Option.map_eq_none_iff, ih]

/-! ### The pieces between the commas -/

structure IsPiece (p : List Char) : Prop where
  matching : BracketsMatch p
  commas : ∀ u v, p = u ++ ',' :: v → u.count '>' < u.count '<'

theorem pieces_ne_nil (depth : Nat) (s : List Char) : pieces depth s ≠ [] := by
  cases s with
  | nil => simp [pieces]
  | cons c s =>
      rw [pieces]
      split
      · simp
      · cases pieces (depthAfter depth c) s <;> simp [extendHead]

/-- Nothing but the commas is lost between the pieces. -/
theorem intercalate_pieces (depth : Nat) (s : List Char) :
    List.intercalate [','] (pieces depth s) = s := by
  induction s generalizing depth with
  | nil => rfl
  | cons c s ih =>
      rw [pieces]
      split
      · next hc =>
        obtain ⟨q, qs, hq⟩ := List.exists_cons_of_ne_nil (pieces_ne_nil 0 s)
        have hrest := ih 0
        rw [hq] at hrest
        rw [hq, List.intercalate_cons_cons, hrest, hc.1]
        rfl
      · obtain ⟨q, qs, hq⟩ := List.exists_cons_of_ne_nil (pieces_ne_nil (depthAfter depth c) s)
        have hrest := ih (depthAfter depth c)
        rw [hq] at hrest
        rw [hq, extendHead, ← hrest]
        cases qs <;> simp [List.intercalate_cons_cons]

/-- How many commas of a text stand where as many brackets are closed as are opened. -/
def outerCommas (s : List Char) : Nat :=
  (List.range s.length).countP fun k =>
    s[k]? = some ',' ∧ (s.take k).count '<' = (s.take k).count '>'

/-- The commas that cut, counted from the brackets before them. -/
theorem length_pieces {depth e : Nat} {s : List Char} (hs : endDepth? depth s = some e) :
    (pieces depth s).length = (List.range s.length).countP (fun k =>
      s[k]? = some ',' ∧ depth + (s.take k).count '<' = (s.take k).count '>') + 1 := by
  induction s generalizing depth with
  | nil => rfl
  | cons c s ih =>
      obtain ⟨hinside, htail⟩ := endDepth?_cons_eq_some.1 hs
      have hstep := depthAfter_add_count hinside
      have hrest : (List.range s.length).countP ((fun k => decide ((c :: s)[k]? = some ',' ∧
          depth + ((c :: s).take k).count '<' = ((c :: s).take k).count '>')) ∘ Nat.succ) =
          (List.range s.length).countP fun k => decide (s[k]? = some ',' ∧
            depthAfter depth c + (s.take k).count '<' = (s.take k).count '>') := by
        refine List.countP_congr fun k _ => ?_
        have hcons : ∀ x : Char, ((c :: s).take (k + 1)).count x =
            [c].count x + (s.take k).count x := by
          intro x
          rw [List.take_succ_cons, ← List.singleton_append, List.count_append]
        simp only [Function.comp_apply, Nat.succ_eq_add_one, List.getElem?_cons_succ, hcons,
          decide_eq_true_eq]
        exact and_congr_right fun _ => by omega
      rw [List.length_cons, List.range_succ_eq_map, List.countP_cons, List.countP_map, hrest,
        pieces]
      by_cases hcut : c = ',' ∧ depth = 0
      · obtain ⟨rfl, rfl⟩ := hcut
        have hbehind : endDepth? 0 s = some e := htail
        rw [if_pos ⟨rfl, rfl⟩, List.length_cons, ih hbehind]
        rfl
      · obtain ⟨q, qs, hq⟩ := List.exists_cons_of_ne_nil (pieces_ne_nil (depthAfter depth c) s)
        have hlength := ih htail
        rw [hq] at hlength
        rw [if_neg hcut, hq, extendHead, List.length_cons, ← List.length_cons, hlength]
        simp [hcut]

theorem length_pieces_eq_outerCommas {s : List Char} (hs : BracketsMatch s) :
    (pieces 0 s).length = outerCommas s + 1 := by
  rw [length_pieces (balanced_iff.2 hs), outerCommas]
  simp only [Nat.zero_add]

structure EndsPiece (depth : Nat) (p : List Char) : Prop where
  ends : endDepth? depth p = some 0
  commas : ∀ u v, p = u ++ ',' :: v → endDepth? depth u ≠ some 0

theorem EndsPiece.isPiece {p : List Char} (h : EndsPiece 0 p) : IsPiece p where
  matching := balanced_iff.1 h.ends
  commas u v hp := by
    have hu : u <+: p := ⟨',' :: v, hp.symm⟩
    have hle := (balanced_iff.1 h.ends).beginnings u hu
    -- Were the numbers equal, the comma would stand outside all brackets.
    refine Nat.lt_of_le_of_ne hle fun heq => h.commas u v hp ?_
    refine endDepth?_eq_some_iff.2 ⟨fun q hq => ?_, by omega⟩
    have := (balanced_iff.1 h.ends).beginnings q (hq.trans hu)
    omega

theorem IsPiece.endsPiece {p : List Char} (h : IsPiece p) : EndsPiece 0 p where
  ends := balanced_iff.2 h.matching
  commas u v hp hu := by
    have hlt := h.commas u v hp
    have heq := (endDepth?_eq_some_iff.1 hu).2
    omega

/-- The first piece ends what has been begun, and the others are pieces of their own. -/
theorem pieces_endsPiece {depth : Nat} {s : List Char} (h : endDepth? depth s = some 0) :
    ∃ p ps, pieces depth s = p :: ps ∧ EndsPiece depth p ∧ ∀ q ∈ ps, IsPiece q := by
  induction s generalizing depth with
  | nil => exact ⟨[], [], rfl, ⟨h, by simp⟩, by simp⟩
  | cons c s ih =>
      obtain ⟨hinside, htail⟩ := endDepth?_cons_eq_some.1 h
      rw [pieces]
      split
      · next hc =>
        obtain ⟨rfl, rfl⟩ := hc
        have hrest : endDepth? 0 s = some 0 := htail
        obtain ⟨p, ps, hpieces, hp, hps⟩ := ih hrest
        refine ⟨[], pieces 0 s, rfl, ⟨rfl, by simp⟩, ?_⟩
        rw [hpieces]
        exact List.forall_mem_cons.2 ⟨hp.isPiece, hps⟩
      · next hc =>
        obtain ⟨p, ps, hpieces, hp, hps⟩ := ih htail
        refine ⟨c :: p, ps, by rw [hpieces, extendHead], ⟨?_, ?_⟩, hps⟩
        · exact endDepth?_cons_eq_some.2 ⟨hinside, hp.ends⟩
        · intro u v huv hu
          cases u with
          | nil =>
              -- A comma at the front would have been a cut.
              rw [List.nil_append, List.cons.injEq] at huv
              rw [endDepth?, Option.some.injEq] at hu
              exact hc ⟨huv.1, hu⟩
          | cons d u =>
              rw [List.cons_append, List.cons.injEq] at huv
              obtain ⟨rfl, huv⟩ := huv
              exact hp.commas u v huv (endDepth?_cons_eq_some.1 hu).2

theorem isPiece_of_mem_pieces {s p : List Char} (hs : BracketsMatch s) (hp : p ∈ pieces 0 s) :
    IsPiece p := by
  obtain ⟨q, qs, hpieces, hq, hqs⟩ := pieces_endsPiece (balanced_iff.2 hs)
  rw [hpieces] at hp
  obtain rfl | hp := List.mem_cons.1 hp
  · exact hq.isPiece
  · exact hqs p hp

theorem EndsPiece.pieces_append {depth : Nat} {p : List Char} (h : EndsPiece depth p)
    (rest : List Char) : pieces depth (p ++ rest) = p.foldr extendHead (pieces 0 rest) := by
  induction p generalizing depth with
  | nil =>
      have hdepth : depth = 0 := by simpa [endDepth?] using h.ends
      rw [hdepth]
      rfl
  | cons c p ih =>
      obtain ⟨hinside, htail⟩ := endDepth?_cons_eq_some.1 h.ends
      have hcut : ¬ (c = ',' ∧ depth = 0) := by
        rintro ⟨rfl, rfl⟩
        exact h.commas [] p rfl rfl
      have hp : EndsPiece (depthAfter depth c) p := by
        refine ⟨htail, fun u v huv hu => ?_⟩
        exact h.commas (c :: u) v (by rw [huv]; rfl) (endDepth?_cons_eq_some.2 ⟨hinside, hu⟩)
      rw [List.cons_append, pieces, if_neg hcut, ih hp]
      rfl

theorem IsPiece.uncut {p : List Char} (h : IsPiece p) : Uncut p where
  balanced := h.endsPiece.ends
  pieces_append := h.endsPiece.pieces_append

/-- Pieces with commas between them are cut into these pieces again. -/
theorem pieces_intercalate {ps : List (List Char)} (hne : ps ≠ []) (hps : ∀ p ∈ ps, IsPiece p) :
    pieces 0 (List.intercalate [','] ps) = ps := by
  induction ps with
  | nil => exact absurd rfl hne
  | cons p ps ih =>
      have hp := (hps p (by simp)).uncut
      cases ps with
      | nil => rw [List.intercalate_singleton, hp.pieces_eq]
      | cons q qs =>
          have hrest := ih (by simp) fun r hr => hps r (List.mem_cons_of_mem _ hr)
          rw [List.intercalate_cons_cons, List.append_assoc, List.singleton_append,
            hp.pieces_comma, hrest]

end ProtoSchema.TypeRef
