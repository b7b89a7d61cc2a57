import ProtoSchema.TypeRef.Reader

/-!
How the reader of type texts acts on texts that are put together from balanced ones. A balanced text
is passed over whole, both in the search for a closing bracket and, inside brackets, in the cutting
at commas.
-/

namespace ProtoSchema.TypeRef

open Text (trim AllBlank)

/-- How deep a text ends that starts at the given depth, unless it closes a bracket it is not in. -/
def endDepth? (depth : Nat) : List Char → Option Nat
  | [] => some depth
  | c :: s => if c = '>' ∧ depth = 0 then none else endDepth? (depthAfter depth c) s

theorem endDepth?_cons_eq_some {depth e : Nat} {c : Char} {s : List Char} :
    endDepth? depth (c :: s) = some e ↔
      ¬ (c = '>' ∧ depth = 0) ∧ endDepth? (depthAfter depth c) s = some e := by
  rw [endDepth?]
  by_cases h : c = '>' ∧ depth = 0
  · simp [h]
  · simp [h]

theorem endDepth?_append (depth : Nat) (s t : List Char) :
    endDepth? depth (s ++ t) = (endDepth? depth s).bind fun e => endDepth? e t := by
  induction s generalizing depth with
  | nil => rfl
  | cons c s ih =>
      rw [List.cons_append, endDepth?, endDepth?]
      split
      · rfl
      · exact ih _

/-- Where a bracket may be closed, one level further in moves the depth after it as well. -/
theorem depthAfter_succ {depth : Nat} {c : Char} (h : ¬ (c = '>' ∧ depth = 0)) :
    depthAfter (depth + 1) c = depthAfter depth c + 1 := by
  rw [depthAfter, depthAfter]
  by_cases hopen : c = '<'
  · simp [hopen]
  · by_cases hclose : c = '>'
    · have hdepth : depth ≠ 0 := fun h0 => h ⟨hclose, h0⟩
      rw [if_neg hopen, if_neg hopen, if_pos hclose, if_pos hclose]
      omega
    · simp [hopen, hclose]

/-- What a text does to the depth, it does inside another bracket as well. -/
theorem endDepth?_succ {depth e : Nat} {s : List Char} (h : endDepth? depth s = some e) :
    endDepth? (depth + 1) s = some (e + 1) := by
  induction s generalizing depth with
  | nil =>
      rw [endDepth?, Option.some.injEq] at h
      rw [endDepth?, h]
  | cons c s ih =>
      obtain ⟨hinside, htail⟩ := endDepth?_cons_eq_some.1 h
      rw [endDepth?, if_neg (by simp), depthAfter_succ hinside]
      exact ih htail

/-- A text that closes the brackets it opens, each after it is opened, and no others. -/
def Balanced (s : List Char) : Prop := endDepth? 0 s = some 0

def Plain (s : List Char) : Prop := ∀ c ∈ s, c ≠ '<' ∧ c ≠ '>' ∧ c ≠ ','

instance (s : List Char) : Decidable (Plain s) :=
  List.decidableBAll (fun c => c ≠ '<' ∧ c ≠ '>' ∧ c ≠ ',') s

theorem Balanced.append {s t : List Char} (hs : Balanced s) (ht : Balanced t) :
    Balanced (s ++ t) := by
  rw [Balanced, endDepth?_append, hs, Option.bind_some, ht]

theorem Balanced.brackets {s : List Char} (hs : Balanced s) : Balanced ('<' :: (s ++ ['>'])) := by
  have hinner : endDepth? 1 s = some 1 := endDepth?_succ hs
  rw [Balanced, endDepth?, if_neg (by simp)]
  rw [show depthAfter 0 '<' = 1 from rfl, endDepth?_append, hinner]
  rfl

theorem Balanced.comma {s : List Char} (hs : Balanced s) : Balanced (',' :: s) := hs

theorem Plain.balanced {s : List Char} (hs : Plain s) : Balanced s := by
  induction s with
  | nil => rfl
  | cons c s ih =>
      obtain ⟨hopen, hclose, -⟩ := hs c (by simp)
      rw [Balanced, endDepth?, if_neg (by simp [hclose]), depthAfter, if_neg hopen, if_neg hclose]
      exact ih fun x hx => hs x (by simp [hx])

theorem Plain.append {s t : List Char} (hs : Plain s) (ht : Plain t) : Plain (s ++ t) := by
  intro c hc
  exact (List.mem_append.1 hc).elim (hs c) (ht c)

theorem Plain.open_notMem {s : List Char} (hs : Plain s) : '<' ∉ s := fun h => (hs '<' h).1 rfl

theorem plain_of_allBlank {s : List Char} (hs : AllBlank s) : Plain s := by
  intro c hc
  have hblank := hs c hc
  refine ⟨?_, ?_, ?_⟩ <;> rintro rfl <;> revert hblank <;> decide

/-! ### The closing bracket -/

/-- The search for the closing bracket goes on behind a text that leaves it in some depth. -/
theorem cutAtClose_append {depth e : Nat} {s : List Char} (h : endDepth? depth s = some e)
    (rest : List Char) :
    cutAtClose depth (s ++ rest) = (cutAtClose e rest).map fun p => (s ++ p.1, p.2) := by
  induction s generalizing depth with
  | nil =>
      rw [endDepth?, Option.some.injEq] at h
      subst h
      simp
  | cons c s ih =>
      obtain ⟨hinside, htail⟩ := endDepth?_cons_eq_some.1 h
      rw [List.cons_append, cutAtClose, if_neg hinside, ih htail, Option.map_map]
      rfl

theorem Balanced.cutAtClose {s : List Char} (hs : Balanced s) (rest : List Char) :
    cutAtClose 0 (s ++ '>' :: rest) = some (s, rest) := by
  rw [cutAtClose_append hs, TypeRef.cutAtClose]
  simp

/-! ### Cutting at commas -/

/-- Inside a bracket nothing is cut. -/
theorem pieces_append_of_inside {depth e : Nat} {s : List Char} (h : endDepth? depth s = some e)
    (rest : List Char) :
    pieces (depth + 1) (s ++ rest) = s.foldr extendHead (pieces (e + 1) rest) := by
  induction s generalizing depth with
  | nil =>
      rw [endDepth?, Option.some.injEq] at h
      subst h
      rfl
  | cons c s ih =>
      obtain ⟨hinside, htail⟩ := endDepth?_cons_eq_some.1 h
      rw [List.cons_append, pieces, if_neg (by simp), depthAfter_succ hinside, ih htail]
      rfl

structure Uncut (s : List Char) : Prop where
  balanced : Balanced s
  pieces_append : ∀ rest, pieces 0 (s ++ rest) = s.foldr extendHead (pieces 0 rest)

theorem Uncut.append {s t : List Char} (hs : Uncut s) (ht : Uncut t) : Uncut (s ++ t) where
  balanced := hs.balanced.append ht.balanced
  pieces_append rest := by
    rw [List.append_assoc, hs.pieces_append, ht.pieces_append, List.foldr_append]

theorem Plain.uncut {s : List Char} (hs : Plain s) : Uncut s where
  balanced := hs.balanced
  pieces_append rest := by
    induction s with
    | nil => rfl
    | cons c s ih =>
        obtain ⟨hopen, hclose, hcomma⟩ := hs c (by simp)
        rw [List.cons_append, pieces, if_neg (by simp [hcomma]), depthAfter, if_neg hopen,
          if_neg hclose, ih fun x hx => hs x (by simp [hx])]
        rfl

/-- A bracket is never cut, not even at the commas in it. -/
theorem Balanced.uncut_brackets {s : List Char} (hs : Balanced s) :
    Uncut ('<' :: (s ++ ['>'])) where
  balanced := hs.brackets
  pieces_append rest := by
    rw [List.cons_append, List.append_assoc, pieces, if_neg (by simp)]
    -- Behind the opening bracket the depth is one, where commas do not cut.
    rw [show depthAfter 0 '<' = 1 from rfl, pieces_append_of_inside hs, List.singleton_append,
      pieces, if_neg (by simp)]
    rw [show depthAfter 1 '>' = 0 from rfl, List.foldr_cons, List.foldr_append]
    rfl

theorem foldr_extendHead (s p : List Char) (ps : List (List Char)) :
    s.foldr extendHead (p :: ps) = (s ++ p) :: ps := by
  induction s with
  | nil => rfl
  | cons c s ih => rw [List.foldr_cons, ih, extendHead, List.cons_append]

theorem Uncut.pieces_eq {s : List Char} (hs : Uncut s) : pieces 0 s = [s] := by
  have h := hs.pieces_append []
  rwa [List.append_nil, pieces, foldr_extendHead, List.append_nil] at h

theorem Uncut.pieces_comma {s : List Char} (hs : Uncut s) (rest : List Char) :
    pieces 0 (s ++ ',' :: rest) = s :: pieces 0 rest := by
  rw [hs.pieces_append, pieces, if_pos ⟨rfl, rfl⟩, foldr_extendHead, List.append_nil]

/-! ### One level -/

/-- A text without an opening bracket is a name, if it can be one. -/
theorem Segment.read_of_notMem {s : List Char} (hopen : '<' ∉ s) :
    Segment.read s =
      if '>' ∈ s then .error .unmatchedClose
      else if s = [] then .error .emptyName
      else .ok (.plain s) := by
  have hbefore : ∀ c ∈ s, decide (c ≠ '<') = true := fun c hc =>
    decide_eq_true fun h : c = '<' => hopen (h ▸ hc)
  have hdrop : (s ++ []).dropWhile (· ≠ '<') = [] := List.dropWhile_append_of_pos hbefore
  rw [List.append_nil] at hdrop
  rw [Segment.read, hdrop]

/-- A text with an opening bracket is cut there. -/
theorem Segment.read_append_open {base : List Char} (hopen : '<' ∉ base) (rest : List Char) :
    Segment.read (base ++ '<' :: rest) =
      if trim base = [] then .error .missingName
      else
        match TypeRef.cutAtClose 0 rest with
        | none => .error .unclosed
        | some (inner, after) =>
            if after ≠ [] then .error .trailingText
            else if [] ∈ (pieces 0 inner).map trim then .error .emptyArgument
            else .ok (.generic (trim base) ((pieces 0 inner).map trim)) := by
  have hbefore : ∀ c ∈ base, decide (c ≠ '<') = true := fun c hc =>
    decide_eq_true fun h : c = '<' => hopen (h ▸ hc)
  have hdrop : (base ++ '<' :: rest).dropWhile (· ≠ '<') = '<' :: rest := by
    rw [List.dropWhile_append_of_pos hbefore, List.dropWhile_cons_of_neg (by simp)]
  have htake : (base ++ '<' :: rest).takeWhile (· ≠ '<') = base := by
    rw [List.takeWhile_append_of_pos hbefore, List.takeWhile_cons_of_neg (by simp),
      List.append_nil]
  rw [Segment.read, hdrop]
  generalize (base ++ '<' :: rest).takeWhile (· ≠ '<') = lead at htake ⊢
  subst htake
  rfl

theorem Segment.read_of_plain {s : List Char} (hs : Plain s) (hne : s ≠ []) :
    Segment.read s = .ok (.plain s) := by
  have hclose : '>' ∉ s := fun h => (hs '>' h).2.1 rfl
  rw [Segment.read_of_notMem hs.open_notMem, if_neg hclose, if_neg hne]

/-- A name before a balanced text in brackets is applied to the trimmed pieces of that text. -/
theorem Segment.read_of_brackets {base inner : List Char} (hbase : '<' ∉ base)
    (hname : trim base ≠ []) (hinner : Balanced inner)
    (harguments : [] ∉ (pieces 0 inner).map trim) :
    Segment.read (base ++ '<' :: (inner ++ ['>'])) =
      .ok (.generic (trim base) ((pieces 0 inner).map trim)) := by
  rw [Segment.read_append_open hbase, if_neg hname, hinner.cutAtClose []]
  simp only [if_neg harguments]
  rfl

end ProtoSchema.TypeRef
