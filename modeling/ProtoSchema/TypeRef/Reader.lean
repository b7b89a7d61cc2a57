import ProtoSchema.Text.Blank
import ProtoSchema.Diagnostic
import ProtoSchema.TypeRef

/-!
Reading declared type text such as `Map<String, List<Address>>`. A segment is cut at its first
bracket, at the bracket that closes it and at the commas of its own depth; the arguments are
shorter segments and are read in the same way. A type with three or more arguments is not
decomposed: it is read as its bare name, with a caveat.
-/

namespace ProtoSchema.TypeRef

open Text (trim)

/-- How deep the text after `c` is, when `c` stands at the given depth. -/
def depthAfter (depth : Nat) (c : Char) : Nat :=
  if c = '<' then depth + 1 else if c = '>' then depth - 1 else depth

/-- Cuts what follows an opening bracket at the bracket closing it: the text inside and the text
after. `depth` counts the brackets opened inside and not closed yet. -/
def cutAtClose (depth : Nat) : List Char → Option (List Char × List Char)
  | [] => none
  | c :: r =>
      if c = '>' ∧ depth = 0 then some ([], r)
      else (cutAtClose (depthAfter depth c) r).map fun p => (c :: p.1, p.2)

def extendHead (c : Char) : List (List Char) → List (List Char)
  | [] => [[c]]
  | p :: ps => (c :: p) :: ps

/-- The pieces between the commas that stand outside all brackets. -/
def pieces (depth : Nat) : List Char → List (List Char)
  | [] => [[]]
  | c :: r =>
      if c = ',' ∧ depth = 0 then [] :: pieces 0 r
      else extendHead c (pieces (depthAfter depth c) r)

inductive Segment where
  | plain (name : List Char)
  | generic (base : List Char) (arguments : List (List Char))

/-- Takes one level of a type text apart. -/
def Segment.read (text : List Char) : Except TypeFault Segment :=
  match text.dropWhile (· ≠ '<') with
  | [] =>
      if '>' ∈ text then .error .unmatchedClose
      else if text = [] then .error .emptyName
      else .ok (.plain text)
  | _ :: rest =>
      let base := trim (text.takeWhile (· ≠ '<'))
      if base = [] then .error .missingName
      else
        match cutAtClose 0 rest with
        | none => .error .unclosed
        | some (inner, after) =>
            let arguments := (pieces 0 inner).map trim
            if after ≠ [] then .error .trailingText
            else if [] ∈ arguments then .error .emptyArgument
            else .ok (.generic base arguments)

theorem cutAtClose_length {depth : Nat} {s inner after : List Char}
    (h : cutAtClose depth s = some (inner, after)) : inner.length < s.length := by
  induction s generalizing depth inner after with
  | nil => simp [cutAtClose] at h
  | cons c r ih =>
      rw [cutAtClose] at h
      split at h
      · simp only [Option.some.injEq, Prod.mk.injEq] at h
        simp [← h.1]
      · obtain ⟨p, hp, hq⟩ := Option.map_eq_some_iff.1 h
        simp only [Prod.mk.injEq] at hq
        have := ih hp
        simp only [← hq.1, List.length_cons]
        omega

theorem length_of_mem_extendHead {c : Char} {ps : List (List Char)} {p : List Char} {n : Nat}
    (hps : ∀ q ∈ ps, q.length ≤ n) (hp : p ∈ extendHead c ps) : p.length ≤ n + 1 := by
  cases ps with
  | nil => simp_all [extendHead]
  | cons q qs =>
      rcases List.mem_cons.1 hp with rfl | hp
      · simpa using hps q (by simp)
      · have := hps p (by simp [hp])
        omega

theorem length_of_mem_pieces {depth : Nat} {s p : List Char} (hp : p ∈ pieces depth s) :
    p.length ≤ s.length := by
  induction s generalizing depth p with
  | nil => simp_all [pieces]
  | cons c r ih =>
      rw [pieces] at hp
      split at hp
      · rcases List.mem_cons.1 hp with rfl | hp
        · simp
        · have := ih hp
          simp only [List.length_cons]
          omega
      · exact length_of_mem_extendHead (fun q hq => ih hq) hp

/-- The arguments of a segment are shorter than the segment. -/
theorem Segment.length_argument_lt {text base a : List Char} {arguments : List (List Char)}
    (h : Segment.read text = .ok (.generic base arguments)) (ha : a ∈ arguments) :
    a.length < text.length := by
  rw [Segment.read] at h
  split at h
  · split at h
    · simp at h
    · split at h <;> simp at h
  · rename_i c rest heq
    have hrest : rest.length < text.length := by
      have := (List.dropWhile_sublist (· ≠ '<') (l := text)).length_le
      rw [heq, List.length_cons] at this
      omega
    simp only at h
    split at h
    · simp at h
    · split at h
      · simp at h
      · rename_i inner after hcut
        split at h
        · simp at h
        · split at h
          · simp at h
          · simp only [Except.ok.injEq, Segment.generic.injEq] at h
            obtain ⟨-, rfl⟩ := h
            obtain ⟨p, hp, rfl⟩ := List.mem_map.1 ha
            have h1 := Text.length_trim_le p
            have h2 := length_of_mem_pieces hp
            have h3 := cutAtClose_length hcut
            omega

/-- A reference that was read, with the caveats of the parts that were not decomposed. -/
structure Reading where
  ref : TypeRef
  caveats : List Caveat
  deriving Repr

/-- Reads a trimmed segment, its arguments from left to right. -/
def readSegment (text : List Char) : Except TypeFault Reading :=
  match _h : Segment.read text with
  | .error fault => .error fault
  | .ok (.plain name) => .ok ⟨named (String.ofList name), []⟩
  | .ok (.generic base [a]) =>
      match readSegment a with
      | .error fault => .error fault
      | .ok x => .ok ⟨mk (String.ofList base) [x.ref], x.caveats⟩
  | .ok (.generic base [a, b]) =>
      match readSegment a with
      | .error fault => .error fault
      | .ok x =>
          match readSegment b with
          | .error fault => .error fault
          | .ok y => .ok ⟨mk (String.ofList base) [x.ref, y.ref], x.caveats ++ y.caveats⟩
  | .ok (.generic base arguments) =>
      .ok ⟨named (String.ofList base), [.unresolvedShape (String.ofList text) arguments.length]⟩
  termination_by text.length
  decreasing_by all_goals exact Segment.length_argument_lt ‹_› (by simp)

theorem readSegment_of_plain {s name : List Char} (h : Segment.read s = .ok (.plain name)) :
    readSegment s = .ok ⟨named (String.ofList name), []⟩ := by
  rw [readSegment]
  split <;> simp_all

theorem readSegment_of_one {s base a : List Char} {x : Reading}
    (h : Segment.read s = .ok (.generic base [a])) (ha : readSegment a = .ok x) :
    readSegment s = .ok ⟨mk (String.ofList base) [x.ref], x.caveats⟩ := by
  rw [readSegment]
  split <;> simp_all

theorem readSegment_of_two {s base a b : List Char} {x y : Reading}
    (h : Segment.read s = .ok (.generic base [a, b])) (ha : readSegment a = .ok x)
    (hb : readSegment b = .ok y) :
    readSegment s = .ok ⟨mk (String.ofList base) [x.ref, y.ref], x.caveats ++ y.caveats⟩ := by
  rw [readSegment]
  split <;> simp_all

theorem readSegment_of_many {s base a b c : List Char} {others : List (List Char)}
    (h : Segment.read s = .ok (.generic base (a :: b :: c :: others))) :
    readSegment s = .ok ⟨named (String.ofList base),
      [.unresolvedShape (String.ofList s) (a :: b :: c :: others).length]⟩ := by
  rw [readSegment]
  split <;> simp_all

/-- Every way in which a segment can be read. -/
theorem readSegment_eq_ok {s : List Char} {r : Reading} (h : readSegment s = .ok r) :
    (∃ name, Segment.read s = .ok (.plain name) ∧ r = ⟨named (String.ofList name), []⟩) ∨
      (∃ base a x, Segment.read s = .ok (.generic base [a]) ∧ readSegment a = .ok x ∧
        r = ⟨mk (String.ofList base) [x.ref], x.caveats⟩) ∨
      (∃ base a b x y, Segment.read s = .ok (.generic base [a, b]) ∧ readSegment a = .ok x ∧
        readSegment b = .ok y ∧
        r = ⟨mk (String.ofList base) [x.ref, y.ref], x.caveats ++ y.caveats⟩) ∨
      ∃ base arguments, Segment.read s = .ok (.generic base arguments) ∧
        (∀ a, arguments ≠ [a]) ∧ (∀ a b, arguments ≠ [a, b]) ∧
        r = ⟨named (String.ofList base),
          [.unresolvedShape (String.ofList s) arguments.length]⟩ := by
  rw [readSegment] at h
  split at h
  · cases h
  · next name hs =>
    cases h
    exact .inl ⟨name, hs, rfl⟩
  · next base a hs =>
    split at h
    · cases h
    · next x hx =>
      cases h
      exact .inr (.inl ⟨base, a, x, hs, hx, rfl⟩)
  · next base a b hs =>
    split at h
    · cases h
    · next x hx =>
      split at h
      · cases h
      · next y hy =>
        cases h
        exact .inr (.inr (.inl ⟨base, a, b, x, y, hs, hx, hy, rfl⟩))
  · next base arguments hone htwo hs =>
    cases h
    exact .inr (.inr (.inr ⟨base, arguments, hs, hone, htwo, rfl⟩))

def read (declaredType : String) : Except Cause Reading :=
  (readSegment (trim declaredType.toList)).mapError (.malformedType declaredType)

theorem read_of_error {declaredType : String} {fault : TypeFault}
    (h : readSegment (trim declaredType.toList) = .error fault) :
    read declaredType = .error (.malformedType declaredType fault) := by
  rw [read, h]
  rfl

theorem read_of_ok {declaredType : String} {r : Reading}
    (h : readSegment (trim declaredType.toList) = .ok r) : read declaredType = .ok r := by
  rw [read, h]
  rfl

end ProtoSchema.TypeRef
