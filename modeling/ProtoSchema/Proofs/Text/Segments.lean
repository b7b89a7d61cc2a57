import ProtoSchema.Text.Dotted
import Mathlib.Data.List.TakeWhile

/-!
Dotted names by their segments. One name is a tail of another exactly where its segments are the
last segments of the other, and this is so too where segments are empty. The simple name is the last
segment.
-/

namespace ProtoSchema.Text

theorem joinDots_segments (s : List Char) : joinDots (segments s) = s := intercalate_parts '.' s

theorem segments_append_dot (s t : List Char) :
    segments (s ++ '.' :: t) = segments s ++ segments t := parts_append_sep '.' s t

theorem joinDots_cons {s : List Char} {ss : List (List Char)} (h : ss ≠ []) :
    joinDots (s :: ss) = s ++ '.' :: joinDots ss := by
  rw [joinDots, List.intercalate_cons_of_ne_nil h, List.append_assoc]
  rfl

theorem joinDots_append {ss ts : List (List Char)} (hs : ss ≠ []) (ht : ts ≠ []) :
    joinDots (ss ++ ts) = joinDots ss ++ '.' :: joinDots ts := by
  induction ss with
  | nil => exact absurd rfl hs
  | cons s ss ih =>
      by_cases hss : ss = []
      · rw [hss, List.singleton_append, joinDots_cons ht]
        simp [joinDots]
      · have hne : ss ++ ts ≠ [] := List.append_ne_nil_of_left_ne_nil hss ts
        rw [List.cons_append, joinDots_cons hne, joinDots_cons hss, ih hss, List.append_assoc]
        rfl

/-- A name that is put together from others has their segments. -/
theorem segments_joinDots {ss : List (List Char)} (h : ss ≠ []) :
    segments (joinDots ss) = ss.flatMap segments := by
  induction ss with
  | nil => exact absurd rfl h
  | cons s ss ih =>
      by_cases hss : ss = []
      · simp [hss, joinDots]
      · rw [joinDots_cons hss, segments_append_dot, ih hss, List.flatMap_cons]

/-- The segments of a name are the last ones of another exactly where the other is the name itself
or has it after one of its dots. -/
theorem segments_suffix_iff {s t : List Char} :
    segments s <:+ segments t ↔ s = t ∨ '.' :: s <:+ t := by
  constructor
  · rintro ⟨ss, hss⟩
    have hjoin : joinDots (ss ++ segments s) = t := by rw [hss, joinDots_segments]
    by_cases hempty : ss = []
    · left
      rwa [hempty, List.nil_append, joinDots_segments] at hjoin
    · right
      rw [joinDots_append hempty (segments_ne_nil s), joinDots_segments] at hjoin
      exact ⟨joinDots ss, hjoin⟩
  · rintro (rfl | ⟨before, rfl⟩)
    · exact List.suffix_rfl
    · rw [segments_append_dot]
      exact List.suffix_append _ _

theorem isTail_iff_segments {short long : String} :
    isTail short long = true ↔ segments short.toList <:+ segments long.toList := by
  rw [isTail_iff, segments_suffix_iff, String.toList_inj]

/-- What stands before the last dot does not count for the simple name. -/
theorem simpleName_qualified (qualifier name : String) :
    simpleName (qualifier ++ "." ++ name) = simpleName name := by
  have hstop : ∀ s t : List Char,
      (s ++ '.' :: t).takeWhile (· ≠ '.') = s.takeWhile (· ≠ '.') := by
    intro s t
    induction s with
    | nil => simp
    | cons c s ih =>
        by_cases hc : c = '.'
        · simp [hc]
        · simpa [hc] using ih
  have htext : (qualifier ++ "." ++ name).toList.reverse =
      name.toList.reverse ++ '.' :: qualifier.toList.reverse := by simp
  rw [simpleName, simpleName, htext, hstop]

theorem simpleName_of_notMem {name : String} (h : '.' ∉ name.toList) : simpleName name = name := by
  have hall : name.toList.reverse.takeWhile (· ≠ '.') = name.toList.reverse := by
    rw [List.takeWhile_eq_self_iff]
    intro c hc
    simpa using ne_of_mem_of_not_mem (List.mem_reverse.1 hc) h
  rw [simpleName, hall, List.reverse_reverse, String.ofList_toList]

def lastSegment (name : String) : String :=
  String.ofList ((segments name.toList).getLast (segments_ne_nil _))

theorem simpleName_eq_lastSegment (name : String) : simpleName name = lastSegment name := by
  let first := (segments name.toList).dropLast
  let last := (segments name.toList).getLast (segments_ne_nil _)
  have hdot : '.' ∉ (String.ofList last).toList := by
    rw [String.toList_ofList]
    exact sep_notMem_of_mem_parts (List.getLast_mem _)
  have hjoin : joinDots (first ++ [last]) = name.toList := by
    rw [List.dropLast_concat_getLast, joinDots_segments]
  change simpleName name = String.ofList last
  by_cases hfirst : first = []
  · have hname : name = String.ofList last := by
      rw [← String.toList_inj, ← hjoin, hfirst, String.toList_ofList]
      simp [joinDots]
    rw [hname, simpleName_of_notMem hdot]
  · have hname : name = String.ofList (joinDots first) ++ "." ++ String.ofList last := by
      rw [← String.toList_inj, ← hjoin, joinDots_append hfirst (List.cons_ne_nil _ _)]
      simp [joinDots]
    rw [hname, simpleName_qualified, simpleName_of_notMem hdot]

end ProtoSchema.Text
