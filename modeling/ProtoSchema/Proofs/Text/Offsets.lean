import Mathlib.Data.String.Basic

/-!
Texts by byte offsets. A character stands at the offset where its bytes begin, and characters differ
in the number of their bytes. A part of a text can be taken by two offsets if characters begin or
the text ends there; an offset inside a character, or behind the end, gives nothing.
-/

namespace ProtoSchema.Text

open String (utf8Len)

/-- The characters of a text with the offsets at which they stand, the first one at `offset`. -/
def withOffsets (offset : Nat) : List Char → List (Nat × Char)
  | [] => []
  | c :: s => (offset, c) :: withOffsets (offset + c.utf8Size) s

def offsetOf? (x : Char) (text : String) : Option Nat :=
  ((withOffsets 0 text.toList).find? fun p => p.2 = x).map Prod.fst

/-- The part of a text from one offset up to another. Both have to lie on the bounds of characters.
-/
def slice? (text : String) (first last : Nat) : Option String :=
  if first ≤ last ∧ String.Pos.Raw.IsValid text ⟨first⟩ ∧
      String.Pos.Raw.IsValid text ⟨last⟩ then
    some (String.Pos.Raw.extract text ⟨first⟩ ⟨last⟩)
  else none

/-- The characters that stand at offsets from `first` to `last`, the last one included. -/
def charsBetween (text : String) (first last : Nat) : List Char :=
  ((withOffsets 0 text.toList).filter fun p => first ≤ p.1 ∧ p.1 ≤ last).map Prod.snd

/-! ### Offsets -/

theorem withOffsets_append (offset : Nat) (s t : List Char) :
    withOffsets offset (s ++ t) = withOffsets offset s ++ withOffsets (offset + utf8Len s) t := by
  induction s generalizing offset with
  | nil => rfl
  | cons c s ih =>
      have hsize : offset + c.utf8Size + utf8Len s = offset + utf8Len (c :: s) := by
        rw [String.utf8Len_cons]
        omega
      rw [List.cons_append, withOffsets, withOffsets, ih, hsize, List.cons_append]

theorem map_snd_withOffsets (offset : Nat) (s : List Char) :
    (withOffsets offset s).map Prod.snd = s := by
  induction s generalizing offset with
  | nil => rfl
  | cons c s ih => rw [withOffsets, List.map_cons, ih]

/-- A character stands behind the bytes of those before it, and it has bytes of its own. -/
theorem bounds_of_mem_withOffsets {offset : Nat} {s : List Char} {p : Nat × Char}
    (hp : p ∈ withOffsets offset s) : offset ≤ p.1 ∧ p.1 < offset + utf8Len s := by
  induction s generalizing offset with
  | nil => cases hp
  | cons c s ih =>
      have hsize := c.utf8Size_pos
      rw [String.utf8Len_cons]
      obtain rfl | hp := List.mem_cons.1 hp
      · dsimp only
        omega
      · have := ih hp
        omega

theorem dropWhile_withOffsets (s t : List Char) :
    (withOffsets 0 (s ++ t)).dropWhile (fun p => p.1 < utf8Len s) =
      withOffsets (utf8Len s) t := by
  have hbefore : ∀ p ∈ withOffsets 0 s, decide (p.1 < utf8Len s) = true := by
    intro p hp
    have := (bounds_of_mem_withOffsets hp).2
    exact decide_eq_true (by omega)
  rw [withOffsets_append, List.dropWhile_append_of_pos hbefore, Nat.zero_add]
  cases t with
  | nil => rfl
  | cons c t => rw [withOffsets, List.dropWhile_cons_of_neg (by simp)]

theorem find?_withOffsets_of_notMem {x : Char} {s : List Char} (hx : x ∉ s) (offset : Nat) :
    (withOffsets offset s).find? (fun p => p.2 = x) = none := by
  rw [List.find?_eq_none]
  intro p hp
  have hmem : p.2 ∈ s := by
    rw [← map_snd_withOffsets offset s]
    exact List.mem_map_of_mem hp
  simpa using fun h : p.2 = x => hx (h ▸ hmem)

theorem offsetOf?_of_notMem {x : Char} {text : String} (hx : x ∉ text.toList) :
    offsetOf? x text = none := by
  rw [offsetOf?, find?_withOffsets_of_notMem hx]
  rfl

theorem offsetOf?_of_append {x : Char} {text : String} {s t : List Char} (hx : x ∉ s)
    (htext : text.toList = s ++ x :: t) : offsetOf? x text = some (utf8Len s) := by
  rw [offsetOf?, htext, withOffsets_append, List.find?_append, find?_withOffsets_of_notMem hx,
    withOffsets]
  simp

/-- What stands before the first occurrence of a character does not have it. -/
theorem exists_append_of_offsetOf? {x : Char} {text : String} {offset : Nat}
    (h : offsetOf? x text = some offset) :
    ∃ s t, text.toList = s ++ x :: t ∧ x ∉ s ∧ offset = utf8Len s := by
  by_cases hx : x ∈ text.toList
  · obtain ⟨s, t, htext, hs⟩ := List.eq_append_cons_of_mem hx
    rw [offsetOf?_of_append hs htext, Option.some.injEq] at h
    exact ⟨s, t, htext, hs, h.symm⟩
  · rw [offsetOf?_of_notMem hx] at h
    cases h

/-! ### Parts -/

theorem utf8ByteSize_eq {text : String} {s : List Char} (htext : text.toList = s) :
    text.utf8ByteSize = utf8Len s := by
  rw [← htext, ← String.utf8ByteSize_ofList, String.ofList_toList]

/-- The bytes of some characters at the beginning of a text end on the bound of a character. -/
theorem isValid_utf8Len (s t : List Char) :
    String.Pos.Raw.IsValid (String.ofList (s ++ t)) ⟨utf8Len s⟩ := by
  rw [String.Pos.Raw.isValid_iff_exists_append]
  exact ⟨String.ofList s, String.ofList t, String.ofList_append, (String.rawEndPos_ofList s).symm⟩

theorem slice?_of_append {text : String} {s m t : List Char} (htext : text.toList = s ++ m ++ t) :
    slice? text (utf8Len s) (utf8Len s + utf8Len m) = some (String.ofList m) := by
  have hfirst := isValid_utf8Len s (m ++ t)
  have hlast := isValid_utf8Len (s ++ m) t
  rw [← List.append_assoc] at hfirst
  rw [String.utf8Len_append] at hlast
  rw [← String.ofList_toList (s := text), htext, slice?,
    if_pos ⟨Nat.le_add_right _ _, hfirst, hlast⟩, String.extract_of_valid]

section

variable {text : String} {s m t : List Char} {last : Nat}

theorem charsBetween_of_append (htext : text.toList = s ++ t) (last : Nat) :
    charsBetween text (utf8Len s) last =
      ((withOffsets (utf8Len s) t).filter fun p => p.1 ≤ last).map Prod.snd := by
  have hbefore : (withOffsets 0 s).filter
      (fun p => decide (utf8Len s ≤ p.1 ∧ p.1 ≤ last)) = [] := by
    rw [List.filter_eq_nil_iff]
    intro p hp
    have := (bounds_of_mem_withOffsets hp).2
    simp only [decide_eq_true_eq]
    omega
  have hafter : (withOffsets (utf8Len s) t).filter
      (fun p => decide (utf8Len s ≤ p.1 ∧ p.1 ≤ last)) =
        (withOffsets (utf8Len s) t).filter fun p => decide (p.1 ≤ last) := by
    refine List.filter_congr fun p hp => ?_
    have := (bounds_of_mem_withOffsets hp).1
    simp [this]
  rw [charsBetween, htext, withOffsets_append, Nat.zero_add, List.filter_append, hbefore, hafter,
    List.nil_append]

theorem filter_withOffsets_eq_nil {offset : Nat} (hlast : last < offset) :
    (withOffsets offset s).filter (fun p => p.1 ≤ last) = [] := by
  rw [List.filter_eq_nil_iff]
  intro p hp
  have := (bounds_of_mem_withOffsets hp).1
  simp only [decide_eq_true_eq]
  omega

/-- Characters that stand before an offset are at the beginning. -/
theorem filter_withOffsets_prefix (offset last : Nat) (s : List Char) :
    ((withOffsets offset s).filter fun p => p.1 ≤ last).map Prod.snd <+: s := by
  induction s generalizing offset with
  | nil => exact List.nil_prefix
  | cons c s ih =>
      by_cases hc : offset ≤ last
      · have hrest := ih (offset + c.utf8Size)
        rw [withOffsets, List.filter_cons_of_pos (by simpa using hc), List.map_cons]
        exact List.cons_prefix_cons.2 ⟨rfl, hrest⟩
      · rw [filter_withOffsets_eq_nil (Nat.lt_of_not_le hc)]
        exact List.nil_prefix

/-- Nothing behind the last offset counts. -/
theorem filter_withOffsets_append {offset : Nat} (hlast : last < offset + utf8Len m) :
    (withOffsets offset (m ++ t)).filter (fun p => p.1 ≤ last) =
      (withOffsets offset m).filter fun p => p.1 ≤ last := by
  rw [withOffsets_append, List.filter_append, filter_withOffsets_eq_nil hlast, List.append_nil]

theorem charsBetween_prefix (htext : text.toList = s ++ (m ++ t))
    (hlast : last < utf8Len s + utf8Len m) : charsBetween text (utf8Len s) last <+: m := by
  rw [charsBetween_of_append htext, filter_withOffsets_append hlast]
  exact filter_withOffsets_prefix _ _ _

theorem charsBetween_prefix_rest (htext : text.toList = s ++ t) (last : Nat) :
    charsBetween text (utf8Len s) last <+: t := by
  rw [charsBetween_of_append htext]
  exact filter_withOffsets_prefix _ _ _

theorem charsBetween_ne_nil {c : Char} (htext : text.toList = s ++ c :: t)
    (hlast : utf8Len s ≤ last) : charsBetween text (utf8Len s) last ≠ [] := by
  rw [charsBetween_of_append htext, withOffsets, List.filter_cons_of_pos (by simpa using hlast)]
  simp

/-- Up to a character and with it. -/
theorem charsBetween_concat {c : Char} (htext : text.toList = s ++ (m ++ c :: t)) :
    charsBetween text (utf8Len s) (utf8Len s + utf8Len m) = m ++ [c] := by
  have hsize := c.utf8Size_pos
  have hlast : utf8Len s + utf8Len m < utf8Len s + utf8Len (m ++ [c]) := by
    rw [String.utf8Len_append, String.utf8Len_cons]
    omega
  have hall : (withOffsets (utf8Len s) (m ++ [c])).filter
      (fun p => p.1 ≤ utf8Len s + utf8Len m) = withOffsets (utf8Len s) (m ++ [c]) := by
    rw [List.filter_eq_self, withOffsets_append]
    intro p hp
    obtain hp | hp := List.mem_append.1 hp
    · have := (bounds_of_mem_withOffsets hp).2
      exact decide_eq_true (by omega)
    · rw [withOffsets, withOffsets, List.mem_singleton] at hp
      simp [hp]
  rw [show m ++ c :: t = (m ++ [c]) ++ t by simp] at htext
  rw [charsBetween_of_append htext, filter_withOffsets_append hlast, hall, map_snd_withOffsets]

end

end ProtoSchema.Text
