/-!
White space as Unicode defines it, and trimming by it.
-/

namespace ProtoSchema.Text

/-- The ranges of the Unicode property White_Space. -/
def blankRanges : List (Nat × Nat) :=
  [(0x09, 0x0D), (0x20, 0x20), (0x85, 0x85), (0xA0, 0xA0), (0x1680, 0x1680), (0x2000, 0x200A),
    (0x2028, 0x2029), (0x202F, 0x202F), (0x205F, 0x205F), (0x3000, 0x3000)]

def isBlank (c : Char) : Bool :=
  blankRanges.any fun r => r.1 ≤ c.toNat && c.toNat ≤ r.2

def trimStart (s : List Char) : List Char := s.dropWhile isBlank

def trimEnd (s : List Char) : List Char := (s.reverse.dropWhile isBlank).reverse

def trim (s : List Char) : List Char := trimEnd (trimStart s)

def trimmed (s : String) : String := String.ofList (trim s.toList)

@[simp] theorem trim_nil : trim [] = [] := rfl

theorem length_trim_le (s : List Char) : (trim s).length ≤ s.length := by
  have h : (trim s).length ≤ (trimStart s).length := by
    simpa [trim, trimEnd] using
      (List.dropWhile_sublist isBlank (l := (trimStart s).reverse)).length_le
  exact Nat.le_trans h (List.dropWhile_sublist isBlank).length_le

/-- Whether a text is white space throughout. It may be empty. -/
def AllBlank (s : List Char) : Prop := ∀ c ∈ s, isBlank c = true

instance (s : List Char) : Decidable (AllBlank s) :=
  List.decidableBAll (fun c => isBlank c = true) s

theorem allBlank_nil : AllBlank [] := by simp [AllBlank]

theorem trim_append_left {l : List Char} (hl : AllBlank l) (s : List Char) :
    trim (l ++ s) = trim s := by
  rw [trim, trimStart, List.dropWhile_append_of_pos hl]
  rfl

theorem trimEnd_append {r : List Char} (hr : AllBlank r) (s : List Char) :
    trimEnd (s ++ r) = trimEnd s := by
  have hreverse : ∀ c ∈ r.reverse, isBlank c = true := fun c hc => hr c (List.mem_reverse.1 hc)
  rw [trimEnd, List.reverse_append, List.dropWhile_append_of_pos hreverse]
  rfl

theorem trim_append_right {r : List Char} (hr : AllBlank r) (s : List Char) :
    trim (s ++ r) = trim s := by
  have hnil : (r ++ []).dropWhile isBlank = [] := List.dropWhile_append_of_pos hr
  rw [List.append_nil] at hnil
  rw [trim, trim, trimStart, trimStart, List.dropWhile_append]
  cases hs : s.dropWhile isBlank with
  | nil => simp [hnil]
  | cons c cs => simpa using trimEnd_append hr (c :: cs)

theorem trimStart_eq_append (s : List Char) :
    trimStart s = trim s ++ ((trimStart s).reverse.takeWhile isBlank).reverse := by
  rw [trim, trimEnd, ← List.reverse_append, List.takeWhile_append_dropWhile, List.reverse_reverse]

/-- What trimming takes off is white space. -/
theorem exists_append_trim (s : List Char) :
    ∃ before after, AllBlank before ∧ AllBlank after ∧ s = before ++ trim s ++ after := by
  have hstart : s = s.takeWhile isBlank ++ trimStart s := by
    rw [trimStart, List.takeWhile_append_dropWhile]
  have hblank : ∀ t : List Char, AllBlank (t.takeWhile isBlank) := fun t =>
    List.all_eq_true.1 List.all_takeWhile
  refine ⟨s.takeWhile isBlank, ((trimStart s).reverse.takeWhile isBlank).reverse, hblank s, ?_, ?_⟩
  · intro c hc
    exact hblank (trimStart s).reverse c (List.mem_reverse.1 hc)
  · rw [List.append_assoc, ← trimStart_eq_append]
    exact hstart

theorem mem_of_mem_trim {s : List Char} {c : Char} (hc : c ∈ trim s) : c ∈ s := by
  obtain ⟨before, after, -, -, hs⟩ := exists_append_trim s
  rw [hs]
  exact List.mem_append_left _ (List.mem_append_right _ hc)

/-- A character that is no white space is not trimmed away. -/
theorem mem_trim {s : List Char} {c : Char} (hc : c ∈ s) (hink : isBlank c = false) :
    c ∈ trim s := by
  obtain ⟨before, after, hbefore, hafter, hs⟩ := exists_append_trim s
  rw [hs, List.mem_append, List.mem_append] at hc
  obtain (hc | hc) | hc := hc
  · rw [hbefore c hc] at hink
    cases hink
  · exact hc
  · rw [hafter c hc] at hink
    cases hink

theorem trim_ne_nil {s : List Char} {c : Char} (hc : c ∈ s) (hink : isBlank c = false) :
    trim s ≠ [] := List.ne_nil_of_mem (mem_trim hc hink)

/-- A text that neither starts nor ends with white space is left as it is. -/
theorem trim_eq_self {s : List Char} (hfirst : ∀ c ∈ s.head?, isBlank c = false)
    (hlast : ∀ c ∈ s.getLast?, isBlank c = false) : trim s = s := by
  have hdrop : ∀ t : List Char, (∀ c ∈ t.head?, isBlank c = false) → t.dropWhile isBlank = t := by
    intro t ht
    cases t with
    | nil => rfl
    | cons c t => simp [ht c rfl]
  rw [trim, trimStart, hdrop s hfirst, trimEnd, hdrop s.reverse (by simpa using hlast),
    List.reverse_reverse]

/-- A text that is trimmed does not begin with white space. -/
theorem isBlank_head?_trim {s : List Char} {c : Char} (hc : c ∈ (trim s).head?) :
    isBlank c = false := by
  have hstart : c ∈ (trimStart s).head? := by
    rw [trimStart_eq_append, List.head?_append, Option.mem_def.1 hc]
    rfl
  have hfirst := List.head?_dropWhile_not isBlank s
  rw [← trimStart, Option.mem_def.1 hstart] at hfirst
  simpa using hfirst

/-- A text that is trimmed does not end with white space. -/
theorem isBlank_getLast?_trim {s : List Char} {c : Char} (hc : c ∈ (trim s).getLast?) :
    isBlank c = false := by
  rw [trim, trimEnd, List.getLast?_reverse] at hc
  have hlast := List.head?_dropWhile_not isBlank (trimStart s).reverse
  rw [Option.mem_def.1 hc] at hlast
  simpa using hlast

@[simp] theorem trim_trim (s : List Char) : trim (trim s) = trim s :=
  trim_eq_self (fun _ hc => isBlank_head?_trim hc) fun _ hc => isBlank_getLast?_trim hc

end ProtoSchema.Text
