import ProtoSchema.Proofs.FieldType.Leaves

/-!
Identifiers, dotted identifiers and the schema types over them: which characters stand in them, and
hence that neither blanks nor line ends are hidden in a name.
-/

namespace ProtoSchema

def isWordChar (c : Char) : Bool := c.isAlphanum || c == '_'

def IsWord (s : String) : Prop := ∀ c ∈ s.toList, isWordChar c = true

def IsDottedWord (s : String) : Prop := ∀ c ∈ s.toList, isWordChar c = true ∨ c = '.'

instance (s : String) : Decidable (IsWord s) :=
  List.decidableBAll (fun c => isWordChar c = true) s.toList

instance (s : String) : Decidable (IsDottedWord s) :=
  List.decidableBAll (fun c => isWordChar c = true ∨ c = '.') s.toList

/-- A schema type of a reference whose leaves are named by dotted identifiers. -/
def IsSchemaType (s : String) : Prop :=
  ∃ (pool : EnumPool) (t : TypeRef), (∀ n ∈ t.leafNames, IsDottedWord n) ∧ s = t.schemaType pool

theorem toNat_of_isWordChar {c : Char} (hc : isWordChar c = true) :
    48 ≤ c.toNat ∧ c.toNat ≤ 122 := by
  have hupper : c.isUpper = true → 65 ≤ c.toNat ∧ c.toNat ≤ 90 := fun h => of_decide_eq_true h
  have hlower : c.isLower = true → 97 ≤ c.toNat ∧ c.toNat ≤ 122 := fun h =>
    ((Bool.and_eq_true _ _).mp h).imp of_decide_eq_true of_decide_eq_true
  have hdigit : c.isDigit = true → 48 ≤ c.toNat ∧ c.toNat ≤ 57 := fun h =>
    ((Bool.and_eq_true _ _).mp h).imp of_decide_eq_true of_decide_eq_true
  have hcases : (((c.isUpper || c.isLower) || c.isDigit) || c == '_') = true := hc
  simp only [Bool.or_eq_true, beq_iff_eq] at hcases
  obtain ((hc | hc) | hc) | rfl := hcases
  · have hrange := hupper hc
    omega
  · have hrange := hlower hc
    omega
  · have hrange := hdigit hc
    omega
  · decide

theorem notMem_of_isWord {s : String} {c : Char} (hs : IsWord s) (hc : isWordChar c = false) :
    c ∉ s.toList := by
  intro h
  rw [hs c h] at hc
  cases hc

theorem notMem_of_isDottedWord {s : String} {c : Char} (hs : IsDottedWord s)
    (hc : isWordChar c = false) (hdot : c ≠ '.') : c ∉ s.toList := by
  intro h
  rcases hs c h with hword | rfl
  · rw [hword] at hc
    cases hc
  · exact hdot rfl

theorem Category.isDottedWord_schemaType (c : Category) : IsDottedWord c.schemaType := by
  cases c with
  | scalar s => cases s <;> decide +kernel
  | wellKnown w => cases w <;> decide +kernel
  | calendarPeriod => decide +kernel

theorem TypeRef.isDottedWord_leafSchemaType (pool : EnumPool) {n : String} (hn : IsDottedWord n) :
    IsDottedWord (leafSchemaType pool n) := by
  rw [leafSchemaType]
  split
  · exact hn
  · split
    · exact Category.isDottedWord_schemaType _
    · exact hn

/-- A schema type is written on one line. -/
theorem newline_notMem_of_isSchemaType {s : String} (hs : IsSchemaType s) : '\n' ∉ s.toList := by
  obtain ⟨pool, t, ht, rfl⟩ := hs
  induction t using TypeRef.leafNames.induct with
  | case1 t element hshape ih =>
      rw [TypeRef.leafNames_of_repeated hshape] at ht
      simpa [TypeRef.schemaType_of_repeated hshape] using ih ht
  | case2 t key value hshape ihkey ihvalue =>
      simp only [TypeRef.leafNames_of_map hshape, List.mem_append] at ht
      have hkey := ihkey fun n hn => ht n (.inl hn)
      have hvalue := ihvalue fun n hn => ht n (.inr hn)
      simp [TypeRef.schemaType_of_map hshape, hkey, hvalue]
  | case3 t n hshape =>
      have hn : IsDottedWord n := ht n (by simp [TypeRef.leafNames_of_leaf hshape])
      rw [TypeRef.schemaType_of_leaf hshape]
      exact notMem_of_isDottedWord (TypeRef.isDottedWord_leafSchemaType pool hn) (by decide)
        (by decide)

theorem isDigit_of_mem_toString {n : Nat} {c : Char} (hc : c ∈ (toString n).toList) :
    c.isDigit = true := by
  rw [Nat.toString_eq_repr, Nat.toList_repr] at hc
  exact Nat.isDigit_of_mem_toDigits (by decide) (by decide) hc

theorem eq_of_toList_toString_eq {m n : Nat} (h : (toString m).toList = (toString n).toList) :
    m = n := by
  have hdigits : Nat.toDigits 10 m = Nat.toDigits 10 n := by simpa using h
  calc
    m = Nat.ofDigitChars 10 (Nat.toDigits 10 m) 0 := Nat.ofDigitChars_ten_toDigits.symm
    _ = Nat.ofDigitChars 10 (Nat.toDigits 10 n) 0 := by rw [hdigits]
    _ = n := Nat.ofDigitChars_ten_toDigits

end ProtoSchema
