import ProtoSchema.Proofs.Json.Scanning

/-!
Values that say the same. The members of an object may stand in any order, and one that has its
default may be left out. A value is read as another then if all its rearrangements are.
-/

namespace ProtoSchema.Json

namespace Value

mutual

/-- `v.Rearranged defaults w` says that `w` is `v` with the members of its objects in any order, and
with some of those left out that are listed as defaults. -/
inductive Rearranged (defaults : List (String × Value)) : Value → Value → Prop
  | null : Rearranged defaults null null
  | bool (b : Bool) : Rearranged defaults (bool b) (bool b)
  | number (n : Numeral) : Rearranged defaults (number n) (number n)
  | text (s : String) : Rearranged defaults (text s) (text s)
  | array {vs ws : List Value} : ItemsRearranged defaults vs ws →
      Rearranged defaults (array vs) (array ws)
  | object {ms ns ns' : List (String × Value)} : MembersKept defaults ms ns → ns.Perm ns' →
      Rearranged defaults (object ms) (object ns')

inductive ItemsRearranged (defaults : List (String × Value)) : List Value → List Value → Prop
  | nil : ItemsRearranged defaults [] []
  | cons {v w : Value} {vs ws : List Value} : Rearranged defaults v w →
      ItemsRearranged defaults vs ws → ItemsRearranged defaults (v :: vs) (w :: ws)

inductive MembersKept (defaults : List (String × Value)) :
    List (String × Value) → List (String × Value) → Prop
  | nil : MembersKept defaults [] []
  | keep {k : String} {v w : Value} {ms ns : List (String × Value)} : Rearranged defaults v w →
      MembersKept defaults ms ns → MembersKept defaults ((k, v) :: ms) ((k, w) :: ns)
  | drop {k : String} {v : Value} {ms ns : List (String × Value)} : (k, v) ∈ defaults →
      MembersKept defaults ms ns → MembersKept defaults ((k, v) :: ms) ns

end

variable {defaults : List (String × Value)}

mutual

theorem Rearranged.rfl : ∀ v : Value, v.Rearranged defaults v
  | .null => .null
  | .bool b => .bool b
  | .number n => .number n
  | .text s => .text s
  | .array vs => .array (ItemsRearranged.rfl vs)
  | .object ms => .object (MembersKept.rfl ms) (.refl ms)

theorem ItemsRearranged.rfl : ∀ vs : List Value, ItemsRearranged defaults vs vs
  | [] => .nil
  | v :: vs => .cons (Rearranged.rfl v) (ItemsRearranged.rfl vs)

theorem MembersKept.rfl : ∀ ms : List (String × Value), MembersKept defaults ms ms
  | [] => .nil
  | (_, v) :: ms => .keep (Rearranged.rfl v) (MembersKept.rfl ms)

end

/-! ### Members -/

section

variable {ms ns : List (String × Value)}

theorem MembersKept.exists_of_mem (h : MembersKept defaults ms ns) {k : String} {w : Value}
    (hw : (k, w) ∈ ns) : ∃ v, (k, v) ∈ ms ∧ v.Rearranged defaults w := by
  induction ms generalizing ns with
  | nil =>
      cases h
      cases hw
  | cons m ms ih =>
      cases h with
      | keep hv hms =>
          rcases List.mem_cons.1 hw with heq | hw
          · cases heq
            exact ⟨_, List.mem_cons_self .., hv⟩
          · obtain ⟨v, hv, hvw⟩ := ih hms hw
            exact ⟨v, List.mem_cons_of_mem _ hv, hvw⟩
      | drop _ hms =>
          obtain ⟨v, hv, hvw⟩ := ih hms hw
          exact ⟨v, List.mem_cons_of_mem _ hv, hvw⟩

/-- A member that is not left out keeps its key. -/
theorem MembersKept.key_mem_or_default (h : MembersKept defaults ms ns) {k : String} {v : Value}
    (hv : (k, v) ∈ ms) : k ∈ ns.map Prod.fst ∨ (k, v) ∈ defaults := by
  induction ms generalizing ns with
  | nil => cases hv
  | cons m ms ih =>
      cases h with
      | keep _ hms =>
          rcases List.mem_cons.1 hv with heq | hv
          · cases heq
            exact .inl (List.mem_cons_self ..)
          · exact (ih hms hv).imp_left (List.mem_cons_of_mem _)
      | drop hdefault hms =>
          rcases List.mem_cons.1 hv with heq | hv
          · cases heq
            exact .inr hdefault
          · exact ih hms hv

theorem MembersKept.sublist_keys (h : MembersKept defaults ms ns) :
    (ns.map Prod.fst).Sublist (ms.map Prod.fst) := by
  induction ms generalizing ns with
  | nil =>
      cases h
      exact .slnil
  | cons m ms ih =>
      cases h with
      | keep _ hms => exact (ih hms).cons_cons _
      | drop _ hms => exact (ih hms).cons _

end

/-! ### What rearranging preserves -/

theorem areWorded_eq_all (vs : List Value) : areWorded vs = vs.all isWorded := by
  induction vs with
  | nil => rfl
  | cons v vs ih => rw [areWorded, ih, List.all_cons]

theorem areKeepable_eq_all (depth : Nat) (vs : List Value) :
    Node.areKeepable depth (Node.ofItems vs) =
      vs.all fun v => (Node.ofValue v).isKeepable depth := by
  induction vs with
  | nil => rfl
  | cons v vs ih => rw [Node.ofItems, Node.areKeepable, ih, List.all_cons]

theorem membersWorded_eq_all (ms : List (String × Value)) :
    membersWorded ms = ms.all fun m => m.2.isWorded := by
  induction ms with
  | nil => rfl
  | cons m ms ih => rw [membersWorded, ih, List.all_cons]

theorem membersKeepable_eq_all (depth : Nat) (ms : List (String × Value)) :
    Node.membersKeepable depth (Node.ofMembers ms) =
      ms.all fun m => (Node.ofValue m.2).isKeepable depth := by
  induction ms with
  | nil => rfl
  | cons m ms ih => rw [Node.ofMembers, Node.membersKeepable, ih, List.all_cons, Option.isSome_some,
      Bool.true_and]

mutual

theorem Rearranged.isWorded {v w : Value} (h : v.Rearranged defaults w) (hv : v.isWorded = true) :
    w.isWorded = true := by
  match v, w, h with
  | _, _, .null | _, _, .bool b | _, _, .text s => rfl
  | _, _, .number n => cases hv
  | .array vs, .array ws, .array hvs => exact hvs.areWorded hv
  | .object ms, .object ns', .object hms hperm =>
      have hns := hms.membersWorded hv
      rw [membersWorded_eq_all, hperm.all_eq, ← membersWorded_eq_all] at hns
      exact hns

theorem ItemsRearranged.areWorded {vs ws : List Value} (h : ItemsRearranged defaults vs ws)
    (hvs : areWorded vs = true) : areWorded ws = true := by
  match vs, ws, h with
  | _, _, .nil => rfl
  | v :: vs, w :: ws, .cons hv hrest =>
      simp only [Value.areWorded, Bool.and_eq_true] at hvs ⊢
      exact ⟨hv.isWorded hvs.1, hrest.areWorded hvs.2⟩

theorem MembersKept.membersWorded {ms ns : List (String × Value)}
    (h : MembersKept defaults ms ns) (hms : membersWorded ms = true) :
    membersWorded ns = true := by
  match ms, ns, h with
  | _, _, .nil => rfl
  | (k, v) :: ms, (_, w) :: ns, .keep hv hrest =>
      simp only [Value.membersWorded, Bool.and_eq_true] at hms ⊢
      exact ⟨hv.isWorded hms.1, hrest.membersWorded hms.2⟩
  | (k, v) :: ms, ns, .drop _ hrest =>
      simp only [Value.membersWorded, Bool.and_eq_true] at hms
      exact hrest.membersWorded hms.2

end

mutual

theorem Rearranged.isKeepable {v w : Value} (h : v.Rearranged defaults w) {depth : Nat}
    (hv : (Node.ofValue v).isKeepable depth = true) :
    (Node.ofValue w).isKeepable depth = true := by
  match v, w, h with
  | _, _, .null | _, _, .bool b | _, _, .text s | _, _, .number n => exact hv
  | .array vs, .array ws, .array hvs =>
      simp only [Node.ofValue, Node.isKeepable, Bool.and_true, Bool.and_eq_true] at hv ⊢
      exact ⟨hv.1, hvs.areKeepable hv.2⟩
  | .object ms, .object ns', .object hms hperm =>
      simp only [Node.ofValue, Node.isKeepable, Bool.and_true, Bool.and_eq_true] at hv ⊢
      have hns := hms.membersKeepable hv.2
      rw [membersKeepable_eq_all, hperm.all_eq, ← membersKeepable_eq_all] at hns
      exact ⟨hv.1, hns⟩

theorem ItemsRearranged.areKeepable {vs ws : List Value} (h : ItemsRearranged defaults vs ws)
    {depth : Nat} (hvs : Node.areKeepable depth (Node.ofItems vs) = true) :
    Node.areKeepable depth (Node.ofItems ws) = true := by
  match vs, ws, h with
  | _, _, .nil => rfl
  | v :: vs, w :: ws, .cons hv hrest =>
      simp only [Node.ofItems, Node.areKeepable, Bool.and_eq_true] at hvs ⊢
      exact ⟨hv.isKeepable hvs.1, hrest.areKeepable hvs.2⟩

theorem MembersKept.membersKeepable {ms ns : List (String × Value)}
    (h : MembersKept defaults ms ns) {depth : Nat}
    (hms : Node.membersKeepable depth (Node.ofMembers ms) = true) :
    Node.membersKeepable depth (Node.ofMembers ns) = true := by
  match ms, ns, h with
  | _, _, .nil => rfl
  | (k, v) :: ms, (_, w) :: ns, .keep hv hrest =>
      simp only [Node.ofMembers, Node.membersKeepable, Bool.and_eq_true] at hms ⊢
      exact ⟨⟨hms.1.1, hv.isKeepable hms.1.2⟩, hrest.membersKeepable hms.2⟩
  | (k, v) :: ms, ns, .drop _ hrest =>
      simp only [Node.ofMembers, Node.membersKeepable, Bool.and_eq_true] at hms
      exact hrest.membersKeepable hms.2

end

end Value

end ProtoSchema.Json
