import ProtoSchema.Json.Decode
import ProtoSchema.Proofs.Json.Rearranging

/-!
Records that are read from objects. Each member fills the part of the record that has its key,
whichever parts have been filled before; so the members may stand in any order, and the record that
comes of them tells only which of them were given. What every part keeps when it is filled holds of
every record that is read.
-/

namespace ProtoSchema.Json

variable {σ τ α : Type} {defaults : List (String × Value)}

/-! ### Values in any arrangement -/

/-- Whether a value is read as `a` in each of its arrangements. -/
def ReadsAs (defaults : List (String × Value)) (read : Node → Result α) (v : Value) (a : α) :
    Prop :=
  ∀ w, v.Rearranged defaults w → read (Node.ofValue w) = .ok a

theorem readsAs_string (s : String) : ReadsAs defaults Node.readString (.text s) s := by
  rintro w ⟨⟩
  rfl

theorem readsAs_bool (b : Bool) : ReadsAs defaults Node.readBool (.bool b) b := by
  rintro w ⟨⟩
  rfl

theorem readsAs_option {read : Node → Result α} {write : α → Value} {o : Option α}
    (hwrite : ∀ a, write a ≠ .null) (ho : ∀ a ∈ o, ReadsAs defaults read (write a) a) :
    ReadsAs defaults (Node.readOption read) (.ofOption write o) o := by
  intro w hw
  cases o with
  | none =>
      cases hw
      rfl
  | some a =>
      have hread := ho a rfl w hw
      have hpresent : w ≠ .null := by
        rintro rfl
        generalize hv : Value.ofOption write (some a) = v at hw
        cases hw
        exact hwrite a hv
      cases w with
      | null => exact absurd rfl hpresent
      | _ => exact congrArg (Except.map some) hread

theorem readsAs_list {read : Node → Result α} {write : α → Value} {as : List α}
    (has : ∀ a ∈ as, ReadsAs defaults read (write a) a) :
    ReadsAs defaults (Node.readList read) (.ofList write as) as := by
  have hitems : ∀ ws, Value.ItemsRearranged defaults (as.map write) ws →
      Node.readItems read true (Node.ofItems ws) = .ok as := by
    induction as with
    | nil =>
        rintro ws ⟨⟩
        rfl
    | cons a as ih =>
        intro ws hws
        obtain _ | ⟨hv, hvs⟩ := hws
        rw [Node.ofItems, Node.readItems, has a (List.mem_cons_self ..) _ hv]
        simp only
        rw [ih (fun b hb => has b (List.mem_cons_of_mem _ hb)) _ hvs]
  rintro w ⟨⟩
  exact hitems _ ‹_›

/-! ### Objects -/

/-- `part given` is a record of which the parts with the given keys have been read. A member fills
its slot if reading it adds its key to these. -/
def Fills (slots : List (Slot σ)) (part : (String → Bool) → σ) (k : String) (n : Node) : Prop :=
  ∃ slot, slots.find? (·.key == k) = some slot ∧ ∀ given : String → Bool, given k = false →
    slot.isFilled (part given) = false ∧
      slot.fill n (part given) = .ok (part fun l => l == k || given l)

def FillsAs (defaults : List (String × Value)) (slots : List (Slot σ))
    (part : (String → Bool) → σ) (m : String × Value) : Prop :=
  ∀ w, m.2.Rearranged defaults w → Fills slots part m.1 (.ofValue w)

def Suffices (defaults ms : List (String × Value)) (given : String → Bool) : Prop :=
  ∀ m ∈ ms, given m.1 = true ∨ m ∈ defaults

def partIf (given : Bool) (a : α) : Option α := if given then some a else none

@[simp] theorem partIf_true (a : α) : partIf true a = some a := rfl

@[simp] theorem partIf_false (a : α) : partIf false a = none := rfl

theorem getD_partIf {given : Bool} {a d : α} (h : given = true ∨ a = d) :
    (partIf given a).getD d = a := by
  rcases h with rfl | rfl
  · rfl
  · cases given <;> rfl

theorem fillsAs_of_readsAs {slots : List (Slot σ)} {part : (String → Bool) → σ} {key : String}
    {required : Bool} {get : σ → Option α} {put : σ → α → σ} {read : Node → Result α} {v : Value}
    {a : α} (hslot : slots.find? (·.key == key) = some (.of key required get put read))
    (hread : ReadsAs defaults read v a) (hget : ∀ given, get (part given) = partIf (given key) a)
    (hput : ∀ given, put (part given) a = part fun l => l == key || given l) :
    FillsAs defaults slots part (key, v) := by
  refine fun w hw => ⟨_, hslot, fun given hgiven => ⟨?_, ?_⟩⟩
  · simp [Slot.of, hget, hgiven]
  · simp [Slot.of, hread w hw, Except.map, hput]

/-- Members that fill their slots are read in any order. -/
theorem readMembers_of_fills {origin : Origin} {slots : List (Slot σ)}
    {part : (String → Bool) → σ} {ms : List (String × Value)}
    (hms : ∀ m ∈ ms, Fills slots part m.1 (.ofValue m.2)) (hnodup : (ms.map Prod.fst).Nodup)
    {given : String → Bool} (hgiven : ∀ m ∈ ms, given m.1 = false) :
    Record.readMembers origin slots true (Node.ofMembers ms) (part given) =
      .ok (part fun l => (ms.map Prod.fst).contains l || given l) := by
  induction ms generalizing given with
  | nil => simp [Node.ofMembers, Record.readMembers]
  | cons m ms ih =>
      obtain ⟨k, v⟩ := m
      rw [List.map_cons, List.nodup_cons] at hnodup
      obtain ⟨slot, hslot, hfill⟩ := hms (k, v) (List.mem_cons_self ..)
      obtain ⟨hempty, hread⟩ := hfill given (hgiven (k, v) (List.mem_cons_self ..))
      have hlater : ∀ m ∈ ms, (m.1 == k || given m.1) = false := by
        intro m hm
        have hne : m.1 ≠ k := by
          rintro rfl
          exact hnodup.1 (List.mem_map.2 ⟨m, hm, rfl⟩)
        simp [hne, hgiven m (List.mem_cons_of_mem _ hm)]
      rw [Node.ofMembers, Record.readMembers]
      simp only [hslot, hempty, hread, Bool.false_eq_true, if_false]
      rw [ih (fun m hm => hms m (List.mem_cons_of_mem _ hm)) hnodup.2 hlater]
      congr 2
      funext l
      rw [List.map_cons, List.contains_cons, Bool.or_assoc, Bool.or_left_comm]

/-- A record is read from every arrangement of its members; which of them were given depends on the
arrangement, but those that have no default were. -/
theorem exists_read_rearranged (r : Record σ) (origin : Origin) (part : (String → Bool) → σ)
    (vacant : σ) {ms : List (String × Value)} (hvacant : part (fun _ => false) = vacant)
    (hnodup : (ms.map Prod.fst).Nodup) (hfills : ∀ m ∈ ms, FillsAs defaults r.slots part m)
    (hrequired : ∀ given, Suffices defaults ms given → r.missing? (part given) = none)
    {w : Value} (hw : (Value.object ms).Rearranged defaults w) :
    ∃ given, Suffices defaults ms given ∧ r.read origin vacant (.ofValue w) = .ok (part given) := by
  cases hw with
  | @object _ ns ns' hkept hperm =>
      have hmembers : ∀ m ∈ ns', Fills r.slots part m.1 (.ofValue m.2) := by
        intro m hm
        obtain ⟨v, hv, hvw⟩ := hkept.exists_of_mem (hperm.mem_iff.2 hm)
        exact hfills (m.1, v) hv m.2 hvw
      have hkeys : (ns'.map Prod.fst).Nodup :=
        (hperm.map Prod.fst).nodup_iff.1 (hkept.sublist_keys.nodup hnodup)
      have hread : Record.readMembers origin r.slots true (Node.ofMembers ns')
          (part fun _ => false) = .ok (part fun l => (ns'.map Prod.fst).contains l || false) :=
        readMembers_of_fills hmembers hkeys fun _ _ => rfl
      have hgiven : Suffices defaults ms fun l => (ns'.map Prod.fst).contains l || false := by
        intro m hm
        refine (hkept.key_mem_or_default hm).imp_left fun hk => ?_
        simpa using (hperm.map Prod.fst).mem_iff.1 hk
      refine ⟨_, hgiven, ?_⟩
      rw [hvacant] at hread
      rw [Node.ofValue, Record.read, hread]
      simp only [hrequired _ hgiven]

/-! ### Tagged objects -/

namespace Tagged

variable {depth : Nat} {key : String} {readTag : Node → Result τ} {t : τ}

/-- Behind the tag, the members are kept as they are. -/
theorem readMembers_some {ms : List (String × Value)} (hkey : ∀ m ∈ ms, m.1 ≠ key)
    (hkeep : Node.membersKeepable depth (Node.ofMembers ms) = true) (kept : List Member) :
    readMembers depth key readTag true (Node.ofMembers ms) (some t) kept =
      .ok ⟨t, .object (kept.reverse ++ Node.ofMembers ms) true⟩ := by
  induction ms generalizing kept with
  | nil => simp [Node.ofMembers, readMembers]
  | cons m ms ih =>
      obtain ⟨k, v⟩ := m
      simp only [Node.ofMembers, Node.membersKeepable, Option.isSome_some, Bool.true_and,
        Bool.and_eq_true] at hkeep
      rw [Node.ofMembers, readMembers, if_neg (hkey (k, v) (List.mem_cons_self ..)),
        if_pos hkeep.1, ih (fun m hm => hkey m (List.mem_cons_of_mem _ hm)) hkeep.2]
      simp

/-- The tag may stand anywhere among the members. -/
theorem readMembers_of_mem {ms : List (String × Value)} (hnodup : (ms.map Prod.fst).Nodup)
    {tag : Value} (hmem : (key, tag) ∈ ms) (htag : readTag (.ofValue tag) = .ok t)
    (hkeep : Node.membersKeepable depth (Node.ofMembers ms) = true) (kept : List Member) :
    readMembers depth key readTag true (Node.ofMembers ms) none kept =
      .ok ⟨t, .object (kept.reverse ++ Node.ofMembers (ms.filter (·.1 != key))) true⟩ := by
  induction ms generalizing kept with
  | nil => cases hmem
  | cons m ms ih =>
      obtain ⟨k, v⟩ := m
      rw [List.map_cons, List.nodup_cons] at hnodup
      simp only [Node.ofMembers, Node.membersKeepable, Option.isSome_some, Bool.true_and,
        Bool.and_eq_true] at hkeep
      by_cases hk : k = key
      · subst hk
        have hlater : ∀ m ∈ ms, m.1 ≠ k := by
          rintro m hm rfl
          exact hnodup.1 (List.mem_map.2 ⟨m, hm, rfl⟩)
        have hv : v = tag := by
          rcases List.mem_cons.1 hmem with heq | hmem
          · cases heq
            rfl
          · exact absurd rfl (hlater _ hmem)
        subst hv
        have hfilter : ms.filter (·.1 != k) = ms :=
          List.filter_eq_self.2 fun m hm => by simpa using hlater m hm
        rw [Node.ofMembers, readMembers, if_pos rfl, if_neg (by simp), htag]
        simp only
        rw [readMembers_some hlater hkeep.2, List.filter_cons_of_neg (by simp), hfilter]
      · have hmem : (key, tag) ∈ ms := by
          rcases List.mem_cons.1 hmem with heq | hmem
          · cases heq
            exact absurd rfl hk
          · exact hmem
        rw [Node.ofMembers, readMembers, if_neg hk, if_pos hkeep.1, ih hnodup.2 hmem hkeep.2,
          List.filter_cons_of_pos (by simpa using hk)]
        simp [Node.ofMembers]

/-- A tagged object is read from every arrangement of its members, and what is left of it arranges
the members without the tag. -/
theorem exists_read_rearranged (expected : String) {ms : List (String × Value)} {tag : String}
    (hkeys : (key :: ms.map Prod.fst).Nodup) (htag : readTag (.text (some tag)) = .ok t)
    (hgiven : (key, .text tag) ∉ defaults)
    (hkeep : Node.membersKeepable depth (Node.ofMembers ms) = true) {w : Value}
    (hw : (Value.object ((key, .text tag) :: ms)).Rearranged defaults w) :
    ∃ rest, (Value.object ms).Rearranged defaults rest ∧
      read depth key expected readTag (.ofValue w) = .ok ⟨t, .ofValue rest⟩ := by
  have hnodup := List.nodup_cons.1 hkeys
  cases hw with
  | @object _ ns ns' hkept hperm =>
      cases hkept with
      | drop hdefault _ => exact absurd hdefault hgiven
      | @keep _ _ v _ ns hv hkept =>
          cases hv
          have hother : ∀ m ∈ ns, m.1 ≠ key := by
            rintro m hm rfl
            exact hnodup.1 (hkept.sublist_keys.mem (List.mem_map_of_mem hm))
          have hfilter : ((key, Value.text tag) :: ns).filter (·.1 != key) = ns := by
            rw [List.filter_cons_of_neg (by simp)]
            exact List.filter_eq_self.2 fun m hm => by simpa using hother m hm
          have hrest : ns.Perm (ns'.filter (·.1 != key)) := by
            have hperm' := hperm.filter (·.1 != key)
            rwa [hfilter] at hperm'
          refine ⟨.object (ns'.filter (·.1 != key)), .object hkept hrest, ?_⟩
          have hkeys' : (ns'.map Prod.fst).Nodup := by
            refine (hperm.map Prod.fst).nodup_iff.1 (List.nodup_cons.2 ⟨?_, ?_⟩)
            · intro hmem
              exact hnodup.1 (hkept.sublist_keys.mem hmem)
            · exact hkept.sublist_keys.nodup hnodup.2
          have hkeep' : Node.membersKeepable depth (Node.ofMembers ns') = true := by
            rw [Value.membersKeepable_eq_all, ← hperm.all_eq, List.all_cons,
              ← Value.membersKeepable_eq_all, hkept.membersKeepable hkeep]
            rfl
          rw [Node.ofValue, read,
            readMembers_of_mem hkeys' (hperm.mem_iff.1 (List.mem_cons_self ..)) htag hkeep']
          rfl

end Tagged

/-! ### What is read -/

theorem mismatch_ne_ok {expected : String} {n : Node} {a : α} :
    n.mismatch expected ≠ (.ok a : Result α) := by
  rw [Node.mismatch]
  split <;> rintro ⟨⟩

theorem exists_of_map_eq_ok {β : Type} {f : α → β} {r : Result α} {b : β}
    (h : r.map f = .ok b) : ∃ a, r = .ok a ∧ f a = b := by
  cases r with
  | error fault => cases h
  | ok a => exact ⟨a, rfl, Except.ok.inj h⟩

theorem exists_read_of_mem_readItems {read : Node → Result α} {closed : Bool} {ns : List Node}
    {as : List α} (h : Node.readItems read closed ns = .ok as) {a : α} (ha : a ∈ as) :
    ∃ n, read n = .ok a := by
  induction ns generalizing as with
  | nil =>
      cases closed <;> cases h
      cases ha
  | cons n ns ih =>
      rw [Node.readItems] at h
      split at h
      · cases h
      · next b hb =>
          split at h
          · cases h
          · next bs hbs =>
              cases h
              rcases List.mem_cons.1 ha with rfl | ha
              · exact ⟨n, hb⟩
              · exact ih hbs ha

/-- The items of a list that is read are read themselves. -/
theorem exists_read_of_mem_readList {read : Node → Result α} {n : Node} {as : List α}
    (h : Node.readList read n = .ok as) {a : α} (ha : a ∈ as) : ∃ n', read n' = .ok a := by
  rw [Node.readList.eq_def] at h
  split at h
  · exact exists_read_of_mem_readItems h ha
  · exact absurd h mismatch_ne_ok

theorem read_of_readOption {read : Node → Result α} {n : Node} {a : α}
    (h : Node.readOption read n = .ok (some a)) : read n = .ok a := by
  rw [Node.readOption.eq_def] at h
  split at h
  · cases h
  · obtain ⟨b, hb, hab⟩ := exists_of_map_eq_ok h
    cases hab
    exact hb

section

variable {P : σ → Prop} {origin : Origin} {closed : Bool} {st st' : σ}

theorem holds_of_readMembers {slots : List (Slot σ)}
    (hfill : ∀ slot ∈ slots, ∀ n st st', P st → slot.fill n st = .ok st' → P st')
    {ms : List Member} (hst : P st)
    (h : Record.readMembers origin slots closed ms st = .ok st') : P st' := by
  fun_induction Record.readMembers origin slots closed ms st with
  | case1 st _ => cases h; exact hst
  | case2 | case3 | case5 | case6 | case7 => cases h
  | case4 st k n ms hslot hn ih => exact ih hst h
  | case8 k n ms st slot hslot hempty st₁ hread ih =>
      exact ih (hfill slot (List.mem_of_find?_eq_some hslot) n st st₁ hst hread) h

theorem holds_of_readItems {r : Record σ} {count : Nat} {slots : List (Slot σ)}
    (hfill : ∀ slot ∈ slots, ∀ n st st', P st → slot.fill n st = .ok st' → P st')
    {ns : List Node} (hst : P st)
    (h : r.readItems origin closed count slots ns st = .ok st') : P st' := by
  induction slots generalizing count ns st with
  | nil =>
      cases ns with
      | nil =>
          cases closed <;> cases h
          exact hst
      | cons n ns => cases origin <;> cases h
  | cons slot slots ih =>
      have hlater := fun s hs => hfill s (List.mem_cons_of_mem _ hs)
      cases ns with
      | nil =>
          rw [Record.readItems] at h
          split at h
          · cases h
          · split at h
            · cases h
            · exact ih hlater hst h
      | cons n ns =>
          rw [Record.readItems] at h
          split at h
          · cases h
          · next st₁ hread =>
              exact ih hlater (hfill slot (List.mem_cons_self ..) n st st₁ hst hread) h

/-- What holds of the vacant record, and is kept when a slot is filled, holds of every record that
is read. -/
theorem holds_of_read {r : Record σ} {vacant : σ} (hvacant : P vacant)
    (hfill : ∀ slot ∈ r.slots, ∀ n st st', P st → slot.fill n st = .ok st' → P st') {n : Node}
    (h : r.read origin vacant n = .ok st) : P st := by
  rw [Record.read.eq_def] at h
  split at h
  · split at h
    · cases h
    · next st₁ hread =>
        split at h
        · cases h
        · cases h
          exact holds_of_readMembers hfill hvacant hread
  · exact holds_of_readItems hfill hvacant h
  · exact absurd h mismatch_ne_ok

end

end ProtoSchema.Json
