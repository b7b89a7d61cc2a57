import ProtoSchema.Proofs.Text.Encoded
import Mathlib.Data.List.Lex

/-!
The order of texts is that of their bytes. Texts are compared character by character; their
encodings are compared byte by byte, and come out in the same order, since a larger character is
encoded by a larger first byte, or by as many bytes with larger digits.
-/

namespace ProtoSchema.Text

/-- The bytes of a character hold the digits of its number to the base 64, and the first of them
tells how many there are. -/
theorem utf8EncodeChar_cases (c : Char) :
    let v := c.toNat
    (v ≤ 0x7F ∧ String.utf8EncodeChar c = [.ofNat v]) ∨
      (0x7F < v ∧ v ≤ 0x7FF ∧
        String.utf8EncodeChar c = [.ofNat (v / 64 + 192), .ofNat (v % 64 + 128)]) ∨
      (0x7FF < v ∧ v ≤ 0xFFFF ∧
        String.utf8EncodeChar c =
          [.ofNat (v / 4096 + 224), .ofNat (v / 64 % 64 + 128), .ofNat (v % 64 + 128)]) ∨
      (0xFFFF < v ∧ v < 0x110000 ∧
        String.utf8EncodeChar c =
          [.ofNat (v / 262144 + 240), .ofNat (v / 4096 % 64 + 128), .ofNat (v / 64 % 64 + 128),
            .ofNat (v % 64 + 128)]) := by
  intro v
  have hbound : v < 0x110000 := by
    obtain h | h := c.valid
    · exact Nat.lt_trans h (by decide)
    · exact h.2
  rw [String.utf8EncodeChar, show c.val.toNat = v from rfl]
  by_cases h1 : v ≤ 0x7F
  · exact .inl ⟨h1, if_pos h1⟩
  · right
    rw [if_neg h1]
    by_cases h2 : v ≤ 0x7FF
    · left
      rw [if_pos h2, Nat.mod_eq_of_lt (show v / 64 < 32 by omega)]
      exact ⟨Nat.not_le.1 h1, h2, rfl⟩
    · right
      rw [if_neg h2]
      by_cases h3 : v ≤ 0xFFFF
      · left
        rw [if_pos h3, Nat.mod_eq_of_lt (show v / 4096 < 16 by omega)]
        exact ⟨Nat.not_le.1 h2, h3, rfl⟩
      · right
        rw [if_neg h3, Nat.mod_eq_of_lt (show v / 262144 < 8 by omega)]
        exact ⟨Nat.not_le.1 h3, hbound, rfl⟩

/-- A smaller character comes first, whatever follows. -/
theorem utf8EncodeChar_append_lt {c d : Char} (h : c < d) (s t : List UInt8) :
    String.utf8EncodeChar c ++ s < String.utf8EncodeChar d ++ t := by
  have hlt : c.toNat < d.toNat := UInt32.lt_iff_toNat_lt.1 (Char.lt_def.1 h)
  obtain ⟨hc, hbytes⟩ | ⟨hc, hc', hbytes⟩ | ⟨hc, hc', hbytes⟩ | ⟨hc, hc', hbytes⟩ :=
    utf8EncodeChar_cases c
  all_goals
    obtain ⟨hd, hbytes'⟩ | ⟨hd, hd', hbytes'⟩ | ⟨hd, hd', hbytes'⟩ | ⟨hd, hd', hbytes'⟩ :=
      utf8EncodeChar_cases d
  -- The ranges of the first bytes are disjoint, and numbers of the same length differ in a digit.
  all_goals
    rw [hbytes, hbytes']
    simp (disch := omega) only [List.cons_append, List.nil_append, List.cons_lt_cons_iff,
      UInt8.lt_iff_toNat_lt, ← UInt8.toNat_inj, UInt8.toNat_ofNat', Nat.mod_eq_of_lt]
    omega

theorem encode_lt_encode {cs ds : List Char} (h : cs < ds) : encode cs < encode ds := by
  induction cs generalizing ds with
  | nil =>
      cases ds with
      | nil => cases h
      | cons d ds =>
          have hne : String.utf8EncodeChar d ≠ [] := String.utf8EncodeChar_ne_nil
          obtain ⟨b, bs, hb⟩ := List.exists_cons_of_ne_nil hne
          rw [encode_nil, encode_cons, hb]
          exact List.nil_lt_cons _ _
  | cons c cs ih =>
      cases ds with
      | nil => cases h
      | cons d ds =>
          rw [encode_cons, encode_cons]
          obtain hlt | ⟨rfl, hrest⟩ := List.cons_lt_cons_iff.1 h
          · exact utf8EncodeChar_append_lt hlt _ _
          · exact List.Lex.append_left _ (ih hrest) _

/-- The bytes of texts come in the order of the texts. -/
theorem toUTF8_lt_toUTF8 {s t : String} (h : s < t) : s.toUTF8.toList < t.toUTF8.toList := by
  rw [String.toUTF8_eq_toByteArray, String.toUTF8_eq_toByteArray, toList_toByteArray,
    toList_toByteArray]
  exact encode_lt_encode h

end ProtoSchema.Text
