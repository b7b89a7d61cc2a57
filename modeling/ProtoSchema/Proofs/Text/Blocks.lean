import ProtoSchema.Text.Parts
import Mathlib.Data.List.Basic

/-!
Texts that are written block by block. Where each block can be told from what follows it, and a text
that no block begins comes after the last one, the whole text says which blocks it consists of.
-/

namespace ProtoSchema.Text

variable {α β : Type} {P : α → Prop} {f : α → List Char} {g : α → β} {r r' : List Char}

/-- Whether blocks can be told from what follows them. Two things with the property `P` whose blocks
begin the same text have the same `g`, and the same text follows. -/
def TellsBlocks (P : α → Prop) (f : α → List Char) (g : α → β) : Prop :=
  ∀ ⦃a b : α⦄ ⦃r r' : List Char⦄, P a → P b → f a ++ r = f b ++ r' → g a = g b ∧ r = r'

/-- Whether a text begins with no block of something with the property `P`. -/
def NoBlock (P : α → Prop) (f : α → List Char) (r : List Char) : Prop :=
  ∀ a s, P a → f a ++ s ≠ r

/-- A row of blocks can be told from a text that no block begins. -/
theorem TellsBlocks.flatMap (hf : TellsBlocks P f g) {as bs : List α} (has : ∀ a ∈ as, P a)
    (hbs : ∀ b ∈ bs, P b) (hr : NoBlock P f r) (hr' : NoBlock P f r')
    (h : as.flatMap f ++ r = bs.flatMap f ++ r') : as.map g = bs.map g ∧ r = r' := by
  induction as generalizing bs with
  | nil =>
      cases bs with
      | nil => exact ⟨rfl, h⟩
      | cons b bs =>
          rw [List.flatMap_cons, List.append_assoc] at h
          exact absurd h.symm (hr b _ (hbs b (List.mem_cons_self ..)))
  | cons a as ih =>
      have ha : P a := has a (List.mem_cons_self ..)
      cases bs with
      | nil =>
          rw [List.flatMap_cons, List.append_assoc] at h
          exact absurd h (hr' a _ ha)
      | cons b bs =>
          rw [List.flatMap_cons, List.flatMap_cons, List.append_assoc, List.append_assoc] at h
          obtain ⟨hhead, htail⟩ := hf ha (hbs b (List.mem_cons_self ..)) h
          obtain ⟨hmap, hrest⟩ := ih (fun x hx => has x (List.mem_cons_of_mem _ hx))
            (fun x hx => hbs x (List.mem_cons_of_mem _ hx)) htail
          exact ⟨by rw [List.map_cons, List.map_cons, hhead, hmap], hrest⟩

/-! ### Lines -/

structure IsLine (l : List Char) (c : Char) : Prop where
  unbroken : '\n' ∉ l
  last : l.getLast? = some c

theorem isLine_concat {s : List Char} {c : Char} (hs : '\n' ∉ s) (hc : '\n' ≠ c) :
    IsLine (s ++ [c]) c := by
  constructor
  · simp [hs, hc]
  · rw [List.getLast?_concat]

/-- Texts that begin with the same line go on with the same text. -/
theorem IsLine.append_inj {l l' : List Char} {c c' : Char} (hl : IsLine l c) (hl' : IsLine l' c')
    (h : l ++ '\n' :: r = l' ++ '\n' :: r') : l = l' ∧ r = r' :=
  append_sep_inj hl.unbroken hl'.unbroken h

/-- Lines with different last characters begin different texts. -/
theorem IsLine.append_ne {l l' : List Char} {c c' : Char} (hl : IsLine l c) (hl' : IsLine l' c')
    (hc : c ≠ c') : l ++ '\n' :: r ≠ l' ++ '\n' :: r' := by
  intro h
  obtain ⟨rfl, -⟩ := hl.append_inj hl' h
  exact hc (Option.some.inj (hl.last.symm.trans hl'.last))

end ProtoSchema.Text
