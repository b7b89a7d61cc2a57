import ProtoSchema.Proofs.Text.Segments
import ProtoSchema.Proofs.Report.EnumFiles

/-!
Which enum a reference names. Among the enums of a run it is the first whose qualified name ends
with the segments of the reference. The enums nested in the declaration that makes the reference
come before those of the run, and none of these can take their place.
-/

namespace ProtoSchema

open Text (segments isTail)

def IsFirst {α : Type} (P : α → Prop) (xs : List α) (x : α) : Prop :=
  ∃ earlier later, xs = earlier ++ x :: later ∧ P x ∧ ∀ y ∈ earlier, ¬P y

section

variable {α : Type} {p : α → Bool} {P : α → Prop} {xs : List α}

theorem find?_eq_some_iff_isFirst (hp : ∀ x, p x = true ↔ P x) {x : α} :
    xs.find? p = some x ↔ IsFirst P xs x := by
  rw [List.find?_eq_some_iff_append, IsFirst, hp]
  simp only [Bool.not_eq_true', ← Bool.not_eq_true, hp]
  constructor
  · rintro ⟨hx, earlier, later, hxs, hearlier⟩
    exact ⟨earlier, later, hxs, hx, hearlier⟩
  · rintro ⟨earlier, later, hxs, hx, hearlier⟩
    exact ⟨hx, earlier, later, hxs, hearlier⟩

theorem find?_eq_none_iff_forall (hp : ∀ x, p x = true ↔ P x) :
    xs.find? p = none ↔ ∀ x ∈ xs, ¬P x := by
  simp only [List.find?_eq_none, hp]

end

/-! ### Enums of the run -/

namespace PooledEnum

/-- Whether the segments of a reference are the last segments of the qualified name of an enum. -/
def EndsWith (e : PooledEnum) (reference : String) : Prop :=
  segments reference.toList <:+ segments e.qualifiedName.toList

variable (e : PooledEnum)

/-- A qualified name has a package that is not empty, then the enclosing type, then the own name,
with dots between them. -/
theorem qualifiedName_eq :
    e.qualifiedName =
      e.package.elim "" (fun package => if package = "" then "" else package ++ ".") ++
        e.declaration.enclosingType.elim "" (· ++ ".") ++ e.declaration.name := by
  obtain ⟨⟨name, enclosing, constants⟩, package⟩ := e
  cases package with
  | none => cases enclosing <;> simp [qualifiedName, nameParts]
  | some package =>
      by_cases hempty : package = ""
      · cases enclosing <;> simp [qualifiedName, nameParts, Option.filter, hempty]
      · cases enclosing <;>
          simp [qualifiedName, nameParts, Option.filter, hempty, String.append_assoc]

/-- The segments of a qualified name are those of its parts, however many dots these have. -/
theorem segments_qualifiedName :
    segments e.qualifiedName.toList = e.nameParts.flatMap fun part => segments part.toList := by
  have hparts : e.nameParts.map String.toList ≠ [] := by simp [nameParts]
  have hjoin : e.qualifiedName.toList = Text.joinDots (e.nameParts.map String.toList) :=
    String.toList_intercalate
  rw [hjoin, Text.segments_joinDots hparts, List.flatMap_map]

theorem endsWith_name : e.EndsWith e.declaration.name := by
  rw [EndsWith, segments_qualifiedName, nameParts, List.flatMap_append, List.flatMap_singleton]
  exact List.suffix_append _ _

theorem isNamedBy_iff_endsWith (reference : String) :
    e.isNamedBy reference = true ↔ e.EndsWith reference := by
  rw [isNamedBy, Bool.or_eq_true, beq_iff_eq, Text.isTail_iff_segments]
  constructor
  -- The own name needs no look at the segments: it is the last part of the qualified name.
  · rintro (rfl | htail)
    · exact e.endsWith_name
    · exact htail
  · exact .inr

end PooledEnum

/-- An enum of a unit is in its place there. -/
theorem exists_enumPlace_of_enums {u : SourceUnit} {preceding following : List EnumDeclaration}
    {d : EnumDeclaration} (h : u.enums = preceding ++ d :: following) (after : List SourceUnit) :
    ∃ p : EnumPlace, p.units = u :: after ∧ p.earlier = preceding.map (⟨·, u.package⟩) ∧
      p.entry = ⟨d, u.package⟩ := by
  cases hholder : u.primary with
  | none => simp [SourceUnit.enums, hholder] at h
  | some holder =>
      rw [SourceUnit.enums_of_primary hholder] at h
      exact ⟨⟨[], u, after, holder, preceding, d, following, hholder, h⟩, rfl, rfl, rfl⟩

/-- Every enum in the pool has its place in one of the units. -/
theorem exists_enumPlace {units : List SourceUnit} {earlier later : List PooledEnum}
    {e : PooledEnum} (h : (EnumPool.ofUnits units).entries = earlier ++ e :: later) :
    ∃ p : EnumPlace, p.units = units ∧ p.earlier = earlier ∧ p.entry = e := by
  induction units generalizing earlier with
  | nil => simp [EnumPool.ofUnits] at h
  | cons u units ih =>
      have hunits : u.enums.map (⟨·, u.package⟩) ++ (EnumPool.ofUnits units).entries =
          earlier ++ e :: later := h
      have hlater : ∀ rest, earlier = u.enums.map (⟨·, u.package⟩) ++ rest →
          (EnumPool.ofUnits units).entries = rest ++ e :: later →
            ∃ p : EnumPlace, p.units = u :: units ∧ p.earlier = earlier ∧ p.entry = e := by
        rintro rest rfl hrest
        obtain ⟨p, rfl, rfl, rfl⟩ := ih hrest
        refine ⟨{ p with before := u :: p.before }, rfl, ?_, rfl⟩
        simp [EnumPlace.earlier, EnumPool.ofUnits]
      -- The enum is one of the first unit unless all enums of that come before it.
      obtain ⟨rest, hearlier, hrest⟩ | ⟨rest, hown, hrest⟩ := List.append_eq_append_iff.1 hunits
      · exact hlater rest hearlier hrest
      · cases rest with
        | nil => exact hlater [] (by simpa using hown.symm) (by simpa using hrest.symm)
        | cons e' rest =>
            obtain ⟨rfl, -⟩ := List.cons.inj hrest
            obtain ⟨preceding, others, hlisted, rfl, hothers⟩ := List.map_eq_append_iff.1 hown
            obtain ⟨d, following, rfl, rfl, -⟩ := List.map_eq_cons_iff.1 hothers
            exact exists_enumPlace_of_enums hlisted units

/-- A reference names an enum where its segments are the last of the qualified name. The lookup
finds the first such enum, as units and the enums in a unit follow one another, and fails only where
there is none. -/
theorem lookup_finds_first_ending (units : List SourceUnit) (reference : String) :
    let pool := EnumPool.ofUnits units
    (∀ e : PooledEnum, e.isNamedBy reference = true ↔
        segments reference.toList <:+ segments e.qualifiedName.toList) ∧
      (∀ e, pool.lookup? reference = some e ↔
        ∃ p : EnumPlace, p.units = units ∧ p.entry = e ∧ p.entry.EndsWith reference ∧
          ∀ e' ∈ p.earlier, ¬e'.EndsWith reference) ∧
      (pool.lookup? reference = none ↔
        ∀ u ∈ units, ∀ d ∈ u.enums, ¬(⟨d, u.package⟩ : PooledEnum).EndsWith reference) := by
  intro pool
  have hnamed : ∀ e : PooledEnum, e.isNamedBy reference = true ↔ e.EndsWith reference :=
    fun e => e.isNamedBy_iff_endsWith reference
  refine ⟨hnamed, fun e => ?_, ?_⟩
  · rw [EnumPool.lookup?, find?_eq_some_iff_isFirst hnamed]
    constructor
    · rintro ⟨earlier, later, hentries, hends, hearlier⟩
      obtain ⟨p, hunits, rfl, rfl⟩ := exists_enumPlace hentries
      exact ⟨p, hunits, rfl, hends, hearlier⟩
    · rintro ⟨p, rfl, rfl, hends, hearlier⟩
      exact ⟨p.earlier, p.later, p.entries_pool, hends, hearlier⟩
  · rw [EnumPool.lookup?, find?_eq_none_iff_forall hnamed]
    simp only [pool, EnumPool.ofUnits, List.forall_mem_flatMap, List.forall_mem_map]

/-- The enum `Status` of an order has a qualified name of four segments, each tail of which finds
it. Another enum of its name, which has an empty package, comes too late. -/
theorem lookup_finds_first_ending_status :
    let status : EnumDeclaration := ⟨"Status", some "Order", ["NEW"]⟩
    let order : TypeDeclaration :=
      { name := "Order", kind := .classKind, nestedEnums := [status] }
    let units : List SourceUnit := [
      { package := some "com.acme", primary := some (.type order) },
      { package := some "", primary := some (.enum { name := "Status" }) }]
    let pool := EnumPool.ofUnits units
    pool.entries.map PooledEnum.qualifiedName = ["com.acme.Order.Status", "Status"] ∧
      (∀ n ∈ ["Status", "Order.Status", "acme.Order.Status", "com.acme.Order.Status"],
        pool.lookup? n = some ⟨status, some "com.acme"⟩) ∧
      pool.lookup? "rder.Status" = none := by
  intro status order units pool
  let p : EnumPlace :=
    { before := [], unit := { package := some "com.acme", primary := some (.type order) }
      after := [{ package := some "", primary := some (.enum { name := "Status" }) }]
      holder := .type order, preceding := [], enum := status, following := [], holds := rfl
      listed := rfl }
  have hends : ∀ n ∈ ["Status", "Order.Status", "acme.Order.Status", "com.acme.Order.Status"],
      segments n.toList <:+ segments p.entry.qualifiedName.toList := by decide +kernel
  have hmissing : ∀ u ∈ units, ∀ d ∈ u.enums, ¬segments "rder.Status".toList <:+
      segments (⟨d, u.package⟩ : PooledEnum).qualifiedName.toList := by decide +kernel
  refine ⟨by decide +kernel, fun n hn => ?_, (lookup_finds_first_ending units _).2.2.2 hmissing⟩
  refine ((lookup_finds_first_ending units n).2.1 _).2 ⟨p, rfl, rfl, hends n hn, ?_⟩
  rintro e ⟨⟩

/-! ### Own enums -/

namespace TypeDeclaration

/-- Whether a reference names an enum as one that is nested in a declaration: by the name of the
enum, or with the segments of both names at its end. -/
def NamesOwn (d : TypeDeclaration) (reference : String) (e : EnumDeclaration) : Prop :=
  reference = e.name ∨
    segments d.name.toList ++ segments e.name.toList <:+ segments reference.toList

theorem namesOwn_iff (d : TypeDeclaration) (reference : String) (e : EnumDeclaration) :
    (e.name == reference || isTail (d.name ++ "." ++ e.name) reference) = true ↔
      d.NamesOwn reference e := by
  have hsegments : segments (d.name ++ "." ++ e.name).toList =
      segments d.name.toList ++ segments e.name.toList := by
    rw [← Text.segments_append_dot]
    simp
  rw [NamesOwn, Bool.or_eq_true, beq_iff_eq, Text.isTail_iff_segments, hsegments, eq_comm]

end TypeDeclaration

/-- The enum that a declaration takes for its own is the first of those nested in it that the
reference names as such, and a reference to an own enum imports nothing, whatever enums are in the
pool. -/
theorem own_enum_is_first_named (d : TypeDeclaration) (reference : String) :
    (∀ e, d.nestedEnum? reference = some e ↔
        IsFirst (d.NamesOwn reference) d.nestedEnums e) ∧
      (d.nestedEnum? reference = none ↔ ∀ e ∈ d.nestedEnums, ¬d.NamesOwn reference e) ∧
      ((d.nestedEnum? reference).isSome = true →
        ∀ pool : EnumPool, importFor pool d reference = none) := by
  have hnamed := d.namesOwn_iff reference
  refine ⟨fun e => find?_eq_some_iff_isFirst hnamed, find?_eq_none_iff_forall hnamed, ?_⟩
  intro hown pool
  exact if_pos hown

/-- An order has an enum `Status` of its own. The pool has another enum of this name, which it finds
first and which every other declaration imports. -/
theorem own_enum_is_first_named_status :
    let order : TypeDeclaration :=
      { name := "Order", kind := .classKind, nestedEnums := [⟨"Status", some "Order", ["NEW"]⟩] }
    let invoice : TypeDeclaration := { name := "Invoice", kind := .classKind }
    let status : EnumDeclaration := { name := "Status", constants := ["OPEN"] }
    let pool := EnumPool.ofUnits [.ofEnum status, .ofType order]
    (order.nestedEnum? "Status").isSome = true ∧ pool.lookup? "Status" = some ⟨status, none⟩ ∧
      importFor pool invoice "Status" = some "Status.proto" ∧
      importFor pool order "Status" = none := by
  intro order invoice status pool
  have hown : (order.nestedEnum? "Status").isSome = true := by decide +kernel
  have hshadow := (own_enum_is_first_named order "Status").2.2 hown pool
  exact ⟨hown, by decide +kernel, by decide +kernel, hshadow⟩

end ProtoSchema
