import ProtoSchema.Proofs.Report.Plan
import Mathlib.Data.List.Induction

/-!
What becomes of each declaration of a run: it is refused or becomes a draft, which is a message or
an enum ready to be written. The declarations before it matter through their names alone, and no two
drafts of a run have the same name.
-/

namespace ProtoSchema

/-- The elements of a list, each with those before it. -/
def withEarlier {α : Type} : List α → List (List α × α)
  | [] => []
  | x :: xs => ([], x) :: (withEarlier xs).map fun q => (x :: q.1, q.2)

@[simp] theorem length_withEarlier {α : Type} (xs : List α) :
    (withEarlier xs).length = xs.length := by
  induction xs with
  | nil => rfl
  | cons x xs ih => simp [withEarlier, ih]

theorem withEarlier_append {α : Type} (xs ys : List α) :
    withEarlier (xs ++ ys) = withEarlier xs ++ (withEarlier ys).map fun q => (xs ++ q.1, q.2) := by
  induction xs with
  | nil => simp [withEarlier]
  | cons x xs ih => simp [withEarlier, ih, Function.comp_def]

theorem withEarlier_append_singleton {α : Type} (xs : List α) (x : α) :
    withEarlier (xs ++ [x]) = withEarlier xs ++ [(xs, x)] := by
  simp [withEarlier_append, withEarlier]

/-- A list is cut before each of its elements, and nowhere else. -/
theorem mem_withEarlier {α : Type} {xs earlier : List α} {x : α} :
    (earlier, x) ∈ withEarlier xs ↔ ∃ later, xs = earlier ++ x :: later := by
  induction xs generalizing earlier with
  | nil => simp [withEarlier]
  | cons y ys ih =>
      cases earlier with
      | nil => simp [withEarlier, eq_comm]
      -- The head is not the element before which this cut is made, so the cut is one of the rest.
      | cons z zs =>
          simp only [withEarlier, List.mem_cons, List.mem_map, Prod.mk.injEq, reduceCtorEq,
            false_and, false_or, Prod.exists, List.cons.injEq, List.cons_append]
          constructor
          · rintro ⟨b, c, hb, ⟨rfl, rfl⟩, rfl⟩
            obtain ⟨later, rfl⟩ := ih.1 hb
            exact ⟨later, rfl, rfl⟩
          · rintro ⟨later, rfl, rfl⟩
            exact ⟨zs, x, ih.2 ⟨later, rfl⟩, ⟨rfl, rfl⟩, rfl⟩

/-! ### Declarations that count -/

def SourceUnit.emitted? (u : SourceUnit) : Option Primary := u.primary.filter Primary.isEmitted

/-- The declarations of which messages and top-level enums come, in the order of the units. -/
def emittedDeclarations (units : List SourceUnit) : List Primary :=
  units.filterMap SourceUnit.emitted?

theorem emittedDeclarations_eq (units : List SourceUnit) :
    emittedDeclarations units = (units.filterMap SourceUnit.primary).filter Primary.isEmitted := by
  rw [List.filter_filterMap]
  rfl

theorem emittedDeclarations_append_cons {u : SourceUnit} {p : Primary} (h : u.emitted? = some p)
    (before after : List SourceUnit) :
    emittedDeclarations (before ++ u :: after) =
      emittedDeclarations before ++ p :: emittedDeclarations after := by
  rw [emittedDeclarations, List.filterMap_append, List.filterMap_cons, h]
  rfl

theorem emittedDeclarations_cons (u : SourceUnit) (units : List SourceUnit) :
    emittedDeclarations (u :: units) = u.emitted?.toList ++ emittedDeclarations units := by
  cases h : u.emitted? <;> simp [emittedDeclarations, h]

theorem SourceUnit.emitted?_eq_some {u : SourceUnit} {p : Primary} :
    u.emitted? = some p ↔ u.primary = some p ∧ p.isEmitted = true := by
  simp [SourceUnit.emitted?, Option.filter_eq_some_iff]

theorem SourceUnit.emitted?_eq_none {u : SourceUnit} :
    u.emitted? = none ↔ ∀ p, u.primary = some p → p.IsPlainInterface := by
  cases hu : u.primary with
  | none => simp [SourceUnit.emitted?, hu]
  | some p =>
      simp only [SourceUnit.emitted?, hu, Option.filter_eq_none_iff, Option.some.injEq,
        Bool.not_eq_true, forall_eq', ← Primary.isEmitted_eq_false_iff]

theorem name_mem_declaredNames {units : List SourceUnit} {p : Primary}
    (hp : p ∈ emittedDeclarations units) : p.name ∈ declaredNames units := by
  obtain ⟨u, hu, hup⟩ := List.mem_filterMap.1 hp
  refine List.mem_filterMap.2 ⟨u, hu, ?_⟩
  simp [SourceUnit.primaryName?, (SourceUnit.emitted?_eq_some.1 hup).1]

/-! ### Drafts -/

inductive Draft where
  | message (plan : MessagePlan)
  | enum (declaration : EnumDeclaration)

namespace Draft

def name : Draft → String
  | message p => p.declaration.name
  | enum e => e.name

def isMessage : Draft → Bool
  | message _ => true
  | enum _ => false

def imports : Draft → NameSet
  | message p => p.imports
  | enum _ => .empty

def body : Draft → String
  | message p => p.render
  | enum e => Document.enum e

def caveats : Draft → List Caveat
  | message p => p.caveats
  | enum _ => []

section

variable (plan : MessagePlan) (e : EnumDeclaration)

@[simp] theorem name_message : (message plan).name = plan.declaration.name := rfl
@[simp] theorem name_enum : (enum e).name = e.name := rfl
@[simp] theorem isMessage_message : (message plan).isMessage = true := rfl
@[simp] theorem isMessage_enum : (enum e).isMessage = false := rfl
@[simp] theorem imports_message : (message plan).imports = plan.imports := rfl
@[simp] theorem imports_enum : (enum e).imports = .empty := rfl
@[simp] theorem body_message : (message plan).body = plan.render := rfl
@[simp] theorem body_enum : (enum e).body = Document.enum e := rfl
@[simp] theorem caveats_message : (message plan).caveats = plan.caveats := rfl
@[simp] theorem caveats_enum : (enum e).caveats = [] := rfl

end

end Draft

structure DocumentPlan where
  fileName : String
  imports : NameSet
  body : String

def DocumentPlan.document (package : Option String) (p : DocumentPlan) : Document :=
  ⟨p.fileName, Document.header package p.imports ++ p.body⟩

def Draft.documentPlan (d : Draft) : DocumentPlan := ⟨schemaFileName d.name, d.imports, d.body⟩

/-- Why a declaration is refused that comes after those in `earlier`: its name is taken, or a schema
field of it cannot be read. -/
def refusal? (excluded : List String) (earlier : List Primary) (p : Primary) : Option Cause :=
  if p.name ∈ earlier.map Primary.name then some (.duplicateName p.name)
  else
    match p with
    | .type t => (t.keptFields excluded).findSome? Field.fault?
    | .enum _ => none

def refusals (excluded : List String) (ps : List Primary) : List Failure :=
  (withEarlier ps).filterMap fun q => (refusal? excluded q.1 q.2).map (Failure.mk q.2.name)

namespace Assembler

variable (a : Assembler)

def draft : Primary → Except Cause Draft
  | .type t => (a.plan t).map .message
  | .enum e => .ok (.enum e)

def outcome (earlier : List Primary) (p : Primary) : Except Cause Draft :=
  if p.name ∈ earlier.map Primary.name then .error (.duplicateName p.name) else a.draft p

def drafts (ps : List Primary) : List Draft :=
  (withEarlier ps).filterMap fun q => (a.outcome q.1 q.2).toOption

variable {a} {ps : List Primary} {p : Primary} {d : Draft} {cause : Cause}

theorem outcome_of_mem (h : p.name ∈ ps.map Primary.name) :
    a.outcome ps p = .error (.duplicateName p.name) := if_pos h

theorem outcome_of_notMem (h : p.name ∉ ps.map Primary.name) : a.outcome ps p = a.draft p :=
  if_neg h

theorem draft_type_eq_ok {t : TypeDeclaration} :
    a.draft (.type t) = .ok d ↔ ∃ plan, a.plan t = .ok plan ∧ d = .message plan := by
  rw [draft]
  cases a.plan t <;> simp [Except.map, eq_comm]

theorem outcome_eq_ok :
    a.outcome ps p = .ok d ↔ p.name ∉ ps.map Primary.name ∧ a.draft p = .ok d := by
  by_cases hn : p.name ∈ ps.map Primary.name
  · simp [outcome_of_mem hn, hn]
  · simp [outcome_of_notMem hn, hn]

/-- A declaration is refused for the reason that its fields and the names before it give. -/
theorem outcome_eq_error :
    a.outcome ps p = .error cause ↔ refusal? a.config.excludeFields ps p = some cause := by
  -- A taken name is the reason even where the fields cannot be read either.
  by_cases hn : p.name ∈ ps.map Primary.name
  · simp [outcome_of_mem hn, refusal?, hn]
  · simp only [outcome_of_notMem hn, refusal?, hn, if_false]
    cases p with
    | type t =>
        rw [← plan_eq_error, draft]
        cases a.plan t <;> simp [Except.map]
    | enum e => simp [draft]

theorem refusal?_of_ok (ho : a.outcome ps p = .ok d) :
    refusal? a.config.excludeFields ps p = none := by
  cases h : refusal? a.config.excludeFields ps p with
  | none => rfl
  | some cause => simp [outcome_eq_error.2 h] at ho

/-- What a message draft is planned from. -/
theorem plan_of_outcome {t : TypeDeclaration} (ho : a.outcome ps (.type t) = .ok d) :
    ∃ plan, a.plan t = .ok plan ∧ d = .message plan :=
  draft_type_eq_ok.1 (outcome_eq_ok.1 ho).2

theorem enum_of_outcome {e : EnumDeclaration} (ho : a.outcome ps (.enum e) = .ok d) :
    d = .enum e :=
  (Except.ok.inj (outcome_eq_ok.1 ho).2).symm

/-- A draft has the name of the declaration it comes of. -/
theorem name_of_outcome (ho : a.outcome ps p = .ok d) : d.name = p.name := by
  cases p with
  | type t =>
      obtain ⟨plan, hplan, rfl⟩ := plan_of_outcome ho
      obtain ⟨-, -, -, hdecl, -⟩ := plan_eq_ok hplan
      rw [Draft.name_message, hdecl, Primary.name_type]
  | enum e => rw [enum_of_outcome ho, Draft.name_enum, Primary.name_enum]

theorem drafts_of_error (ho : a.outcome ps p = .error cause) :
    a.drafts (ps ++ [p]) = a.drafts ps := by
  simp [drafts, withEarlier_append_singleton, ho, Except.toOption]

theorem drafts_of_ok (ho : a.outcome ps p = .ok d) :
    a.drafts (ps ++ [p]) = a.drafts ps ++ [d] := by
  simp [drafts, withEarlier_append_singleton, ho, Except.toOption]

theorem refusals_of_error (ho : a.outcome ps p = .error cause) :
    refusals a.config.excludeFields (ps ++ [p]) =
      refusals a.config.excludeFields ps ++ [⟨p.name, cause⟩] := by
  simp [refusals, withEarlier_append_singleton, outcome_eq_error.1 ho]

theorem refusals_of_ok (ho : a.outcome ps p = .ok d) :
    refusals a.config.excludeFields (ps ++ [p]) = refusals a.config.excludeFields ps := by
  simp [refusals, withEarlier_append_singleton, refusal?_of_ok ho]

theorem mem_refusals {earlier : List Primary} (hp : (earlier, p) ∈ withEarlier ps)
    (ho : a.outcome earlier p = .error cause) :
    ⟨p.name, cause⟩ ∈ refusals a.config.excludeFields ps := by
  refine List.mem_filterMap.2 ⟨(earlier, p), hp, ?_⟩
  rw [outcome_eq_error.1 ho]
  rfl

theorem mem_drafts : d ∈ a.drafts ps ↔
    ∃ earlier p, (earlier, p) ∈ withEarlier ps ∧ a.outcome earlier p = .ok d := by
  simp only [drafts, List.mem_filterMap, Prod.exists]
  constructor
  · rintro ⟨earlier, p, hp, ho⟩
    cases h : a.outcome earlier p with
    | error cause => simp [h, Except.toOption] at ho
    | ok d' => exact ⟨earlier, p, hp, by simpa [h, Except.toOption] using ho⟩
  · rintro ⟨earlier, p, hp, ho⟩
    exact ⟨earlier, p, hp, by simp [ho, Except.toOption]⟩

/-- A draft has the name of a declaration of the run. -/
theorem name_mem_of_mem_drafts (h : d ∈ a.drafts ps) : d.name ∈ ps.map Primary.name := by
  obtain ⟨earlier, p, hp, ho⟩ := mem_drafts.1 h
  obtain ⟨later, rfl⟩ := mem_withEarlier.1 hp
  rw [name_of_outcome ho]
  simp

/-- The drafts are named as the declarations that are not refused, in the same order. -/
theorem map_name_drafts (a : Assembler) (ps : List Primary) :
    (a.drafts ps).map Draft.name =
      ((withEarlier ps).filter fun q =>
        (refusal? a.config.excludeFields q.1 q.2).isNone).map (·.2.name) := by
  rw [drafts]
  induction withEarlier ps with
  | nil => rfl
  | cons q qs ih =>
      cases ho : a.outcome q.1 q.2 with
      | error cause => simpa [ho, Except.toOption, outcome_eq_error.1 ho] using ih
      | ok d => simpa [ho, Except.toOption, refusal?_of_ok ho, name_of_outcome ho] using ih

/-- No two drafts have the same name: a name is claimed by the first declaration that has it. -/
theorem nodup_name_drafts (a : Assembler) (ps : List Primary) :
    ((a.drafts ps).map Draft.name).Nodup := by
  -- A declaration is judged by those before it, so the list grows at its end.
  induction ps using List.reverseRecOn with
  | nil => simp [drafts, withEarlier]
  | append_singleton ps p ih =>
      cases ho : a.outcome ps p with
      | error cause => rwa [drafts_of_error ho]
      | ok d =>
          have hfresh := (outcome_eq_ok.1 ho).1
          rw [drafts_of_ok ho, List.map_append, List.nodup_append]
          refine ⟨ih, by simp, ?_⟩
          rintro n hn m hm rfl
          obtain ⟨d', hd', rfl⟩ := List.mem_map.1 hn
          have hd : d'.name = d.name := by simpa using hm
          exact hfresh (by rw [← name_of_outcome ho, ← hd]; exact name_mem_of_mem_drafts hd')

end Assembler

end ProtoSchema
