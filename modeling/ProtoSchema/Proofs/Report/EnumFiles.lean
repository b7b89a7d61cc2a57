import ProtoSchema.Proofs.Report.OwnImports
import ProtoSchema.Proofs.Report.Targets
import ProtoSchema.Declaration.Codec

/-!
The file that an enum is imported from. An enum is written into the document of the declaration that
holds it, but an import goes by what the enum records of the type that it is nested in. A type that
is given an enum makes this record; a declaration set that is read may leave it out.
-/

namespace ProtoSchema

/-- The name whose file an enum is imported from: that of the type it records, or its own. -/
def PooledEnum.fileStem (e : PooledEnum) : String :=
  e.declaration.enclosingType.getD e.declaration.name

theorem PooledEnum.importFor_eq (e : PooledEnum) (d : TypeDeclaration) :
    e.importFor d =
      if e.declaration.enclosingType = some d.name then none
      else some (schemaFileName e.fileStem) := by
  rw [importFor, fileStem]
  cases e.declaration.enclosingType with
  | none => rfl
  | some enclosing => simp

theorem SourceUnit.enums_of_primary {u : SourceUnit} {p : Primary} (h : u.primary = some p) :
    u.enums = p.enums := by
  rw [enums, h]
  cases p <;> rfl

/-- An enum of a run, in the place where it is declared. -/
structure EnumPlace where
  before : List SourceUnit
  unit : SourceUnit
  after : List SourceUnit
  holder : Primary
  preceding : List EnumDeclaration
  enum : EnumDeclaration
  following : List EnumDeclaration
  holds : unit.primary = some holder
  listed : holder.enums = preceding ++ enum :: following

namespace EnumPlace

variable (p : EnumPlace) {d : TypeDeclaration} {n : String}

def units : List SourceUnit := p.before ++ p.unit :: p.after

def pool : EnumPool := .ofUnits p.units

def entry : PooledEnum := ⟨p.enum, p.unit.package⟩

def earlier : List PooledEnum :=
  (EnumPool.ofUnits p.before).entries ++ p.preceding.map (⟨·, p.unit.package⟩)

def later : List PooledEnum :=
  p.following.map (⟨·, p.unit.package⟩) ++ (EnumPool.ofUnits p.after).entries

/-- Whether a name finds the enum: it is the first in the pool that the name is a name of. -/
def IsFoundBy (n : String) : Prop :=
  p.entry.isNamedBy n = true ∧ ∀ e ∈ p.earlier, e.isNamedBy n = false

theorem entries_pool : p.pool.entries = p.earlier ++ p.entry :: p.later := by
  have hunit : p.unit.enums = p.preceding ++ p.enum :: p.following := by
    rw [SourceUnit.enums_of_primary p.holds, p.listed]
  simp [pool, units, EnumPool.ofUnits, hunit, earlier, entry, later]

theorem lookup?_of_isFoundBy (h : p.IsFoundBy n) : p.pool.lookup? n = some p.entry := by
  refine List.find?_eq_some_iff_append.2 ⟨h.1, p.earlier, p.later, p.entries_pool, fun e he => ?_⟩
  rw [h.2 e he]
  rfl

theorem importFor_of_isFoundBy (hinner : d.nestedEnum? n = none) (hfound : p.IsFoundBy n) :
    importFor p.pool d n = p.entry.importFor d := by
  rw [importFor, hinner, p.lookup?_of_isFoundBy hfound]
  rfl

end EnumPlace

/-- A reference to an enum that another declaration holds imports the file of the holder, and none
that is named after the enum, exactly where the enum records the holder, or has its name and records
nothing. -/
theorem imports_holder_iff (p : EnumPlace) {d : TypeDeclaration} {n : String}
    (hinner : d.nestedEnum? n = none) (hfound : p.IsFoundBy n) :
    (importFor p.pool d n = some (schemaFileName p.holder.name) ∧
        (p.enum.name ≠ p.holder.name →
          importFor p.pool d n ≠ some (schemaFileName p.enum.name))) ↔
      p.entry.fileStem = p.holder.name ∧ p.enum.enclosingType ≠ some d.name := by
  rw [p.importFor_of_isFoundBy hinner hfound, PooledEnum.importFor_eq]
  by_cases hown : p.enum.enclosingType = some d.name
  · simp [EnumPlace.entry, hown]
  · have hother : p.entry.declaration.enclosingType ≠ some d.name := hown
    simp only [if_neg hother, Option.some.injEq, schemaFileName_inj, hown, ne_eq,
      not_false_eq_true, and_true, and_iff_left_iff_imp]
    intro hholder hname henum
    exact hname (henum.symm.trans hholder)

/-- Two classes are given an enum `Status`, so that each enum records its class. By this name a
third class refers to the first of them and imports the file of its class. -/
theorem imports_holder_iff_added :
    let order := ({ name := "Order", kind := .classKind } : TypeDeclaration).addNestedEnum
      { name := "Status", constants := ["NEW"] }
    let parcel := ({ name := "Parcel", kind := .classKind } : TypeDeclaration).addNestedEnum
      { name := "Status", constants := ["SENT"] }
    let invoice : TypeDeclaration :=
      { name := "Invoice", kind := .classKind, fields := [⟨"status", "Status", false⟩] }
    let p : EnumPlace :=
      { before := [], unit := .ofType order, after := [.ofType invoice, .ofType parcel]
        holder := .type order, preceding := [], enum := ⟨"Status", some "Order", ["NEW"]⟩
        following := [], holds := rfl, listed := rfl }
    invoice.nestedEnum? "Status" = none ∧ p.IsFoundBy "Status" ∧
      importFor p.pool invoice "Status" = some "Order.proto" := by
  intro order parcel invoice p
  have hinner : invoice.nestedEnum? "Status" = none := rfl
  have hnamed : p.entry.isNamedBy "Status" = true := by decide +kernel
  have hfound : p.IsFoundBy "Status" := ⟨hnamed, fun e he => by cases he⟩
  exact ⟨hinner, hfound, ((imports_holder_iff p hinner hfound).2 (by decide)).1⟩

/-- A declaration set may be read in which a nested enum does not record its class. The enum is part
of the message of the class, and yet a document that refers to it imports a file named after the
enum, which is not generated. -/
theorem import_of_unrecorded_enum :
    let json := "\x7b\"units\":[" ++
      "\x7b\"primary\":\x7b\"declaration\":\"type\",\"name\":\"Order\",\"kind\":\"class\"," ++
      "\"nested_enums\":[\x7b\"name\":\"Status\",\"constants\":[\"NEW\"]\x7d]\x7d\x7d," ++
      "\x7b\"primary\":\x7b\"declaration\":\"type\",\"name\":\"Invoice\",\"kind\":\"class\"," ++
      "\"fields\":[\x7b\"name\":\"status\",\"declared_type\":\"Status\"\x7d]\x7d\x7d]\x7d"
    let order : TypeDeclaration :=
      { name := "Order", kind := .classKind, nestedEnums := [⟨"Status", none, ["NEW"]⟩] }
    let invoice : TypeDeclaration :=
      { name := "Invoice", kind := .classKind, fields := [⟨"status", "Status", false⟩] }
    let p : EnumPlace :=
      { before := [], unit := .ofType order, after := [.ofType invoice], holder := .type order
        preceding := [], enum := ⟨"Status", none, ["NEW"]⟩, following := [], holds := rfl
        listed := rfl }
    (DeclarationSet.ofJson json.toUTF8.toList).toOption = some ⟨p.units⟩ ∧
      invoice.name ≠ order.name ∧ invoice.nestedEnum? "Status" = none ∧ p.IsFoundBy "Status" ∧
      importFor p.pool invoice "Status" = some "Status.proto" ∧
      importFor p.pool invoice "Status" ≠ some (schemaFileName order.name) ∧
      (generate ⟨p.units⟩ {}).documents.map Document.fileName =
        ["Order.proto", "Invoice.proto"] := by
  intro json order invoice p
  have hread : (DeclarationSet.ofJson json.toUTF8.toList).toOption = some ⟨p.units⟩ := by
    decide +kernel
  have hnamed : p.entry.isNamedBy "Status" = true := by decide +kernel
  have himport : importFor p.pool invoice "Status" = some "Status.proto" := by decide +kernel
  refine ⟨hread, by decide, rfl, ⟨hnamed, fun e he => by cases he⟩, himport, ?_, by decide +kernel⟩
  rw [himport]
  decide

end ProtoSchema
