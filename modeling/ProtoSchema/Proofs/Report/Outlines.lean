import ProtoSchema.Proofs.Report.Drafts
import Mathlib.Data.List.Basic

/-!
What the rest of a run sees of a declaration. The fields of a type are read for its own message and
nowhere else: the enum pool, the declared names and the names claimed by messages and enums depend
on the outlines of the units alone.
-/

namespace ProtoSchema

namespace TypeDeclaration

def outline (d : TypeDeclaration) : TypeDeclaration := { d with fields := [] }

section

variable (d : TypeDeclaration)

@[simp] theorem name_outline : d.outline.name = d.name := rfl
@[simp] theorem nestedEnums_outline : d.outline.nestedEnums = d.nestedEnums := rfl
@[simp] theorem isEmitted_outline :
    (Primary.type d.outline).isEmitted = (Primary.type d).isEmitted := rfl

end

end TypeDeclaration

def SourceUnit.outline (u : SourceUnit) : SourceUnit := u.modifyType TypeDeclaration.outline

namespace SourceUnit

variable {f g : TypeDeclaration → TypeDeclaration} {u : SourceUnit} {d : TypeDeclaration}
  {e : EnumDeclaration}

theorem modifyType_of_type (h : u.primary = some (.type d)) :
    u.modifyType f = { u with primary := some (.type (f d)) } := by
  rw [modifyType, h]

theorem modifyType_of_enum (h : u.primary = some (.enum e)) : u.modifyType f = u := by
  rw [modifyType, h]

theorem modifyType_of_none (h : u.primary = none) : u.modifyType f = u := by
  rw [modifyType, h]

theorem modifyType_modifyType (u : SourceUnit) :
    (u.modifyType f).modifyType g = u.modifyType (g ∘ f) := by
  cases h : u.primary with
  | none => rw [modifyType_of_none h, modifyType_of_none h, modifyType_of_none h]
  | some p =>
      cases p with
      | enum e => rw [modifyType_of_enum h, modifyType_of_enum h, modifyType_of_enum h]
      | type d => rw [modifyType_of_type h, modifyType_of_type h, modifyType_of_type rfl]; rfl

@[simp] theorem package_outline (u : SourceUnit) : u.outline.package = u.package := by
  rw [outline, modifyType]
  split <;> rfl

@[simp] theorem enums_outline (u : SourceUnit) : u.outline.enums = u.enums := by
  rw [outline, modifyType]
  split
  · next h => simp [enums, h]
  · rfl

@[simp] theorem primaryName?_outline (u : SourceUnit) :
    u.outline.primaryName? = u.primaryName? := by
  rw [outline, modifyType]
  split
  · next h => simp [primaryName?, h]
  · rfl

@[simp] theorem name_emitted?_outline (u : SourceUnit) :
    u.outline.emitted?.map Primary.name = u.emitted?.map Primary.name := by
  rw [outline, modifyType]
  split
  · next d h =>
      cases he : (Primary.type d).isEmitted <;> simp [emitted?, h, Option.filter, he]
  · rfl

end SourceUnit

def claimedNames (units : List SourceUnit) : List String :=
  (emittedDeclarations units).map Primary.name

theorem claimedNames_eq (units : List SourceUnit) :
    claimedNames units = units.filterMap fun u => u.emitted?.map Primary.name := by
  rw [claimedNames, emittedDeclarations, List.map_filterMap]

theorem EnumPool.ofUnits_outline (units : List SourceUnit) :
    EnumPool.ofUnits (units.map SourceUnit.outline) = .ofUnits units := by
  simp [EnumPool.ofUnits, List.flatMap_map]

theorem declaredNames_outline (units : List SourceUnit) :
    declaredNames (units.map SourceUnit.outline) = declaredNames units := by
  rw [declaredNames, declaredNames, List.filterMap_map]
  exact List.filterMap_congr fun u _ => u.primaryName?_outline

theorem claimedNames_outline (units : List SourceUnit) :
    claimedNames (units.map SourceUnit.outline) = claimedNames units := by
  rw [claimedNames_eq, claimedNames_eq, List.filterMap_map]
  exact List.filterMap_congr fun u _ => u.name_emitted?_outline

end ProtoSchema
