import ProtoSchema.TypeRef.Reader
import ProtoSchema.Imports
import ProtoSchema.Config

/-!
Generation of the documents of a run. A declaration is generated if no earlier one has claimed its
name and the types of its schema fields can be read; otherwise it is reported as a failure, and the
others are generated all the same.
-/

namespace ProtoSchema

structure Report where
  documents : List Document := []
  failures : List Failure := []
  caveats : List Caveat := []
  deriving DecidableEq, Repr

def Report.isSuccess (r : Report) : Bool := r.failures.isEmpty

def SchemaField.ofFields (pool : EnumPool) (fields : List (Field × TypeRef)) : List SchemaField :=
  fields.mapIdx fun i f => ⟨f.2.schemaType pool, f.1.name, i + 1⟩

/-- Reads the types of fields from first to last, up to the first that cannot be read. -/
def readFieldTypes : List Field → Except Cause (List TypeRef × List Caveat)
  | [] => .ok ([], [])
  | f :: fs =>
      match TypeRef.read f.declaredType with
      | .error cause => .error cause
      | .ok r =>
          match readFieldTypes fs with
          | .error cause => .error cause
          | .ok (types, caveats) => .ok (r.ref :: types, r.caveats ++ caveats)

structure MessagePlan where
  declaration : TypeDeclaration
  fields : List SchemaField
  imports : NameSet
  caveats : List Caveat

namespace MessagePlan

def render (p : MessagePlan) : String :=
  Document.message p.declaration.name p.fields p.declaration.nestedEnums

end MessagePlan

/-- What the documents of a run depend on besides the declaration they are for. -/
structure Assembler where
  config : Config
  pool : EnumPool
  declared : List String

namespace Assembler

/-- Plans the message of a declaration. The caveats are those of its field types, then one for each
name that is assumed to be a message and is not declared. -/
def plan (a : Assembler) (d : TypeDeclaration) : Except Cause MessagePlan :=
  let fields := d.schemaFields a.config.excludeFields
  match readFieldTypes fields with
  | .error cause => .error cause
  | .ok (types, caveats) =>
      let unknown := (opaqueNames a.pool types).toList.filter (!a.declared.contains ·)
      .ok {
        declaration := d
        fields := SchemaField.ofFields a.pool (fields.zip types)
        imports := importsFor a.pool d types
        caveats := caveats ++ unknown.map (.ambiguousReference · d.name) }

/-- Plans the message of a declaration unless its name is among the claimed ones. -/
def claimAndPlan (a : Assembler) (claimed : List String) (d : TypeDeclaration) :
    Except Cause MessagePlan :=
  if claimed.contains d.name then .error (.duplicateName d.name) else a.plan d

structure PerTypeState where
  claimed : List String := []
  report : Report := {}

def perTypeStep (a : Assembler) (st : PerTypeState) (u : SourceUnit) : PerTypeState :=
  let package := a.config.effectivePackage
  match u.primary with
  | none => st
  | some (.type d) =>
      -- The name is claimed even if the message cannot be planned.
      if d.emitsMessage then
        { claimed := d.name :: st.claimed
          report :=
            match a.claimAndPlan st.claimed d with
            | .error cause =>
                { st.report with failures := st.report.failures ++ [⟨d.name, cause⟩] }
            | .ok p =>
                { st.report with
                  documents := st.report.documents ++
                    [⟨schemaFileName d.name, Document.header package p.imports ++ p.render⟩]
                  caveats := st.report.caveats ++ p.caveats } }
      else st
  | some (.enum e) =>
      { claimed := e.name :: st.claimed
        report :=
          if st.claimed.contains e.name then
            { st.report with failures := st.report.failures ++ [⟨e.name, .duplicateName e.name⟩] }
          else
            { st.report with
              documents := st.report.documents ++
                [⟨schemaFileName e.name, Document.header package .empty ++ Document.enum e⟩] } }

def perType (a : Assembler) (units : List SourceUnit) : Report :=
  (units.foldl a.perTypeStep {}).report

structure AggregateState where
  claimed : List String := []
  messages : String := ""
  enums : String := ""
  imports : NameSet := .empty
  failures : List Failure := []
  caveats : List Caveat := []

def aggregateStep (a : Assembler) (st : AggregateState) (u : SourceUnit) : AggregateState :=
  match u.primary with
  | none => st
  | some (.type d) =>
      if d.emitsMessage then
        match a.claimAndPlan st.claimed d with
        | .error cause =>
            { st with
              claimed := d.name :: st.claimed
              failures := st.failures ++ [⟨d.name, cause⟩] }
        | .ok p =>
            { st with
              claimed := d.name :: st.claimed
              messages := st.messages ++ p.render
              imports := st.imports.union p.imports
              caveats := st.caveats ++ p.caveats }
      else st
  | some (.enum e) =>
      if st.claimed.contains e.name then
        { st with
          claimed := e.name :: st.claimed
          failures := st.failures ++ [⟨e.name, .duplicateName e.name⟩] }
      else
        { st with claimed := e.name :: st.claimed, enums := st.enums ++ Document.enum e }

/-- The type that an import path stands for. -/
def importStem (path : String) : String :=
  if ".proto".toList.isSuffixOf path.toList then
    String.ofList (path.toList.take (path.toList.length - ".proto".length))
  else path

@[simp] theorem importStem_schemaFileName (stem : String) :
    importStem (schemaFileName stem) = stem := by
  have hsuffix : ".proto".toList.isSuffixOf (schemaFileName stem).toList = true := by
    rw [List.isSuffixOf_iff_suffix, schemaFileName, String.toList_append]
    exact List.suffix_append _ _
  have hlength : ".proto".toList.length = ".proto".length := by decide
  rw [importStem, if_pos hsuffix, schemaFileName, String.toList_append, List.length_append, hlength,
    Nat.add_sub_cancel, List.take_left, String.ofList_toList]

/-- The imports that are left when all declarations of the run share a document. -/
def externalImports (a : Assembler) (imports : NameSet) : NameSet :=
  imports.filter fun path => !a.declared.contains (importStem path)

def aggregateState (a : Assembler) (units : List SourceUnit) : AggregateState :=
  units.foldl a.aggregateStep {}

def aggregate (a : Assembler) (units : List SourceUnit) : Report :=
  let st := a.aggregateState units
  { documents :=
      [⟨schemaFileName a.config.projectName,
        Document.header a.config.effectivePackage (a.externalImports st.imports) ++ st.messages ++
          st.enums⟩]
    failures := st.failures
    caveats := st.caveats }

end Assembler

def declaredNames (units : List SourceUnit) : List String :=
  units.filterMap SourceUnit.primaryName?

/-- Generates the documents of units whose references are looked up in a given pool. -/
def assemble (config : Config) (pool : EnumPool) (units : List SourceUnit) : Report :=
  let a : Assembler := ⟨config, pool, declaredNames units⟩
  match config.mode with
  | .perType => a.perType units
  | .aggregate => a.aggregate units

def generate (s : DeclarationSet) (config : Config) : Report :=
  assemble config s.enumPool s.units

end ProtoSchema
