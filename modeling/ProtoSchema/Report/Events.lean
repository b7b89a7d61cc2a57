import ProtoSchema.Report
import ProtoSchema.Log

/-!
The events of a run, in their order: what the run works on, the units it skips, the documents it
renders, and what it could not do or had to guess.
-/

namespace ProtoSchema

def OutputMode.label : OutputMode → String
  | .perType => "PerType"
  | .aggregate => "Aggregate"

def optionalField : Option String → String
  | none => "None"
  | some s => "Some(" ++ Text.quoted s ++ ")"

/-- The event of a unit from which no document is made. -/
def SourceUnit.skipEvent? (u : SourceUnit) : Option Event :=
  match u.primary with
  | none =>
      some ⟨.debug, "skipping unit without a primary type", [("source", optionalField u.source)]⟩
  | some (.type d) =>
      if d.emitsMessage then none
      else some ⟨.debug, "skipping interface without nested enums", [("name", d.name)]⟩
  | some (.enum _) => none

def Document.event (d : Document) : Event :=
  ⟨.debug, "rendered schema document", [("file", d.fileName)]⟩

def Caveat.event (c : Caveat) : Event := ⟨.warn, c.message, []⟩

def Failure.event (f : Failure) : Event :=
  ⟨.warn, f.cause.message, [("declaration", f.declaration)]⟩

/-- The events of rendering. Where all declarations share a document nothing is said of the units
that are skipped. -/
def Assembler.events (a : Assembler) (units : List SourceUnit) : List Event :=
  match a.config.mode with
  | .perType =>
      units.filterMap SourceUnit.skipEvent? ++ (a.perType units).documents.map Document.event
  | .aggregate =>
      let imports := a.externalImports (a.aggregateState units).imports
      [⟨.debug, "rendered aggregate schema document",
        [("file", schemaFileName a.config.projectName),
          ("imports", toString imports.toList.length)]⟩]

def generationEvents (s : DeclarationSet) (config : Config) : List Event :=
  let report := generate s config
  let a : Assembler := ⟨config, s.enumPool, declaredNames s.units⟩
  ⟨.debug, "generating schema documents", [("units", toString s.units.length),
      ("enums", toString s.enumPool.size), ("mode", config.mode.label)]⟩ ::
    (a.events s.units ++ report.caveats.map Caveat.event ++ report.failures.map Failure.event)

end ProtoSchema
