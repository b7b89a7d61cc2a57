import ProtoSchema.Report
import ProtoSchema.Declaration.Codec

/-!
Generation from a declaration set given as JSON text.
-/

namespace ProtoSchema

inductive RequestFault where
  | config (fault : ConfigFault)
  | reading (fault : Json.ReadFault)

/-- Reads a declaration set and generates its documents. The settings are looked at first. -/
def generateFromJson (bytes : List UInt8) (config : Config) : Except RequestFault Report :=
  match config.fault? with
  | some fault => .error (.config fault)
  | none =>
      match DeclarationSet.ofJson bytes with
      | .error fault => .error (.reading fault)
      | .ok s => .ok (generate s config)

end ProtoSchema
