import ProtoSchema.Request
import ProtoSchema.Config.Codec
import ProtoSchema.FileTree
import ProtoSchema.Main
import ProtoSchema.Proofs.Report.Drafts
import ProtoSchema.Proofs.Report.Loops
import ProtoSchema.Proofs.Report.Accounting
import ProtoSchema.Proofs.Report.Modes
import ProtoSchema.Proofs.Report.OwnImports
import ProtoSchema.Proofs.TypeRef.Brackets
import ProtoSchema.Proofs.TypeRef.Layout
import ProtoSchema.Proofs.TypeRef.Scanning
import ProtoSchema.Proofs.TypeRef.Grammar
import ProtoSchema.Proofs.TypeRef.NormalForm
import ProtoSchema.Proofs.Report.Referents
import ProtoSchema.Proofs.Report.Targets
import ProtoSchema.Proofs.Report.Filtering
import ProtoSchema.Proofs.Report.Fates
import ProtoSchema.Proofs.Report.SharedImports
import ProtoSchema.Proofs.Report.Duplicates
import ProtoSchema.Proofs.FieldType.Leaves
import ProtoSchema.Proofs.Report.Locality
import ProtoSchema.Proofs.Report.EnumFiles
import ProtoSchema.Proofs.Report.SelfContained
import ProtoSchema.Proofs.Document.Growth
import ProtoSchema.Proofs.Report.Agreement
import ProtoSchema.Proofs.Report.Numbering
import ProtoSchema.Proofs.Report.Appending
import ProtoSchema.Proofs.Report.UnitOrder
import ProtoSchema.Proofs.Text.Blocks
import ProtoSchema.Proofs.Document.Identifiers
import ProtoSchema.Proofs.Document.Unambiguous
import ProtoSchema.Proofs.Report.Contents
import ProtoSchema.Proofs.Declaration.RoundTrip
import ProtoSchema.Proofs.Command.Outcome
import ProtoSchema.Proofs.Command.Containment
import ProtoSchema.Proofs.Command.Checking
import ProtoSchema.Proofs.Command.Packages
import ProtoSchema.Proofs.Report.Caveats
import ProtoSchema.Proofs.Text.Segments
import ProtoSchema.Proofs.EnumPool.Naming
import ProtoSchema.Proofs.Text.ByteOrder
import ProtoSchema.Proofs.Report.Headers
import ProtoSchema.Proofs.FieldType.Qualifiers
import ProtoSchema.Proofs.Text.Offsets
import ProtoSchema.Proofs.TypeRef.InPlace
import ProtoSchema.Proofs.FieldType.Skeleton
