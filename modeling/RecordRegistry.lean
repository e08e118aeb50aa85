import RecordRegistry.Disk.Tree
import RecordRegistry.Main
import RecordRegistry.Schema.Declaration
import RecordRegistry.SchemaFiles
import RecordRegistry.Proofs.Verdict
import RecordRegistry.Proofs.Instance
import RecordRegistry.Proofs.Registry.Runs
import RecordRegistry.Proofs.Json.Text
import RecordRegistry.Proofs.Json.Number
import RecordRegistry.Proofs.Fingerprint
import RecordRegistry.Proofs.Json.Canonical
import RecordRegistry.Proofs.Csv
import RecordRegistry.Proofs.Declaration.RoundTrip
import RecordRegistry.Proofs.Declaration.WellFormed
import RecordRegistry.Proofs.Report.Partition
import RecordRegistry.Proofs.Text.Utf8
import RecordRegistry.Proofs.Text.LineEnds
import RecordRegistry.Proofs.Csv.LineEnds
import RecordRegistry.Proofs.Load.Table
import RecordRegistry.Proofs.Json.Depth
import RecordRegistry.Proofs.Load.Failure
import RecordRegistry.Proofs.CommandLine.Failure
import RecordRegistry.Proofs.Number.Rounding
import RecordRegistry.Proofs.Json.Real
import RecordRegistry.Proofs.Load.Decoded
import RecordRegistry.Proofs.Report.Written
import RecordRegistry.Proofs.Registry.Views
import RecordRegistry.Proofs.Shape
import RecordRegistry.Proofs.Json.LineEnds
import RecordRegistry.Proofs.Load.Document
import RecordRegistry.Proofs.Disk.Files
import RecordRegistry.Proofs.CommandLine.AddedFlag
import RecordRegistry.Proofs.CommandLine.ExitCode
import RecordRegistry.Proofs.Modes
import RecordRegistry.Proofs.Order
import RecordRegistry.Proofs.Report.Same
import RecordRegistry.Proofs.Load.Canonical
import RecordRegistry.Proofs.Registry.Validation
import RecordRegistry.Proofs.Repair
import RecordRegistry.Proofs.Weakening
import RecordRegistry.Proofs.Report.Revalidation
import RecordRegistry.Proofs.Report.Texts
import RecordRegistry.Proofs.Registry.EntryOrder
import RecordRegistry.Proofs.Registry.Latest
import RecordRegistry.Proofs.Report.Stop
import RecordRegistry.Proofs.Declaration.Repeated
import RecordRegistry.Proofs.TypeNames
import RecordRegistry.Proofs.Settings
import RecordRegistry.Proofs.CommandLine.Refused
import RecordRegistry.Proofs.Declaration.Nested
