import ApiDocs.Text.Class
import ApiDocs.FileName
import ApiDocs.TypeText.Strip
import ApiDocs.Json.Read
import ApiDocs.Json.Write
import ApiDocs.Json.Record
import ApiDocs.Pattern.Syntax
import ApiDocs.Options
import ApiDocs.Program.Validity
import ApiDocs.Program.Snapshot
import ApiDocs.Trail
import ApiDocs.Module.Identity
import ApiDocs.Module.Collect
import ApiDocs.Member.Describe
import ApiDocs.Doc.Json
import ApiDocs.Extraction
import ApiDocs.Program.Builder
import ApiDocs.Main
import ApiDocs.Proofs.Outcome
import ApiDocs.Proofs.Placement
import ApiDocs.Proofs.DocumentGraph
import ApiDocs.Proofs.Traversal
import ApiDocs.Proofs.Coverage
import ApiDocs.Proofs.Trails
import ApiDocs.Proofs.References
import ApiDocs.Proofs.DeclaredTypes
import ApiDocs.Proofs.ExtractionOutcome
import ApiDocs.Proofs.JsonTokens
import ApiDocs.Proofs.IndexedScan
import ApiDocs.Proofs.JsonText
import ApiDocs.Proofs.FlagWords
import ApiDocs.Proofs.Snapshots
import ApiDocs.Proofs.Growth
import ApiDocs.Proofs.Blocks
import ApiDocs.Proofs.Provenance
import ApiDocs.Proofs.Descriptions
import ApiDocs.Proofs.MemberBlocks
import ApiDocs.Proofs.FileOrder
import ApiDocs.Proofs.LeadingRuns
import ApiDocs.Proofs.ListedMembers
import ApiDocs.Proofs.TypeTokens
import ApiDocs.Proofs.MemberSources
import ApiDocs.Proofs.FinalTypes
import ApiDocs.Proofs.ExportPatterns
import ApiDocs.Proofs.Numbering
import ApiDocs.Proofs.Renumbering
import ApiDocs.Proofs.Reexports
import ApiDocs.Proofs.Edits
import ApiDocs.Proofs.BuilderCalls
import ApiDocs.Proofs.BuilderSoundness
import ApiDocs.Proofs.Bindings
import ApiDocs.Proofs.DocumentText
import ApiDocs.Proofs.Traces
import ApiDocs.Proofs.ParameterProperties
import ApiDocs.Proofs.Stripping
import ApiDocs.Proofs.StrippingLaws
import ApiDocs.Proofs.ParentChains
import ApiDocs.Proofs.Validation
import ApiDocs.Proofs.AliasChains
import ApiDocs.Proofs.Layouts
import ApiDocs.Proofs.DeclaredMembers
import ApiDocs.Proofs.LayoutOptions
import ApiDocs.Proofs.ModuleIds
import ApiDocs.Proofs.NamespaceDescent
import ApiDocs.Proofs.FileNames
import ApiDocs.Proofs.FileIds
import ApiDocs.Proofs.ModuleTables
import ApiDocs.Proofs.SnapshotEdits
import ApiDocs.Proofs.CommandLines
import ApiDocs.Proofs.Runs
import ApiDocs.Proofs.PatternMeaning
import ApiDocs.Proofs.PatternReading
import ApiDocs.Proofs.IgnoredExports
