import ClassRecovery.Abi
import ClassRecovery.Architecture
import ClassRecovery.Archive.Classes
import ClassRecovery.Archive.Config
import ClassRecovery.Archive.Program
import ClassRecovery.Archive.Report
import ClassRecovery.Archive.Types
import ClassRecovery.Attribution.Candidates
import ClassRecovery.Attribution.Matching
import ClassRecovery.Attribution.Run
import ClassRecovery.CType
import ClassRecovery.Cancellation
import ClassRecovery.Class
import ClassRecovery.CommandLine.Command
import ClassRecovery.CommandLine.Help
import ClassRecovery.CommandLine.Invocation
import ClassRecovery.CommandLine.Option
import ClassRecovery.CommandLine.Output
import ClassRecovery.CommandLine.Run
import ClassRecovery.Config
import ClassRecovery.Decimal.Shortest
import ClassRecovery.Decimal.Text
import ClassRecovery.DynamicCast
import ClassRecovery.Error
import ClassRecovery.Journal
import ClassRecovery.Json.Decoder
import ClassRecovery.Json.Number
import ClassRecovery.Json.Parser
import ClassRecovery.Json.Printer
import ClassRecovery.Json.Value
import ClassRecovery.Layout
import ClassRecovery.Main
import ClassRecovery.Memory
import ClassRecovery.Model
import ClassRecovery.Model.Discovery
import ClassRecovery.Model.Layouts
import ClassRecovery.Offsets.Placement
import ClassRecovery.Offsets.Resolution
import ClassRecovery.Offsets.Table
import ClassRecovery.OrderedMap
import ClassRecovery.Program.Basic
import ClassRecovery.Program.Function
import ClassRecovery.Program.Snapshot
import ClassRecovery.Progress
import ClassRecovery.Proofs.Archive.Snapshots
import ClassRecovery.Proofs.Archive.Types
import ClassRecovery.Proofs.Attribution.Candidates
import ClassRecovery.Proofs.Attribution.Commits
import ClassRecovery.Proofs.Attribution.Congruence
import ClassRecovery.Proofs.Attribution.Ledger
import ClassRecovery.Proofs.Attribution.Matching
import ClassRecovery.Proofs.Attribution.Records
import ClassRecovery.Proofs.Attribution.Resumption
import ClassRecovery.Proofs.Attribution.Thunks
import ClassRecovery.Proofs.Attribution.Walks
import ClassRecovery.Proofs.CastOutcomes
import ClassRecovery.Proofs.CastPrototypes
import ClassRecovery.Proofs.Declarations
import ClassRecovery.Proofs.Discovery.Bases
import ClassRecovery.Proofs.Discovery.Collection
import ClassRecovery.Proofs.Discovery.Sources
import ClassRecovery.Proofs.DynamicCast
import ClassRecovery.Proofs.FunctionBodies
import ClassRecovery.Proofs.Isolation.Models
import ClassRecovery.Proofs.Isolation.Passes
import ClassRecovery.Proofs.Isolation.Sessions
import ClassRecovery.Proofs.Layout.Composition
import ClassRecovery.Proofs.Layout.Overlaps
import ClassRecovery.Proofs.Layout.Overwrite
import ClassRecovery.Proofs.Layout.Preservation
import ClassRecovery.Proofs.Lists
import ClassRecovery.Proofs.Mangled.Demangling
import ClassRecovery.Proofs.Model.Building
import ClassRecovery.Proofs.Model.Closure
import ClassRecovery.Proofs.Model.Coherence
import ClassRecovery.Proofs.Model.Compositions
import ClassRecovery.Proofs.Model.Evictions
import ClassRecovery.Proofs.Model.Genuine
import ClassRecovery.Proofs.Model.Layouts
import ClassRecovery.Proofs.Model.Names
import ClassRecovery.Proofs.Model.Operations
import ClassRecovery.Proofs.Model.Outcomes
import ClassRecovery.Proofs.Model.Prefixes
import ClassRecovery.Proofs.Model.Preservation
import ClassRecovery.Proofs.Model.Rebuilding
import ClassRecovery.Proofs.Model.Replacement
import ClassRecovery.Proofs.Model.Sharing
import ClassRecovery.Proofs.Model.Steps
import ClassRecovery.Proofs.Model.TypeNames
import ClassRecovery.Proofs.Model.Walks
import ClassRecovery.Proofs.Offsets.AbiAgreement
import ClassRecovery.Proofs.Offsets.Alignment
import ClassRecovery.Proofs.Offsets.DeclarationOrder
import ClassRecovery.Proofs.Offsets.DirectBases
import ClassRecovery.Proofs.Offsets.Nesting
import ClassRecovery.Proofs.Offsets.Outermost
import ClassRecovery.Proofs.Offsets.PathOffsets
import ClassRecovery.Proofs.Offsets.Paths
import ClassRecovery.Proofs.Offsets.Placement
import ClassRecovery.Proofs.Offsets.PointerOwners
import ClassRecovery.Proofs.Offsets.Resolution
import ClassRecovery.Proofs.Offsets.Rounding
import ClassRecovery.Proofs.Offsets.Subobjects
import ClassRecovery.Proofs.Offsets.VirtualOrder
import ClassRecovery.Proofs.OrderedMap
import ClassRecovery.Proofs.Permutations
import ClassRecovery.Proofs.Pointers
import ClassRecovery.Proofs.Program
import ClassRecovery.Proofs.Reordering.Casts
import ClassRecovery.Proofs.Reordering.Discovery
import ClassRecovery.Proofs.Reordering.Sessions
import ClassRecovery.Proofs.Rtti.Links
import ClassRecovery.Proofs.Rtti.Reads
import ClassRecovery.Proofs.Rtti.Records
import ClassRecovery.Proofs.Session.Consistency
import ClassRecovery.Proofs.Session.Finished
import ClassRecovery.Proofs.Session.Passes
import ClassRecovery.Proofs.Session.Runs
import ClassRecovery.Proofs.Session.Transparency
import ClassRecovery.Proofs.Session.Uncancelled
import ClassRecovery.Proofs.Vtable.Cover
import ClassRecovery.Proofs.Vtable.Limits
import ClassRecovery.Proofs.Vtable.Runs
import ClassRecovery.Proofs.Vtable.Scan
import ClassRecovery.Register
import ClassRecovery.Rtti.Descriptor
import ClassRecovery.Rtti.Mangled
import ClassRecovery.Rtti.Record
import ClassRecovery.Session
import ClassRecovery.Signature
import ClassRecovery.Text.Blank
import ClassRecovery.Text.Hex
import ClassRecovery.Text.Printable
import ClassRecovery.Text.Quoted
import ClassRecovery.TypeDatabase
import ClassRecovery.Vtable.Basic
import ClassRecovery.Vtable.Scan
import ClassRecovery.Word
