import SupabaseUserMcp.Js.Value
import SupabaseUserMcp.Js.Sha256
import SupabaseUserMcp.Js.Schema
import SupabaseUserMcp.Js.Json
import SupabaseUserMcp.Js.Measure
import SupabaseUserMcp.Js.CodePoints
import SupabaseUserMcp.Process.Program
import SupabaseUserMcp.Merkle.Tree
import SupabaseUserMcp.Search.Greedy
import SupabaseUserMcp.ChunkManifest
import SupabaseUserMcp.ChunkManifest.Levels
import SupabaseUserMcp.ChunkManifest.Consistency
import SupabaseUserMcp.ChunkManifest.SourceManifest
import SupabaseUserMcp.ChunkManifest.ProofVerification
import SupabaseUserMcp.ChunkManifest.ProofBinding
import SupabaseUserMcp.Js.Platform
import SupabaseUserMcp.Inspection
import SupabaseUserMcp.Inspection.Schemas
import SupabaseUserMcp.Inspection.Frame
import SupabaseUserMcp.TextIndex
import SupabaseUserMcp.Inspector
import SupabaseUserMcp.Inspector.Trace
import SupabaseUserMcp.Inspector.Records
import SupabaseUserMcp.Inspector.Covering
import SupabaseUserMcp.TextIndex.Reads
import SupabaseUserMcp.Inspector.Honest
import SupabaseUserMcp.Inspector.Operations
import SupabaseUserMcp.Inspector.Discipline
import SupabaseUserMcp.Inspector.Authenticity
import SupabaseUserMcp.Inspector.Sizes
import SupabaseUserMcp.Inspector.Search
import SupabaseUserMcp.Process.Machine
import SupabaseUserMcp.ReceiptJournal
import SupabaseUserMcp.Registration
import SupabaseUserMcp.Registration.Invariant
import SupabaseUserMcp.Registration.Evidence
import SupabaseUserMcp.Registration.Completion
import SupabaseUserMcp.Transport
import SupabaseUserMcp.Process.SlidingWindow
import SupabaseUserMcp.ReadTools
import SupabaseUserMcp.ReadTools.Frame
import SupabaseUserMcp.ReadTools.Inputs
import SupabaseUserMcp.FixedClient
import SupabaseUserMcp.MemoryCall
import SupabaseUserMcp.MemoryCall.Deadline
import SupabaseUserMcp.Governor
import SupabaseUserMcp.Governor.Accounts
import SupabaseUserMcp.Governor.Accounting
import SupabaseUserMcp.Governor.RateWindow
import SupabaseUserMcp.Governor.Isolation
import SupabaseUserMcp.DefensiveRetrieval
import SupabaseUserMcp.Governor.Frames
import SupabaseUserMcp.Sql.Query
import SupabaseUserMcp.Sql.Jsonb
import SupabaseUserMcp.Sql.Keyset
import SupabaseUserMcp.PolicyLab
import SupabaseUserMcp.PolicyLab.Authorization
import SupabaseUserMcp.MemoryRpc
import SupabaseUserMcp.MemoryRpc.Eligible
import SupabaseUserMcp.MemoryRpc.NonInterference
import SupabaseUserMcp.MemoryRpc.Pagination
import SupabaseUserMcp.ArtifactLab
import SupabaseUserMcp.ArtifactLab.Custody
import SupabaseUserMcp.TextIndex.Lines
import SupabaseUserMcp.Js.Records
import SupabaseUserMcp.Js.Dates
import SupabaseUserMcp.Js.Digits
import SupabaseUserMcp.TextIndex.Recognisers
import SupabaseUserMcp.TextIndex.Headings
import SupabaseUserMcp.TextIndex.Acceptance
import SupabaseUserMcp.TextIndex.Selection
import SupabaseUserMcp.TextIndex.Fences
import SupabaseUserMcp.Inspector.Closure
import SupabaseUserMcp.ChunkManifest.ProofUniqueness
import SupabaseUserMcp.Inspection.Anchoring
import SupabaseUserMcp.DefensiveRetrieval.Dispatch
import SupabaseUserMcp.DefensiveRetrieval.Discipline
import SupabaseUserMcp.Js.NumberLiteral
import SupabaseUserMcp.Js.JsonText
import SupabaseUserMcp.Js.JsonParse
import SupabaseUserMcp.Js.Rewriting
import SupabaseUserMcp.ModelVisible
import SupabaseUserMcp.Js.SameJson
import SupabaseUserMcp.Js.ObjectGraph
import SupabaseUserMcp.Js.Reading
import SupabaseUserMcp.Js.Utf16
import SupabaseUserMcp.ReceiptJournal.Graph
import SupabaseUserMcp.ReceiptJournal.Reading
import SupabaseUserMcp.ReceiptJournal.Canonical
import SupabaseUserMcp.ReceiptJournal.Canonicity
import SupabaseUserMcp.StorageBounds
import SupabaseUserMcp.Path.Resolution
import SupabaseUserMcp.StorageBounds.Keys
import SupabaseUserMcp.WriteContainment
import SupabaseUserMcp.WriteContainment.Exactness
import SupabaseUserMcp.WriteContainment.Reordering
import SupabaseUserMcp.TextIndex.Slugs
import SupabaseUserMcp.Governor.ArgumentDigest
import SupabaseUserMcp.Governor.DigestCollisions
import SupabaseUserMcp.MemoryRpc.Literal
import SupabaseUserMcp.MemoryRpc.UtcTime
import SupabaseUserMcp.MemoryRpc.Ordering
import SupabaseUserMcp.DefensiveRetrieval.Results
import SupabaseUserMcp.MemoryRetrieve
import SupabaseUserMcp.ReadTools.Outputs
import SupabaseUserMcp.MemoryRetrieve.Closure
import SupabaseUserMcp.DefensiveRetrieval.Snapshots
import SupabaseUserMcp.DefensiveRetrieval.Uniqueness
import SupabaseUserMcp.Inspector.Hosting
import SupabaseUserMcp.Inspector.Completeness
import SupabaseUserMcp.MemoryRpc.Serving
import SupabaseUserMcp.MemoryRpc.Retrieval
import SupabaseUserMcp.Process.History
import SupabaseUserMcp.Js.LossyUtf8
import SupabaseUserMcp.Startup
import SupabaseUserMcp.Startup.Loading
import SupabaseUserMcp.Startup.Credentials
import SupabaseUserMcp.Startup.Safety
import SupabaseUserMcp.Startup.Shutdown
import SupabaseUserMcp.Startup.Completeness
import SupabaseUserMcp.StorageBounds.Composition
