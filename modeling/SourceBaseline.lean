import SourceBaseline.Baseline.Checksum
import SourceBaseline.Baseline.Store
import SourceBaseline.Baseline.Symbols
import SourceBaseline.Boundary
import SourceBaseline.Change
import SourceBaseline.CommandLine
import SourceBaseline.CommandLine.Arguments
import SourceBaseline.Comparison
import SourceBaseline.Deadline
import SourceBaseline.Disk
import SourceBaseline.Disk.Change
import SourceBaseline.Disk.Resolution
import SourceBaseline.Disk.Tree
import SourceBaseline.Engine
import SourceBaseline.Error
import SourceBaseline.Exclude
import SourceBaseline.Extraction
import SourceBaseline.Fault
import SourceBaseline.Git
import SourceBaseline.Glob
import SourceBaseline.Glob.Parser
import SourceBaseline.Host
import SourceBaseline.Host.Description
import SourceBaseline.Json
import SourceBaseline.Json.Decode
import SourceBaseline.Json.Parser
import SourceBaseline.Json.Printer
import SourceBaseline.Language
import SourceBaseline.Language.Declaration
import SourceBaseline.Language.Go
import SourceBaseline.Language.Markdown
import SourceBaseline.Language.Python
import SourceBaseline.Language.Rust
import SourceBaseline.Language.Shell
import SourceBaseline.Language.TypeScript
import SourceBaseline.Lock
import SourceBaseline.Main
import SourceBaseline.Path
import SourceBaseline.Proofs.Baseline.Damage
import SourceBaseline.Proofs.Baseline.Document
import SourceBaseline.Proofs.Baseline.Record
import SourceBaseline.Proofs.Baseline.Saving
import SourceBaseline.Proofs.Beside
import SourceBaseline.Proofs.Boundary.Acceptance
import SourceBaseline.Proofs.Boundary.Containment
import SourceBaseline.Proofs.Boundary.Excursion
import SourceBaseline.Proofs.Boundary.Lexical
import SourceBaseline.Proofs.Boundary.Locality
import SourceBaseline.Proofs.Boundary.Obstruction
import SourceBaseline.Proofs.Boundary.Resolution
import SourceBaseline.Proofs.Boundary.Run
import SourceBaseline.Proofs.Boundary.Standing
import SourceBaseline.Proofs.Calls
import SourceBaseline.Proofs.Cleanup
import SourceBaseline.Proofs.Comparison
import SourceBaseline.Proofs.Comparison.Files
import SourceBaseline.Proofs.Disk.Alike
import SourceBaseline.Proofs.Disk.Change
import SourceBaseline.Proofs.Disk.Fitting
import SourceBaseline.Proofs.Disk.Frame
import SourceBaseline.Proofs.Disk.Listing
import SourceBaseline.Proofs.Disk.Resemblance
import SourceBaseline.Proofs.Disk.Secrecy
import SourceBaseline.Proofs.Disk.Slots
import SourceBaseline.Proofs.Disk.Straight
import SourceBaseline.Proofs.Disk.Ways
import SourceBaseline.Proofs.Engine.Agreement
import SourceBaseline.Proofs.Engine.Atomicity
import SourceBaseline.Proofs.Engine.Cleanup
import SourceBaseline.Proofs.Engine.Confinement
import SourceBaseline.Proofs.Engine.Correspondence
import SourceBaseline.Proofs.Engine.Corruption
import SourceBaseline.Proofs.Engine.Exclusion
import SourceBaseline.Proofs.Engine.Footprint
import SourceBaseline.Proofs.Engine.Isolation
import SourceBaseline.Proofs.Engine.Lifecycle
import SourceBaseline.Proofs.Engine.Presence
import SourceBaseline.Proofs.Engine.Preservation
import SourceBaseline.Proofs.Engine.Readback
import SourceBaseline.Proofs.Engine.Replacement
import SourceBaseline.Proofs.Engine.Secrecy
import SourceBaseline.Proofs.Engine.Stability
import SourceBaseline.Proofs.Engine.StateDirectory
import SourceBaseline.Proofs.Exclude
import SourceBaseline.Proofs.Extraction
import SourceBaseline.Proofs.Extraction.Files
import SourceBaseline.Proofs.Git.Changes
import SourceBaseline.Proofs.Git.Listing
import SourceBaseline.Proofs.Host
import SourceBaseline.Proofs.Json.RoundTrip
import SourceBaseline.Proofs.Json.Settlement
import SourceBaseline.Proofs.Language
import SourceBaseline.Proofs.Language.Comments
import SourceBaseline.Proofs.Language.Declaration
import SourceBaseline.Proofs.Language.Markdown
import SourceBaseline.Proofs.Language.Naming
import SourceBaseline.Proofs.Language.Python
import SourceBaseline.Proofs.Language.Rust
import SourceBaseline.Proofs.Language.Shell
import SourceBaseline.Proofs.Language.Signature
import SourceBaseline.Proofs.Language.Traversal
import SourceBaseline.Proofs.Lock
import SourceBaseline.Proofs.Ownership
import SourceBaseline.Proofs.Path.Normal
import SourceBaseline.Proofs.Precedence
import SourceBaseline.Proofs.Report
import SourceBaseline.Proofs.Snapshot
import SourceBaseline.Proofs.Snapshot.Leading
import SourceBaseline.Proofs.Spared
import SourceBaseline.Proofs.Staging
import SourceBaseline.Proofs.Steps
import SourceBaseline.Proofs.SyntaxTree.Places
import SourceBaseline.Proofs.SyntaxTree.Preorder
import SourceBaseline.Proofs.Taking
import SourceBaseline.Proofs.Target
import SourceBaseline.Proofs.Text.ByteOrder
import SourceBaseline.Proofs.Text.Matching
import SourceBaseline.Proofs.Text.Positions
import SourceBaseline.Proofs.Text.Redaction
import SourceBaseline.Proofs.Text.Words
import SourceBaseline.Proofs.Walk
import SourceBaseline.Proofs.Walk.Enumeration
import SourceBaseline.Registry
import SourceBaseline.Report
import SourceBaseline.Settings
import SourceBaseline.Sha256
import SourceBaseline.Snapshot
import SourceBaseline.SortedMap
import SourceBaseline.Staging
import SourceBaseline.Symbol
import SourceBaseline.SyntaxTree
import SourceBaseline.SyntaxTree.Listing
import SourceBaseline.Target
import SourceBaseline.Text.Blank
import SourceBaseline.Text.Hidden
import SourceBaseline.Text.Letter
import SourceBaseline.Text.Lines
import SourceBaseline.Text.Quoted
import SourceBaseline.Text.Redaction
import SourceBaseline.Text.Utf8
import SourceBaseline.Toml
import SourceBaseline.Toml.Parser
import SourceBaseline.Toml.Quoted
import SourceBaseline.Visibility
import SourceBaseline.Walk
