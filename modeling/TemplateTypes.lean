import TemplateTypes.Files.Confine
import TemplateTypes.Files.Host
import TemplateTypes.Files.Path
import TemplateTypes.Files.Tree
import TemplateTypes.Files.Uri
import TemplateTypes.Hover.Contents
import TemplateTypes.Hover.Document
import TemplateTypes.Hover.Fault
import TemplateTypes.Hover.Query
import TemplateTypes.Hover.Script
import TemplateTypes.Inference.Merge
import TemplateTypes.Inference.Probing
import TemplateTypes.Inference.Report
import TemplateTypes.Inference.Request
import TemplateTypes.Json.Access
import TemplateTypes.Json.Display
import TemplateTypes.Json.Double
import TemplateTypes.Json.Reader
import TemplateTypes.Json.Value
import TemplateTypes.Json.Writer
import TemplateTypes.Markdown.Fence
import TemplateTypes.Probe.Anchor
import TemplateTypes.Probe.Component
import TemplateTypes.Probe.Escape
import TemplateTypes.Probe.Layout
import TemplateTypes.Probe.Position
import TemplateTypes.Probe.Registry
import TemplateTypes.Resolver.Chain
import TemplateTypes.Resolver.Local
import TemplateTypes.Resolver.Walk
import TemplateTypes.Server.Client
import TemplateTypes.Server.Frame
import TemplateTypes.Server.Message
import TemplateTypes.Server.Rehearsal
import TemplateTypes.Settings.Basic
import TemplateTypes.Settings.CommandLine
import TemplateTypes.Settings.Fields
import TemplateTypes.Source.Cache
import TemplateTypes.Source.Classes
import TemplateTypes.Source.Cursor
import TemplateTypes.Source.Declaration
import TemplateTypes.Source.Expressions
import TemplateTypes.Source.Literals
import TemplateTypes.Source.Parser
import TemplateTypes.Source.Shape
import TemplateTypes.Source.Statements
import TemplateTypes.Source.Types
import TemplateTypes.Text.Basic
import TemplateTypes.Text.Hex
import TemplateTypes.Text.Letter
import TemplateTypes.Text.LetterTable
import TemplateTypes.Text.Quoted
import TemplateTypes.Text.UnprintableTable
import TemplateTypes.Text.Utf8
import TemplateTypes.Text.WholeNumber
import TemplateTypes.TypeText.Brackets
import TemplateTypes.TypeText.Confidence
import TemplateTypes.TypeText.Extracted
import TemplateTypes.TypeText.Normal
import TemplateTypes.TypeText.Qualifier
import TemplateTypes.TypeText.Signature
import TemplateTypes.TypeText.Structure
import TemplateTypes.Workspace.Cache
import TemplateTypes.Workspace.Root
import TemplateTypes.Proofs.Probe.Escape
import TemplateTypes.Proofs.Probe.Layout
import TemplateTypes.Proofs.Text.Search
import TemplateTypes.Proofs.Probe.Anchor
import TemplateTypes.Proofs.Probe.Component
import TemplateTypes.Proofs.Probe.Registry
import TemplateTypes.Proofs.Probe.Placement
import TemplateTypes.Proofs.Text.Spacing
import TemplateTypes.Proofs.TypeText.Brackets
import TemplateTypes.Proofs.TypeText.Normal
import TemplateTypes.Proofs.Inference.Entries
import TemplateTypes.Proofs.Inference.Response
import TemplateTypes.Proofs.Server.Processes
import TemplateTypes.Proofs.Json.Scalars
import TemplateTypes.Proofs.Json.RoundTrip
import TemplateTypes.Proofs.Server.Header
import TemplateTypes.Server.Stream
import TemplateTypes.Proofs.Server.Frame
import TemplateTypes.Proofs.Server.Stream
import TemplateTypes.Proofs.Files.Path
import TemplateTypes.Proofs.Files.Tree
import TemplateTypes.Proofs.Probe.Lifetime
import TemplateTypes.Proofs.Inference.Transcript
import TemplateTypes.Proofs.Inference.Cleanup
import TemplateTypes.Proofs.Markdown.Fence
import TemplateTypes.Proofs.Hover.Selection
import TemplateTypes.Proofs.Inference.Isolation
import TemplateTypes.Proofs.Server.Writes
import TemplateTypes.Proofs.Server.Arrivals
import TemplateTypes.Proofs.Server.Ledger
import TemplateTypes.Proofs.Server.Correspondence
import TemplateTypes.Proofs.Source.Cache
import TemplateTypes.Proofs.Workspace.Steps
import TemplateTypes.Proofs.Workspace.Coherence
import TemplateTypes.Proofs.Workspace.Runs
import TemplateTypes.Proofs.Workspace.Freshness
import TemplateTypes.Proofs.Resolver.Independence
import TemplateTypes.Proofs.Workspace.Refusal
import TemplateTypes.Proofs.Inference.Merge
import TemplateTypes.Proofs.Text.Pieces
import TemplateTypes.Proofs.Text.Names
import TemplateTypes.Proofs.TypeText.Qualifier
import TemplateTypes.Proofs.TypeText.Nesting
import TemplateTypes.Proofs.TypeText.Scanning
import TemplateTypes.Proofs.TypeText.Signature
import TemplateTypes.Proofs.TypeText.Structure
import TemplateTypes.Proofs.Resolver.Rendering
import TemplateTypes.Proofs.Resolver.Methods
import TemplateTypes.Proofs.Resolver.Soundness
import TemplateTypes.Proofs.Server.Tending
import TemplateTypes.Proofs.Server.Ageing
import TemplateTypes.Proofs.Server.Shutdown
import TemplateTypes.Proofs.Server.Listening
import TemplateTypes.Proofs.Server.Sessions
import TemplateTypes.Proofs.Server.Advancing
import TemplateTypes.Proofs.Server.Consulting
import TemplateTypes.Proofs.Server.Handshake
import TemplateTypes.Proofs.Server.Documents
import TemplateTypes.Proofs.Server.Startup
import TemplateTypes.Proofs.Files.Places
import TemplateTypes.Proofs.Server.Positions
import TemplateTypes.Proofs.Text.LineEnds
import TemplateTypes.Proofs.Files.Links
import TemplateTypes.Proofs.Files.Confine
import TemplateTypes.Proofs.Inference.Availability
import TemplateTypes.Proofs.Files.Growth
import TemplateTypes.Proofs.Inference.Containment
import TemplateTypes.Proofs.Workspace.Root
import TemplateTypes.Proofs.TypeText.Stability
import TemplateTypes.Proofs.Files.Removal
import TemplateTypes.Proofs.Probe.Literals
import TemplateTypes.Proofs.Probe.Readback
import TemplateTypes.Proofs.Probe.Upkeep
import TemplateTypes.Proofs.TypeText.Parts
import TemplateTypes.Proofs.Workspace.Recency
import TemplateTypes.Proofs.TypeText.Retention
import TemplateTypes.Proofs.TypeText.Operands
import TemplateTypes.Proofs.TypeText.Items
import TemplateTypes.Proofs.Probe.Reading
import TemplateTypes.Proofs.Resolver.Chain
import TemplateTypes.Proofs.Probe.LastName
import TemplateTypes.Proofs.Probe.EscapedAnchor
import TemplateTypes.Proofs.TypeText.Splitting
import TemplateTypes.Proofs.Hover.Deadline
import TemplateTypes.Proofs.Resolver.Spelling
import TemplateTypes.Proofs.TypeText.Calls
import TemplateTypes.Proofs.TypeText.Members
import TemplateTypes.Proofs.TypeText.Verbatim
import TemplateTypes.Proofs.TypeText.Nullability
import TemplateTypes.Proofs.TypeText.Decoration
import TemplateTypes.Proofs.Probe.Unescaping
import TemplateTypes.Proofs.Probe.Attributes
import TemplateTypes.Proofs.TypeText.Rating
import TemplateTypes.Proofs.Hover.Contents
import TemplateTypes.Proofs.Source.ComponentClass
import TemplateTypes.Proofs.Files.Relative
import TemplateTypes.Proofs.Probe.Specifier
import TemplateTypes.Proofs.Probe.Searching
import TemplateTypes.Proofs.Files.Uri
import TemplateTypes.Proofs.Hover.Document
import TemplateTypes.Proofs.Inference.Arguments
import TemplateTypes.Proofs.Source.LastUsed
import TemplateTypes.Proofs.Resolver.Pipes
import TemplateTypes.Proofs.Workspace.Nearest
import TemplateTypes.Proofs.TypeText.Defaults
import TemplateTypes.Proofs.Probe.Lines
