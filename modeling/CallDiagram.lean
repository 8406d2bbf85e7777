import CallDiagram.Main
import CallDiagram.Service.Basic
import CallDiagram.Proofs.Document.Indentation
import CallDiagram.Proofs.Statement.Reader
import CallDiagram.Proofs.Statement.Spelling
import CallDiagram.Proofs.Document.Statements
import CallDiagram.Proofs.Diagram.Sections
import CallDiagram.Proofs.Diagram.Unplaced
import CallDiagram.Proofs.Document.Outline
import CallDiagram.Proofs.Diagram.Machine
import CallDiagram.Proofs.Diagram.Participants
import CallDiagram.Proofs.Diagram.CallStack
import CallDiagram.Proofs.Document.Refusal
import CallDiagram.Proofs.Statement.Grammar
import CallDiagram.Proofs.Document.Classification
import CallDiagram.Proofs.Document.OnePass
import CallDiagram.Proofs.Document.Session
import CallDiagram.Proofs.Diagram.References
import CallDiagram.Proofs.Diagram.Directive
import CallDiagram.Proofs.Diagram.Recovery
import CallDiagram.Proofs.Diagram.Unambiguous
import CallDiagram.Proofs.Document.Groups
import CallDiagram.Proofs.Document.Layout
import CallDiagram.Proofs.Document.Composition
import CallDiagram.Proofs.Document.Prefixes
import CallDiagram.Proofs.Diagram.Links
import CallDiagram.Proofs.Diagram.Counting
import CallDiagram.Proofs.Conversion.Diagram
import CallDiagram.Proofs.Conversion.Products
import CallDiagram.Proofs.Conversion.Batch
import CallDiagram.Proofs.Json.Numbers
import CallDiagram.Proofs.Json.Strings
import CallDiagram.Proofs.Text.Breaks
import CallDiagram.Proofs.Text.Utf8
import CallDiagram.Proofs.Json.RoundTrip
import CallDiagram.Proofs.Service.Body
import CallDiagram.Proofs.Index.File
import CallDiagram.Proofs.CommandLine.Running
import CallDiagram.Proofs.CommandLine.Words
import CallDiagram.Proofs.Document.Bounds
import CallDiagram.Proofs.Document.Json
import CallDiagram.Proofs.FrontEnds
import CallDiagram.Proofs.Action.Attempts
import CallDiagram.Proofs.Conversion.Places
import CallDiagram.Proofs.Conversion.Stopped
import CallDiagram.Proofs.Conversion.Interleaving
import CallDiagram.Proofs.Conversion.Images
import CallDiagram.Proofs.Files.Extended
import CallDiagram.Proofs.Index.Lookup
import CallDiagram.Proofs.Conversion.Listed
import CallDiagram.Proofs.Diagram.Boxes
import CallDiagram.Proofs.Conversion.Links
import CallDiagram.Proofs.Conversion.Targets
import CallDiagram.Proofs.Conversion.Alone
import CallDiagram.Proofs.Files.Obstacles
import CallDiagram.Proofs.Conversion.Accounts
import CallDiagram.Proofs.CommandLine.Work
import CallDiagram.Proofs.CommandLine.Outcomes
import CallDiagram.Proofs.Service.Orders
import CallDiagram.Proofs.Service.Images
import CallDiagram.Proofs.Service.Trees
import CallDiagram.Proofs.Diagram.Declarations
import CallDiagram.Proofs.Diagram.Chains
import CallDiagram.Proofs.Conversion.Stages
import CallDiagram.Proofs.Index.Persistence
import CallDiagram.Proofs.Document.LineEnds
import CallDiagram.Proofs.Index.Suffixes
import CallDiagram.Proofs.Log.Sessions
import CallDiagram.Proofs.Settings.Acceptance
import CallDiagram.Proofs.Index.ImageLinks
