import AgentFlow.Text.Blank
import AgentFlow.Text.Lines
import AgentFlow.Text.Ranges
import AgentFlow.Text.Digit
import AgentFlow.Text.Printable
import AgentFlow.Text.Case
import AgentFlow.Text.Hex
import AgentFlow.Text.Utf16
import AgentFlow.Text.Encoding
import AgentFlow.Number.Binary64
import AgentFlow.Number.Decimal
import AgentFlow.Number.Shortest
import AgentFlow.Json.Basic
import AgentFlow.Json.Reader
import AgentFlow.Json.Printer
import AgentFlow.Json.Display
import AgentFlow.Json.Finite
import AgentFlow.Decode.Issue
import AgentFlow.Decode.Checked
import AgentFlow.Decode.Field
import AgentFlow.Workflow.Kind
import AgentFlow.Workflow.Payload
import AgentFlow.Workflow.Graph
import AgentFlow.Format.Schema
import AgentFlow.Format.Payload
import AgentFlow.Format.Document
import AgentFlow.Format.Metadata
import AgentFlow.Connection.Cycle
import AgentFlow.Connection.Rule
import AgentFlow.Validation
import AgentFlow.Propagation.Downstream
import AgentFlow.Propagation.Resync
import AgentFlow.Identifier
import AgentFlow.Program.Literal
import AgentFlow.Program.Basic
import AgentFlow.Program.Naming
import AgentFlow.Program.Wiring
import AgentFlow.Program.Build
import AgentFlow.Program.Render
import AgentFlow.Store.Template
import AgentFlow.Store.Basic
import AgentFlow.Store.Run
import AgentFlow.Settings
import AgentFlow.Service.Answer
import AgentFlow.Service.Target
import AgentFlow.Service.Http
import AgentFlow.Service.Cors
import AgentFlow.Service.Endpoint
import AgentFlow.Service.Respond
import AgentFlow.Proofs.Path
import AgentFlow.Proofs.Bookkeeping
import AgentFlow.Proofs.Cycle
import AgentFlow.Proofs.Shape
import AgentFlow.Proofs.Connection
import AgentFlow.Proofs.Downstream
import AgentFlow.Proofs.Resync
import AgentFlow.Proofs.Change
import AgentFlow.Proofs.History
import AgentFlow.Proofs.Identifier
import AgentFlow.Proofs.Naming
import AgentFlow.Proofs.Arrange
import AgentFlow.Proofs.Build
import AgentFlow.Proofs.Definition
import AgentFlow.Proofs.NameResolution
import AgentFlow.Proofs.Settled
import AgentFlow.Proofs.Proposal
import AgentFlow.Proofs.Reading
import AgentFlow.Proofs.Wiring
import AgentFlow.Proofs.Failing
import AgentFlow.Proofs.RoundTrip
import AgentFlow.Proofs.Scanning
import AgentFlow.Proofs.Call
import AgentFlow.Proofs.Capture
import AgentFlow.Proofs.Appearance
import AgentFlow.Proofs.Status
import AgentFlow.Proofs.EdgeId
import AgentFlow.Proofs.Circuit
import AgentFlow.Proofs.LeastOrder
import AgentFlow.Proofs.Loading
import AgentFlow.Proofs.Delivery
import AgentFlow.Proofs.Quoting
import AgentFlow.Proofs.Docstring
import AgentFlow.Proofs.Comment
import AgentFlow.Proofs.Confinement
import AgentFlow.Proofs.Issuing
import AgentFlow.Proofs.RecordField
import AgentFlow.Proofs.Sharing
import AgentFlow.Proofs.Member
import AgentFlow.Proofs.Edit
import AgentFlow.Proofs.Alignment
import AgentFlow.Proofs.DepthFirst
import AgentFlow.Proofs.Outline
import AgentFlow.Proofs.MainFunction
import AgentFlow.Proofs.Mention
import AgentFlow.Proofs.RecordText
import AgentFlow.Proofs.Message
