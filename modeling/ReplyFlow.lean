import ReplyFlow.Main
import ReplyFlow.Proofs.Compile.Naming
import ReplyFlow.Proofs.Compile.Blueprint
import ReplyFlow.Proofs.Graph.Soundness
import ReplyFlow.Service.Handler
import ReplyFlow.Template.Placeholder
import ReplyFlow.Proofs.Compile.Realisation
import ReplyFlow.Proofs.Compile.Shape
import ReplyFlow.Proofs.Compile.Integrity
import ReplyFlow.Proofs.Compile.Replies
import ReplyFlow.Proofs.Compile.Wiring
import ReplyFlow.Proofs.Compile.Simulation
import ReplyFlow.Proofs.Compile.Coverage
import ReplyFlow.Proofs.Compile.Cutting
import ReplyFlow.Proofs.Compile.Normalising
import ReplyFlow.Proofs.Compile.Accounting
import ReplyFlow.Proofs.Compile.Trunk
import ReplyFlow.Proofs.Compile.Raising
import ReplyFlow.Proofs.Compile.Exits
import ReplyFlow.Proofs.Compile.Locality
import ReplyFlow.Proofs.Compile.Overrun
import ReplyFlow.Proofs.Decimal.Equality
import ReplyFlow.Proofs.Layout.Exact
import ReplyFlow.Proofs.Compile.Apart
import ReplyFlow.Proofs.Store.Calls
import ReplyFlow.Proofs.Store.History
import ReplyFlow.Proofs.Graph.Encoding
import ReplyFlow.Proofs.Store.Tables
import ReplyFlow.Proofs.Store.Rows
import ReplyFlow.Proofs.Json.Equality
import ReplyFlow.Proofs.Store.Databases
import ReplyFlow.Proofs.Store.Mirrored
import ReplyFlow.Proofs.Store.Agreement
import ReplyFlow.Proofs.Store.Listing
import ReplyFlow.Proofs.Schema.Accepted
import ReplyFlow.Proofs.Service.Stages
import ReplyFlow.Proofs.Service.Failures
import ReplyFlow.Proofs.Service.Requests
import ReplyFlow.Proofs.Service.Posting
import ReplyFlow.Proofs.Layout.RowSearch
import ReplyFlow.Proofs.Compile.Placement
import ReplyFlow.Proofs.Compile.Columns
import ReplyFlow.Proofs.Compile.Fans
import ReplyFlow.Proofs.Time.Calendar
import ReplyFlow.Proofs.Time.Reading
import ReplyFlow.Proofs.Template.Encoding
import ReplyFlow.Proofs.Time.Accepted
import ReplyFlow.Proofs.Workflow.Encoding
import ReplyFlow.Proofs.Store.Decoding
import ReplyFlow.Proofs.Decimal.Digits
import ReplyFlow.Proofs.Json.Texts
import ReplyFlow.Proofs.Decimal.Quotients
import ReplyFlow.Proofs.Decimal.Numerals
import ReplyFlow.Proofs.Json.Numbers
import ReplyFlow.Proofs.Graph.Verdict
import ReplyFlow.Proofs.Outline.Lines
import ReplyFlow.Proofs.Canvas.Drawing
import ReplyFlow.Proofs.Compile.Bookkeeping
import ReplyFlow.Proofs.Decimal.Sums
import ReplyFlow.Proofs.Compile.Stalling
import ReplyFlow.Proofs.Json.Reading
import ReplyFlow.Proofs.Json.Accepted
import ReplyFlow.Proofs.Store.Legible
import ReplyFlow.Proofs.Compile.Edges
import ReplyFlow.Proofs.Template.Placeholders
import ReplyFlow.Proofs.Canvas.Paths
import ReplyFlow.Proofs.Canvas.Corner
import ReplyFlow.Proofs.Canvas.Previews
