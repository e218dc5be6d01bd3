import RouteControl.Bytes.Hex
import RouteControl.Connection.Enumeration
import RouteControl.Connection.Change
import RouteControl.Connection.Lookup
import RouteControl.Connection.Concurrency
import RouteControl.Listener.Stream
import RouteControl.CommandLine.Execute
import RouteControl.Listener.Subscription
import RouteControl.Main
import RouteControl.Proofs.Bytes.Overwrite
import RouteControl.Proofs.Draft.Header
import RouteControl.Proofs.Message.Framing
import RouteControl.Proofs.Response.Reading
import RouteControl.Proofs.Connection.Reassembly
import RouteControl.Proofs.Connection.Calls
import RouteControl.Proofs.Connection.Retry
import RouteControl.Proofs.Connection.Completeness
import RouteControl.Proofs.Connection.Noise
import RouteControl.Proofs.Connection.Progress
import RouteControl.Proofs.Connection.Turns
import RouteControl.Proofs.Connection.Isolation
import RouteControl.Proofs.Bytes.Blocks
import RouteControl.Proofs.Draft.Contents
import RouteControl.Proofs.Request.Contents
import RouteControl.Proofs.Message.Kind
import RouteControl.Proofs.Response.Verdict
import RouteControl.Proofs.Connection.Preparation
import RouteControl.Proofs.Connection.Acknowledgement
import RouteControl.Proofs.Connection.Enumeration
import RouteControl.Proofs.Record.Route
import RouteControl.Proofs.Request.SourceRoute
import RouteControl.Proofs.Connection.SourceRoutes
import RouteControl.Proofs.Listener.Course
import RouteControl.Proofs.Listener.Steps
import RouteControl.Proofs.Listener.Delivery
import RouteControl.Proofs.Request.RouteMessage
import RouteControl.Proofs.Connection.Lookup
import RouteControl.Proofs.Connection.Refusal
import RouteControl.Proofs.Connection.Gateways
import RouteControl.Proofs.Kernel.Table
import RouteControl.Proofs.Connection.Serving
import RouteControl.Proofs.CommandLine.RouteAnswer
import RouteControl.Proofs.Message.Reader
import RouteControl.Proofs.Attribute.Kind
import RouteControl.Proofs.Attribute.Row
import RouteControl.Proofs.Attribute.Tree
import RouteControl.Proofs.Draft.Message
import RouteControl.Proofs.Draft.Tree
import RouteControl.Proofs.Draft.Session
import RouteControl.Proofs.Attribute.Value
import RouteControl.Proofs.Record.Fields
import RouteControl.Proofs.Selection
import RouteControl.Proofs.Connection.Deletion
import RouteControl.Proofs.Connection.Fragmentation
import RouteControl.Proofs.Record.Name
import RouteControl.Proofs.Listener.Dispatch
import RouteControl.Proofs.Attribute.Store
import RouteControl.Proofs.Draft.Nest
import RouteControl.Proofs.Prefix
import RouteControl.Proofs.Connection.Coverage
import RouteControl.Proofs.Connection.Families
import RouteControl.Proofs.Draft.Withdrawal
import RouteControl.Proofs.Record.Requests
import RouteControl.Proofs.CommandLine.AddressListing
import RouteControl.Proofs.Text.Decimal
import RouteControl.Proofs.Address.Text
import RouteControl.Proofs.Prefix.Text
import RouteControl.Proofs.Connection.Sending
import RouteControl.Proofs.CommandLine.PrefixLengths
import RouteControl.Proofs.Kernel.Layout
import RouteControl.Proofs.Attribute.Reader
