import Chassis.Code
import Chassis.Config.Loader
import Chassis.Config.Schema
import Chassis.Config.Source
import Chassis.Config.Validation
import Chassis.Decimal.Format
import Chassis.Decimal.Shortest
import Chassis.Detail.Basic
import Chassis.Detail.Json
import Chassis.Directory
import Chassis.Directory.Json
import Chassis.Endpoint.Listener
import Chassis.Endpoint.Supervisor
import Chassis.Envelope
import Chassis.Failure
import Chassis.Http.MediaType
import Chassis.Http.Message
import Chassis.Json.Cursor
import Chassis.Json.Fault
import Chassis.Json.Number
import Chassis.Json.Reader
import Chassis.Json.Shape
import Chassis.Json.Skip
import Chassis.Json.Text
import Chassis.Json.Tree
import Chassis.Json.Writer
import Chassis.Kind
import Chassis.Main
import Chassis.Metrics
import Chassis.Net.Host
import Chassis.Net.Percent
import Chassis.Net.SocketAddress
import Chassis.Net.Url
import Chassis.Peer.Call
import Chassis.Peer.Settings
import Chassis.Probe.Options
import Chassis.Probe.Run
import Chassis.Proofs.Detail.Codec
import Chassis.Proofs.Detail.Merge
import Chassis.Proofs.Detail.Regrouping
import Chassis.Proofs.Directory.FrontEnds
import Chassis.Proofs.Directory.History
import Chassis.Proofs.Endpoint.Stopping
import Chassis.Proofs.Endpoint.Supervision
import Chassis.Proofs.Envelope.RoundTrip
import Chassis.Proofs.Envelope.Success
import Chassis.Proofs.Json.Number
import Chassis.Proofs.Json.RoundTrip
import Chassis.Proofs.Json.Text
import Chassis.Proofs.Outcome
import Chassis.Proofs.Relay
import Chassis.Proofs.Rest.Envelopes
import Chassis.Proofs.Rest.Origins
import Chassis.Proofs.Rpc.Messages
import Chassis.Proofs.RpcStatus.Packing
import Chassis.Proofs.RpcStatus.Unpacking
import Chassis.Proofs.Session.Construction
import Chassis.Proofs.Session.History
import Chassis.Proofs.Session.Hooks
import Chassis.Proofs.Session.Operations
import Chassis.Proofs.Session.Teardown
import Chassis.Proofs.Table
import Chassis.Proofs.Text.Utf8
import Chassis.Proofs.Wire.Numbers
import Chassis.Proofs.Wire.RoundTrip
import Chassis.Rest.Service
import Chassis.Rpc.Frame
import Chassis.Rpc.Service
import Chassis.RpcStatus
import Chassis.Service.Log
import Chassis.Service.Run
import Chassis.Session.Action
import Chassis.Session.Component
import Chassis.Session.Registry
import Chassis.Session.Shutdown
import Chassis.Session.Ticker
import Chassis.Table
import Chassis.Text.Blank
import Chassis.Text.Printable
import Chassis.Text.Quoted
import Chassis.Text.Split
import Chassis.Text.Utf8
import Chassis.Toml.Datetime
import Chassis.Toml.Document
import Chassis.Toml.Reader
import Chassis.Toml.Value
import Chassis.Wire.Message
import Chassis.Wire.Reader
import Chassis.Proofs.Rest.RequestIds
import Chassis.Proofs.Net.Percent
import Chassis.Proofs.Net.Url
import Chassis.Proofs.Net.Segment
import Chassis.Proofs.Rest.PeerUsers
import Chassis.Proofs.Http.Values
import Chassis.Proofs.Failure.Layers
import Chassis.Proofs.Config.Problems
import Chassis.Proofs.Toml.Keys
import Chassis.Proofs.Config.Defaults
import Chassis.Proofs.Json.Grammar
import Chassis.Proofs.Json.Ahead
import Chassis.Proofs.Json.Numerals
import Chassis.Proofs.Json.Strings
import Chassis.Proofs.Json.Skipping
import Chassis.Proofs.Json.Spelling
import Chassis.Proofs.Json.Accepted
import Chassis.Proofs.Envelope.Classification
import Chassis.Proofs.Session.Ticking
import Chassis.Proofs.Session.Precedence
import Chassis.Proofs.Envelope.Context
import Chassis.Proofs.Config.Sections
import Chassis.Proofs.Text.Quoted
import Chassis.Proofs.Endpoint.Closing
import Chassis.Proofs.Failure.Assembly
import Chassis.Proofs.Kind.Message
