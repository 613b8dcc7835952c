import Roughenough.Client.Trust
import Roughenough.Merkle.Proofs
import Roughenough.Protocol.Fields
import Roughenough.Server.Keys
import Roughenough.Server.Responses
import Roughenough.Server.Requests
import Roughenough.Server.EndToEnd
import Roughenough.Base.Base64
import Roughenough.Client.Reencode
import Roughenough.Client.Sequence
import Roughenough.Client.Reporting
import Roughenough.ReportingServer.Validation
import Roughenough.ReportingServer.Acceptance
import Roughenough.Protocol.RoundTrip
import Roughenough.Client.Versions
import Roughenough.Server.Selection
import Roughenough.Base.Traces
import Roughenough.Server.Network
import Roughenough.Server.Worker
import Roughenough.Server.Datagrams
import Roughenough.Server.Rotation
import Roughenough.Server.Counters
import Roughenough.Server.Histogram
import Roughenough.Base.Channel
import Roughenough.Server.Aggregator
import Roughenough.Client.Causality
import Roughenough.Client.Answers
import Roughenough.Merkle.Incremental
import Roughenough.Protocol.Grammar
import Roughenough.Protocol.Buffers
import Roughenough.Client.Display
import Roughenough.Client.Retry
import Roughenough.Base.Retry
import Roughenough.Base.Text
import Roughenough.Client.RawFrame
import Roughenough.Protocol.PathEquality
import Roughenough.Base.Encodings
import Roughenough.Common.Encoding
import Roughenough.Client.Address
import Roughenough.Keys.Sealing
import Roughenough.Keys.Storage
import Roughenough.Keys.KeyRing
import Roughenough.Server.Fleet
import Roughenough.Server.Freshness
import Roughenough.Server.Accountability
import Roughenough.Common.Ambiguity
import Roughenough.Keys.Loading
import Roughenough.Base.JsonText
import Roughenough.Keys.Tool
import Roughenough.Client.ServerList
import Roughenough.Client.Cli
import Roughenough.Server.ClockSetting
import Roughenough.Server.Interoperability
import Roughenough.Server.Reflection
import Roughenough.Base.Delivery
import Roughenough.ReportingServer.Delivery
import Roughenough.Base.Poison
import Roughenough.Keys.Backends
import Roughenough.Base.AtomicFile
import Roughenough.Server.MetricsFiles
import Roughenough.Server.Startup
import Roughenough.Server.WrongClocks
