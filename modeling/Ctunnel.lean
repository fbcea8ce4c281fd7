import Ctunnel.Theorems.Backpressure
import Ctunnel.Theorems.ControlOrder
import Ctunnel.Theorems.HandshakeAgreement
import Ctunnel.Theorems.RecordSize
import Ctunnel.Theorems.StackBuffers
import Ctunnel.Theorems.StreamPrefix
import Ctunnel.Client.Session
import Ctunnel.Lib.Walk
import Ctunnel.Net.Moves
import Ctunnel.Server.Incoming
import Ctunnel.Server.Loop
import Ctunnel.Net.ControlLink
import Ctunnel.Net.Inert
import Ctunnel.Theorems.Registration
import Ctunnel.Theorems.UdpReplies
import Ctunnel.Theorems.WorkRequests
import Ctunnel.Net.Account
import Ctunnel.Server.Moves
import Ctunnel.Server.Slots
import Ctunnel.Theorems.ListenerIsolation
import Ctunnel.Theorems.PendingMatch
import Ctunnel.Lib.Cursor
import Ctunnel.Net.Authenticators
import Ctunnel.Net.Fields
import Ctunnel.Net.StreamFields
import Ctunnel.Theorems.DatagramCodec
import Ctunnel.Theorems.PeerKey
import Ctunnel.Theorems.PlainBackpressure
import Ctunnel.Theorems.StreamFrames
import Ctunnel.Crypto.KeyFile
import Ctunnel.Lib.ArrivalOrder
import Ctunnel.Lib.BoundedFifo
import Ctunnel.Lib.Framing
import Ctunnel.Lib.Preamble
import Ctunnel.Lib.Quota
import Ctunnel.Net.Arrivals
import Ctunnel.Net.Sends
import Ctunnel.Server.ControlCalls
import Ctunnel.Server.UdpSteps
import Ctunnel.Theorems.FrameArrival
import Ctunnel.Theorems.IncomingSecrets
import Ctunnel.Theorems.KeyFiles
import Ctunnel.Theorems.OversizedDatagrams
import Ctunnel.Theorems.PendingOrder
import Ctunnel.Theorems.ProxyHeader
import Ctunnel.Theorems.RingQueue
import Ctunnel.Theorems.SendFailures
import Ctunnel.Theorems.ServiceTables
import Ctunnel.Theorems.SlotReuse
import Ctunnel.Theorems.UdpReplayWindow
import Ctunnel.Theorems.UdpSessionLimits
import Ctunnel.Theorems.WorkWindow
import Ctunnel.Lib.Fetch
import Ctunnel.Lib.ProxyHeader
import Ctunnel.Lib.SlotTable
import Ctunnel.Theorems.AuthRates
import Ctunnel.Theorems.MessageCodecs
import Ctunnel.Theorems.ProxyV2
import Ctunnel.Theorems.StaleBytes
import Ctunnel.Client.Reconnect
import Ctunnel.Theorems.Reconnect
import Ctunnel.Theorems.ControlBuffers
import Ctunnel.Lib.Strtol
import Ctunnel.Lib.IniText
import Ctunnel.Lib.IniOrder
import Ctunnel.Lib.IniKeys
import Ctunnel.Config.Keys
import Ctunnel.Config.Load
import Ctunnel.Config.Sections
import Ctunnel.Config.Stored
import Ctunnel.Config.Accepted
import Ctunnel.Theorems.ConfigNumbers
import Ctunnel.Theorems.SectionOrder
import Ctunnel.Config.Authorized
import Ctunnel.Theorems.AuthorizedClients
import Ctunnel.Theorems.AcceptedConfig
import Ctunnel.Theorems.Encodings
import Ctunnel.Lib.Level
import Ctunnel.Util.Metrics
import Ctunnel.Net.Gauges
import Ctunnel.Server.Gauges
import Ctunnel.Client.Gauges
import Ctunnel.Theorems.Gauges
import Ctunnel.Lib.Ledger
import Ctunnel.Server.Ready
import Ctunnel.Server.Sockets
import Ctunnel.Theorems.SocketOwners
import Ctunnel.Theorems.Authenticator
import Ctunnel.Theorems.StreamCipher
import Ctunnel.Theorems.Digest
import Ctunnel.Theorems.AuthenticatedBoxes
import Ctunnel.Hosts
import Ctunnel.Theorems.StreamAgreement
import Ctunnel.Theorems.NonceUniqueness
import Ctunnel.Lib.History
import Ctunnel.Theorems.UdpReflection
import Ctunnel.Theorems.IncomingSteps
import Ctunnel.Theorems.IncomingFrames
import Ctunnel.Lib.Stateless
import Ctunnel.Client.Sockets
import Ctunnel.Theorems.ClientSockets
