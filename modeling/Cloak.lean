import Cloak.Lib.Slice
import Cloak.Lib.Ring
import Cloak.Lib.BigEndian
import Cloak.Lib.MinHeap
import Cloak.Lib.Run
import Cloak.Lib.Probing
import Cloak.Lib.Cutter
import Cloak.Lib.Timers
import Cloak.Lib.Transactions
import Cloak.Lib.HoleHeap
import Cloak.Lib.PieceReader
import Cloak.Lib.Layout
import Cloak.Lib.HList
import Cloak.Lib.CheckedInt
import Cloak.Lib.Outcome
import Cloak.Lib.CrlfLines
import Cloak.Lib.Slots
import Cloak.Lib.Refine
import Cloak.Lib.Words
import Cloak.Lib.Rejection
import Cloak.Lib.SipHash
import Cloak.Lib.Octets
import Cloak.Lib.Escape
import Cloak.Lib.Binary64
import Cloak.Lib.Decimal
import Cloak.Lib.Consuming
import Cloak.Common.Random
import Cloak.Common.Crypto
import Cloak.Common.ByteQueue
import Cloak.Common.ReactorTimers
import Cloak.Common.ReactorSlots
import Cloak.Common.ReactorRuns
import Cloak.Common.PlainRelay
import Cloak.Common.ClientHello
import Cloak.Common.HelloLayout
import Cloak.Common.HelloTemplates
import Cloak.Common.HelloTree
import Cloak.Common.HelloTrees
import Cloak.Common.Text
import Cloak.Common.Base64
import Cloak.Common.ByteFifo
import Cloak.Common.Base64Codec
import Cloak.Common.Base64Calls
import Cloak.Common.ConfigSsv
import Cloak.Common.SsvText
import Cloak.Common.Cjson
import Cloak.Common.CjsonFlat
import Cloak.Mux.Frame
import Cloak.Mux.MsgQueue
import Cloak.Mux.Reassembly
import Cloak.Mux.Stream
import Cloak.Mux.OrderedDelivery
import Cloak.Mux.WsFrame
import Cloak.Mux.Conn
import Cloak.Mux.ConnLink
import Cloak.Mux.Strmtab
import Cloak.Mux.Session
import Cloak.Mux.SessionMoves
import Cloak.Mux.SessionSizes
import Cloak.Mux.SessionIds
import Cloak.Mux.SessionNonces
import Cloak.Mux.SessionActs
import Cloak.Mux.SessionBooks
import Cloak.Mux.SessionTimers
import Cloak.Mux.SessionTeardown
import Cloak.Mux.StreamEnd
import Cloak.Mux.SessionRetired
import Cloak.Mux.Valve
import Cloak.Mux.ConnSteps
import Cloak.Mux.Switchboard
import Cloak.Mux.Relay
import Cloak.Mux.RelayBudget
import Cloak.Mux.Backpressure
import Cloak.Mux.ConnReceive
import Cloak.Mux.WsReceive
import Cloak.Mux.ConnNotices
import Cloak.Mux.SessionPool
import Cloak.Mux.SessionSilence
import Cloak.Mux.SessionIsolation
import Cloak.Mux.ReorderCap
import Cloak.Mux.Datagrams
import Cloak.Mux.DgramRelay
import Cloak.Mux.StreamRelayRuns
import Cloak.Mux.DatagramStream
import Cloak.Mux.TokenBucket
import Cloak.Mux.ValveRuns
import Cloak.Mux.TxMeter
import Cloak.Mux.MsgRing
import Cloak.Mux.StrmtabMap
import Cloak.Mux.RandomDraws
import Cloak.Mux.WsCodec
import Cloak.Server.ReplayCache
import Cloak.Server.ServerAuth
import Cloak.Server.ReplayProtection
import Cloak.Server.Registry
import Cloak.Server.Dispatcher
import Cloak.Server.DispatcherHandoff
import Cloak.Server.Proxy
import Cloak.Server.ProxyCalls
import Cloak.Server.ProxyWalk
import Cloak.Server.FirstPacket
import Cloak.Server.Redirect
import Cloak.Server.ClientHelloParse
import Cloak.Server.ClientHelloRead
import Cloak.Server.RegistryChains
import Cloak.Server.RegistryFiled
import Cloak.Server.RegistryIntegrity
import Cloak.Server.FirstPacketEnds
import Cloak.Server.ClientHelloCursor
import Cloak.Server.ClientHelloGrammar
import Cloak.Server.Http
import Cloak.Server.HttpGrammar
import Cloak.Server.HttpRuns
import Cloak.Server.HttpFraming
import Cloak.Server.WsHandshake
import Cloak.Server.WsUpgrade
import Cloak.Server.WsInvariance
import Cloak.Server.UserManager
import Cloak.Server.UserMetering
import Cloak.Server.UserPanel
import Cloak.Server.PanelTable
import Cloak.Server.PanelRuns
import Cloak.Server.PanelIntegrity
import Cloak.Server.HashInternal
import Cloak.Server.UserJson
import Cloak.Server.UserJsonCodec
import Cloak.Client.UdpPiper
import Cloak.Client.UdpPeers
import Cloak.Client.UdpRetire
import Cloak.Client.ClientAuth
import Cloak.Client.ClientHandshake
import Cloak.Client.HandshakeReader
import Cloak.Client.ReplyRoundTrip
import Cloak.Client.HelloRoundTrip
import Cloak.Client.PeerDrain
import Cloak.Client.DatagramReaders
import Cloak.Client.ConnectorRuns
import Cloak.Client.StackRuns
import Cloak.Client.UdpIsolation
import Cloak.Client.UdpOutbound
import Cloak.Client.UdpShows
import Cloak.Client.UdpCalls
import Cloak.Server.RegistryRefines
import Cloak.Mux.SessionReactor
