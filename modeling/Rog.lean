import Rog.Lib.Machine
import Rog.Lib.Erasure
import Rog.Lib.Notify
import Rog.Lib.FiniteSum
import Rog.Block
import Rog.Pool.System
import Rog.Pool.Accounting
import Rog.Pool.Limit
import Rog.Pool.WakeUp
import Rog.Lib.Pipeline
import Rog.Relay.Ends
import Rog.Relay.Buffered
import Rog.Relay.Unbuffered
import Rog.Relay.Fidelity
import Rog.Relay.Drain
import Rog.Lib.Segments
import Rog.Lib.BigEndian
import Rog.Io
import Rog.Lib.Reassembly
import Rog.Lib.LeftOver
import Rog.Proto
import Rog.Util.Crypto
import Rog.Util.TcpFrame
import Rog.Util.Address
import Rog.Stream.Stream
import Rog.Stream.PbTcp
import Rog.Stream.PbTcpSession
import Rog.Lib.Protobuf
import Rog.Lib.Base64
import Rog.ProtoWire
import Rog.Lib.ChaCha20Poly1305
import Rog.Lib.Sha256
import Rog.Stream.Grpc
import Rog.Stream.Reassembly
import Rog.Stream.Split
import Rog.Lib.Oneshot
import Rog.Lib.Inverse
import Rog.Reverse.State
import Rog.Reverse.Call
import Rog.Reverse.Incoming
import Rog.Reverse.Manager
import Rog.Reverse.System
import Rog.Reverse.Pending
import Rog.Reverse.Pairing
import Rog.Reverse.Rejection
import Rog.Reverse.Registry
import Rog.Udp.Packet
import Rog.Lib.Results
import Rog.Udp.Tunnel
import Rog.Udp.Fidelity
import Rog.Listener.Handshake
import Rog.Listener.RevGrpc
import Rog.Listener.Survival
import Rog.Listener.Destination
import Rog.Listener.ClearPort
import Rog.Listener.Decoding
import Rog.Lib.Search
import Rog.Lib.Utf8
import Rog.Lib.Lines
import Rog.Stream.Tcp
import Rog.Util.IpText
import Rog.Util.Socks5
import Rog.Listener.Http
import Rog.Listener.Socks5
import Rog.Listener.Htss5
import Rog.Listener.HttpServe
import Rog.Listener.HttpFidelity
import Rog.Listener.Loops
import Rog.Listener.HttpTarget
import Rog.Listener.HttpSegmentation
import Rog.Util.Socks5Format
import Rog.Util.IpNotation
import Rog.Util.Socks5Address
import Rog.Listener.Agreement
import Rog.Util.IpParse
import Rog.Util.Text
import Rog.Util.ParseSize
import Rog.Router.Matcher
import Rog.Router.RouteData
import Rog.Router.DefaultRouter
import Rog.Listener.IpRouting
import Rog.Router.FirstMatch
import Rog.Router.Exclusion
import Rog.Router.Resolver
import Rog.Router.CacheKeys
import Rog.Router.CacheCleanup
import Rog.Router.RouterSet
import Rog.Udp.Datagram
import Rog.Udp.SocketAddr
import Rog.Udp.Reply
import Rog.Object.Udp
import Rog.Object.UdpCancel
import Rog.Object.UdpForward
import Rog.Object.Start
import Rog.Object.Reply
import Rog.Listener.FalseLoops
import Rog.Listener.Truncation
import Rog.Stream.Udp
import Rog.Stream.UdpLabels
import Rog.Stream.UdpSource
import Rog.Object.Alone
import Rog.Object.Sharing
import Rog.Object.Configured
import Rog.Object.RawUdp
import Rog.Util.FrameCut
import Rog.Object.UdpChain
import Rog.Relay.Row
import Rog.Relay.Leaving
import Rog.Relay.Flow
import Rog.Listener.PbTcp
