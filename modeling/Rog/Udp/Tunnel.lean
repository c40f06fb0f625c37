import Rog.ProtoWire
import Rog.Udp.Packet
import Rog.Util.Crypto
import Rog.Util.TcpFrame

/-!
# The ends of UDP tunnels

The readers and writers of the grpc, rev_grpc and pb_tcp tunnels. A write of a gRPC tunnel
comes to the message it sends, and one of a pb_tcp tunnel to the bytes.
-/

namespace Rog

open Lib SocketM

/-! ## gRPC -/

/-- `read` of the gRPC readers, with `convert` for what is done with a message. -/
def readPacket {M : Type} (closed : String) (status : ErrorKind) (convert : M → Io UDPPacket) :
    Streaming M → Io UDPPacket × Streaming M
  | [] => (Io.other closed, [])
  | .ok msg :: rest => (convert msg, rest)
  | .error text :: rest => (Io.raise status text, rest)

structure GrpcUdpClientRunWriter where
  auth : String

structure GrpcUdpClientRunReader where
  reader : Streaming UdpRes

structure GrpcUdpServerReadHalf where
  reader : Streaming UdpReq
  auth : String

def GrpcUdpClientRunWriter.write (h : GrpcUdpClientRunWriter) (packet : UDPPacket) : Io UdpReq :=
  .ok (.fromPacket packet h.auth)

def GrpcUdpClientRunReader.read (h : GrpcUdpClientRunReader) :
    Io UDPPacket × GrpcUdpClientRunReader :=
  let (result, reader) := readPacket "stream closed" .brokenPipe (·.tryInto.unwrap) h.reader
  (result, { h with reader := reader })

namespace GrpcUdpServerReadHalf

def convert (auth : String) (data : UdpReq) : Io UDPPacket :=
  if auth ≠ data.auth then Io.other "auth mismatch" else data.tryInto.unwrap

def read (h : GrpcUdpServerReadHalf) : Io UDPPacket × GrpcUdpServerReadHalf :=
  let (result, reader) := readPacket "no more data" .interrupted (convert h.auth) h.reader
  (result, { h with reader := reader })

end GrpcUdpServerReadHalf

def GrpcUdpServerWriteHalf.write (packet : UDPPacket) : Io UdpRes :=
  match UdpRes.tryFrom packet with
  | .ok res => .ok res
  | .error () => .error .panic

/-- `udp_tunnel`, with what the call of the service returns. -/
def GrpcRunConnector.udpTunnel (pw : Option String) (res : Except String (Streaming UdpRes)) :
    Io (GrpcUdpClientRunReader × GrpcUdpClientRunWriter) :=
  match res with
  | .error _ => Io.other "grpc stream error"
  | .ok resp => do
      let auth ← unwrap pw
      return (⟨resp⟩, ⟨auth⟩)

/-- The reader that `accept` returns for a call of `GrpcServer::udp`. -/
def GrpcRunListener.udpSocket (auth : String) (request : Streaming UdpReq) : GrpcUdpServerReadHalf :=
  ⟨request, auth⟩

/-! ## Reverse gRPC -/

structure RevGrpcUdpClientWriter where
  auth : String

structure RevGrpcUdpClientReader where
  reader : Streaming RevUdpRes

structure RevGrpcUdpServerReader where
  reader : Streaming RevUdpReq
  auth : String

def RevGrpcUdpClientWriter.write (h : RevGrpcUdpClientWriter) (packet : UDPPacket) : Io RevUdpReq :=
  .ok (.fromPacket packet h.auth)

def RevGrpcUdpClientReader.read (h : RevGrpcUdpClientReader) :
    Io UDPPacket × RevGrpcUdpClientReader :=
  let (result, reader) := readPacket "rev grpc udp stream closed" .brokenPipe
    (·.tryInto.orErr "rev grpc udp res convert error") h.reader
  (result, { h with reader := reader })

namespace RevGrpcUdpServerReader

def convert (auth : String) (req : RevUdpReq) : Io UDPPacket :=
  if req.auth ≠ auth then Io.other "rev grpc udp auth mismatch"
  else req.tryInto.orErr "rev grpc udp req convert error"

def read (h : RevGrpcUdpServerReader) : Io UDPPacket × RevGrpcUdpServerReader :=
  let (result, reader) :=
    readPacket "rev grpc udp stream closed" .brokenPipe (convert h.auth) h.reader
  (result, { h with reader := reader })

end RevGrpcUdpServerReader

def RevGrpcUdpServerWriter.write (packet : UDPPacket) : Io RevUdpRes :=
  match RevUdpRes.tryFrom packet with
  | .ok res => .ok res
  | .error () => Io.other "rev grpc udp res convert error"

/-- The message with which `handle_manage_req` opens a tunnel, and the ends it makes of the
response. -/
def revUdpHello (auth connId : String) : RevUdpReq := ⟨auth, none, none, some connId⟩

def revUdpPair (auth : String) (res : Streaming RevUdpRes) :
    RevGrpcUdpClientReader × RevGrpcUdpClientWriter :=
  (⟨res⟩, ⟨auth⟩)

/-- The reader that `RevGrpcServer::udp` delivers. The first message of the stream is taken for
its `auth` and its `conn_id`. -/
def RevGrpcServer.udpReader : Streaming RevUdpReq → Option RevGrpcUdpServerReader
  | .ok firstMsg :: inStream => some ⟨inStream, firstMsg.auth⟩
  | _ => none

/-! ## pb_tcp -/

structure PbTcpUdpCrates where
  req : Prost UdpReq
  res : Prost UdpRes
  crypto : CryptoCrates

structure PbTcpUdpCrates.RoundTrips (x : PbTcpUdpCrates) : Prop where
  req : x.req.RoundTrips
  res : x.res.RoundTrips
  crypto : x.crypto.RoundTrips

def PbTcpUdpCrates.standard : PbTcpUdpCrates := ⟨UdpReq.wire, UdpRes.wire, .standard⟩

theorem PbTcpUdpCrates.standard_roundTrips : standard.RoundTrips :=
  ⟨UdpReq.wire_roundTrips, UdpRes.wire_roundTrips, CryptoCrates.standard_roundTrips⟩

/-- A `write` call, with the random numbers it draws. -/
structure UdpWriteCall where
  packet : UDPPacket
  authNonce : Nonce
  dstNonce : Nonce
  srcNonce : Nonce
  payloadNonce : Nonce
  mask : UInt64

namespace CryptoCrates

variable (x : CryptoCrates)

/-- `if let Some(ref v) = field { field = Some(encrypt_field(v, &self.pw)?) }`. -/
def encryptOption (nonce : Nonce) (field : Option String) (pw : String) : Io (Option String) :=
  match field with
  | some v => (x.encryptField nonce v pw).map some
  | none => .ok none

def decryptOption (field : Option String) (pw : String) : Io (Option String) :=
  match field with
  | some enc => (x.decryptField enc pw).map some
  | none => .ok none

/-- `if let Some(payload) = req.payload { req.payload = Some(encrypt_bytes(&payload, &self.pw)?) }`. -/
def encryptPayload (nonce : Nonce) (payload : Option Bytes) (pw : String) : Io (Option Bytes) :=
  match payload with
  | some payload => (x.encryptBytes nonce payload pw).map some
  | none => .ok none

def decryptPayload (payload : Option Bytes) (pw : String) : Io (Option Bytes) :=
  match payload with
  | some payload => (x.decryptBytes payload pw).map some
  | none => .ok none

theorem RoundTrips.decryptPayload {x : CryptoCrates} (hx : x.RoundTrips) {nonce : Nonce}
    {pw : String} {payload enc : Option Bytes} (h : x.encryptPayload nonce payload pw = .ok enc) :
    x.decryptPayload enc pw = .ok payload := by
  cases payload with
  | none =>
      obtain rfl := Except.ok.inj h
      rfl
  | some bytes =>
      rw [encryptPayload] at h
      cases henc : x.encryptBytes nonce bytes pw with
      | error e => simp [henc, Except.map] at h
      | ok c =>
          obtain rfl : some c = enc := by simpa [henc, Except.map] using h
          simp [CryptoCrates.decryptPayload, hx.decryptBytes henc, Except.map]

theorem RoundTrips.decryptOption {x : CryptoCrates} (hx : x.RoundTrips) {nonce : Nonce}
    {pw : String} {field enc : Option String} (h : x.encryptOption nonce field pw = .ok enc) :
    x.decryptOption enc pw = .ok field := by
  cases field with
  | none =>
      obtain rfl := Except.ok.inj h
      rfl
  | some v =>
      rw [encryptOption] at h
      cases henc : x.encryptField nonce v pw with
      | error e => simp [henc, Except.map] at h
      | ok c =>
          obtain rfl : some c = enc := by simpa [henc, Except.map] using h
          simp [CryptoCrates.decryptOption, hx.decryptField henc, Except.map]

end CryptoCrates

structure PbTcpUdpClientWriter where
  auth : String
  pw : String

structure PbTcpUdpClientReader where
  reader : Socket
  pw : String

structure PbTcpUdpServerReader where
  reader : Socket
  auth : String
  pw : String

structure PbTcpUdpServerWriter where
  pw : String

namespace PbTcpUdpClientWriter

def encode (x : CryptoCrates) (h : PbTcpUdpClientWriter) (call : UdpWriteCall) : Io UdpReq := do
  let req := UdpReq.fromPacket call.packet h.auth
  let auth ← x.encryptField call.authNonce req.auth h.pw
  let dstAddr ← x.encryptOption call.dstNonce req.dstAddr h.pw
  let srcAddr ← x.encryptOption call.srcNonce req.srcAddr h.pw
  let payload ← x.encryptPayload call.payloadNonce req.payload h.pw
  return { req with auth := auth, dstAddr := dstAddr, srcAddr := srcAddr, payload := payload }

def write (x : PbTcpUdpCrates) (h : PbTcpUdpClientWriter) (call : UdpWriteCall) : Io Bytes := do
  let req ← encode x.crypto h call
  return writeFrame x.req call.mask req

end PbTcpUdpClientWriter

namespace PbTcpUdpClientReader

def convert (x : CryptoCrates) (pw : String) (res : UdpRes) : Io UDPPacket := do
  let dstAddr ← x.decryptOption res.dstAddr pw
  let srcAddr ← x.decryptOption res.srcAddr pw
  let payload ← x.decryptBytes res.payload pw
  let res := { res with dstAddr := dstAddr, srcAddr := srcAddr, payload := payload }
  res.tryInto.orErr "pb tcp udp res convert error"

def readOn (x : PbTcpUdpCrates) (pw : String) : SocketM UDPPacket := do
  let res ← readMsg x.res
  ofIo (convert x.crypto pw res)

def read (x : PbTcpUdpCrates) (h : PbTcpUdpClientReader) : Io UDPPacket × PbTcpUdpClientReader :=
  let (result, reader) := (readOn x h.pw).runOn h.reader
  (result, { h with reader := reader })

end PbTcpUdpClientReader

namespace PbTcpUdpServerReader

def convert (x : CryptoCrates) (auth pw : String) (req : UdpReq) : Io UDPPacket := do
  let decryptedAuth ← x.decryptField req.auth pw
  if decryptedAuth ≠ auth then Io.other "pb tcp udp auth mismatch"
  else
    let dstAddr ← x.decryptOption req.dstAddr pw
    let srcAddr ← x.decryptOption req.srcAddr pw
    let payload ← x.decryptPayload req.payload pw
    let req := { req with dstAddr := dstAddr, srcAddr := srcAddr, payload := payload }
    req.tryInto.orErr "pb tcp udp req convert error"

def readOn (x : PbTcpUdpCrates) (auth pw : String) : SocketM UDPPacket := do
  let req ← readMsg x.req
  ofIo (convert x.crypto auth pw req)

def read (x : PbTcpUdpCrates) (h : PbTcpUdpServerReader) : Io UDPPacket × PbTcpUdpServerReader :=
  let (result, reader) := (readOn x h.auth h.pw).runOn h.reader
  (result, { h with reader := reader })

end PbTcpUdpServerReader

namespace PbTcpUdpServerWriter

def encode (x : CryptoCrates) (h : PbTcpUdpServerWriter) (call : UdpWriteCall) : Io UdpRes := do
  let res ← match UdpRes.tryFrom call.packet with
    | .ok res => .ok res
    | .error () => Io.other "pb tcp udp res convert error"
  let dstAddr ← x.encryptOption call.dstNonce res.dstAddr h.pw
  let srcAddr ← x.encryptOption call.srcNonce res.srcAddr h.pw
  let payload ← x.encryptBytes call.payloadNonce res.payload h.pw
  return { res with dstAddr := dstAddr, srcAddr := srcAddr, payload := payload }

def write (x : PbTcpUdpCrates) (h : PbTcpUdpServerWriter) (call : UdpWriteCall) : Io Bytes := do
  let res ← encode x.crypto h call
  return writeFrame x.res call.mask res

end PbTcpUdpServerWriter

/-- `udp_tunnel`, on a connection that will receive `incoming`: what it writes, and the ends. -/
def PbTcpRunConnector.udpTunnel (pw : String) (incoming : Socket) :
    Bytes × PbTcpUdpClientReader × PbTcpUdpClientWriter :=
  (writeConnType connTypeUdp, ⟨incoming, pw⟩, ⟨pw, pw⟩)

/-- The ends that `accept` returns for a connection of the type UDP. -/
def PbTcpRunAcceptor.udpSocket (pw : String) (reader : Socket) :
    PbTcpUdpServerReader × PbTcpUdpServerWriter :=
  (⟨reader, pw, pw⟩, ⟨pw⟩)

end Rog
