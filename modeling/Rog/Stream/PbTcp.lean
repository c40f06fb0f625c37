import Rog.ProtoWire
import Rog.Stream.Stream
import Rog.Util.Address
import Rog.Util.Crypto
import Rog.Util.TcpFrame

/-!
# The pb_tcp transport

`PbTcpRunConnector::connect`, and the streams of `stream/pb_tcp_client.rs` and
`stream/pb_tcp_server.rs`. The bytes that a call writes to its connection are part of its
result; the bytes that come in are given to a stream when it is made.
-/

namespace Rog

open Lib SocketM

structure PbTcpCrates where
  req : Prost StreamReq
  res : Prost StreamRes
  crypto : CryptoCrates

structure PbTcpCrates.RoundTrips (x : PbTcpCrates) : Prop where
  req : x.req.RoundTrips
  res : x.res.RoundTrips
  crypto : x.crypto.RoundTrips

def PbTcpCrates.standard : PbTcpCrates := ⟨StreamReq.wire, StreamRes.wire, .standard⟩

theorem PbTcpCrates.standard_roundTrips : standard.RoundTrips :=
  ⟨StreamReq.wire_roundTrips, StreamRes.wire_roundTrips, CryptoCrates.standard_roundTrips⟩

/-- The reading side of a stream: its connection, its password, and whether payloads are
encrypted. -/
structure PbTcpReader where
  reader : Socket
  pw : String
  encrypt : Bool

/-! ## Payloads -/

/-- A `write` call, with the random numbers it draws. -/
structure WriteCall where
  buf : Bytes
  nonce : Nonce
  mask : UInt64

section Payload

variable {M : Type}

def sealPayload (x : CryptoCrates) (pw : String) (encrypt : Bool) (call : WriteCall) : Io Bytes :=
  if encrypt then x.encryptBytes call.nonce call.buf pw else .ok call.buf

/-- `write` of the write halves and the streams, for messages `wrap payload`. -/
def writePayload (codec : Prost M) (wrap : Bytes → M) (x : CryptoCrates) (pw : String)
    (encrypt : Bool) (call : WriteCall) : Io Bytes := do
  let payload ← sealPayload x pw encrypt call
  return writeFrame codec call.mask (wrap payload)

/-- What `read_payload` makes of the payload of a message. -/
def openPayload (x : CryptoCrates) (pw : String) (encrypt : Bool) (payload : Bytes) : Io Bytes :=
  if payload.isEmpty then .ok []
  else if encrypt then x.decryptBytes payload pw
  else .ok payload

def readPayloadMsg (codec : Prost M) (payloadOf : M → Bytes) (x : CryptoCrates) (pw : String)
    (encrypt : Bool) : SocketM Bytes := do
  let msg ← readMsg codec
  ofIo (openPayload x pw encrypt (payloadOf msg))

/-- The part of `read_payload` that gets the next message. -/
def pullPayload (codec : Prost M) (payloadOf : M → Bytes) (x : CryptoCrates) (s : PbTcpReader) :
    Io Bytes × PbTcpReader :=
  let (result, reader) := (readPayloadMsg codec payloadOf x s.pw s.encrypt).runOn s.reader
  (result, { s with reader := reader })

end Payload

/-! ## The client -/

def clientRequest (payload : Bytes) : StreamReq := { StreamReq.default with payload := some payload }

abbrev PbTcpClientReadHalf := Reassembler PbTcpReader UInt8

abbrev PbTcpClientRunStream := RunStream PbTcpReader

structure PbTcpWriteHalf where
  pw : String
  encrypt : Bool
  deriving DecidableEq

namespace PbTcpClientWriteHalf

def write (x : PbTcpCrates) (h : PbTcpWriteHalf) (call : WriteCall) : Io Bytes :=
  writePayload x.req clientRequest x.crypto h.pw h.encrypt call

end PbTcpClientWriteHalf

namespace PbTcpClientReadHalf

def read (x : PbTcpCrates) (cap : ℕ) (h : PbTcpClientReadHalf) : Io Bytes × PbTcpClientReadHalf :=
  Reassembler.read (pullPayload x.res StreamRes.payload x.crypto) cap h

end PbTcpClientReadHalf

namespace PbTcpClientRunStream

def new (reader : Socket) (pw : String) (encrypt : Bool) : PbTcpClientRunStream :=
  RunStream.new ⟨reader, pw, encrypt⟩

def read (x : PbTcpCrates) (cap : ℕ) (s : PbTcpClientRunStream) : Io Bytes × PbTcpClientRunStream :=
  RunStream.read (pullPayload x.res StreamRes.payload x.crypto) cap s

def write (x : PbTcpCrates) (s : PbTcpClientRunStream) (call : WriteCall) : Io Bytes :=
  writePayload x.req clientRequest x.crypto s.half.source.pw s.half.source.encrypt call

def split (s : PbTcpClientRunStream) : PbTcpClientReadHalf × PbTcpWriteHalf :=
  (RunStream.split s, ⟨s.half.source.pw, s.half.source.encrypt⟩)

end PbTcpClientRunStream

/-- The random numbers that `connect` draws. -/
structure ConnectRandom where
  authNonce : Nonce
  addrNonce : Nonce
  mask : UInt64

namespace PbTcpRunConnector

/-- `connect` with password `pw`, on a connection that will receive `incoming`: what it
writes, and the stream. -/
def connect (x : PbTcpCrates) (pw : String) (random : ConnectRandom) (incoming : Socket)
    (addr : String) : Io (List Bytes × PbTcpClientRunStream) := do
  let (host, port) ← parseAddress addr
  let auth ← x.crypto.encryptField random.authNonce pw pw
  let dstAddr ← x.crypto.encryptField random.addrNonce host pw
  let authReq : StreamReq :=
    { StreamReq.default with auth := auth, dstAddr := some dstAddr, dstPort := some port.toUInt32 }
  let stream := PbTcpClientRunStream.new incoming pw (port != 443)
  let info : StreamInfo :=
    { stream.info with protocolName := "pb_tcp", dstPort := some port, dstAddr := some host }
  return ([writeConnType connTypeStream, writeFrame x.req random.mask authReq],
    { stream with info := info })

end PbTcpRunConnector

/-! ## The server -/

abbrev PbTcpServerReadHalf := Reassembler PbTcpReader UInt8

abbrev PbTcpServerRunStream := RunStream PbTcpReader

/-- `msg.payload.unwrap_or_default()`. -/
def requestPayload (req : StreamReq) : Bytes := req.payload.getD []

namespace PbTcpServerWriteHalf

def write (x : PbTcpCrates) (h : PbTcpWriteHalf) (call : WriteCall) : Io Bytes :=
  writePayload x.res StreamRes.mk x.crypto h.pw h.encrypt call

end PbTcpServerWriteHalf

namespace PbTcpServerReadHalf

def read (x : PbTcpCrates) (cap : ℕ) (h : PbTcpServerReadHalf) : Io Bytes × PbTcpServerReadHalf :=
  Reassembler.read (pullPayload x.req requestPayload x.crypto) cap h

end PbTcpServerReadHalf

namespace PbTcpServerRunStream

def new (reader : Socket) : PbTcpServerRunStream := RunStream.new ⟨reader, "", false⟩

/-- `handshake` once the first message has been read. -/
def accept (x : PbTcpCrates) (pw : String) (req : StreamReq) : Io (RunAddr × String × UInt32) := do
  let auth ← x.crypto.decryptField req.auth pw
  let dstAddr ← match req.dstAddr with
    | some enc => x.crypto.decryptField enc pw
    | none => Io.other "missing dst_addr"
  let dstPort ← match req.dstPort with
    | some port => .ok port
    | none => Io.other "missing dst_port"
  return (⟨dstAddr, dstPort.toUInt16, false⟩, auth, dstPort)

def acceptMsg (x : PbTcpCrates) (pw : String) : SocketM (RunAddr × String × UInt32) := do
  let req ← readMsg x.req
  ofIo (accept x pw req)

def handshake (x : PbTcpCrates) (pw : String) (s : PbTcpServerRunStream) :
    Io (Option (RunAddr × String)) × PbTcpServerRunStream :=
  let (result, reader) := (acceptMsg x pw).runOn s.half.source.reader
  match result with
  | .error e => (.error e, s.setSource { s.half.source with reader := reader })
  | .ok (ra, auth, dstPort) => (.ok (some (ra, auth)), s.setSource ⟨reader, pw, dstPort != 443⟩)

def read (x : PbTcpCrates) (cap : ℕ) (s : PbTcpServerRunStream) : Io Bytes × PbTcpServerRunStream :=
  RunStream.read (pullPayload x.req requestPayload x.crypto) cap s

def write (x : PbTcpCrates) (s : PbTcpServerRunStream) (call : WriteCall) : Io Bytes :=
  writePayload x.res StreamRes.mk x.crypto s.half.source.pw s.half.source.encrypt call

def split (s : PbTcpServerRunStream) : PbTcpServerReadHalf × PbTcpWriteHalf :=
  (RunStream.split s, ⟨s.half.source.pw, s.half.source.encrypt⟩)

end PbTcpServerRunStream

/-! ## Incoming messages -/

section Incoming

open Reassembler

variable {M : Type} {codec : Prost M} {payloadOf : M → Bytes} {x : CryptoCrates}

theorem pullPayload_writeFrame (hcodec : codec.RoundTrips) {s : PbTcpReader} {mask : UInt64}
    {msg : M} {payload more : Bytes}
    (hpayload : openPayload x s.pw s.encrypt (payloadOf msg) = .ok payload)
    (hfits : FitsFrame (writeFrame codec mask msg))
    (hs : s.reader.flatten = writeFrame codec mask msg ++ more) :
    ∃ t, pullPayload codec payloadOf x s = (.ok payload, { s with reader := t }) ∧
      t.flatten = more := by
  obtain ⟨t, hread, ht⟩ := readMsg_writeFrame hcodec hs hfits
  refine ⟨t, ?_, ht⟩
  have hmsg : (readPayloadMsg codec payloadOf x s.pw s.encrypt).runOn s.reader =
      (.ok payload, t) := by
    rw [readPayloadMsg, runOn_bind_ok hread, hpayload, runOn_ofIo]
  simp [pullPayload, hmsg]

/-- All payloads of a connection on which framed messages come in; nothing is left. -/
theorem yields_frames (hcodec : codec.RoundTrips) {s : PbTcpReader} {msgs : List (UInt64 × M)}
    {payloads : List Bytes}
    (hpayloads : List.Forall₂ (fun msg payload ↦
      openPayload x s.pw s.encrypt (payloadOf msg.2) = .ok payload ∧ payload ≠ []) msgs payloads)
    (hfits : ∀ msg ∈ msgs, FitsFrame (writeFrame codec msg.1 msg.2))
    (hs : s.reader.flatten = (msgs.map fun msg ↦ writeFrame codec msg.1 msg.2).flatten) :
    ∃ t : Socket, Yields (pullPayload codec payloadOf x) s payloads { s with reader := t } ∧
      t.flatten = [] := by
  induction msgs generalizing s payloads with
  | nil =>
      cases hpayloads
      exact ⟨s.reader, .nil s, hs⟩
  | cons msg msgs ih =>
      cases hpayloads with
      | cons hmsg hmsgs =>
          obtain ⟨t, hpull, ht⟩ := pullPayload_writeFrame hcodec hmsg.1 (hfits msg (by simp)) hs
          obtain ⟨u, hyields, hu⟩ := ih (s := { s with reader := t }) hmsgs
            (fun m hm ↦ hfits m (List.mem_cons_of_mem msg hm)) ht
          exact ⟨u, .cons hpull hmsg.2 hyields, hu⟩

theorem ended_pullPayload {s : PbTcpReader} (hs : s.reader.flatten = []) :
    Ended (pullPayload codec payloadOf x) s := by
  refine ⟨fun s ↦ s.reader.flatten = [], hs, ?_⟩
  intro s hs
  refine ⟨.err ⟨.unexpectedEof, "early eof"⟩, { s with reader := [] }, ?_, rfl⟩
  have hmsg := runOn_bind_error (f := fun msg ↦
    ofIo (openPayload x s.pw s.encrypt (payloadOf msg))) (readMsg_eof codec hs)
  rw [pullPayload, readPayloadMsg, hmsg]

end Incoming

end Rog
