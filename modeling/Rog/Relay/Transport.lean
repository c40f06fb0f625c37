import Rog.Listener.Handshake
import Rog.Listener.RevGrpc
import Rog.Reverse.Call
import Rog.Stream.PbTcpSession
import Rog.Util.FrameCut

/-!
# What has come through a transport

A connection from a connector of one node to the matching listener of the next: the handshake with
which it starts, and what has been written and read at its ends at some moment.
-/

namespace Rog

open Lib SocketM

/-! ## Write halves -/

def GrpcClientWriteHalf.write (buf : Bytes) : StreamReq :=
  { StreamReq.default with payload := some buf }

def GrpcServerWriteHalf.write (buf : Bytes) : StreamRes := ⟨buf⟩

def RevGrpcClientWriteHalf.write (buf : Bytes) : RevStreamReq := ⟨"", some buf, none⟩

def RevGrpcServerWriteHalf.write (buf : Bytes) : RevStreamRes := ⟨buf⟩

/-! ## pb_tcp connections -/

/-- A pb_tcp connection whose handshake has been accepted: `arrived` is what has come to the
listener, the handshake of the connector before anything else. -/
structure PbTcpConnection (x : PbTcpCrates) (dst : RunAddr) where
  pw : String
  random : ConnectRandom
  incoming : Socket
  hello : List Bytes
  client : PbTcpClientRunStream
  arrived : Socket
  more : Bytes
  accepted : RunAddr × Option Bytes
  server : PbTcpServerRunStream
  connect : PbTcpRunConnector.connect x pw random incoming dst.endpoint = .ok (hello, client)
  vec : ∀ bytes ∈ hello, FitsVec bytes
  arrives : arrived.flatten <+: hello.flatten ++ more
  handshake : ∃ t, readConnType.runOn arrived = (.ok connTypeStream, t) ∧
    PbTcpRunAcceptor.handshake x pw (.new t) = (.ok accepted, server)

theorem parseAddress_endpoint_eq_ok {a : RunAddr} {host : String} {port : UInt16}
    (h : parseAddress a.endpoint = .ok (host, port)) : a.addr = host ∧ a.port = port := by
  by_cases haddr : a.addr = ""
  · have hcolon : ':' ∉ a.port.toNat.repr.toList := fun hmem ↦ by cases isDigit_of_mem_repr hmem
    simp only [parseAddress, toList_endpoint, rsplitOnce_append hcolon, haddr] at h
    split at h
    · cases h
    · cases h
  · rw [parseAddress_endpoint a haddr] at h
    exact Prod.mk.inj (Except.ok.inj h)

/-- The listener learns where the connection is to go, and both ends have the same password and
encrypt or not. -/
theorem PbTcpConnection.spec {x : PbTcpCrates} {dst : RunAddr} (hx : x.RoundTrips)
    (c : PbTcpConnection x dst) :
    c.accepted = (⟨dst.addr, dst.port, false⟩, none) ∧
      c.client.half = .new ⟨c.incoming, c.pw, dst.port != 443⟩ ∧
      ∃ u : Socket, c.server.half.source = ⟨u, c.pw, dst.port != 443⟩ ∧ u.flatten <+: c.more := by
  obtain ⟨host, port, haddr⟩ : ∃ host port, parseAddress dst.endpoint = .ok (host, port) := by
    obtain ⟨⟨host, port⟩, haddr, -⟩ := Io.bind_eq_ok c.connect
    exact ⟨host, port, haddr⟩
  obtain ⟨rfl, rfl⟩ := parseAddress_endpoint_eq_ok haddr
  obtain ⟨auth, dstAddr, hauth, hdstAddr, hhello, hclient⟩ := connect_eq_ok haddr c.connect
  obtain ⟨t, htype, hhandshake⟩ := c.handshake
  have harrives := c.arrives
  have hvec : FitsVec (x.req.encode ⟨auth, none, some dstAddr, some dst.port.toUInt32⟩) := by
    have hframe := c.vec (writeFrame x.req c.random.mask
      ⟨auth, none, some dstAddr, some dst.port.toUInt32⟩) (by simp [hhello])
    rw [FitsVec, length_writeFrame] at hframe
    exact (Nat.le_add_left _ _).trans_lt hframe
  rw [readConnType_eq_ok htype, hhello] at harrives
  have ht : t.flatten <+: writeFrame x.req c.random.mask
      ⟨auth, none, some dstAddr, some dst.port.toUInt32⟩ ++ c.more := by
    simpa using harrives
  rcases readMsg_cut hx.req hvec ht with ⟨e, u, hread⟩ | ⟨u, hread, hu⟩
  · have haccept := runOn_bind_error (f := fun req ↦ ofIo (PbTcpServerRunStream.accept x c.pw req))
      hread
    simp only [PbTcpRunAcceptor.handshake, PbTcpServerRunStream.handshake, RunStream.setInfo,
      PbTcpServerRunStream.new, RunStream.new, Reassembler.new, PbTcpServerRunStream.acceptMsg,
      haccept] at hhandshake
    cases (Prod.mk.inj hhandshake).1
  · have haccept : (PbTcpServerRunStream.acceptMsg x c.pw).runOn t =
        (.ok (⟨dst.addr, dst.port, false⟩, c.pw, dst.port.toUInt32), u) := by
      rw [PbTcpServerRunStream.acceptMsg, runOn_bind_ok hread, accept_connect hx hauth hdstAddr,
        runOn_ofIo]
    simp only [PbTcpRunAcceptor.handshake, PbTcpServerRunStream.handshake, RunStream.setInfo,
      PbTcpServerRunStream.new, RunStream.new, Reassembler.new, haccept, RunStream.setSource,
      encrypt_agrees] at hhandshake
    obtain ⟨haccepted, hserver⟩ := Prod.mk.inj hhandshake
    obtain ⟨hresult, hcache⟩ := checkAuth_eq_ok haccepted
    have hdst : (⟨dst.addr, dst.port, false⟩ : RunAddr) = c.accepted.1 :=
      (Prod.mk.inj (Option.some.inj (Except.ok.inj hresult))).1
    refine ⟨Prod.ext hdst.symm hcache, hclient, u, ?_, hu⟩
    rw [← hserver]

/-! ## What is written and read -/

/-- For the destination `dst` the connector has connected, and `written` has been written to its
stream; the handshake of the listener has returned `accepted`, and `read` has been read there. -/
inductive StreamForth (x : PbTcpCrates) (dst : RunAddr) (written : Bytes)
    (accepted : RunAddr × Option Bytes) (read : List Bytes) : Prop where
  | grpc (pw : String) (resp : Streaming StreamRes) (hello : List StreamReq)
      (client : GrpcClientRunStream) (chunks : List Bytes) (request : Streaming StreamReq)
      (server : GrpcServerRunStream) (caps : List ℕ)
      (hconnect : GrpcRunConnector.connect (some pw) (.ok resp) true dst.endpoint =
        .ok (hello, client))
      (hwritten : chunks.flatten = written)
      (harrives : Arrives (hello ++ chunks.map GrpcClientWriteHalf.write) request)
      (hhandshake : GrpcRunListener.handshake pw (.new request) = (.ok accepted, server))
      (hreads : (Reassembler.reads GrpcServerReadHalf.read caps server.split).1 = read.map .ok)
  | revGrpc (connId : String) (host : String) (port : UInt16) (addrInfo : AddrInfo)
      (chunks : List Bytes) (resp : Streaming RevStreamRes) (caps : List ℕ)
      (haddr : parseAddress dst.endpoint = .ok (host, port))
      (hinfo : (CallKind.connect.request (some (host, port)) connId).addrInfo = some addrInfo)
      (hwritten : chunks.flatten = written)
      (harrives : Arrives (chunks.map RevGrpcServerWriteHalf.write) resp)
      (hhandshake : RevGrpcRunListener.handshake (managedStream addrInfo resp) = .ok accepted)
      (hreads : (Reassembler.reads RevGrpcClientReadHalf.read caps
        (managedStream addrInfo resp).split).1 = read.map .ok)
  | pbTcp (c : PbTcpConnection x dst) (calls : List WriteCall) (frames : List Bytes) (part : Bytes)
      (caps : List ℕ) (haccepted : c.accepted = accepted)
      (hwritten : (calls.map WriteCall.buf).flatten = written)
      (hwrites : calls.mapM (PbTcpClientWriteHalf.write x c.client.split.2) = .ok frames)
      (hvec : ∀ frame ∈ frames, FitsVec frame) (hpart : Unfinished x.req part)
      (hmore : c.more = frames.flatten ++ part)
      (hreads : (Reassembler.reads (PbTcpServerReadHalf.read x) caps
        (PbTcpServerRunStream.split c.server).1).1 = read.map .ok)

/-- The other direction of a connection: `written` has been written to the stream of the listener,
and `read` has been read from that of the connector. -/
inductive StreamBack (x : PbTcpCrates) (dst : RunAddr) (written : Bytes) (read : List Bytes) :
    Prop where
  | grpc (pw : String) (resp : Streaming StreamRes) (hello : List StreamReq)
      (client : GrpcClientRunStream) (chunks : List Bytes) (caps : List ℕ)
      (hconnect : GrpcRunConnector.connect (some pw) (.ok resp) true dst.endpoint =
        .ok (hello, client))
      (hwritten : chunks.flatten = written)
      (harrives : Arrives (chunks.map GrpcServerWriteHalf.write) resp)
      (hreads : (Reassembler.reads GrpcClientReadHalf.read caps client.split).1 = read.map .ok)
  | revGrpc (pw connId : String) (chunks : List Bytes) (stream inStream : Streaming RevStreamReq)
      (caps : List ℕ) (hwritten : chunks.flatten = written)
      (hstream : stream = .ok (revStreamHello pw connId) :: inStream)
      (harrives : Arrives (revStreamHello pw connId :: chunks.map RevGrpcClientWriteHalf.write) stream)
      (hreads : (Reassembler.reads RevGrpcServerReadHalf.read caps
        (RevGrpcServerRunStream.new inStream dst.addr dst.port).split).1 = read.map .ok)
  | pbTcp (c : PbTcpConnection x dst) (calls : List WriteCall) (frames : List Bytes) (part : Bytes)
      (caps : List ℕ) (hwritten : (calls.map WriteCall.buf).flatten = written)
      (hwrites : calls.mapM (PbTcpServerWriteHalf.write x (PbTcpServerRunStream.split c.server).2) =
        .ok frames)
      (hvec : ∀ frame ∈ frames, FitsVec frame) (hpart : Unfinished x.res part)
      (hincoming : c.incoming.flatten <+: frames.flatten ++ part)
      (hreads : (Reassembler.reads (PbTcpClientReadHalf.read x) caps
        (PbTcpClientRunStream.split c.client).1).1 = read.map .ok)

/-! ## The readers -/

section Readers

variable {M : Type}

theorem feeds_pullMessage (payloadOf : M → Io Bytes) : Feeds (pullMessage payloadOf)
    fun payloads s ↦ ∃ msgs, List.Forall₂ (fun msg payload ↦ payloadOf msg = .ok payload) msgs
      payloads ∧ Arrives msgs s :=
  feeds_arrives ⟨_, _, rfl⟩ (fun _ _ ↦ rfl) fun _ _ ↦ ⟨_, _, rfl⟩

/-- A stream over messages returns what was put into them. -/
theorem prefix_of_messages (payloadOf : M → Io Bytes) (write : Bytes → M)
    (hwrite : ∀ buf, payloadOf (write buf) = .ok buf) {chunks read : List Bytes} {s : Streaming M}
    (hs : Arrives (chunks.map write) s) {caps : List ℕ}
    (hreads : (Reassembler.reads (Reassembler.read (pullMessage payloadOf)) caps (.new s)).1 =
      read.map .ok) : read.flatten <+: chunks.flatten := by
  have hpayloads : List.Forall₂ (fun msg payload ↦ payloadOf msg = .ok payload)
      (chunks.map write) chunks := by
    rw [List.forall₂_map_left_iff]
    exact List.forall₂_same.mpr fun buf _ ↦ hwrite buf
  exact (feeds_pullMessage payloadOf).prefix_of_reads (r := .new s) ⟨_, hpayloads, hs⟩ hreads

theorem openPayload_of_sealPayload {x : CryptoCrates} (hx : x.RoundTrips) {pw : String}
    {encrypt : Bool} {call : WriteCall} {payload : Bytes}
    (h : sealPayload x pw encrypt call = .ok payload) :
    openPayload x pw encrypt payload = .ok call.buf := by
  by_cases hcall : call.buf = []
  · cases encrypt with
    | false =>
        obtain rfl : call.buf = payload := by simpa [sealPayload] using h
        simp [openPayload, hcall]
    | true =>
        have hseal : x.encryptBytes call.nonce call.buf pw = .ok payload := by
          simpa [sealPayload] using h
        have hne : payload ≠ [] := CryptoCrates.encryptBytes_ne_nil hseal
        simp [openPayload, hne, hx.decryptBytes hseal]
  · exact openPayload_sealPayload hx hcall h

/-- A pb_tcp stream returns what was put into its frames. -/
theorem prefix_of_payloads {codec : Prost M} (hcodec : codec.RoundTrips) {x : CryptoCrates}
    (hx : x.RoundTrips) {payloadOf : M → Bytes} {wrap : Bytes → M}
    (hwrap : ∀ payload, payloadOf (wrap payload) = payload) {pw : String} {encrypt : Bool}
    {calls : List WriteCall} {frames : List Bytes}
    (hwrites : calls.mapM (writePayload codec wrap x pw encrypt) = .ok frames)
    (hvec : ∀ frame ∈ frames, FitsVec frame) {part : Bytes} (hpart : Unfinished codec part)
    {s : Socket} (hs : s.flatten <+: frames.flatten ++ part) {caps : List ℕ} {read : List Bytes}
    (hreads : (Reassembler.reads (Reassembler.read (pullPayload codec payloadOf x)) caps
      (.new ⟨s, pw, encrypt⟩)).1 = read.map .ok) :
    read.flatten <+: (calls.map WriteCall.buf).flatten := by
  have hmsgs : Feeds (readPayloadMsg codec payloadOf x pw encrypt).runOn _ :=
    (feeds_conveys hcodec).convert
      (fun s msg t h ↦ by rw [readPayloadMsg, runOn_bind_ok h, runOn_ofIo])
      (fun s e t h ↦ ⟨e, t, by rw [readPayloadMsg, runOn_bind_error h]⟩)
  have hpull : Feeds (pullPayload codec payloadOf x) _ :=
    hmsgs.view (fun s ↦ ⟨s, pw, encrypt⟩) fun _ ↦ rfl
  refine hpull.prefix_of_reads (r := .new ⟨s, pw, encrypt⟩)
    ⟨s, rfl, conveys_of_writes (fun call frame hframe ↦ ?_) hwrites hvec hpart hs⟩ hreads
  obtain ⟨payload, hseal, hframe⟩ := Io.bind_eq_ok hframe
  refine ⟨call.mask, wrap payload, (Except.ok.inj hframe).symm, ?_⟩
  rw [hwrap]
  exact openPayload_of_sealPayload hx hseal

end Readers

/-! ## The transports -/

section Grpc

variable {pw : String} {dst : RunAddr} {resp : Streaming StreamRes} {hello : List StreamReq}
  {client : GrpcClientRunStream}

theorem GrpcRunConnector.connect_eq_ok
    (h : connect (some pw) (.ok resp) true dst.endpoint = .ok (hello, client)) :
    hello = [⟨pw, none, some dst.addr, some dst.port.toUInt32⟩] ∧ client.half = .new resp := by
  obtain ⟨⟨host, port⟩, haddr, h⟩ := Io.bind_eq_ok h
  obtain ⟨rfl, rfl⟩ := parseAddress_endpoint_eq_ok haddr
  obtain ⟨resp', hresp, h⟩ := Io.bind_eq_ok h
  obtain rfl : resp = resp' := Except.ok.inj hresp
  obtain ⟨auth, hauth, h⟩ := Io.bind_eq_ok h
  obtain rfl : pw = auth := Except.ok.inj hauth
  obtain ⟨hhello, hclient⟩ := Prod.mk.inj (Except.ok.inj h)
  exact ⟨hhello.symm, by rw [← hclient]; rfl⟩

/-- The handshake takes the first message, which has come in. -/
theorem GrpcRunListener.handshake_arrives {addr : String} {port : UInt16} {msgs : List StreamReq}
    {request : Streaming StreamReq} {accepted : RunAddr × Option Bytes}
    {server : GrpcServerRunStream}
    (harrives : Arrives (⟨pw, none, some addr, some port.toUInt32⟩ :: msgs) request)
    (h : handshake pw (.new request) = (.ok accepted, server)) :
    accepted = (⟨addr, port, false⟩, none) ∧ Arrives msgs server.half.source := by
  cases request with
  | nil => cases (Prod.mk.inj h).1
  | cons r rest =>
      cases r with
      | error e => cases (Prod.mk.inj h).1
      | ok msg =>
          obtain ⟨rfl, hrest⟩ := harrives.of_cons
          have hport : port.toUInt32.toUInt16 = port := UInt16.toUInt16_toUInt32 port
          obtain ⟨haccepted, hserver⟩ := Prod.mk.inj h
          obtain ⟨hresult, hcache⟩ := checkAuth_eq_ok haccepted
          have hdst : (⟨addr, port, false⟩, pw) = (accepted.1, pw) := by
            simpa [RunStream.setInfo, GrpcServerRunStream.new, RunStream.new, Reassembler.new,
              GrpcServerRunStream.accept, unwrap, hport, bind, Except.bind, pure, Except.pure,
              Except.map] using hresult
          refine ⟨Prod.ext (Prod.mk.inj hdst).1.symm hcache, ?_⟩
          rw [← hserver]
          exact hrest

end Grpc

variable {x : PbTcpCrates} {dst : RunAddr} {written : Bytes} {accepted : RunAddr × Option Bytes}
  {read : List Bytes}

/-- The listener hands over the destination and no bytes, and what has been read from it is a prefix
of what was written. -/
theorem StreamForth.spec (hx : x.RoundTrips) (h : StreamForth x dst written accepted read) :
    accepted = (⟨dst.addr, dst.port, false⟩, none) ∧ read.flatten <+: written := by
  cases h with
  | grpc pw resp hello client chunks request server caps hconnect hwritten harrives hhandshake
      hreads =>
      obtain ⟨rfl, -⟩ := GrpcRunConnector.connect_eq_ok hconnect
      obtain ⟨haccepted, hmsgs⟩ := GrpcRunListener.handshake_arrives harrives hhandshake
      refine ⟨haccepted, hwritten ▸ ?_⟩
      exact prefix_of_messages (fun msg : StreamReq ↦ unwrap msg.payload) GrpcClientWriteHalf.write
        (fun _ ↦ rfl) hmsgs hreads
  | revGrpc connId host port addrInfo chunks resp caps haddr hinfo hwritten harrives hhandshake
      hreads =>
      obtain ⟨rfl, rfl⟩ := parseAddress_endpoint_eq_ok haddr
      obtain rfl := Option.some.inj hinfo
      have hport : dst.port.toUInt32.toUInt16 = dst.port := UInt16.toUInt16_toUInt32 dst.port
      refine ⟨?_, hwritten ▸ prefix_of_messages (fun msg : RevStreamRes ↦ .ok msg.payload)
        RevGrpcServerWriteHalf.write (fun _ ↦ rfl) harrives hreads⟩
      have haccepted : (⟨dst.addr, dst.port.toUInt32.toUInt16, false⟩, none) = accepted :=
        Except.ok.inj hhandshake
      rw [← haccepted, hport]
  | pbTcp c calls frames part caps haccepted hwritten hwrites hvec hpart hmore hreads =>
      obtain ⟨hdst, hclient, u, hserver, hu⟩ := c.spec hx
      refine ⟨haccepted ▸ hdst, hwritten ▸ ?_⟩
      have hsplit : (PbTcpServerRunStream.split c.server).1 =
          .new ⟨u, c.pw, dst.port != 443⟩ := congrArg Reassembler.new hserver
      rw [hsplit] at hreads
      rw [PbTcpClientRunStream.split, hclient] at hwrites
      exact prefix_of_payloads hx.req hx.crypto (fun _ ↦ rfl) hwrites hvec hpart (hmore ▸ hu) hreads

theorem StreamBack.spec (hx : x.RoundTrips) (h : StreamBack x dst written read) :
    read.flatten <+: written := by
  cases h with
  | grpc pw resp hello client chunks caps hconnect hwritten harrives hreads =>
      obtain ⟨-, hclient⟩ := GrpcRunConnector.connect_eq_ok hconnect
      rw [RunStream.split, hclient] at hreads
      exact hwritten ▸ prefix_of_messages (fun msg : StreamRes ↦ .ok msg.payload)
        GrpcServerWriteHalf.write (fun _ ↦ rfl) harrives hreads
  | revGrpc pw connId chunks stream inStream caps hwritten hstream harrives hreads =>
      subst hstream
      exact hwritten ▸ prefix_of_messages (fun msg : RevStreamReq ↦ unwrap msg.payload)
        RevGrpcClientWriteHalf.write (fun _ ↦ rfl) harrives.of_cons.2 hreads
  | pbTcp c calls frames part caps hwritten hwrites hvec hpart hincoming hreads =>
      obtain ⟨-, hclient, u, hserver, -⟩ := c.spec hx
      have hsplit : (PbTcpClientRunStream.split c.client).1 =
          .new ⟨c.incoming, c.pw, dst.port != 443⟩ := by
        rw [PbTcpClientRunStream.split, RunStream.split, hclient]
        rfl
      rw [hsplit] at hreads
      rw [PbTcpServerRunStream.split, hserver] at hwrites
      exact hwritten ▸ prefix_of_payloads hx.res hx.crypto (fun _ ↦ rfl) hwrites hvec hpart
        hincoming hreads

end Rog
