import Rog.Udp.Tunnel
import Rog.Lib.Results

/-!
# Fidelity of the UDP tunnels

What is written on one end of a tunnel comes out of the other, packet by packet. The frames of
a pb_tcp tunnel have a greatest length, which its reader checks.
-/

namespace Rog

open Lib SocketM

/-! ## gRPC -/

section Grpc

theorem GrpcUdpServerReadHalf.convert_write {auth : String} {packet : UDPPacket} {msg : UdpReq}
    (h : GrpcUdpClientRunWriter.write ⟨auth⟩ packet = .ok msg) :
    convert auth msg = .ok packet := by
  obtain rfl := Except.ok.inj h
  have hauth : (UdpReq.fromPacket packet auth).auth = auth := rfl
  simp [convert, hauth, TryInto.unwrap, bind, Except.bind, pure, Except.pure]

theorem RevGrpcUdpServerReader.convert_write {auth : String} {packet : UDPPacket} {msg : RevUdpReq}
    (h : RevGrpcUdpClientWriter.write ⟨auth⟩ packet = .ok msg) :
    convert auth msg = .ok packet := by
  obtain rfl := Except.ok.inj h
  have hauth : (RevUdpReq.fromPacket packet auth).auth = auth := rfl
  simp [convert, hauth, TryInto.orErr, bind, Except.bind, pure, Except.pure]

theorem GrpcUdpServerWriteHalf.unwrap_write {packet : UDPPacket} {msg : UdpRes}
    (h : GrpcUdpServerWriteHalf.write packet = .ok msg) : msg.tryInto.unwrap = .ok packet := by
  have hmsg : UdpRes.tryFrom packet = .ok msg := by simpa [write, UdpRes.tryFrom] using h
  rw [UdpRes.tryInto_tryFrom hmsg]
  rfl

theorem RevGrpcUdpServerWriter.orErr_write {packet : UDPPacket} {msg : RevUdpRes} (text : String)
    (h : RevGrpcUdpServerWriter.write packet = .ok msg) :
    msg.tryInto.orErr text = .ok packet := by
  have hmsg : RevUdpRes.tryFrom packet = .ok msg := by simpa [write, RevUdpRes.tryFrom] using h
  rw [RevUdpRes.tryInto_tryFrom hmsg]
  rfl

variable {σ M : Type} {read : σ → Io UDPPacket × σ}
  {closed : String} {status : ErrorKind} {convert : M → Io UDPPacket} {write : UDPPacket → Io M}

/-- A reader whose conversion undoes the writes returns what was written, in order, and leaves
what comes after it. -/
theorem results_readPacket (reader : Streaming M → σ)
    (hread : ∀ s, read (reader s) =
      ((readPacket closed status convert s).1, reader (readPacket closed status convert s).2))
    (hconvert : ∀ packet msg, write packet = .ok msg → convert msg = .ok packet)
    {packets : List UDPPacket} {msgs : List M} (hwrites : packets.mapM write = .ok msgs)
    (rest : Streaming M) :
    results read packets.length (reader (msgs.map .ok ++ rest)) =
      (packets.map .ok, reader rest) := by
  let Holds (msgs : List M) (s : σ) : Prop := s = reader (msgs.map .ok ++ rest)
  have hop : ∀ packet msg msgs s, write packet = .ok msg → Holds (msg :: msgs) s →
      ∃ t, read s = (.ok packet, t) ∧ Holds msgs t := by
    rintro packet msg msgs s hmsg rfl
    refine ⟨_, ?_, rfl⟩
    simp [hread, readPacket, hconvert packet msg hmsg]
  obtain ⟨t, hresults, rfl⟩ := results_sent Holds hop hwrites rfl
  exact hresults

end Grpc

/-! ## pb_tcp -/

section PbTcp

variable {x : PbTcpUdpCrates} {auth pw : String} {call : UdpWriteCall}

theorem PbTcpUdpServerReader.convert_encode (hx : x.crypto.RoundTrips) {req : UdpReq}
    (h : PbTcpUdpClientWriter.encode x.crypto ⟨auth, pw⟩ call = .ok req) :
    convert x.crypto auth pw req = .ok call.packet := by
  obtain ⟨encAuth, hauth, h⟩ := Io.bind_eq_ok h
  obtain ⟨dstAddr, hdst, h⟩ := Io.bind_eq_ok h
  obtain ⟨srcAddr, hsrc, h⟩ := Io.bind_eq_ok h
  obtain ⟨payload, hpayload, h⟩ := Io.bind_eq_ok h
  obtain rfl := Except.ok.inj h
  have hauth : x.crypto.decryptField encAuth pw = .ok auth := hx.decryptField hauth
  have hdst := hx.decryptOption hdst
  have hsrc := hx.decryptOption hsrc
  have hpayload := hx.decryptPayload hpayload
  have hreq := UdpReq.tryInto_fromPacket call.packet encAuth
  simp only [convert, bind, Except.bind, hauth, ne_eq, not_true_eq_false, if_false, hdst, hsrc,
    hpayload]
  exact congrArg (TryInto.orErr _) hreq

theorem PbTcpUdpClientReader.convert_encode (hx : x.crypto.RoundTrips) {res : UdpRes}
    (h : PbTcpUdpServerWriter.encode x.crypto ⟨pw⟩ call = .ok res) :
    convert x.crypto pw res = .ok call.packet := by
  obtain ⟨plain, hplain, h⟩ := Io.bind_eq_ok h
  have hplain : UdpRes.tryFrom call.packet = .ok plain := by
    simpa [UdpRes.tryFrom] using hplain
  obtain ⟨dstAddr, hdst, h⟩ := Io.bind_eq_ok h
  obtain ⟨srcAddr, hsrc, h⟩ := Io.bind_eq_ok h
  obtain ⟨payload, hpayload, h⟩ := Io.bind_eq_ok h
  obtain rfl := Except.ok.inj h
  have hdst := hx.decryptOption hdst
  have hsrc := hx.decryptOption hsrc
  have hpayload := hx.decryptBytes hpayload
  simp only [convert, bind, Except.bind, hdst, hsrc, hpayload]
  rw [UdpRes.tryInto_tryFrom hplain]
  rfl

theorem PbTcpUdpServerReader.read_write (hx : x.RoundTrips) {frame more : Bytes}
    (h : PbTcpUdpClientWriter.write x ⟨auth, pw⟩ call = .ok frame) (hfits : FitsFrame frame)
    {s : Socket} (hs : s.flatten = frame ++ more) :
    ∃ t : Socket, read x ⟨s, auth, pw⟩ = (.ok call.packet, ⟨t, auth, pw⟩) ∧ t.flatten = more := by
  obtain ⟨req, hreq, hframe⟩ := Io.bind_eq_ok h
  obtain rfl := Except.ok.inj hframe
  obtain ⟨t, hread, ht⟩ := readMsg_writeFrame hx.req hs hfits
  refine ⟨t, ?_, ht⟩
  rw [read, readOn, runOn_bind_ok hread, convert_encode hx.crypto hreq, runOn_ofIo]

theorem PbTcpUdpClientReader.read_write (hx : x.RoundTrips) {frame more : Bytes}
    (h : PbTcpUdpServerWriter.write x ⟨pw⟩ call = .ok frame) (hfits : FitsFrame frame)
    {s : Socket} (hs : s.flatten = frame ++ more) :
    ∃ t : Socket, read x ⟨s, pw⟩ = (.ok call.packet, ⟨t, pw⟩) ∧ t.flatten = more := by
  obtain ⟨res, hres, hframe⟩ := Io.bind_eq_ok h
  obtain rfl := Except.ok.inj hframe
  obtain ⟨t, hread, ht⟩ := readMsg_writeFrame hx.res hs hfits
  refine ⟨t, ?_, ht⟩
  rw [read, readOn, runOn_bind_ok hread, convert_encode hx.crypto hres, runOn_ofIo]


variable {σ : Type} {read : σ → Io UDPPacket × σ} {write : UdpWriteCall → Io Bytes}

/-- A reader that takes in the frame of each write that fits returns what was written, in order,
however the connection cuts it, and leaves the bytes that come after it. -/
theorem results_frames (reader : Socket → σ)
    (hread : ∀ call frame more (s : Socket), write call = .ok frame → FitsFrame frame →
      s.flatten = frame ++ more →
        ∃ t : Socket, read (reader s) = (.ok call.packet, reader t) ∧ t.flatten = more)
    {calls : List UdpWriteCall} {frames : List Bytes} (hwrites : calls.mapM write = .ok frames)
    (hfits : ∀ frame ∈ frames, FitsFrame frame) {more : Bytes} {s : Socket}
    (hs : s.flatten = frames.flatten ++ more) :
    ∃ t : Socket, results read calls.length (reader s) =
      (calls.map fun call ↦ .ok call.packet, reader t) ∧ t.flatten = more := by
  let Holds (frames : List Bytes) (u : σ) : Prop := (∀ frame ∈ frames, FitsFrame frame) ∧
    ∃ s : Socket, u = reader s ∧ s.flatten = frames.flatten ++ more
  have hop : ∀ call frame frames u, write call = .ok frame → Holds (frame :: frames) u →
      ∃ t, read u = (.ok call.packet, t) ∧ Holds frames t := by
    rintro call frame frames u hframe ⟨hfits, s, rfl, hs⟩
    rw [List.flatten_cons, List.append_assoc] at hs
    obtain ⟨t, ht, hrest⟩ := hread call frame _ s hframe (hfits frame (by simp)) hs
    exact ⟨reader t, ht, fun f hf ↦ hfits f (List.mem_cons_of_mem frame hf), t, rfl, hrest⟩
  obtain ⟨u, hresults, -, t, rfl, ht⟩ := results_sent Holds hop hwrites ⟨hfits, s, rfl, hs⟩
  exact ⟨t, hresults, by simpa using ht⟩

end PbTcp

/-! ## The tunnels -/

/-- Whatever is written on one end of a tunnel is read at the other, in both directions and with
whatever comes after it, where the frames of a pb_tcp tunnel fit. -/
theorem udp_tunnels_carry_packets (pw : String) {x : PbTcpUdpCrates} (hx : x.RoundTrips) :
    (∀ resp reader writer,
      GrpcRunConnector.udpTunnel (some pw) (.ok resp) = .ok (reader, writer) →
        (∀ (packets : List UDPPacket) (msgs : List UdpReq) rest,
          packets.mapM writer.write = .ok msgs →
            results GrpcUdpServerReadHalf.read packets.length
              (GrpcRunListener.udpSocket pw (msgs.map .ok ++ rest)) =
                (packets.map .ok, GrpcRunListener.udpSocket pw rest)) ∧
        ∀ (packets : List UDPPacket) (msgs : List UdpRes) rest,
          packets.mapM GrpcUdpServerWriteHalf.write = .ok msgs → resp = msgs.map .ok ++ rest →
            results GrpcUdpClientRunReader.read packets.length reader =
              (packets.map .ok, ⟨rest⟩)) ∧
    (∀ connId resp,
      (∀ (packets : List UDPPacket) (msgs : List RevUdpReq) rest server,
        packets.mapM (revUdpPair pw resp).2.write = .ok msgs →
        RevGrpcServer.udpReader (.ok (revUdpHello pw connId) :: (msgs.map .ok ++ rest)) =
            some server →
          results RevGrpcUdpServerReader.read packets.length server =
            (packets.map .ok, ⟨rest, pw⟩)) ∧
      ∀ (packets : List UDPPacket) (msgs : List RevUdpRes) rest,
        packets.mapM RevGrpcUdpServerWriter.write = .ok msgs → resp = msgs.map .ok ++ rest →
          results RevGrpcUdpClientReader.read packets.length (revUdpPair pw resp).1 =
            (packets.map .ok, ⟨rest⟩)) ∧
    ∀ incoming hello reader writer,
      PbTcpRunConnector.udpTunnel pw incoming = (hello, reader, writer) →
        (∀ (calls : List UdpWriteCall) (frames : List Bytes) more (s : Socket),
          calls.mapM (writer.write x) = .ok frames → (∀ frame ∈ frames, FitsFrame frame) →
          s.flatten = hello ++ frames.flatten ++ more →
            ∃ t u : Socket, readConnType.runOn s = (.ok connTypeUdp, t) ∧
              results (PbTcpUdpServerReader.read x) calls.length (PbTcpRunAcceptor.udpSocket pw t).1 =
                (calls.map fun call ↦ .ok call.packet, (PbTcpRunAcceptor.udpSocket pw u).1) ∧
              u.flatten = more) ∧
        ∀ (calls : List UdpWriteCall) (frames : List Bytes) more t,
          calls.mapM ((PbTcpRunAcceptor.udpSocket pw t).2.write x) = .ok frames →
          (∀ frame ∈ frames, FitsFrame frame) → incoming.flatten = frames.flatten ++ more →
            ∃ u : Socket, results (PbTcpUdpClientReader.read x) calls.length reader =
              (calls.map fun call ↦ .ok call.packet, ⟨u, pw⟩) ∧ u.flatten = more := by
  refine ⟨?_, ?_, ?_⟩
  · intro resp reader writer hends
    obtain ⟨rfl, rfl⟩ := Prod.mk.inj (Except.ok.inj hends)
    refine ⟨fun packets msgs rest hwrites ↦ ?_, fun packets msgs rest hwrites hresp ↦ ?_⟩
    · exact results_readPacket (GrpcRunListener.udpSocket pw) (fun _ ↦ rfl)
        (fun _ _ ↦ GrpcUdpServerReadHalf.convert_write) hwrites rest
    · rw [hresp]
      exact results_readPacket GrpcUdpClientRunReader.mk (fun _ ↦ rfl)
        (fun _ _ ↦ GrpcUdpServerWriteHalf.unwrap_write) hwrites rest
  · intro connId resp
    refine ⟨fun packets msgs rest server hwrites hserver ↦ ?_, fun packets msgs rest hwrites hresp ↦ ?_⟩
    · obtain rfl := Option.some.inj hserver
      exact results_readPacket (fun s ↦ RevGrpcUdpServerReader.mk s pw) (fun _ ↦ rfl)
        (fun _ _ ↦ RevGrpcUdpServerReader.convert_write) hwrites rest
    · rw [hresp]
      exact results_readPacket RevGrpcUdpClientReader.mk (fun _ ↦ rfl)
        (fun _ _ ↦ RevGrpcUdpServerWriter.orErr_write _) hwrites rest
  · intro incoming hello reader writer hends
    obtain ⟨rfl, hpair⟩ := Prod.mk.inj hends
    obtain ⟨rfl, rfl⟩ := Prod.mk.inj hpair
    refine ⟨fun calls frames more s hwrites hfits hs ↦ ?_,
      fun calls frames more t hwrites hfits hincoming ↦ ?_⟩
    · have htype : s.flatten = connTypeUdp :: (frames.flatten ++ more) := by
        simpa [writeConnType] using hs
      obtain ⟨t, hread, ht⟩ := readConnType_cons htype
      obtain ⟨u, hresults, hu⟩ := results_frames (fun s ↦ PbTcpUdpServerReader.mk s pw pw)
        (fun _ _ _ _ hframe hfit hs ↦ PbTcpUdpServerReader.read_write hx hframe hfit hs) hwrites hfits ht
      exact ⟨t, u, hread, hresults, hu⟩
    · exact results_frames (fun s ↦ PbTcpUdpClientReader.mk s pw)
        (fun _ _ _ _ hframe hfit hs ↦ PbTcpUdpClientReader.read_write hx hframe hfit hs) hwrites hfits
        hincoming

def callOf (packet : UDPPacket) : UdpWriteCall where
  packet := packet
  authNonce := ⟨List.replicate 12 1, List.length_replicate⟩
  dstNonce := ⟨List.replicate 12 2, List.length_replicate⟩
  srcNonce := ⟨List.replicate 12 3, List.length_replicate⟩
  payloadNonce := ⟨List.replicate 12 4, List.length_replicate⟩
  mask := 7

/-- A packet whose parts are below a megabyte goes in a frame that the other end takes. -/
theorem PbTcpUdpClientWriter.standard_write (pw : String) {call : UdpWriteCall}
    (hpw : (asBytes pw).length < 2 ^ 20)
    (hdst : (asBytes call.packet.metadata.dstAddr).length < 2 ^ 20)
    (hsrc : (asBytes call.packet.metadata.srcAddr).length < 2 ^ 20)
    (hdata : call.packet.data.length < 2 ^ 20) :
    ∃ frame, write .standard ⟨pw, pw⟩ call = .ok frame ∧ FitsFrame frame := by
  have hshort {length : ℕ} (h : length < 2 ^ 20) : ¬ChaCha20Poly1305.TooLong length :=
    ChaCha20Poly1305.not_tooLong_iff.mpr (by omega)
  obtain ⟨auth, hauth, hauthLength⟩ :=
    CryptoCrates.standard_encryptField call.authNonce pw (hshort hpw)
  obtain ⟨dstAddr, hdstAddr, hdstLength⟩ :=
    CryptoCrates.standard_encryptField call.dstNonce pw (hshort hdst)
  obtain ⟨srcAddr, hsrcAddr, hsrcLength⟩ :=
    CryptoCrates.standard_encryptField call.srcNonce pw (hshort hsrc)
  obtain ⟨payload, hpayload, hpayloadLength⟩ :=
    CryptoCrates.standard_encryptBytes call.payloadNonce pw (hshort hdata)
  obtain ⟨req, hreq⟩ : ∃ req : UdpReq, req = ⟨auth, some payload, some dstAddr,
      some call.packet.metadata.dstPort.toUInt32, some srcAddr,
      some call.packet.metadata.srcPort.toUInt32⟩ := ⟨_, rfl⟩
  have hencode : encode .standard ⟨pw, pw⟩ call = .ok req := by
    simp only [encode, UdpReq.fromPacket, CryptoCrates.encryptOption, CryptoCrates.encryptPayload,
      hauth, hdstAddr, hsrcAddr, hpayload, bind, Except.bind, Except.map, hreq]
    rfl
  have hdstPort := toUInt32_lt call.packet.metadata.dstPort
  have hsrcPort := toUInt32_lt call.packet.metadata.srcPort
  have hbound := UdpReq.length_encode_le req
  have hcrypto : PbTcpUdpCrates.standard.crypto = CryptoCrates.standard := rfl
  refine ⟨writeFrame UdpReq.wire call.mask req, ?_, ?_⟩
  · rw [write, hcrypto, hencode]
    rfl
  · rw [FitsFrame, length_writeFrame]
    simp only [hreq, Option.getD_some] at hbound ⊢
    omega

def emptyPacket : UDPPacket := ⟨⟨"::1", 53, "b:c", 65535⟩, []⟩

def twoPackets : List UDPPacket := [emptyPacket, ⟨⟨"h", 443, "10.0.0.1", 5000⟩, [7, 8]⟩]

/-- A packet without a payload on a pb_tcp tunnel, and the same packet and another one on a gRPC
tunnel, there and back. -/
theorem udp_tunnels_carry_packets_emptyPayload :
    ∃ (frames : List Bytes) (t u : Socket) (requests : List UdpReq) (responses : List UdpRes),
      [callOf emptyPacket].mapM (PbTcpUdpClientWriter.write .standard ⟨"p", "p"⟩) = .ok frames ∧
      readConnType.runOn [connTypeUdp :: frames.flatten] = (.ok connTypeUdp, t) ∧
      results (PbTcpUdpServerReader.read .standard) 1 ⟨t, "p", "p"⟩ =
        ([.ok emptyPacket], ⟨u, "p", "p"⟩) ∧
      twoPackets.mapM (GrpcUdpClientRunWriter.write ⟨"p"⟩) = .ok requests ∧
      results GrpcUdpServerReadHalf.read 2
        (GrpcRunListener.udpSocket "p" (requests.map .ok ++ [.error "reset"])) =
          (twoPackets.map .ok, GrpcRunListener.udpSocket "p" [.error "reset"]) ∧
      twoPackets.mapM GrpcUdpServerWriteHalf.write = .ok responses ∧
      results GrpcUdpClientRunReader.read 2 ⟨responses.map .ok ++ []⟩ =
        (twoPackets.map .ok, ⟨[]⟩) := by
  obtain ⟨frame, hwrite, hframe⟩ : ∃ frame, PbTcpUdpClientWriter.write .standard ⟨"p", "p"⟩
      (callOf emptyPacket) = .ok frame ∧ FitsFrame frame :=
    PbTcpUdpClientWriter.standard_write "p" (by decide) (by decide) (by decide) (by decide)
  have hwrites : [callOf emptyPacket].mapM (PbTcpUdpClientWriter.write .standard ⟨"p", "p"⟩) =
      .ok [frame] := by
    rw [List.mapM_cons, hwrite]
    rfl
  obtain ⟨hgrpc, -, hpbTcp⟩ := udp_tunnels_carry_packets "p" PbTcpUdpCrates.standard_roundTrips
  obtain ⟨t, u, htype, hresults, -⟩ := (hpbTcp [] _ _ _ rfl).1 _ [frame] []
    [connTypeUdp :: [frame].flatten] hwrites (by simpa using hframe) (by simp [writeConnType])
  obtain ⟨requests, hrequests⟩ : ∃ requests,
      twoPackets.mapM (GrpcUdpClientRunWriter.write ⟨"p"⟩) = .ok requests := ⟨_, rfl⟩
  obtain ⟨responses, hresponses⟩ : ∃ responses,
      twoPackets.mapM GrpcUdpServerWriteHalf.write = .ok responses := ⟨_, rfl⟩
  obtain ⟨hforth, hback⟩ := hgrpc (responses.map .ok ++ []) _ _ rfl
  exact ⟨[frame], t, u, requests, responses, hwrites, htype, hresults, hrequests,
    hforth _ _ _ hrequests, hresponses, hback _ _ _ hresponses rfl⟩

/-! ## A packet that is too large -/

def packetOf (data : Bytes) : UDPPacket := ⟨⟨"a", 1, "a", 2⟩, data⟩

theorem encryptField_callOf (packet : UDPPacket) :
    ∃ dstAddr srcAddr,
      CryptoCrates.standard.encryptField (callOf packet).dstNonce "a" "p" = .ok dstAddr ∧
      CryptoCrates.standard.encryptField (callOf packet).srcNonce "a" "p" = .ok srcAddr ∧
      (asBytes dstAddr).length = 40 ∧ (asBytes srcAddr).length = 40 := by
  have hlength : (asBytes "a").length = 1 := rfl
  have hshort : ¬ChaCha20Poly1305.TooLong (asBytes "a").length := by
    rw [hlength]
    decide
  obtain ⟨dstAddr, hdst, hdstLength⟩ :=
    CryptoCrates.standard_encryptField (callOf packet).dstNonce "p" hshort
  obtain ⟨srcAddr, hsrc, hsrcLength⟩ :=
    CryptoCrates.standard_encryptField (callOf packet).srcNonce "p" hshort
  rw [hlength] at hdstLength hsrcLength
  exact ⟨dstAddr, srcAddr, hdst, hsrc, hdstLength, hsrcLength⟩

theorem encode_packetOf {data payload : Bytes}
    (h : CryptoCrates.standard.encryptBytes (callOf (packetOf data)).payloadNonce data "p" =
      .ok payload) :
    ∃ dstAddr srcAddr,
      PbTcpUdpServerWriter.encode .standard ⟨"p"⟩ (callOf (packetOf data)) =
        .ok ⟨payload, some dstAddr, some 1, some srcAddr, some 2⟩ ∧
      (asBytes dstAddr).length = 40 ∧ (asBytes srcAddr).length = 40 := by
  obtain ⟨dstAddr, srcAddr, hdst, hsrc, hlengths⟩ := encryptField_callOf (packetOf data)
  refine ⟨dstAddr, srcAddr, ?_, hlengths⟩
  have hplain : UdpRes.tryFrom (callOf (packetOf data)).packet =
      .ok ⟨data, some "a", some 1, some "a", some 2⟩ := rfl
  have hdst : CryptoCrates.standard.encryptOption (callOf (packetOf data)).dstNonce (some "a") "p" =
      .ok (some dstAddr) := by
    rw [CryptoCrates.encryptOption, hdst]
    rfl
  have hsrc : CryptoCrates.standard.encryptOption (callOf (packetOf data)).srcNonce (some "a") "p" =
      .ok (some srcAddr) := by
    rw [CryptoCrates.encryptOption, hsrc]
    rfl
  simp only [PbTcpUdpServerWriter.encode, hplain, bind, Except.bind, hdst, hsrc, h]
  rfl

/-- The length of a message with two short fields is that of its payload, within bounds. -/
theorem length_encode_bounds {payload : Bytes} {dstAddr srcAddr : String} (h : payload ≠ [])
    (hdst : (asBytes dstAddr).length = 40) (hsrc : (asBytes srcAddr).length = 40) :
    let bytes := UdpRes.wire.encode ⟨payload, some dstAddr, some 1, some srcAddr, some 2⟩
    payload.length ≤ bytes.length ∧ bytes.length ≤ 2 * payload.length + 1000 := by
  have hbytes : UdpRes.wire.encode ⟨payload, some dstAddr, some 1, some srcAddr, some 2⟩ =
      Protobuf.encodeFields [⟨1, .bytes payload⟩, ⟨2, .bytes (asBytes dstAddr)⟩, ⟨3, .int 1⟩,
        ⟨4, .bytes (asBytes srcAddr)⟩, ⟨5, .int 2⟩] := by
    simp [UdpRes.wire, UdpRes.fields, h]
  dsimp only
  rw [hbytes]
  constructor
  · rw [Protobuf.encodeFields, List.flatMap_cons, List.length_append]
    exact (Protobuf.Field.length_le_length_encode 1 payload).trans (Nat.le_add_right _ _)
  · refine (Protobuf.length_encodeFields_le _).trans ?_
    simp only [List.map_cons, List.map_nil, List.sum_cons, List.sum_nil, Protobuf.Value.size, hdst,
      hsrc]
    omega

/-- A packet that the writer puts into a frame and the reader refuses. -/
theorem udp_tunnel_refuses_large_packet :
    ∃ (data frame : Bytes), data = List.replicate (16 * 1024 * 1024) 0 ∧
      PbTcpUdpServerWriter.write .standard ⟨"p"⟩ (callOf (packetOf data)) = .ok frame ∧
      (PbTcpUdpClientReader.read .standard ⟨[frame], "p"⟩).1 = Io.other "frame too large" := by
  obtain ⟨data, hdata⟩ : ∃ data : Bytes, data = List.replicate (16 * 1024 * 1024) 0 := ⟨_, rfl⟩
  have hlength : data.length = 16 * 1024 * 1024 := by rw [hdata, List.length_replicate]
  have hshort : ¬ChaCha20Poly1305.TooLong data.length := by
    rw [hlength]
    decide
  obtain ⟨payload, hpayload, hsealed⟩ := CryptoCrates.standard_encryptBytes
    (callOf (packetOf data)).payloadNonce "p" hshort
  obtain ⟨dstAddr, srcAddr, hencode, hdst, hsrc⟩ := encode_packetOf hpayload
  obtain ⟨hlower, hupper⟩ :=
    length_encode_bounds (CryptoCrates.encryptBytes_ne_nil hpayload) hdst hsrc
  obtain ⟨res, hres⟩ : ∃ res : UdpRes, res = ⟨payload, some dstAddr, some 1, some srcAddr, some 2⟩ :=
    ⟨_, rfl⟩
  rw [← hres] at hencode hlower hupper
  have hlarge : ¬FitsFrame (writeFrame UdpRes.wire 7 res) := by
    rw [FitsFrame, length_writeFrame]
    omega
  have hstream : [writeFrame UdpRes.wire 7 res].flatten = writeFrame UdpRes.wire 7 res ++ [] := by
    simp
  obtain ⟨t, hread⟩ := readMsg_large hstream (by omega) hlarge
  refine ⟨data, writeFrame UdpRes.wire 7 res, hdata, ?_, ?_⟩
  · have hcrypto : PbTcpUdpCrates.standard.crypto = CryptoCrates.standard := rfl
    rw [PbTcpUdpServerWriter.write, hcrypto, hencode]
    rfl
  · have hcodec : PbTcpUdpCrates.standard.res = UdpRes.wire := rfl
    rw [PbTcpUdpClientReader.read, PbTcpUdpClientReader.readOn, hcodec, runOn_bind_error hread]
    rfl

end Rog
