import Rog.Stream.PbTcp

/-!
# A pb_tcp session

What one end of a connection writes is what the other end reads: first the handshake, then
the payloads of each direction, however the connection cuts the bytes into segments.
-/

namespace Rog

open Lib SocketM Reassembler

/-! ## Payloads in one direction -/

section Payload

variable {M : Type} {codec : Prost M} {wrap : Bytes → M} {payloadOf : M → Bytes} {x : CryptoCrates}

theorem openPayload_sealPayload (hx : x.RoundTrips) {pw : String} {encrypt : Bool}
    {call : WriteCall} {payload : Bytes} (hcall : call.buf ≠ [])
    (h : sealPayload x pw encrypt call = .ok payload) :
    openPayload x pw encrypt payload = .ok call.buf := by
  cases encrypt with
  | false =>
      obtain rfl : call.buf = payload := by simpa [sealPayload] using h
      simp [openPayload, hcall]
  | true =>
      have hseal : x.encryptBytes call.nonce call.buf pw = .ok payload := by
        simpa [sealPayload] using h
      have hne : payload ≠ [] := CryptoCrates.encryptBytes_ne_nil hseal
      simp [openPayload, hne, hx.decryptBytes hseal]

/-- The payload of the call can be sealed, and the encoding of its message is one that the other
end takes. -/
def WriteCall.Fits (codec : Prost M) (wrap : Bytes → M) (x : CryptoCrates) (pw : String)
    (encrypt : Bool) (call : WriteCall) : Prop :=
  ∃ payload, sealPayload x pw encrypt call = .ok payload ∧
    (codec.encode (wrap payload)).length ≤ 16 * 1024 * 1024

theorem WriteCall.Fits.writePayload {pw : String} {encrypt : Bool} {call : WriteCall}
    (h : call.Fits codec wrap x pw encrypt) :
    ∃ frame, writePayload codec wrap x pw encrypt call = .ok frame ∧ FitsFrame frame := by
  obtain ⟨payload, hpayload, hlength⟩ := h
  refine ⟨writeFrame codec call.mask (wrap payload), ?_, ?_⟩
  · simp only [Rog.writePayload, hpayload, bind, Except.bind]
    rfl
  · rw [FitsFrame, length_writeFrame]
    omega

/-- Calls that fit are written. -/
theorem exists_frames {pw : String} {encrypt : Bool} {calls : List WriteCall}
    (hcalls : ∀ call ∈ calls, call.Fits codec wrap x pw encrypt) :
    ∃ frames, calls.mapM (writePayload codec wrap x pw encrypt) = .ok frames ∧
      ∀ frame ∈ frames, FitsFrame frame := by
  induction calls with
  | nil => exact ⟨[], rfl, by simp⟩
  | cons call calls ih =>
      obtain ⟨frame, hframe, hfits⟩ := (hcalls call (by simp)).writePayload
      obtain ⟨frames, hframes, hrest⟩ := ih fun c hc ↦ hcalls c (List.mem_cons_of_mem call hc)
      refine ⟨frame :: frames, ?_, List.forall_mem_cons.mpr ⟨hfits, hrest⟩⟩
      rw [List.mapM_cons, hframe, hframes]
      rfl

/-- What `write` calls have written are messages with their payloads in frames. -/
theorem frames_of_writes (hx : x.RoundTrips)
    (hwrap : ∀ payload, payloadOf (wrap payload) = payload) {pw : String} {encrypt : Bool}
    {calls : List WriteCall} {frames : List Bytes} (hcalls : ∀ call ∈ calls, call.buf ≠ [])
    (h : calls.mapM (writePayload codec wrap x pw encrypt) = .ok frames) :
    ∃ msgs : List (UInt64 × M), frames = msgs.map (fun msg ↦ writeFrame codec msg.1 msg.2) ∧
      List.Forall₂ (fun msg payload ↦ openPayload x pw encrypt (payloadOf msg.2) = .ok payload ∧
        payload ≠ []) msgs (calls.map WriteCall.buf) := by
  induction calls generalizing frames with
  | nil =>
      rw [List.mapM_nil] at h
      obtain rfl := Except.ok.inj h
      exact ⟨[], rfl, .nil⟩
  | cons call calls ih =>
      rw [List.mapM_cons] at h
      obtain ⟨frame, hframe, h⟩ := Io.bind_eq_ok h
      obtain ⟨rest, hrest, h⟩ := Io.bind_eq_ok h
      obtain rfl := Except.ok.inj h
      obtain ⟨payload, hpayload, hframe⟩ := Io.bind_eq_ok hframe
      obtain rfl := Except.ok.inj hframe
      obtain ⟨msgs, rfl, hmsgs⟩ := ih (fun c hc ↦ hcalls c (List.mem_cons_of_mem call hc)) hrest
      have hcall : call.buf ≠ [] := hcalls call (by simp)
      refine ⟨(call.mask, wrap payload) :: msgs, rfl, .cons ⟨?_, hcall⟩ hmsgs⟩
      rw [hwrap]
      exact openPayload_sealPayload hx hcall hpayload

theorem yields_writePayload (payloadOf : M → Bytes) (s : PbTcpReader) (hcodec : codec.RoundTrips)
    (hx : x.RoundTrips) (hwrap : ∀ payload, payloadOf (wrap payload) = payload)
    {calls : List WriteCall} {frames : List Bytes} (hcalls : ∀ call ∈ calls, call.buf ≠ [])
    (hwrites : calls.mapM (writePayload codec wrap x s.pw s.encrypt) = .ok frames)
    (hfits : ∀ frame ∈ frames, FitsFrame frame) (hs : s.reader.flatten = frames.flatten) :
    ∃ t : Socket, Yields (pullPayload codec payloadOf x) s (calls.map WriteCall.buf)
      { s with reader := t } ∧ t.flatten = [] := by
  obtain ⟨msgs, rfl, hmsgs⟩ := frames_of_writes hx hwrap hcalls hwrites
  exact yields_frames hcodec hmsgs (fun msg hmsg ↦ hfits _ (List.mem_map_of_mem hmsg)) hs

end Payload

/-- A stream receives the payloads that were written: as they are when every buffer holds
one, with no bytes left over, and as a stream of bytes with any buffers. -/
structure Receives (read : ℕ → RunStream PbTcpReader → Io Bytes × RunStream PbTcpReader)
    (s : RunStream PbTcpReader) (payloads : List Bytes) : Prop where
  messages : ∀ caps, List.Forall₂ (fun payload cap ↦ payload.length ≤ cap) payloads caps →
    ∃ t, reads read caps s = (payloads.map .ok, t) ∧ t.half.cache = [] ∧
      t.half.source.reader.flatten = []
  bytes : Reassembles read RunStream.half s payloads.flatten

theorem receives_of_yields {pull : PbTcpReader → Io Bytes × PbTcpReader}
    {s : RunStream PbTcpReader} {t : PbTcpReader} {payloads : List Bytes}
    (hs : s.half = .new s.half.source) (h : Yields pull s.half.source payloads t)
    (ht : t.reader.flatten = []) (hended : Ended pull t) :
    Receives (RunStream.read pull) s payloads := by
  constructor
  · intro caps hcaps
    obtain ⟨u, hreads, hu⟩ := RunStream.reads_messages hs h hcaps
    exact ⟨u, hreads, by simp [hu, Reassembler.new], by simpa [hu, Reassembler.new] using ht⟩
  · exact RunStream.reassembles hs h hended

/-! ## The handshake -/

section Session

variable {x : PbTcpCrates} {pw addr host : String} {port : UInt16} {random : ConnectRandom}
  {incoming : Socket} {hello : List Bytes} {client : PbTcpClientRunStream}

theorem connect_eq_ok (haddr : parseAddress addr = .ok (host, port))
    (h : PbTcpRunConnector.connect x pw random incoming addr = .ok (hello, client)) :
    ∃ auth dstAddr, x.crypto.encryptField random.authNonce pw pw = .ok auth ∧
      x.crypto.encryptField random.addrNonce host pw = .ok dstAddr ∧
      hello = [[connTypeStream], writeFrame x.req random.mask
        ⟨auth, none, some dstAddr, some port.toUInt32⟩] ∧
      client.half = .new ⟨incoming, pw, port != 443⟩ := by
  obtain ⟨⟨host', port'⟩, haddr', h⟩ := Io.bind_eq_ok h
  obtain ⟨rfl, rfl⟩ : host = host' ∧ port = port' := by simpa [haddr] using haddr'
  obtain ⟨auth, hauth, h⟩ := Io.bind_eq_ok h
  obtain ⟨dstAddr, hdstAddr, h⟩ := Io.bind_eq_ok h
  obtain ⟨rfl, rfl⟩ := Prod.mk.inj (Except.ok.inj h)
  exact ⟨auth, dstAddr, hauth, hdstAddr, rfl, rfl⟩

theorem accept_connect (hx : x.RoundTrips) {auth dstAddr : String}
    (hauth : x.crypto.encryptField random.authNonce pw pw = .ok auth)
    (hdstAddr : x.crypto.encryptField random.addrNonce host pw = .ok dstAddr) :
    PbTcpServerRunStream.accept x pw ⟨auth, none, some dstAddr, some port.toUInt32⟩ =
      .ok (⟨host, port, false⟩, pw, port.toUInt32) := by
  have hpw := hx.crypto.decryptField hauth
  have hhost := hx.crypto.decryptField hdstAddr
  have hport : port.toUInt32.toUInt16 = port := UInt16.toUInt16_toUInt32 port
  simp only [PbTcpServerRunStream.accept, bind, Except.bind, hpw, hhost, hport]
  rfl

/-- Both ends decide on encryption alike. -/
theorem encrypt_agrees (port : UInt16) : (port.toUInt32 != 443) = (port != 443) := by
  have h443 : (443 : UInt32) = (443 : UInt16).toUInt32 := rfl
  rw [Bool.eq_iff_iff, bne_iff_ne, bne_iff_ne, h443, ne_eq, ne_eq, UInt16.toUInt32_inj]

theorem handshake_connect (hx : x.RoundTrips) (haddr : parseAddress addr = .ok (host, port))
    (hconnect : PbTcpRunConnector.connect x pw random incoming addr = .ok (hello, client))
    (hfits : ∀ frame ∈ hello, FitsFrame frame) {s : Socket} {more : Bytes}
    (hs : s.flatten = hello.flatten ++ more) :
    ∃ t u, readConnType.runOn s = (.ok connTypeStream, t) ∧ u.flatten = more ∧
      PbTcpServerRunStream.handshake x pw (.new t) =
        (.ok (some (⟨host, port, false⟩, pw)), RunStream.new ⟨u, pw, port != 443⟩) := by
  obtain ⟨auth, dstAddr, hauth, hdstAddr, rfl, -⟩ := connect_eq_ok haddr hconnect
  obtain ⟨t, htype, ht⟩ := readConnType_cons (s := s) (by simpa using hs)
  obtain ⟨u, hmsg, hu⟩ := readMsg_writeFrame hx.req ht (hfits _ (by simp))
  refine ⟨t, u, htype, hu, ?_⟩
  have haccept : (PbTcpServerRunStream.acceptMsg x pw).runOn t =
      (.ok (⟨host, port, false⟩, pw, port.toUInt32), u) := by
    rw [PbTcpServerRunStream.acceptMsg, runOn_bind_ok hmsg, accept_connect hx hauth hdstAddr,
      runOn_ofIo]
  simp only [PbTcpServerRunStream.handshake, PbTcpServerRunStream.new, RunStream.new,
    Reassembler.new, haccept, RunStream.setSource, encrypt_agrees]

/-! ## The whole session -/

/-- For every password and address, whatever the random numbers and the segmentation: what either
end writes goes out in frames, the server learns the connection type, the address and the
password, agrees on encryption, and each end reads what the other has written. -/
theorem session_roundTrip (hx : x.RoundTrips) (haddr : parseAddress addr = .ok (host, port))
    (hconnect : PbTcpRunConnector.connect x pw random incoming addr = .ok (hello, client))
    (hhello : ∀ frame ∈ hello, FitsFrame frame) {requests : List WriteCall}
    (hrequests : ∀ call ∈ requests,
      call.buf ≠ [] ∧ call.Fits x.req clientRequest x.crypto pw (port != 443)) :
    ∃ requestFrames, requests.mapM (PbTcpClientRunStream.write x client) = .ok requestFrames ∧
      ∀ s : Socket, s.flatten = (hello ++ requestFrames).flatten →
        ∃ t server, readConnType.runOn s = (.ok connTypeStream, t) ∧
          PbTcpServerRunStream.handshake x pw (.new t) =
            (.ok (some (⟨host, port, false⟩, pw)), server) ∧
          (server.half.source.pw = pw ∧
            server.half.source.encrypt = client.half.source.encrypt) ∧
          Receives (PbTcpServerRunStream.read x) server (requests.map WriteCall.buf) ∧
          ∀ replies : List WriteCall, (∀ call ∈ replies,
              call.buf ≠ [] ∧ call.Fits x.res StreamRes.mk x.crypto pw (port != 443)) →
            ∃ replyFrames, replies.mapM (PbTcpServerRunStream.write x server) = .ok replyFrames ∧
              (incoming.flatten = replyFrames.flatten →
                Receives (PbTcpClientRunStream.read x) client (replies.map WriteCall.buf)) := by
  obtain ⟨-, -, -, -, -, hclient⟩ := connect_eq_ok haddr hconnect
  have hsource : client.half.source = ⟨incoming, pw, port != 443⟩ := by
    rw [hclient]
    rfl
  have hwrite : PbTcpClientRunStream.write x client =
      writePayload x.req clientRequest x.crypto pw (port != 443) := by
    funext call
    rw [PbTcpClientRunStream.write, hsource]
  obtain ⟨requestFrames, hwrites, hfits⟩ :=
    exists_frames fun call hcall ↦ (hrequests call hcall).2
  refine ⟨requestFrames, by rw [hwrite, hwrites], fun s hs ↦ ?_⟩
  rw [List.flatten_append] at hs
  obtain ⟨t, u, htype, hu, hhandshake⟩ := handshake_connect hx haddr hconnect hhello hs
  refine ⟨t, RunStream.new ⟨u, pw, port != 443⟩, htype, hhandshake,
    ⟨rfl, by rw [hsource]; rfl⟩, ?_, fun replies hreplies ↦ ?_⟩
  · obtain ⟨v, hyields, hv⟩ := yields_writePayload requestPayload ⟨u, pw, port != 443⟩ hx.req
      hx.crypto (fun _ ↦ rfl) (fun call hcall ↦ (hrequests call hcall).1) hwrites hfits hu
    exact receives_of_yields rfl hyields hv (ended_pullPayload hv)
  · obtain ⟨replyFrames, hreplyWrites, hreplyFits⟩ :=
      exists_frames fun call hcall ↦ (hreplies call hcall).2
    refine ⟨replyFrames, hreplyWrites, fun hincoming ↦ ?_⟩
    obtain ⟨v, hyields, hv⟩ := yields_writePayload StreamRes.payload ⟨incoming, pw, port != 443⟩
      hx.res hx.crypto (fun _ ↦ rfl) (fun call hcall ↦ (hreplies call hcall).1) hreplyWrites
      hreplyFits hincoming
    rw [← hsource] at hyields
    exact receives_of_yields (by rw [hsource, hclient]) hyields hv (ended_pullPayload hv)

end Session

/-! ## What fits in a frame -/

/-- A password and a host below a megabyte go in frames that the other end takes. -/
theorem standard_connect {addr host : String} {port : UInt16} (pw : String) (random : ConnectRandom)
    (incoming : Socket) (haddr : parseAddress addr = .ok (host, port))
    (hpw : (asBytes pw).length < 2 ^ 20) (hhost : (asBytes host).length < 2 ^ 20) :
    ∃ hello client,
      PbTcpRunConnector.connect .standard pw random incoming addr = .ok (hello, client) ∧
        ∀ frame ∈ hello, FitsFrame frame := by
  have hshort {length : ℕ} (h : length < 2 ^ 20) : ¬ChaCha20Poly1305.TooLong length :=
    ChaCha20Poly1305.not_tooLong_iff.mpr (by omega)
  have hcrypto : PbTcpCrates.standard.crypto = CryptoCrates.standard := rfl
  obtain ⟨auth, hauth, hauthLength⟩ :=
    CryptoCrates.standard_encryptField random.authNonce pw (hshort hpw)
  obtain ⟨dstAddr, hdstAddr, hdstLength⟩ :=
    CryptoCrates.standard_encryptField random.addrNonce pw (hshort hhost)
  obtain ⟨hello, client, hconnect⟩ : ∃ hello client,
      PbTcpRunConnector.connect .standard pw random incoming addr = .ok (hello, client) := by
    simp only [PbTcpRunConnector.connect, haddr, hcrypto, hauth, hdstAddr, bind, Except.bind]
    exact ⟨_, _, rfl⟩
  obtain ⟨auth', dstAddr', hauth', hdstAddr', hhello, -⟩ := connect_eq_ok haddr hconnect
  obtain rfl : auth = auth' := Except.ok.inj (hauth.symm.trans hauth')
  obtain rfl : dstAddr = dstAddr' := Except.ok.inj (hdstAddr.symm.trans hdstAddr')
  have hlength := StreamReq.length_encode_le ⟨auth, none, some dstAddr, some port.toUInt32⟩
  have hport := toUInt32_lt port
  have hcodec : PbTcpCrates.standard.req = StreamReq.wire := rfl
  refine ⟨hello, client, hconnect, ?_⟩
  rw [hhello]
  simp only [List.forall_mem_cons, FitsFrame, length_writeFrame, hcodec]
  simp only [Option.getD_some, Option.getD_none, List.length_nil] at hlength
  refine ⟨by simp, by omega, by simp⟩

theorem standard_sealPayload (pw : String) (encrypt : Bool) {call : WriteCall}
    (hcall : call.buf.length < 2 ^ 20) :
    ∃ payload, sealPayload .standard pw encrypt call = .ok payload ∧
      payload.length ≤ call.buf.length + 28 := by
  cases encrypt with
  | false => exact ⟨call.buf, by simp [sealPayload], by omega⟩
  | true =>
      have hshort : ¬ChaCha20Poly1305.TooLong call.buf.length :=
        ChaCha20Poly1305.not_tooLong_iff.mpr (by omega)
      obtain ⟨payload, hseal, hlength⟩ :=
        CryptoCrates.standard_encryptBytes call.nonce pw hshort
      exact ⟨payload, by simpa [sealPayload] using hseal, hlength.le⟩

/-- Payloads below a megabyte fit, in either direction. -/
theorem standard_fits (pw : String) (encrypt : Bool) {call : WriteCall}
    (hcall : call.buf.length < 2 ^ 20) :
    call.Fits StreamReq.wire clientRequest .standard pw encrypt ∧
      call.Fits StreamRes.wire StreamRes.mk .standard pw encrypt := by
  obtain ⟨payload, hpayload, hlength⟩ := standard_sealPayload pw encrypt hcall
  refine ⟨⟨payload, hpayload, ?_⟩, ⟨payload, hpayload, ?_⟩⟩
  · have hbound := StreamReq.length_encode_le (clientRequest payload)
    have hmessage : (asBytes (clientRequest payload).auth).length = 0 ∧
        (asBytes ((clientRequest payload).dstAddr.getD "")).length = 0 ∧
        ((clientRequest payload).dstPort.getD 0).toNat = 0 := ⟨rfl, rfl, rfl⟩
    have hfield : (clientRequest payload).payload.getD [] = payload := rfl
    rw [hfield] at hbound
    omega
  · have hbound := StreamRes.length_encode_le ⟨payload⟩
    simp only at hbound
    omega

/-! ## A session over one-byte segments -/

def repeatedNonce (b : UInt8) : Nonce := ⟨List.replicate 12 b, List.length_replicate⟩

def helloRandom : ConnectRandom := ⟨repeatedNonce 0, repeatedNonce 1, 5⟩

/-- A request whose mask is larger than its length. -/
def maskedRequest : WriteCall := ⟨[1, 2], repeatedNonce 2, 0xffffffffffffffff⟩

def maskedReplies : List WriteCall := [⟨[3], repeatedNonce 3, 7⟩, ⟨[4, 5], repeatedNonce 4, 0⟩]

/-- The bytes, each in a segment of its own. -/
def oneByteSegments (frames : List Bytes) : Socket := frames.flatten.map fun b ↦ [b]

theorem flatten_oneByteSegments (frames : List Bytes) :
    (oneByteSegments frames).flatten = frames.flatten := by
  rw [oneByteSegments, ← List.flatMap_def, List.flatMap_singleton']

theorem session_roundTrip_oneByteSegments :
    ∃ incoming hello client frames t server replyFrames,
      PbTcpRunConnector.connect .standard "p" helloRandom incoming "h:80" = .ok (hello, client) ∧
      [maskedRequest].mapM (PbTcpClientRunStream.write .standard client) = .ok frames ∧
      readConnType.runOn (oneByteSegments (hello ++ frames)) = (.ok connTypeStream, t) ∧
      PbTcpServerRunStream.handshake .standard "p" (.new t) =
        (.ok (some (⟨"h", 80, false⟩, "p")), server) ∧
      Receives (PbTcpServerRunStream.read .standard) server [[1, 2]] ∧
      maskedReplies.mapM (PbTcpServerRunStream.write .standard server) = .ok replyFrames ∧
      incoming = oneByteSegments replyFrames ∧
      Receives (PbTcpClientRunStream.read .standard) client [[3], [4, 5]] := by
  have haddr : parseAddress "h:80" = .ok ("h", 80) := by decide
  have hreplies : ∀ call ∈ maskedReplies,
      call.buf ≠ [] ∧ call.Fits StreamRes.wire StreamRes.mk .standard "p" true := by
    simp only [maskedReplies, List.forall_mem_cons]
    exact ⟨⟨by decide, (standard_fits "p" true (by decide)).2⟩,
      ⟨by decide, (standard_fits "p" true (by decide)).2⟩, nofun⟩
  obtain ⟨sent, hsent, -⟩ := exists_frames fun call hcall ↦ (hreplies call hcall).2
  obtain ⟨hello, client, hconnect, hhello⟩ :=
    standard_connect "p" helloRandom (oneByteSegments sent) haddr (by decide) (by decide)
  have hrequests : ∀ call ∈ [maskedRequest],
      call.buf ≠ [] ∧ call.Fits StreamReq.wire clientRequest .standard "p" true :=
    List.forall_mem_singleton.mpr ⟨by decide, (standard_fits "p" true (by decide)).1⟩
  obtain ⟨frames, hframes, hserves⟩ :=
    session_roundTrip PbTcpCrates.standard_roundTrips haddr hconnect hhello hrequests
  obtain ⟨t, server, htype, hhandshake, ⟨hpw, hencrypt⟩, hreceives, hback⟩ :=
    hserves (oneByteSegments (hello ++ frames)) (flatten_oneByteSegments _)
  obtain ⟨replyFrames, hreplyFrames, hclient⟩ := hback maskedReplies hreplies
  have hsame : sent = replyFrames := by
    obtain ⟨-, -, -, -, -, hhalf⟩ := connect_eq_ok haddr hconnect
    rw [hhalf] at hencrypt
    have hwrite : PbTcpServerRunStream.write .standard server =
        writePayload StreamRes.wire StreamRes.mk .standard "p" true := by
      funext call
      rw [PbTcpServerRunStream.write, hpw, hencrypt]
      rfl
    rw [hwrite, hsent] at hreplyFrames
    exact Except.ok.inj hreplyFrames
  subst hsame
  exact ⟨oneByteSegments sent, hello, client, frames, t, server, sent, hconnect, hframes, htype,
    hhandshake, hreceives, hreplyFrames, rfl, hclient (flatten_oneByteSegments sent)⟩

end Rog
