import Rog.Udp.Fidelity
import Rog.Util.FrameCut

/-!
# What has come through a tunnel

At any moment some of what was written at one end of a tunnel has arrived at the other: of a gRPC
tunnel a number of messages, and of a pb_tcp tunnel a number of bytes.
-/

namespace Rog

open Lib SocketM

/-- Where `written` has been written at the connector's end, `read` has been read at the
listener's end by calls that have succeeded. -/
inductive TunnelForth (x : PbTcpUdpCrates) (written read : List UDPPacket) : Prop where
  | grpc (pw : String) (resp : Streaming UdpRes) (reader : GrpcUdpClientRunReader)
      (writer : GrpcUdpClientRunWriter) (msgs : List UdpReq) (request : Streaming UdpReq)
      (hends : GrpcRunConnector.udpTunnel (some pw) (.ok resp) = .ok (reader, writer))
      (hwrites : written.mapM writer.write = .ok msgs) (harrives : Arrives msgs request)
      (hreads : (results GrpcUdpServerReadHalf.read read.length
        (GrpcRunListener.udpSocket pw request)).1 = read.map .ok)
  | revGrpc (pw : String) (msgs : List RevUdpRes) (resp : Streaming RevUdpRes)
      (hwrites : written.mapM RevGrpcUdpServerWriter.write = .ok msgs)
      (harrives : Arrives msgs resp)
      (hreads : (results RevGrpcUdpClientReader.read read.length (revUdpPair pw resp).1).1 =
        read.map .ok)
  | pbTcp (pw : String) (incoming : Socket) (hello : Bytes) (reader : PbTcpUdpClientReader)
      (writer : PbTcpUdpClientWriter) (calls : List UdpWriteCall) (frames : List Bytes)
      (part : Bytes) (s t : Socket)
      (hends : PbTcpRunConnector.udpTunnel pw incoming = (hello, reader, writer))
      (hcalls : calls.map UdpWriteCall.packet = written)
      (hwrites : calls.mapM (writer.write x) = .ok frames)
      (hvec : ∀ frame ∈ frames, FitsVec frame) (hpart : Unfinished x.req part)
      (hs : s.flatten <+: hello ++ (frames.flatten ++ part))
      (htype : readConnType.runOn s = (.ok connTypeUdp, t))
      (hreads : (results (PbTcpUdpServerReader.read x) read.length
        (PbTcpRunAcceptor.udpSocket pw t).1).1 = read.map .ok)

/-- The same from the listener's end to the connector's. -/
inductive TunnelBack (x : PbTcpUdpCrates) (written read : List UDPPacket) : Prop where
  | grpc (pw : String) (resp : Streaming UdpRes) (reader : GrpcUdpClientRunReader)
      (writer : GrpcUdpClientRunWriter) (msgs : List UdpRes)
      (hends : GrpcRunConnector.udpTunnel (some pw) (.ok resp) = .ok (reader, writer))
      (hwrites : written.mapM GrpcUdpServerWriteHalf.write = .ok msgs) (harrives : Arrives msgs resp)
      (hreads : (results GrpcUdpClientRunReader.read read.length reader).1 = read.map .ok)
  | revGrpc (pw connId : String) (resp : Streaming RevUdpRes) (msgs : List RevUdpReq)
      (stream : Streaming RevUdpReq) (server : RevGrpcUdpServerReader)
      (hwrites : written.mapM (revUdpPair pw resp).2.write = .ok msgs)
      (harrives : Arrives msgs stream)
      (hserver : RevGrpcServer.udpReader (.ok (revUdpHello pw connId) :: stream) = some server)
      (hreads : (results RevGrpcUdpServerReader.read read.length server).1 = read.map .ok)
  | pbTcp (pw : String) (incoming : Socket) (hello : Bytes) (reader : PbTcpUdpClientReader)
      (writer : PbTcpUdpClientWriter) (calls : List UdpWriteCall) (frames : List Bytes)
      (part : Bytes) (t : Socket)
      (hends : PbTcpRunConnector.udpTunnel pw incoming = (hello, reader, writer))
      (hcalls : calls.map UdpWriteCall.packet = written)
      (hwrites : calls.mapM ((PbTcpRunAcceptor.udpSocket pw t).2.write x) = .ok frames)
      (hvec : ∀ frame ∈ frames, FitsVec frame) (hpart : Unfinished x.res part)
      (hincoming : incoming.flatten <+: frames.flatten ++ part)
      (hreads : (results (PbTcpUdpClientReader.read x) read.length reader).1 = read.map .ok)

/-! ## The readers -/

section Grpc

variable {M : Type} {closed : String} {status : ErrorKind} {convert : M → Io UDPPacket}

theorem feeds_readPacket : Feeds (readPacket closed status convert) fun packets s ↦
    ∃ msgs, List.Forall₂ (fun msg packet ↦ convert msg = .ok packet) msgs packets ∧
      Arrives msgs s :=
  feeds_arrives ⟨_, _, rfl⟩ (fun _ _ ↦ rfl) fun _ _ ↦ ⟨_, _, rfl⟩

/-- A gRPC reader that undoes the writes. -/
theorem prefix_of_readPacket {σ : Type} {read : σ → Io UDPPacket × σ} (reader : Streaming M → σ)
    (hread : ∀ s, read (reader s) =
      ((readPacket closed status convert s).1, reader (readPacket closed status convert s).2))
    {write : UDPPacket → Io M}
    (hconvert : ∀ packet msg, write packet = .ok msg → convert msg = .ok packet)
    {packets out : List UDPPacket} {msgs : List M} (hwrites : packets.mapM write = .ok msgs)
    {s : Streaming M} (hs : Arrives msgs s)
    (hresults : (results read out.length (reader s)).1 = out.map .ok) : out <+: packets := by
  have hpackets : Feeds (readPacket closed status convert) _ := feeds_readPacket
  have hfeeds := hpackets.view reader hread
  have hmsgs := (forall₂_of_mapM hwrites).imp fun msg packet ↦ hconvert packet msg
  exact hfeeds.prefix_of_results ⟨s, rfl, msgs, hmsgs, hs⟩ hresults

end Grpc

section PbTcp

variable {M : Type} {codec : Prost M}

/-- The same for a pb_tcp reader. -/
theorem prefix_of_frames {σ : Type} {read : σ → Io UDPPacket × σ} (reader : Socket → σ)
    (convert : M → Io UDPPacket) {readOn : SocketM UDPPacket} (hcodec : codec.RoundTrips)
    (hreadOn : readOn = readMsg codec >>= fun msg ↦ ofIo (convert msg))
    (hread : ∀ s, read (reader s) = ((readOn.runOn s).1, reader (readOn.runOn s).2))
    {write : UdpWriteCall → Io Bytes}
    (hwrite : ∀ call frame, write call = .ok frame → ∃ mask msg,
      frame = writeFrame codec mask msg ∧ convert msg = .ok call.packet)
    {calls : List UdpWriteCall} {frames : List Bytes} {part : Bytes} {out : List UDPPacket}
    (hwrites : calls.mapM write = .ok frames) (hvec : ∀ frame ∈ frames, FitsVec frame)
    (hpart : Unfinished codec part) {s : Socket} (hs : s.flatten <+: frames.flatten ++ part)
    (hresults : (results read out.length (reader s)).1 = out.map .ok) :
    out <+: calls.map UdpWriteCall.packet := by
  have hpackets : Feeds readOn.runOn _ := (feeds_conveys hcodec).convert
    (fun s msg t h ↦ by rw [hreadOn, runOn_bind_ok h, runOn_ofIo])
    (fun s e t h ↦ ⟨e, t, by rw [hreadOn, runOn_bind_error h]⟩)
  exact (hpackets.view reader hread).prefix_of_results
    ⟨s, rfl, conveys_of_writes hwrite hwrites hvec hpart hs⟩ hresults

end PbTcp

/-! ## The tunnels -/

variable {x : PbTcpUdpCrates} {written read : List UDPPacket}

/-- What has been read of a tunnel is a prefix of what was written to it. -/
theorem TunnelForth.read_isPrefix (hx : x.RoundTrips) (h : TunnelForth x written read) :
    read <+: written := by
  cases h with
  | grpc pw resp reader writer msgs request hends hwrites harrives hreads =>
      obtain ⟨rfl, rfl⟩ := Prod.mk.inj (Except.ok.inj hends)
      exact prefix_of_readPacket (GrpcRunListener.udpSocket pw) (fun _ ↦ rfl)
        (fun _ _ ↦ GrpcUdpServerReadHalf.convert_write) hwrites harrives hreads
  | revGrpc pw msgs resp hwrites harrives hreads =>
      exact prefix_of_readPacket RevGrpcUdpClientReader.mk (fun _ ↦ rfl)
        (fun _ _ ↦ RevGrpcUdpServerWriter.orErr_write _) hwrites harrives hreads
  | pbTcp pw incoming hello reader writer calls frames part s t hends hcalls hwrites hvec hpart hs
      htype hreads =>
      obtain ⟨rfl, hpair⟩ := Prod.mk.inj hends
      obtain ⟨rfl, rfl⟩ := Prod.mk.inj hpair
      have ht : t.flatten <+: frames.flatten ++ part := by
        rw [readConnType_eq_ok htype] at hs
        exact (List.cons_prefix_cons.mp hs).2
      rw [← hcalls]
      refine prefix_of_frames (fun s ↦ PbTcpUdpServerReader.mk s pw pw)
        (PbTcpUdpServerReader.convert x.crypto pw pw) hx.req rfl (fun _ ↦ rfl)
        (fun call frame hframe ↦ ?_) hwrites hvec hpart ht hreads
      obtain ⟨req, hreq, hframe⟩ := Io.bind_eq_ok hframe
      exact ⟨call.mask, req, (Except.ok.inj hframe).symm,
        PbTcpUdpServerReader.convert_encode hx.crypto hreq⟩

theorem TunnelBack.read_isPrefix (hx : x.RoundTrips) (h : TunnelBack x written read) :
    read <+: written := by
  cases h with
  | grpc pw resp reader writer msgs hends hwrites harrives hreads =>
      obtain ⟨rfl, rfl⟩ := Prod.mk.inj (Except.ok.inj hends)
      exact prefix_of_readPacket GrpcUdpClientRunReader.mk (fun _ ↦ rfl)
        (fun _ _ ↦ GrpcUdpServerWriteHalf.unwrap_write) hwrites harrives hreads
  | revGrpc pw connId resp msgs stream server hwrites harrives hserver hreads =>
      obtain rfl := Option.some.inj hserver
      exact prefix_of_readPacket (fun s ↦ RevGrpcUdpServerReader.mk s pw) (fun _ ↦ rfl)
        (fun _ _ ↦ RevGrpcUdpServerReader.convert_write) hwrites harrives hreads
  | pbTcp pw incoming hello reader writer calls frames part t hends hcalls hwrites hvec hpart
      hincoming hreads =>
      obtain ⟨rfl, hpair⟩ := Prod.mk.inj hends
      obtain ⟨rfl, rfl⟩ := Prod.mk.inj hpair
      rw [← hcalls]
      refine prefix_of_frames (fun s ↦ PbTcpUdpClientReader.mk s pw)
        (PbTcpUdpClientReader.convert x.crypto pw) hx.res rfl (fun _ ↦ rfl)
        (fun call frame hframe ↦ ?_) hwrites hvec hpart hincoming hreads
      obtain ⟨res, hres, hframe⟩ := Io.bind_eq_ok hframe
      exact ⟨call.mask, res, (Except.ok.inj hframe).symm,
        PbTcpUdpClientReader.convert_encode hx.crypto hres⟩

end Rog
