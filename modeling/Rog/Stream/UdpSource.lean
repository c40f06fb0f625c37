import Rog.Stream.Udp

/-!
# The address of the client of a tunnel

A tunnel is opened with the address of the client as a text, which each read of the tunnel
parses. The text of an IPv6 address stands in it without brackets.
-/

namespace Rog

open Lib StateIo

/-- What `handle_udp_connection` and `handle_raw_udp` call `udp_tunnel` with for a first packet. -/
def tunnelSrcAddr (packet : UDPPacket) : String :=
  packet.metadata.srcAddr ++ ":" ++ toString packet.metadata.srcPort

/-- `udp_tunnel`, with what the binding of the socket returns. -/
def TcpRunConnector.udpTunnel (bound : Io Unit) (srcAddr : String) : Io UdpRunStream := do
  bound
  return .newPair srcAddr

namespace UdpRunStream

theorem srcAddr_write (answers : UdpAnswers) (packet : UDPPacket) (s : UdpRunStream) :
    ((write answers packet).runOn s).2.srcAddr = s.srcAddr := by
  obtain ⟨resolved, resolveState, hresolve⟩ : ∃ resolved resolveState,
      (UdpResolveState.resolveDstAddr answers packet.metadata.dstAddr
        packet.metadata.dstPort).runOn s.resolveState = (resolved, resolveState) := ⟨_, _, rfl⟩
  unfold write StateIo.runOn
  rw [StateIo.runOn] at hresolve
  simp only [hresolve]
  cases resolved with
  | error e => rfl
  | ok addr => cases answers.sendTo <;> rfl

theorem srcAddr_of_run {writes : List UdpWrite} {s t : UdpRunStream}
    (h : udpWrites.run s writes = some t) : t.srcAddr = s.srcAddr := by
  refine Machine.run_preserves (I := fun u ↦ u.srcAddr = s.srcAddr) (P := fun _ _ ↦ True) ?_
    (.of_forall (fun _ _ _ ↦ trivial) s) rfl h
  rintro u w v - hu hstep
  rw [← Option.some.inj hstep, srcAddr_write, hu]

theorem read_of_parse {s : UdpRunStream} {src : SocketAddr}
    (h : SocketAddr.parse s.srcAddr = some src) (datagram : Bytes × SocketAddr) :
    ((read (.ok datagram)).runOn s).1 = .ok
      ⟨⟨s.resolveState.dstAddrStr datagram.2, datagram.2.port, src.ip.toString, src.port⟩,
        datagram.1.take 65536⟩ := by
  unfold read StateIo.runOn
  simp only [h]
  rfl

theorem read_panics {s : UdpRunStream} (h : SocketAddr.parse s.srcAddr = none)
    (received : Io (Bytes × SocketAddr)) : ((read received).runOn s).1 = .error .panic := by
  unfold read StateIo.runOn
  simp only [h]
  rfl

end UdpRunStream

/-- A tunnel for a packet of this client: each of its later reads that receives a datagram returns
a packet to the client. -/
def KeepsSource (a : IpAddr) (port : UInt16) : Prop :=
  ∀ packet : UDPPacket, packet.metadata.srcAddr = a.toString → packet.metadata.srcPort = port →
    ∀ tunnel, TcpRunConnector.udpTunnel (.ok ()) (tunnelSrcAddr packet) = .ok tunnel →
      ∀ writes s, udpWrites.run tunnel writes = some s → ∀ datagram : Bytes × SocketAddr,
        ∃ reply, ((UdpRunStream.read (.ok datagram)).runOn s).1 = .ok reply ∧
          reply.metadata.srcAddr = a.toString ∧ reply.metadata.srcPort = port

/-- The client has an IPv4 address. -/
theorem keepsSource_iff (a : IpAddr) (port : UInt16) : KeepsSource a port ↔ ∃ ip, a = .v4 ip := by
  constructor
  · intro h
    cases a with
    | v4 ip => exact ⟨ip, rfl⟩
    | v6 ip =>
        obtain ⟨reply, hread, -⟩ := h ⟨⟨"", 0, ip.toString, port⟩, []⟩ rfl rfl _ rfl [] _ rfl
          ([], ⟨.v6 ip, port⟩)
        have hparse : SocketAddr.parse (UdpRunStream.newPair
            (tunnelSrcAddr ⟨⟨"", 0, ip.toString, port⟩, []⟩)).srcAddr = none :=
          SocketAddr.parse_ipv6 ip port
        rw [UdpRunStream.read_panics hparse] at hread
        cases hread
  · rintro ⟨ip, rfl⟩ packet hsrcAddr hsrcPort tunnel htunnel writes s hrun datagram
    obtain rfl : UdpRunStream.newPair (tunnelSrcAddr packet) = tunnel := Except.ok.inj htunnel
    have hparse : SocketAddr.parse s.srcAddr = some ⟨.v4 ip, port⟩ := by
      rw [UdpRunStream.srcAddr_of_run hrun, ← SocketAddr.parse_ipv4 ip port]
      change SocketAddr.parse (tunnelSrcAddr packet) = _
      rw [tunnelSrcAddr, hsrcAddr, hsrcPort]
      rfl
    exact ⟨_, UdpRunStream.read_of_parse hparse datagram, rfl, rfl⟩

/-- The first datagram for a client at `::1`. -/
theorem ipv6_client_panics : ¬∀ a port, KeepsSource a port := by
  intro h
  let loopback : IpAddr := .v6 ⟨[0, 0, 0, 0, 0, 0, 0, 1], rfl⟩
  obtain ⟨reply, hread, -⟩ := h loopback 5000 ⟨⟨"", 0, "::1", 5000⟩, []⟩ (by decide) rfl _
    rfl [] _ rfl ([], ⟨.v4 ⟨1, 2, 3, 4⟩, 53⟩)
  have hparse : SocketAddr.parse (UdpRunStream.newPair
      (tunnelSrcAddr ⟨⟨"", 0, "::1", 5000⟩, []⟩)).srcAddr = none := by
    decide
  rw [UdpRunStream.read_panics hparse] at hread
  cases hread

end Rog
