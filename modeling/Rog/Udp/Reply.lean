import Rog.Udp.Datagram

/-!
# Replies to clients

`UDPPacket::reply_bytes`, which puts a header in front of a packet that has come back. The client
takes it off as `parse` does.
-/

namespace Rog

/-- `u16::to_be_bytes`. -/
def toBeBytes (n : UInt16) : UInt8 × UInt8 := ((n / 256).toUInt8, n.toUInt8)

namespace UDPPacket

/-- The datagrams, where they are sent, and where the packet came from. -/
def replyBytes (packet : UDPPacket) : List Bytes × String × String :=
  let port := toBeBytes packet.metadata.srcPort
  let head : Bytes := [0, 0, 0, 1, 0, 0, 0, 0, port.1, port.2]
  let payload := head ++ packet.data
  ([payload],
    (if packet.metadata.srcAddr = "0.0.0.0" then "127.0.0.1" else packet.metadata.srcAddr) ++ ":" ++
      toString packet.metadata.srcPort,
    packet.metadata.dstAddr ++ ":" ++ toString packet.metadata.dstPort)

/-- A client at `src` that reads the datagrams of this reply finds the data, and the peer that it
came from. -/
def NamesPeer (reply : UDPPacket) (src : SocketAddr) : Prop :=
  ∃ datagram packet, reply.replyBytes.1 = [datagram] ∧ parse datagram src = .ok packet ∧
    packet.data = reply.data ∧ packet.metadata.dstAddr = reply.metadata.dstAddr ∧
      packet.metadata.dstPort = reply.metadata.dstPort

variable {reply : UDPPacket}

theorem parse_reply (hdata : reply.data ≠ []) (src : SocketAddr) :
    ∃ datagram, reply.replyBytes.1 = [datagram] ∧ parse datagram src =
      .ok ⟨⟨"0.0.0.0", reply.metadata.srcPort, src.ip.toString, src.port⟩, reply.data⟩ := by
  have hfits : Request.FitsType 1 [0, 0, 0, 0] := .inl ⟨rfl, rfl⟩
  have hzero : addrText 1 [0, 0, 0, 0] = .ok "0.0.0.0" := by decide
  have hport := fromBeBytes_toBeBytes reply.metadata.srcPort
  refine ⟨datagram (0, 0) 0 1 [0, 0, 0, 0] (toBeBytes reply.metadata.srcPort) reply.data, rfl, ?_⟩
  rw [parse_datagram hfits hdata, hzero]
  refine congrArg (fun port ↦ (.ok ⟨⟨"0.0.0.0", port, src.ip.toString, src.port⟩, reply.data⟩ :
    Io UDPPacket)) hport

/-- The header has the port of the client, and an address that is none: the peer has that port,
and the same for an address. -/
theorem namesPeer_iff (hdata : reply.data ≠ []) (src : SocketAddr) :
    reply.NamesPeer src ↔
      reply.metadata.dstAddr = "0.0.0.0" ∧ reply.metadata.dstPort = reply.metadata.srcPort := by
  obtain ⟨datagram, hreply, hparse⟩ := parse_reply hdata src
  constructor
  · rintro ⟨datagram', packet, hreply', hpacket, -, haddr, hport⟩
    obtain rfl : datagram = datagram' := List.singleton_inj.mp (hreply.symm.trans hreply')
    obtain rfl := Except.ok.inj (hparse.symm.trans hpacket)
    exact ⟨haddr.symm, hport.symm⟩
  · rintro ⟨haddr, hport⟩
    exact ⟨datagram, _, hreply, hparse, rfl, haddr.symm, hport.symm⟩

/-- A packet to a client at `127.0.0.1:5000`. -/
def replyFrom (dstAddr : String) (dstPort : UInt16) : UDPPacket :=
  ⟨⟨dstAddr, dstPort, "127.0.0.1", 5000⟩, [9]⟩

/-- A peer without an address, that has the port of the client. -/
theorem namesPeer_unspecified :
    (replyFrom "0.0.0.0" 5000).NamesPeer ⟨.v4 ⟨127, 0, 0, 1⟩, 1080⟩ :=
  (namesPeer_iff (List.cons_ne_nil _ _) _).mpr ⟨rfl, rfl⟩

/-- A packet of `1.2.3.4:53`. -/
theorem reply_names_client : ¬∀ (reply : UDPPacket) (src : SocketAddr), reply.data ≠ [] →
    reply.NamesPeer src := by
  intro h
  have hdata : (replyFrom "1.2.3.4" 53).data ≠ [] := List.cons_ne_nil _ _
  obtain ⟨datagram, packet, hdatagram, hpacket, -, haddr, -⟩ :=
    h (replyFrom "1.2.3.4" 53) ⟨.v4 ⟨127, 0, 0, 1⟩, 1080⟩ hdata
  obtain ⟨datagram', hdatagram', hparse⟩ := parse_reply hdata ⟨.v4 ⟨127, 0, 0, 1⟩, 1080⟩
  obtain rfl : datagram = datagram' := List.singleton_inj.mp (hdatagram.symm.trans hdatagram')
  obtain rfl := Except.ok.inj (hparse.symm.trans hpacket)
  exact absurd haddr (by decide)

end UDPPacket

end Rog
