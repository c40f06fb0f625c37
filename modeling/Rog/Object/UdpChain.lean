import Rog.Object.RawUdp
import Rog.Object.UdpForward
import Rog.Udp.Order

/-!
# Packets over a row of nodes

A SOCKS5 association is taken from node to node: the first one has `handle_udp_connection`, and
each that follows has `handle_raw_udp` on what the listener of its tunnel hands over.
-/

namespace Rog

open Lib

/-! ## The first node -/

namespace UdpConnection

/-- The packet on its way to the tunnel, as long as the datagrams are still received. -/
def held (s : UdpConnection) : Option (List UDPPacket) :=
  match s.b with
  | .selecting => some []
  | .writing packet => some [packet]
  | .ended => none
  | .unspawned => match s.main with
      | .bind | .refuse _ | .localAddr | .confirm _ | .firstRecv => some []
      | .route packet | .create packet | .udpTunnel packet | .firstWrite packet => some [packet]
      | .joinA | .joinB | .joinC | .left _ => none

variable {connector : String → Bool} {s t : UdpConnection} {e : UdpEvent}

/-- What a step does with the datagrams and packets. -/
theorem step_held (hphase : s.Phase) (h : s.step connector e = some t) :
    (t.arrived = s.arrived ∧ t.tunnelled = s.tunnelled ∧ (t.held = s.held ∨ t.held = none)) ∨
    (∃ d, t.arrived = s.arrived ++ [d] ∧ t.tunnelled = s.tunnelled ∧ s.held = some [] ∧
      (t.held = some (forwarded d).toList ∨ t.held = none ∧ forwarded d = none)) ∨
    ∃ packet, s.held = some [packet] ∧ t.arrived = s.arrived ∧
      t.tunnelled = s.tunnelled ++ [packet] ∧ t.held = some [] := by
  obtain ⟨main, a, b, c, token, arrived, tunnelled⟩ := s
  cases e with
  | bound r | refused r | localAddr r | confirmed r | created r =>
      cases main <;> cases h
      cases r <;> refine .inl ⟨rfl, rfl, ?_⟩ <;> cases b <;>
        first | exact .inl rfl | exact .inr rfl
  | firstRecv r =>
      cases main <;> cases h
      obtain ⟨-, hb, -⟩ := hphase
      dsimp only at hb
      obtain rfl := hb
      cases r with
      | error e => exact .inl ⟨rfl, rfl, .inr rfl⟩
      | ok d =>
          refine .inr (.inl ⟨d, ?_⟩)
          dsimp only [first]
          split
          · rename_i e hparse
            exact ⟨rfl, rfl, rfl, .inr ⟨rfl, by rw [forwarded, hparse]⟩⟩
          · rename_i packet hparse
            split
            · rename_i hdata
              exact ⟨rfl, rfl, rfl, .inr ⟨rfl, by simp [forwarded, hparse, hdata]⟩⟩
            · rename_i hdata
              exact ⟨rfl, rfl, rfl, .inl (by simp [held, forwarded, hparse, hdata])⟩
  | routed clientName =>
      cases main <;> cases h
      split <;> refine .inl ⟨rfl, rfl, ?_⟩ <;> cases b <;> first | exact .inl rfl | exact .inr rfl
  | tunnelOpened r =>
      cases main <;> cases h
      cases r with
      | error e => refine .inl ⟨rfl, rfl, ?_⟩; cases b <;> first | exact .inl rfl | exact .inr rfl
      | ok opened =>
          cases opened <;> refine .inl ⟨rfl, rfl, ?_⟩ <;> cases b <;>
            first | exact .inl rfl | exact .inr rfl
  | firstWritten r =>
      cases main <;> cases h
      obtain ⟨-, hb, -⟩ := hphase
      dsimp only at hb
      obtain rfl := hb
      cases r with
      | ok v => exact .inr (.inr ⟨_, rfl, rfl, rfl, rfl⟩)
      | error e => exact .inl ⟨rfl, rfl, .inr rfl⟩
  | joined =>
      apply Or.inl
      cases main with
      | joinA => cases a <;> cases h; exact ⟨rfl, rfl, by cases b <;> exact .inl rfl⟩
      | joinB => cases b <;> cases h; exact ⟨rfl, rfl, .inl rfl⟩
      | joinC => cases c <;> cases h; exact ⟨rfl, rfl, by cases b <;> exact .inl rfl⟩
      | _ => cases h
  | cancelled task =>
      apply Or.inl
      cases token with
      | false => cases task <;> cases h
      | true =>
          cases task with
          | a => cases a <;> cases h; exact ⟨rfl, rfl, .inl rfl⟩
          | b => cases b <;> cases h; exact ⟨rfl, rfl, .inr rfl⟩
          | c => cases c <;> cases h; exact ⟨rfl, rfl, .inl rfl⟩
  | controlRead r =>
      cases a <;> cases h
      split <;> exact .inl ⟨rfl, rfl, .inl rfl⟩
  | recv r =>
      cases b <;> cases h
      cases r with
      | error e => exact .inl ⟨rfl, rfl, .inr rfl⟩
      | ok d =>
          refine .inr (.inl ⟨d, ?_⟩)
          dsimp only [next]
          split
          · rename_i e hparse
            exact ⟨rfl, rfl, rfl, .inr ⟨rfl, by rw [forwarded, hparse]⟩⟩
          · rename_i hparse
            exact ⟨rfl, rfl, rfl, .inr ⟨rfl, by rw [forwarded, hparse]⟩⟩
          · rename_i packet hparse
            split
            · rename_i hdata
              exact ⟨rfl, rfl, rfl, .inl (by simp [held, forwarded, hparse, hdata])⟩
            · rename_i hdata
              exact ⟨rfl, rfl, rfl, .inl (by simp [held, forwarded, hparse, hdata])⟩
  | written r =>
      cases b <;> cases h
      cases r with
      | ok v => exact .inr (.inr ⟨_, rfl, rfl, rfl, rfl⟩)
      | error e => exact .inl ⟨rfl, rfl, .inr rfl⟩
  | tunnelRead r =>
      cases c <;> cases h
      rcases r with (e | _) | packet <;> exact .inl ⟨rfl, rfl, .inl rfl⟩
  | sent r =>
      cases c <;> cases h
      cases r <;> exact .inl ⟨rfl, rfl, .inl rfl⟩

/-- Whatever happens, the packets written to the tunnel are those of the datagrams in order, but
for one at most. -/
structure Loses (s : UdpConnection) (rest : List UDPPacket) : Prop where
  packets : s.tunnelled ++ rest = s.arrived.filterMap forwarded
  length_le : rest.length ≤ 1
  eq_held : ∀ l, s.held = some l → rest = l

theorem Loses.step {rest : List UDPPacket} (hs : s.Loses rest) (hphase : s.Phase)
    (h : s.step connector e = some t) : ∃ rest', t.Loses rest' := by
  rcases step_held hphase h with ⟨harrived, htunnelled, hheld⟩ |
    ⟨d, harrived, htunnelled, hempty, hheld⟩ | ⟨packet, hpacket, harrived, htunnelled, hheld⟩
  · refine ⟨rest, by rw [htunnelled, harrived, hs.packets], hs.length_le, fun l hl ↦ ?_⟩
    rcases hheld with hheld | hheld
    · exact hs.eq_held l (hheld ▸ hl)
    · cases hheld.symm.trans hl
  · obtain rfl := hs.eq_held [] hempty
    have hpackets : t.tunnelled ++ (forwarded d).toList = t.arrived.filterMap forwarded := by
      rw [harrived, filterMap_arrived, htunnelled, ← hs.packets, List.append_nil]
    refine ⟨(forwarded d).toList, hpackets, by cases forwarded d <;> simp, fun l hl ↦ ?_⟩
    rcases hheld with hheld | ⟨hheld, -⟩
    · exact Option.some.inj (hheld.symm.trans hl)
    · cases hheld.symm.trans hl
  · obtain rfl := hs.eq_held [packet] hpacket
    refine ⟨[], ?_, by simp, fun l hl ↦ Option.some.inj (hheld.symm.trans hl)⟩
    rw [htunnelled, harrived, List.append_nil, hs.packets]

theorem Loses.of_reachable (h : (machine connector).Reachable s) : ∃ rest, s.Loses rest := by
  have hinv : s.Phase ∧ ∃ rest, s.Loses rest := by
    refine h.invariant (I := fun s ↦ s.Phase ∧ ∃ rest, s.Loses rest) ?_ ?_
    · rintro s rfl
      exact ⟨phase_new, [], rfl, by simp, fun l hl ↦ Option.some.inj hl⟩
    · rintro s e t ⟨hphase, rest, hs⟩ hstep
      exact ⟨hphase.step hstep, hs.step hphase hstep⟩
  exact hinv.2

theorem tunnelled_prefix (h : (machine connector).Reachable s) :
    s.tunnelled <+: s.arrived.filterMap forwarded := by
  obtain ⟨rest, hs⟩ := Loses.of_reachable h
  exact ⟨rest, hs.packets⟩

end UdpConnection

/-! ## The other nodes -/

/-- A call of `handle_raw_udp` that has come to the opening of its tunnel. -/
structure RawUdpNode where
  firstPacket : UDPPacket
  relay : RawUdp
  reachable : (RawUdp.machine firstPacket).Reachable relay

/-- What a node leaves of the packets that its listener hands over. -/
def clean : List UDPPacket → List UDPPacket
  | [] => []
  | packet :: packets => packet :: packets.filter fun packet ↦ packet.data ≠ []

theorem cleans_clean : Cleans clean where
  mono packets packets' h := by
    cases packets with
    | nil => exact List.nil_prefix
    | cons packet packets =>
        obtain ⟨rest, rfl⟩ := h
        rw [List.cons_append, clean, clean, List.filter_append]
        exact (List.prefix_cons_inj packet).mpr (List.prefix_append _ _)
  idem packets := by
    cases packets with
    | nil => rfl
    | cons packet packets => simp [clean]

namespace RawUdpNode

/-- The packets that the listener's end of the tunnel before the node has given. -/
def arrivals (v : RawUdpNode) : List UDPPacket :=
  v.firstPacket :: (v.relay.loops.map (·.first.taken)).getD []

/-- The packets that the connector's end of the tunnel behind the node has given. -/
def replies (v : RawUdpNode) : List UDPPacket := (v.relay.loops.map (·.second.taken)).getD []

theorem tunnelled_prefix (v : RawUdpNode) : v.relay.tunnelled <+: clean v.arrivals := by
  obtain ⟨-, -, hnone, hsome⟩ := RawUdp.forwards_of_reachable v.reachable
  cases hloops : v.relay.loops with
  | none =>
      rw [(hnone hloops).1]
      exact List.nil_prefix
  | some loops =>
      obtain ⟨⟨rest, -, -, hpackets⟩, -⟩ := hsome loops hloops
      refine ⟨rest, hpackets.trans ?_⟩
      simp [arrivals, clean, hloops]

theorem replied_prefix (v : RawUdpNode) : v.relay.replied <+: v.replies := by
  obtain ⟨-, -, hnone, hsome⟩ := RawUdp.forwards_of_reachable v.reachable
  cases hloops : v.relay.loops with
  | none =>
      rw [(hnone hloops).2]
      exact List.nil_prefix
  | some loops =>
      obtain ⟨-, rest, -, -, hpackets⟩ := hsome loops hloops
      exact ⟨rest, hpackets.trans (by simp [replies, hloops])⟩

end RawUdpNode

/-- The tunnels between the nodes that follow one another, in both directions. -/
def Tunnelled (x : PbTcpUdpCrates) (nodes : List RawUdpNode) : Prop :=
  nodes.IsChain fun v w ↦ TunnelForth x v.relay.tunnelled w.arrivals ∧
    TunnelBack x w.relay.replied v.replies

theorem clean_forwarded (datagrams : List RecvFrom) :
    clean (datagrams.filterMap forwarded) = datagrams.filterMap forwarded := by
  have hdata : ∀ packet ∈ datagrams.filterMap forwarded, packet.data ≠ [] := by
    intro packet hpacket
    obtain ⟨d, -, hd⟩ := List.mem_filterMap.mp hpacket
    rw [forwarded] at hd
    split at hd
    · split at hd
      · cases hd
      · rename_i hne
        obtain rfl := Option.some.inj hd
        exact hne
    · cases hd
  cases hpackets : datagrams.filterMap forwarded with
  | nil => rfl
  | cons packet packets =>
      rw [hpackets] at hdata
      rw [clean, List.filter_eq_self.mpr]
      intro p hp
      simpa using hdata p (List.mem_cons_of_mem packet hp)

/-- Over any number of nodes, with whatever tunnels between them, at any moment: what the last node
has written to its tunnel is, in order, a prefix of the packets of the datagrams that the client of
the association has sent to the first one, and what the first one gets back is a prefix of what the
last one has got back. -/
theorem packets_in_order {x : PbTcpUdpCrates} (hx : x.RoundTrips) {connector : String → Bool}
    {conn : UdpConnection} (hconn : (UdpConnection.machine connector).Reachable conn)
    {v : RawUdpNode} {nodes : List RawUdpNode} {back : List UDPPacket}
    (hfirst : TunnelForth x conn.tunnelled v.arrivals) (hback : TunnelBack x v.relay.replied back)
    (hnodes : Tunnelled x (v :: nodes)) :
    let last := (v :: nodes).getLast (List.cons_ne_nil v nodes)
    last.relay.tunnelled <+: conn.arrived.filterMap forwarded ∧ back <+: last.replies := by
  constructor
  · have hrow := cleans_clean.row RawUdpNode.arrivals (fun w _ ↦ w.tunnelled_prefix)
      (hnodes.imp fun _ _ h ↦ h.1.read_isPrefix hx)
    have harrivals : v.arrivals <+: conn.arrived.filterMap forwarded :=
      (hfirst.read_isPrefix hx).trans (UdpConnection.tunnelled_prefix hconn)
    have hclean := cleans_clean.mono _ _ harrivals
    rw [clean_forwarded] at hclean
    exact hrow.trans hclean
  · have hrow := row_back (fun w _ ↦ w.replied_prefix)
      (hnodes.imp fun _ _ h ↦ h.2.read_isPrefix hx)
    exact (hback.read_isPrefix hx).trans hrow

def relayedPacket : UDPPacket := ⟨⟨"1.2.3.4", 80, "127.0.0.1", 5000⟩, [9]⟩

def replyPacket : UDPPacket := ⟨⟨"1.2.3.4", 80, "127.0.0.1", 5000⟩, [8]⟩

/-- A node that has written its first packet and got a reply. -/
def relayedNode : RawUdpNode where
  firstPacket := relayedPacket
  relay := ⟨.joinB, [relayedPacket],
    some ⟨.new, ⟨.selecting, [replyPacket], [replyPacket]⟩, false⟩, 1, 1⟩
  reachable := ⟨.new relayedPacket, [.tunnelOpened (.ok true), .firstWritten (.ok ()),
    .c .uncancelled, .c (.read (.ok replyPacket)), .c (.written (.ok ()))], rfl, rfl⟩

/-- Of two packets one has come to the second of two nodes, and the reply to the client's. -/
theorem packets_in_order_twoNodes : ∃ conn : UdpConnection, conn.tunnelled.length = 2 ∧
    relayedNode.relay.tunnelled <+: conn.arrived.filterMap forwarded ∧
      [replyPacket] <+: relayedNode.replies := by
  have hrun : ((UdpConnection.machine fun _ ↦ true).run .new UdpConnection.relayed).isSome := by
    decide
  obtain ⟨conn, hconn⟩ := Option.isSome_iff_exists.mp hrun
  have htunnelled : conn.tunnelled = [relayedPacket, relayedPacket] := by
    cases hconn
    rfl
  let msg : UdpReq := .fromPacket relayedPacket "p"
  have hforth (written : List UDPPacket) (more : List UdpReq)
      (hwrites : written.mapM (GrpcUdpClientRunWriter.write ⟨"p"⟩) = .ok (msg :: more)) :
      TunnelForth .standard written relayedNode.arrivals :=
    .grpc "p" [] ⟨[]⟩ ⟨"p"⟩ (msg :: more) [.ok msg] rfl hwrites
      ⟨[msg], [], ⟨more, rfl⟩, rfl, by simp⟩ rfl
  let res : UdpRes := ⟨[8], some "1.2.3.4", some 80, some "127.0.0.1", some 5000⟩
  have hback : TunnelBack .standard relayedNode.relay.replied [replyPacket] :=
    .grpc "p" [.ok res] ⟨[.ok res]⟩ ⟨"p"⟩ [res] rfl rfl
      ⟨[res], [], List.prefix_refl _, rfl, by simp⟩ rfl
  have hnodes : Tunnelled .standard [relayedNode, relayedNode] :=
    List.isChain_cons_cons.mpr ⟨⟨hforth _ [] rfl, hback⟩, .singleton _⟩
  have hfirst : TunnelForth .standard conn.tunnelled relayedNode.arrivals := by
    rw [htunnelled]
    exact hforth _ [msg] rfl
  exact ⟨conn, by rw [htunnelled]; rfl, packets_in_order PbTcpUdpCrates.standard_roundTrips
    ⟨_, _, rfl, hconn⟩ hfirst hback hnodes⟩

end Rog
