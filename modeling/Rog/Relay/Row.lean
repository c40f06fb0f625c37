import Rog.Relay.Fidelity
import Rog.Relay.Transport

/-!
# Bytes over a row of nodes

A connection is taken from node to node: each of them has the handshake of its listener behind it,
is connected to the next one for the destination that the handshake has returned, and relays in
its own mode.
-/

namespace Rog

open Lib

/-- A call of `handle_tcp_connection` with this cache, in either mode. -/
inductive RelayCall (ι : Type*) [DecidableEq ι] (cache : Option Bytes) where
  | buffered (blockLimit : UInt64) (observe : Bool) (name : Direction → ι) (s : Relay ι)
      (reachable : (Relay.machine blockLimit cache observe name).Reachable s)
  | direct (observe : Bool) (s : DirectRelay)
      (reachable : (DirectRelay.machine cache observe).Reachable s)

variable {ι : Type*} [DecidableEq ι]

def RelayCall.ends {cache : Option Bytes} : RelayCall ι cache → Direction → Ends
  | .buffered _ _ _ s _ => fun d ↦ (s.lane d).ends
  | .direct _ s _ => fun d ↦ (s.lane d).ends

theorem RelayCall.relayed {cache : Option Bytes} (c : RelayCall ι cache) :
    (c.ends .s2c).written <+: cache.getD [] ++ (c.ends .s2c).source ∧
      (c.ends .c2s).written <+: (c.ends .c2s).source := by
  cases c with
  | buffered blockLimit observe name s reachable =>
      have hrelayed := Relay.relayed reachable
      exact ⟨hrelayed.client, hrelayed.server⟩
  | direct observe s reachable =>
      have hrelayed := (DirectRelay.faithful_of_reachable reachable).relayed
      exact ⟨hrelayed.client, hrelayed.server⟩

/-- `accepted` is what the handshake has returned: the destination, and the bytes that it has read
ahead. -/
structure RelayNode (ι : Type*) [DecidableEq ι] where
  accepted : RunAddr × Option Bytes
  call : RelayCall ι accepted.2

namespace RelayNode

def dst (v : RelayNode ι) : RunAddr := v.accepted.1

def ends (v : RelayNode ι) : Direction → Ends := v.call.ends

/-- What the node has to pass on. -/
def input (v : RelayNode ι) : Bytes := v.accepted.2.getD [] ++ (v.ends .s2c).source

end RelayNode

/-- The connections between the nodes that follow one another. -/
def Connected (x : PbTcpCrates) (nodes : List (RelayNode ι)) : Prop :=
  nodes.IsChain fun v w ↦
    StreamForth x v.dst (v.ends .s2c).written w.accepted (w.ends .s2c).returned ∧
      StreamBack x v.dst (w.ends .c2s).written (v.ends .c2s).returned

/-- Over any number of nodes, in whatever modes and with whatever transports between them, at any
moment: the last node is to reach the destination of the first one, what it has written
to there is a prefix of what the first one has read, with what its handshake had read ahead, and
what the first one has written back is a prefix of what the last one has read. -/
theorem bytes_in_order {x : PbTcpCrates} (hx : x.RoundTrips) {v : RelayNode ι}
    {nodes : List (RelayNode ι)} (hnodes : Connected x (v :: nodes)) :
    let last := (v :: nodes).getLast (List.cons_ne_nil v nodes)
    (last.dst.addr, last.dst.port) = (v.dst.addr, v.dst.port) ∧
      (last.ends .s2c).written <+: v.accepted.2.getD [] ++ (v.ends .s2c).source ∧
      (v.ends .c2s).written <+: (last.ends .c2s).source := by
  refine ⟨?_, ?_, ?_⟩
  · refine row_eq (fun w : RelayNode ι ↦ (w.dst.addr, w.dst.port)) (hnodes.imp fun v w h ↦ ?_)
    obtain ⟨haccepted, -⟩ := h.1.spec hx
    simp [RelayNode.dst, haccepted]
  · refine cleans_id.row RelayNode.input (fun w _ ↦ w.call.relayed.1)
      (hnodes.imp fun v w h ↦ ?_)
    obtain ⟨haccepted, hread⟩ := h.1.spec hx
    rw [RelayNode.input, haccepted]
    exact hread
  · exact row_back (fun w _ ↦ w.call.relayed.2) (hnodes.imp fun v w h ↦ h.2.spec hx)

/-- A node with a run of the unbuffered mode behind it. -/
theorem exists_direct (dst : RunAddr) (cache : Option Bytes) (es : List DirectEvent)
    (sent back : Ends) (h : ((DirectRelay.machine cache true).run (.new cache) es).map
      (fun s ↦ ((s.lane .s2c).ends, (s.lane .c2s).ends)) = some (sent, back)) :
    ∃ v : RelayNode Direction, v.accepted = (dst, cache) ∧ v.ends .s2c = sent ∧
      v.ends .c2s = back := by
  obtain ⟨s, hs, hends⟩ := Option.map_eq_some_iff.mp h
  obtain ⟨hsent, hback⟩ := Prod.mk.inj hends
  exact ⟨⟨(dst, cache), .direct true s ⟨_, es, rfl, hs⟩⟩, rfl, hsent, hback⟩

/-- The byte that came with the handshake of the first node has come through the second one, and two
chunks are still on their way to it. A chunk has come back. -/
theorem bytes_in_order_twoNodes : ∃ v w : RelayNode Direction,
    (v.ends .s2c).written = [0, 1, 2, 3] ∧ (w.ends .s2c).written = [0] ∧
      (w.ends .s2c).written <+: v.accepted.2.getD [] ++ (v.ends .s2c).source ∧
      (v.ends .c2s).written = [4] ∧ (v.ends .c2s).written <+: (w.ends .c2s).source := by
  obtain ⟨v, hv, hsent, hvback⟩ := exists_direct ⟨"h", 80, false⟩ (some [0]) threeChunksDirectRun
    ⟨[[1, 2], [3]], [0, 1, 2, 3], 4⟩ ⟨[[4]], [4], 1⟩ (by decide +kernel)
  obtain ⟨w, hw, hcame, hwback⟩ := exists_direct ⟨"h", 80, false⟩ none
    [.spawn, .lane .s2c (.read (.ok [0])), .lane .s2c .written, .lane .c2s (.read (.ok [4])),
      .lane .c2s .written] ⟨[[0]], [0], 0⟩ ⟨[[4]], [4], 0⟩ (by decide +kernel)
  have hdst : v.dst = ⟨"h", 80, false⟩ := congrArg Prod.fst hv
  have haddr : parseAddress v.dst.endpoint = .ok ("h", 80) := by
    rw [hdst]
    decide
  let hello : StreamReq := ⟨"p", none, some "h", some 80⟩
  have hconnect (resp : Streaming StreamRes) :
      GrpcRunConnector.connect (some "p") (.ok resp) true v.dst.endpoint =
        .ok ([hello], (RunStream.new resp).setInfo fun x ↦
          { x with protocolName := "grpc", dstPort := some 80, dstAddr := some "h" }) := by
    rw [GrpcRunConnector.connect, haddr]
    rfl
  have hforth : StreamForth .standard v.dst (v.ends .s2c).written w.accepted
      (w.ends .s2c).returned := by
    rw [hsent, hw, hcame]
    exact .grpc "p" [] _ _ [[0], [1, 2], [3]] [.ok hello, .ok (GrpcClientWriteHalf.write [0])] _ [1]
      (hconnect []) rfl ⟨[hello, GrpcClientWriteHalf.write [0]], [],
        ⟨[[1, 2], [3]].map GrpcClientWriteHalf.write, rfl⟩, rfl, by simp⟩ rfl rfl
  have hback : StreamBack .standard v.dst (w.ends .c2s).written (v.ends .c2s).returned := by
    rw [hvback, hwback]
    exact .grpc "p" [.ok (GrpcServerWriteHalf.write [4])] _ _ [[4]] [1] (hconnect _) rfl
      ⟨[GrpcServerWriteHalf.write [4]], [], List.prefix_refl _, rfl, by simp⟩ rfl
  have hnodes : Connected .standard [v, w] :=
    List.isChain_cons_cons.mpr ⟨⟨hforth, hback⟩, .singleton w⟩
  obtain ⟨-, hrow, hrowBack⟩ := bytes_in_order PbTcpCrates.standard_roundTrips hnodes
  exact ⟨v, w, by rw [hsent], by rw [hcame], hrow, by rw [hvback], hrowBack⟩

end Rog
