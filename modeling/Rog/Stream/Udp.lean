import Mathlib.Logic.Function.Basic
import Rog.Lib.Machine
import Rog.Udp.SocketAddr

/-!
# UDP streams

`stream/udp.rs`. The two halves of a pair share the maps between names and addresses; a write is
one step, and what the system answers to it is given with it.
-/

namespace Rog

open Lib StateIo

structure UdpResolveState where
  domainToIp : String → Option SocketAddr
  ipToDomain : SocketAddr → Option String

/-- What the system answers to the calls of one write. -/
structure UdpAnswers where
  localAddr : Io SocketAddr
  lookupHost : Io (List SocketAddr)
  sendTo : Io Unit

namespace UdpResolveState

def new : UdpResolveState := ⟨fun _ ↦ none, fun _ ↦ none⟩

def cacheKey (dstAddr : String) (dstPort : UInt16) : String := dstAddr ++ ":" ++ toString dstPort

/-- The address of a destination that is not in the cache. -/
def lookup (answers : UdpAnswers) (dstAddr : String) (dstPort : UInt16) : Io SocketAddr :=
  match IpAddr.parse dstAddr with
  | some ip => .ok ⟨ip, dstPort⟩
  | none => do
      let localAddr ← answers.localAddr
      let resolved ← answers.lookupHost
      match (resolved.find? fun addr ↦ addr.isIpv4 == localAddr.isIpv4).or resolved.head? with
      | some addr => .ok addr
      | none => Io.other "no resolved UDP destination address"

def resolveDstAddr (answers : UdpAnswers) (dstAddr : String) (dstPort : UInt16) :
    StateIo UdpResolveState SocketAddr := fun s ↦
  match s.domainToIp (cacheKey dstAddr dstPort) with
  | some addr => (.ok addr, s)
  | none =>
      let isDomain := (IpAddr.parse dstAddr).isNone
      match lookup answers dstAddr dstPort with
      | .error e => (.error e, s)
      | .ok addr => (.ok addr, {
          domainToIp := Function.update s.domainToIp (cacheKey dstAddr dstPort) (some addr)
          ipToDomain :=
            if isDomain then Function.update s.ipToDomain addr (some dstAddr) else s.ipToDomain })

/-- `dst_addr_str` of a datagram from `dst`. -/
def dstAddrStr (s : UdpResolveState) (dst : SocketAddr) : String :=
  match s.ipToDomain dst with
  | some domain => domain
  | none => dst.ip.toString

end UdpResolveState

/-- A pair, with the packets that it has sent and where they went. -/
structure UdpRunStream where
  srcAddr : String
  resolveState : UdpResolveState
  sent : List (UDPPacket × SocketAddr)

namespace UdpRunStream

def newPair (srcAddr : String) : UdpRunStream := ⟨srcAddr, .new, []⟩

/-- `read`, when `recv_from` returns `received`. -/
def read (received : Io (Bytes × SocketAddr)) : StateIo UdpRunStream UDPPacket := fun s ↦
  (do
    let src ← match SocketAddr.parse s.srcAddr with
      | some src => .ok src
      | none => .error .panic
    let (data, dst) ← received
    return {
      metadata := {
        dstAddr := s.resolveState.dstAddrStr dst
        dstPort := dst.port
        srcAddr := src.ip.toString
        srcPort := src.port }
      data := data.take 65536 }, s)

def write (answers : UdpAnswers) (packet : UDPPacket) : StateIo UdpRunStream Unit := fun s ↦
  let (resolved, resolveState) := (UdpResolveState.resolveDstAddr answers packet.metadata.dstAddr
    packet.metadata.dstPort).runOn s.resolveState
  match resolved with
  | .error e => (.error e, { s with resolveState := resolveState })
  | .ok addr =>
      match answers.sendTo with
      | .error e => (.error e, { s with resolveState := resolveState })
      | .ok () => (.ok (), { s with
          resolveState := resolveState
          sent := s.sent ++ [(packet, addr)] })

end UdpRunStream

abbrev UdpWrite := UDPPacket × UdpAnswers

/-- The writes on a pair, one after the other. -/
def udpWrites : Machine UdpRunStream UdpWrite where
  init s := ∃ srcAddr, s = .newPair srcAddr
  step s w := some ((UdpRunStream.write w.2 w.1).runOn s).2

end Rog
