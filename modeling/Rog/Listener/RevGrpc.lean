import Rog.Lib.Machine
import Rog.Lib.Mpsc
import Rog.Reverse.Manager
import Rog.Util.Address
import Rog.Udp.Tunnel

/-!
# The reverse listener

`listener/rev_grpc.rs`: the task that `listen` spawns, with `handle_manage_req` cut at its
await points, the two channels that it feeds, and `accept` in the loop of `Object::start`, the
end of which ends `main`.
-/

namespace Rog

open Lib

/-! ## What is made of a control message -/

/-- The stream that `handle_manage_req` makes of a response. -/
def managedStream (addrInfo : AddrInfo) (stream : Streaming RevStreamRes) : RevGrpcClientRunStream :=
  let newStream : RevGrpcClientRunStream := RunStream.new stream
  newStream.setInfo fun _ ↦ {
    protocolName := "rev_grpc"
    srcAddr := some addrInfo.srcAddr
    srcPort := some addrInfo.srcPort.toUInt16
    dstAddr := some addrInfo.dstAddr
    dstPort := some addrInfo.dstPort.toUInt16
    udp := some false }

/-- The first message of a stream; that of a tunnel is `revUdpHello`. -/
def revStreamHello (auth connId : String) : RevStreamReq := ⟨auth, none, some connId⟩

def RevGrpcRunListener.handshake (stream : RevGrpcClientRunStream) :
    Io (RunAddr × Option Bytes) := do
  let addr ← unwrap stream.info.dstAddr
  let port ← unwrap stream.info.dstPort
  let udp ← unwrap stream.info.udp
  return (⟨addr, port, udp⟩, none)

/-! ## The task -/

abbrev UdpPair := RevGrpcUdpClientReader × RevGrpcUdpClientWriter

inductive ListenPc where
  | connecting
  | sleeping
  -- before `mtx.send(..).await`
  | sendAuth (msg : ManagerReq)
  -- in `client.manager(mrx).await`
  | openManager
  -- in `manager_stream.next().await`
  | reading
  -- before `stx.send(..).await`, in `client.stream(srx).await`, before `tx.send(..).await`
  | streamHello (req : ManagerRes) (msg : RevStreamReq)
  | openStream (req : ManagerRes)
  | sendStream (stream : RevGrpcClientRunStream)
  -- the same for `utx`, `client.udp(urx)` and `udp_tx`
  | udpHello (msg : RevUdpReq)
  | openUdp
  | sendUdp (pair : UdpPair)
  | panicked

inductive ObjectPc where
  | accepting
  | returned (e : IoError)
  deriving DecidableEq

/-- `tx` and `udp_tx` have the task as their only sender. -/
structure RevListener where
  pc : ListenPc
  streams : Mpsc 8 Unit RevGrpcClientRunStream
  udps : Mpsc 8 Unit UdpPair
  object : ObjectPc
  mainRunning : Bool

inductive ListenEvent where
  | connected (ok : Bool)
  | elapsed
  | authSent (ok : Bool)
  | managerOpened (ok : Bool)
  | next (item : Option (Except String ManagerRes))
  | helloSent (ok : Bool)
  | streamOpened (res : Except String (Streaming RevStreamRes))
  | udpOpened (res : Except String (Streaming RevUdpRes))
  -- `tx.send` or `udp_tx.send` is done
  | sent
  | acceptStream
  | acceptUdp
  -- the last reference to the acceptor is dropped
  | dropAcceptor
  | selectAll

namespace RevListener

def new : RevListener := ⟨.connecting, .new, .new, .accepting, true⟩

/-- The task unwinds, and the senders that it owns are dropped. -/
def panic (s : RevListener) : RevListener :=
  { s with
    pc := .panicked
    streams := { s.streams with txOpen := false }
    udps := { s.udps with txOpen := false } }

/-- `handle_manage_req` up to its first await point. -/
def handleManageReq (auth : String) (req : ManagerRes) (s : RevListener) : RevListener :=
  match req.udp with
  | none => s.panic
  | some udp =>
      let connId := req.connId.getD ""
      if udp = 0 then { s with pc := .streamHello req (revStreamHello auth connId) }
      else { s with pc := .udpHello (revUdpHello auth connId) }

/-- A call of `accept` that returns ends with its result in the loop of `Object::start`. -/
def accepted {α : Type} (message : String) (item : Option α) (s : RevListener) : RevListener :=
  match item with
  | some _ => s
  | none => { s with object := .returned ⟨.other, message⟩ }

def step (auth tag : String) (s : RevListener) : ListenEvent → Option RevListener
  | .connected ok => match s.pc with
      | .connecting => some { s with pc := if ok then .sendAuth ⟨auth, tag⟩ else .sleeping }
      | _ => none
  | .elapsed => match s.pc with
      | .sleeping => some { s with pc := .connecting }
      | _ => none
  | .authSent ok => match s.pc with
      | .sendAuth _ => some { s with pc := if ok then .openManager else .sleeping }
      | _ => none
  | .managerOpened ok => match s.pc with
      | .openManager => some { s with pc := if ok then .reading else .sleeping }
      | _ => none
  | .next item => match s.pc, item with
      | .reading, some (.ok req) => some (s.handleManageReq auth req)
      | .reading, _ => some { s with pc := .connecting }
      | _, _ => none
  | .helloSent ok => match s.pc with
      | .streamHello req _ => some { s with pc := if ok then .openStream req else .reading }
      | .udpHello _ => some { s with pc := if ok then .openUdp else .reading }
      | _ => none
  | .streamOpened res => match s.pc, res with
      | .openStream req, .ok stream => match req.addrInfo with
          | some addrInfo => some { s with
              pc := .sendStream (managedStream addrInfo stream)
              streams := s.streams.request () }
          | none => some s.panic
      | .openStream _, .error _ => some { s with pc := .reading }
      | _, _ => none
  | .udpOpened res => match s.pc, res with
      | .openUdp, .ok stream => some { s with
          pc := .sendUdp (revUdpPair auth stream)
          udps := s.udps.request () }
      | .openUdp, .error _ => some { s with pc := .reading }
      | _, _ => none
  | .sent => match s.pc with
      -- `Err(())` breaks out of the loop over the messages
      | .sendStream stream => (s.streams.send () stream).map fun (streams, ok) ↦
          { s with streams := streams, pc := if ok then .reading else .connecting }
      | .sendUdp pair => (s.udps.send () pair).map fun (udps, ok) ↦
          { s with udps := udps, pc := if ok then .reading else .connecting }
      | _ => none
  | .acceptStream => match s.object with
      | .accepting => s.streams.recv.map fun (streams, item) ↦
          { s with streams := streams }.accepted "receiver closed" item
      | .returned _ => none
  | .acceptUdp => match s.object with
      | .accepting => s.udps.recv.map fun (udps, item) ↦
          { s with udps := udps }.accepted "udp receiver closed" item
      | .returned _ => none
  | .dropAcceptor => match s.object with
      | .accepting => none
      | .returned _ => some { s with
          streams := { s.streams with rxOpen := false }
          udps := { s.udps with rxOpen := false } }
  | .selectAll => match s.object with
      | .accepting => none
      | .returned _ => some { s with mainRunning := false }

def machine (auth tag : String) : Machine RevListener ListenEvent where
  init s := s = new
  step := step auth tag

end RevListener

end Rog
