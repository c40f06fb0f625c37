import Rog.Lib.Machine
import Rog.Udp.Datagram

/-!
# UDP associations

`handle_udp_connection`. Besides the function itself there are three tasks: `a` reads the control
stream, `b` takes the datagrams of the client to the tunnel, and `c` takes the packets of the tunnel
back. Each call that is awaited is an event, with its outcome.
-/

namespace Rog

open Lib

/-- Where the function is: at which call, or how it has left. -/
inductive UdpPc where
  | bind
  /-- `post_handshake` after the socket could not be bound. -/
  | refuse (e : IoError)
  | localAddr
  | confirm (port : UInt16)
  | firstRecv
  | route (packet : UDPPacket)
  | create (packet : UDPPacket)
  | udpTunnel (packet : UDPPacket)
  | firstWrite (packet : UDPPacket)
  | joinA
  | joinB
  | joinC
  | left (result : Io Unit)

inductive UdpTaskPc where
  | unspawned
  /-- In the `select!` at the top of the loop. -/
  | selecting
  /-- Writes the packet to the tunnel, or sends it to the client. -/
  | writing (packet : UDPPacket)
  | ended

inductive UdpTask where
  | a
  | b
  | c

/-- A datagram, and where it came from. -/
abbrev RecvFrom := Bytes × SocketAddr

inductive UdpEvent where
  | bound (r : Except IoError Unit)
  | refused (r : Except IoError Unit)
  | localAddr (r : Except IoError UInt16)
  | confirmed (r : Except IoError Unit)
  | firstRecv (r : Except IoError RecvFrom)
  | routed (clientName : String)
  | created (r : Except IoError Unit)
  /-- `udp_tunnel` returns a tunnel, or none, or panics. -/
  | tunnelOpened (r : Io Bool)
  | firstWritten (r : Except IoError Unit)
  | joined
  /-- The `select!` of a task takes the branch of the token. -/
  | cancelled (task : UdpTask)
  | controlRead (r : Except IoError ℕ)
  | recv (r : Except IoError RecvFrom)
  | written (r : Except IoError Unit)
  | tunnelRead (r : Io UDPPacket)
  | sent (r : Except IoError Unit)

def UdpEvent.OfRelay : UdpEvent → Prop
  | .cancelled .b | .cancelled .c | .recv _ | .written _ | .tunnelRead _ | .sent _ => True
  | _ => False

/-- `token` tells whether the token is cancelled; `arrived` and `tunnelled` keep the datagrams that
were received and the packets that were written to the tunnel. -/
structure UdpConnection where
  main : UdpPc
  a : UdpTaskPc
  b : UdpTaskPc
  c : UdpTaskPc
  token : Bool
  arrived : List RecvFrom
  tunnelled : List UDPPacket

namespace UdpConnection

def new : UdpConnection := ⟨.bind, .unspawned, .unspawned, .unspawned, false, [], []⟩

def leave (s : UdpConnection) (result : Io Unit) : UdpConnection := { s with main := .left result }

/-- `?`. -/
def question {α : Type} (s : UdpConnection) (r : Except IoError α) (k : α → UdpConnection) :
    UdpConnection :=
  match r with
  | .ok v => k v
  | .error e => s.leave (.error (.err e))

def first (s : UdpConnection) (d : RecvFrom) : UdpConnection :=
  match UDPPacket.parse d.1 d.2 with
  | .error e => s.leave (.error e)
  | .ok packet =>
      if packet.data = [] then { s.leave (.ok ()) with token := true }
      else { s with main := .route packet }

def endA (s : UdpConnection) : UdpConnection := { s with a := .ended, token := true }

def endB (s : UdpConnection) : UdpConnection := { s with b := .ended, token := true }

def endC (s : UdpConnection) : UdpConnection := { s with c := .ended, token := true }

def next (s : UdpConnection) (d : RecvFrom) : UdpConnection :=
  match UDPPacket.parse d.1 d.2 with
  | .error (.err _) => s.endB
  | .error .panic => { s with b := .ended }
  | .ok packet => if packet.data = [] then s else { s with b := .writing packet }

/-- The calls of the function itself; `connector` has the names in the configuration. -/
def stepMain (connector : String → Bool) (s : UdpConnection) : UdpEvent → Option UdpConnection
  | .bound r => match s.main with
      | .bind => some <| match r with
          | .ok () => { s with main := .localAddr }
          | .error e => { s with main := .refuse e }
      | _ => none
  | .refused r => match s.main with
      | .refuse e => some <| s.question r fun () ↦ s.leave (.error (.err e))
      | _ => none
  | .localAddr r => match s.main with
      | .localAddr => some <| s.question r fun port ↦ { s with main := .confirm port }
      | _ => none
  | .confirmed r => match s.main with
      | .confirm _ => some <| s.question r fun () ↦ { s with main := .firstRecv, a := .selecting }
      | _ => none
  | .firstRecv r => match s.main with
      | .firstRecv => some <| match r with
          | .ok d => { s with arrived := s.arrived ++ [d] }.first d
          | .error e => { s.leave (.error (.err e)) with token := true }
      | _ => none
  | .routed clientName => match s.main with
      | .route packet => some <|
          if connector clientName then { s with main := .create packet }
          else s.leave (.error .panic)
      | _ => none
  | .created r => match s.main with
      | .create packet => some <| s.question r fun () ↦ { s with main := .udpTunnel packet }
      | _ => none
  | .tunnelOpened r => match s.main with
      | .udpTunnel packet => some <| match r with
          | .ok true => { s with main := .firstWrite packet }
          | .ok false => s.leave (.error .panic)
          | .error e => s.leave (.error e)
      | _ => none
  | .firstWritten r => match s.main with
      | .firstWrite packet => some <| match r with
          | .ok () => { s with
              main := .joinA
              b := .selecting
              c := .selecting
              tunnelled := s.tunnelled ++ [packet] }
          | .error e => { s.leave (.error (.err e)) with token := true }
      | _ => none
  | .joined => match s.main, s.a, s.b, s.c with
      | .joinA, .ended, _, _ => some { s with main := .joinB }
      | .joinB, _, .ended, _ => some { s with main := .joinC }
      | .joinC, _, _, .ended => some (s.leave (.ok ()))
      | _, _, _, _ => none
  | _ => none

/-- The calls of the tasks. -/
def stepTask (s : UdpConnection) : UdpEvent → Option UdpConnection
  | .cancelled task => if s.token then match task with
      | .a => match s.a with
          | .selecting => some s.endA
          | _ => none
      | .b => match s.b with
          | .selecting => some s.endB
          | _ => none
      | .c => match s.c with
          | .selecting => some s.endC
          | _ => none
      else none
  | .controlRead r => match s.a with
      | .selecting => some <| match r with
          | .ok (_ + 1) => s
          | _ => s.endA
      | _ => none
  | .recv r => match s.b with
      | .selecting => some <| match r with
          | .ok d => { s with arrived := s.arrived ++ [d] }.next d
          | .error _ => s.endB
      | _ => none
  | .written r => match s.b with
      | .writing packet => some <| match r with
          | .ok () => { s with b := .selecting, tunnelled := s.tunnelled ++ [packet] }
          | .error _ => s.endB
      | _ => none
  | .tunnelRead r => match s.c with
      | .selecting => some <| match r with
          | .ok packet => { s with c := .writing packet }
          | .error (.err _) => s.endC
          | .error .panic => { s with c := .ended }
      | _ => none
  | .sent r => match s.c with
      | .writing _ => some <| match r with
          | .ok () => { s with c := .selecting }
          | .error _ => s.endC
      | _ => none
  | _ => none

def step (connector : String → Bool) (s : UdpConnection) (e : UdpEvent) : Option UdpConnection :=
  (s.stepMain connector e).or (s.stepTask e)

def machine (connector : String → Bool) : Machine UdpConnection UdpEvent where
  init s := s = new
  step := step connector

end UdpConnection

end Rog
