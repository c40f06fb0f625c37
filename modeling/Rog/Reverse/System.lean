import Rog.Reverse.Call
import Rog.Reverse.Manager
import Rog.Lib.Machine
import Mathlib.Data.Fintype.Prod

/-!
# The reverse server and its connectors

Any number of calls of `connect` and `udp_tunnel`, incoming calls and manager sessions on one
`RevGrpcState`, taking their steps in any order.
-/

namespace Rog

open Lib

structure RevSystem (κ ν μ : Type) where
  state : RevGrpcState κ ν μ
  call : Kind × κ → Call ν μ
  incoming : Kind × ν → Incoming κ
  session : μ → Session

inductive RevEvent (κ ν μ : Type) where
  | call (k : Kind) (c : κ) (e : CallEvent)
  | incoming (k : Kind) (i : ν) (e : IncomingEvent)
  | manager (m : μ) (e : SessionEvent)
  deriving DecidableEq

def CallKind.of : Kind → CallKind
  | .stream => .connect
  | .udp => .udpTunnel

def IncomingKind.of {κ ν : Type} : Kind → IncomingKind κ ν
  | .stream => .stream
  | .udp => .udp

@[simp] theorem IncomingKind.kind_of {κ ν : Type} (k : Kind) :
    (IncomingKind.of k : IncomingKind κ ν).kind = k := by
  cases k <;> rfl

@[simp] theorem IncomingKind.inStream_delivered {κ ν : Type} (k : Kind) (i : ν) (msg : FirstMsg)
    (p : PendingConn κ) : ((IncomingKind.of k).delivered i msg p).inStream = (k, i) := by
  cases k <;> rfl

namespace RevSystem

variable {κ ν μ : Type}

def new : RevSystem κ ν μ := ⟨.new, fun _ ↦ .new, fun _ ↦ .new, fun _ ↦ .new⟩

variable [DecidableEq κ]

def incomingStep (k : Kind) (i : ν) (s : RevGrpcState κ ν μ) (x : Incoming κ)
    (e : IncomingEvent) : Option (RevGrpcState κ ν μ × Incoming κ) :=
  match k with
  | .stream => RevGrpcServer.stream i s x e
  | .udp => RevGrpcServer.udp i s x e

theorem incomingStep_move {k : Kind} {i : ν} {s s' : RevGrpcState κ ν μ} {x x' : Incoming κ}
    {e : IncomingEvent} (h : incomingStep k i s x e = some (s', x')) :
    IncomingMove (.of k) i s x e s' x' := by
  cases k with
  | stream => exact Rog.incomingStep_move (v := .stream) h
  | udp => exact Rog.incomingStep_move (v := .udp) h

variable [DecidableEq μ]

def callStep (k : Kind) (c : κ) (s : RevGrpcState κ ν μ) (x : Call ν μ) (e : CallEvent) :
    Option (RevGrpcState κ ν μ × Call ν μ) :=
  match k with
  | .stream => RevGrpcRunConnector.connect c s x e
  | .udp => RevGrpcRunConnector.udpTunnel c s x e

theorem callStep_move {k : Kind} {c : κ} {s s' : RevGrpcState κ ν μ} {x x' : Call ν μ}
    {e : CallEvent} (h : callStep k c s x e = some (s', x')) : CallMove k c s x e s' x' := by
  cases k with
  | stream => exact Rog.callStep_move (v := .connect) h
  | udp => exact Rog.callStep_move (v := .udpTunnel) h

variable [DecidableEq ν]

def step (pwMap : String → Option (Option String)) (s : RevSystem κ ν μ) :
    RevEvent κ ν μ → Option (RevSystem κ ν μ)
  | .call k c e => (callStep k c s.state (s.call (k, c)) e).map fun (state, x) ↦
      { s with state := state, call := Function.update s.call (k, c) x }
  | .incoming k i e => (incomingStep k i s.state (s.incoming (k, i)) e).map fun (state, x) ↦
      { s with state := state, incoming := Function.update s.incoming (k, i) x }
  | .manager m e => (RevGrpcServer.manager pwMap m s.state (s.session m) e).map fun (state, x) ↦
      { s with state := state, session := Function.update s.session m x }

def machine (pwMap : String → Option (Option String)) :
    Machine (RevSystem κ ν μ) (RevEvent κ ν μ) where
  init s := s = new
  step := step pwMap

/-- The `conn_id` of an insertion is not that of another call; this is assumed of
`Uuid::new_v4`. -/
def Fresh (s : RevSystem κ ν μ) : RevEvent κ ν μ → Prop
  | .call _ _ (.insert connId) => ∀ x, (s.call x).connId ≠ some connId
  | _ => True

instance [Fintype κ] (s : RevSystem κ ν μ) : DecidablePred s.Fresh := fun e ↦
  match e with
  | .call _ _ (.insert connId) =>
      inferInstanceAs (Decidable (∀ x, (s.call x).connId ≠ some connId))
  | .call _ _ (.call _ _) | .call _ _ .lookup | .call _ _ .sent | .call _ _ .sendFailed
  | .call _ _ .receive | .call _ _ .elapse | .call _ _ .dropRx | .call _ _ .remove
  | .call _ _ .leave | .incoming _ _ _ | .manager _ _ => .isTrue trivial

/-- What a step of the system can be; the inversion of `step`. -/
inductive Move (pwMap : String → Option (Option String)) (s : RevSystem κ ν μ) :
    RevEvent κ ν μ → RevSystem κ ν μ → Prop where
  | call (k : Kind) (c : κ) (e : CallEvent) (state : RevGrpcState κ ν μ) (x : Call ν μ)
      (hmove : CallMove k c s.state (s.call (k, c)) e state x) :
      Move pwMap s (.call k c e) ⟨state, Function.update s.call (k, c) x, s.incoming, s.session⟩
  | incoming (k : Kind) (i : ν) (e : IncomingEvent) (state : RevGrpcState κ ν μ) (x : Incoming κ)
      (hmove : IncomingMove (.of k) i s.state (s.incoming (k, i)) e state x) :
      Move pwMap s (.incoming k i e)
        ⟨state, s.call, Function.update s.incoming (k, i) x, s.session⟩
  | manager (m : μ) (e : SessionEvent) (state : RevGrpcState κ ν μ) (x : Session)
      (hmove : SessionMove pwMap m s.state (s.session m) e state x) :
      Move pwMap s (.manager m e)
        ⟨state, s.call, s.incoming, Function.update s.session m x⟩

theorem step_move {pwMap : String → Option (Option String)} {s t : RevSystem κ ν μ}
    {e : RevEvent κ ν μ} (h : (machine pwMap).step s e = some t) : Move pwMap s e t := by
  cases e with
  | call k c e =>
      obtain ⟨⟨state, x⟩, hstep, rfl⟩ := Option.map_eq_some_iff.mp h
      exact .call k c e state x (callStep_move hstep)
  | incoming k i e =>
      obtain ⟨⟨state, x⟩, hstep, rfl⟩ := Option.map_eq_some_iff.mp h
      exact .incoming k i e state x (incomingStep_move hstep)
  | manager m e =>
      obtain ⟨⟨state, x⟩, hstep, rfl⟩ := Option.map_eq_some_iff.mp h
      exact .manager m e state x (RevGrpcServer.manager_move hstep)

end RevSystem

end Rog
