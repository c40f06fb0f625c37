import Rog.Reverse.State
import Rog.Util.Address

/-!
# Calls of the reverse connector

`RevGrpcRunConnector::connect` and `udp_tunnel`, cut at every operation on the shared state
and at every await point. They differ in the table they use, in the address, in the request
to the manager and in the texts of their errors; `CallKind` is all of that.
-/

namespace Rog

open Lib

/-- The values in `options` that are told apart. -/
inductive OptionValue where
  | boolean (b : Bool)
  | other
  deriving DecidableEq

/-- `config::Connector`, but for `user`, which is not read. -/
structure Connector where
  endpoint : Option String
  name : String
  pw : Option String
  proto : String
  options : Option (List (String × OptionValue))
  deriving DecidableEq

structure CallKind where
  kind : Kind
  parse : String → Io (Option (String × UInt16))
  request : Option (String × UInt16) → String → ManagerRes
  sendFailed : String → String
  channelClosed : String
  timeout : String

inductive CallPc (ν μ : Type) where
  | idle
  | lookup (addr : Option (String × UInt16))
  | insert (addr : Option (String × UInt16)) (manager : μ)
  /-- Before `manager_tx.send(Ok(req)).await`. -/
  | send (manager : μ) (req : ManagerRes)
  /-- In `timeout(Duration::from_secs(10), rx).await`. -/
  | wait
  /-- The time has run out, and the receiver is not dropped yet. -/
  | elapsed
  /-- Before the call removes its own entry and returns the error. -/
  | remove (e : IoError)
  /-- Before the local variables of the call are dropped. -/
  | leave (e : IoError)
  | returned (result : Io (Delivered ν))
  deriving DecidableEq

structure Call (ν μ : Type) where
  cfg : Connector
  /-- The generated `conn_id`, from `insert` on. -/
  connId : Option String
  pc : CallPc ν μ
  deriving DecidableEq

def Call.new {ν μ : Type} : Call ν μ := ⟨⟨none, "", none, "rev_grpc", none⟩, none, .idle⟩

inductive CallEvent where
  | call (cfg : Connector) (addr : String)
  | lookup
  /-- `Uuid::new_v4` returns this `conn_id`. -/
  | insert (connId : String)
  | sent
  | sendFailed
  | receive
  | elapse
  | dropRx
  | remove
  | leave
  deriving DecidableEq

section CallStep

variable {κ ν μ : Type} [DecidableEq κ] [DecidableEq μ]

def callStep (v : CallKind) (c : κ) (s : RevGrpcState κ ν μ) (x : Call ν μ) :
    CallEvent → Option (RevGrpcState κ ν μ × Call ν μ)
  | .call cfg addr => match x.pc with
      | .idle => match v.parse addr with
          | .ok addr => some (s, { x with cfg := cfg, pc := .lookup addr })
          | .error e => some (s, { x with cfg := cfg, pc := .returned (.error e) })
      | _ => none
  | .lookup => match x.pc with
      | .lookup addr => match s.managers x.cfg.name with
          | some m => some (s, { x with pc := .insert addr m })
          | none =>
              let result := Io.raise .notConnected s!"reverse client '{x.cfg.name}' offline"
              some (s, { x with pc := .returned result })
      | _ => none
  | .insert connId => match x.pc with
      | .insert addr m =>
          let s := (s.setOneshot v.kind c .empty).insert v.kind connId ⟨c, addr, x.cfg.pw⟩
          some (s, { x with connId := some connId, pc := .send m (v.request addr connId) })
      | _ => none
  | .sent => match x.pc with
      | .send m req =>
          if (s.control m).isOpen then some (s.tell m req, { x with pc := .wait }) else none
      | _ => none
  | .sendFailed => match x.pc with
      | .send m _ =>
          if (s.control m).isOpen then none
          else
            let e := ⟨.connectionAborted, v.sendFailed "channel closed"⟩
            some (s, { x with pc := .remove e })
      | _ => none
  | .receive => match x.pc, s.oneshot (v.kind, c) with
      | .wait, .sent d => some (s.setOneshot v.kind c .gone, { x with pc := .returned (.ok d) })
      | .wait, .closed =>
          let e := ⟨.connectionAborted, v.channelClosed⟩
          some (s.setOneshot v.kind c .gone, { x with pc := .remove e })
      | _, _ => none
  -- `timeout` polls the receiver before the timer
  | .elapse => match x.pc, s.oneshot (v.kind, c) with
      | .wait, .empty => some (s, { x with pc := .elapsed })
      | _, _ => none
  | .dropRx => match x.pc with
      | .elapsed =>
          some (s.setOneshot v.kind c .gone, { x with pc := .remove ⟨.timedOut, v.timeout⟩ })
      | _ => none
  | .remove => match x.pc, x.connId with
      | .remove e, some connId => some (s.remove v.kind connId, { x with pc := .leave e })
      | _, _ => none
  | .leave => match x.pc with
      | .leave e =>
          some (s.setOneshot v.kind c .gone, { x with pc := .returned (.error (.err e)) })
      | _ => none

def CallKind.connect : CallKind where
  kind := .stream
  parse addr := (parseAddress addr).map some
  request addr connId := {
    addrInfo := addr.map fun (host, port) ↦ ⟨host, port.toUInt32, "", 0⟩
    udp := some 0
    connId := some connId }
  sendFailed e := s!"failed to send to manager: {e}"
  channelClosed := "stream channel closed"
  timeout := "timeout waiting for reverse stream"

def CallKind.udpTunnel : CallKind where
  kind := .udp
  parse _ := .ok none
  request _ connId := ⟨none, some 1, some connId⟩
  sendFailed e := s!"failed to send udp manager req: {e}"
  channelClosed := "udp channel closed before listener connected"
  timeout := "timeout waiting for reverse udp stream"

def RevGrpcRunConnector.connect (c : κ) (s : RevGrpcState κ ν μ) (x : Call ν μ) (e : CallEvent) :
    Option (RevGrpcState κ ν μ × Call ν μ) :=
  callStep .connect c s x e

def RevGrpcRunConnector.udpTunnel (c : κ) (s : RevGrpcState κ ν μ) (x : Call ν μ) (e : CallEvent) :
    Option (RevGrpcState κ ν μ × Call ν μ) :=
  callStep .udpTunnel c s x e

/-- What a step of a call can be, with its guards; the inversion of `callStep`. -/
inductive CallMove (k : Kind) (c : κ) (s : RevGrpcState κ ν μ) (x : Call ν μ) :
    CallEvent → RevGrpcState κ ν μ → Call ν μ → Prop where
  | call (cfg : Connector) (text : String) (addr : Option (String × UInt16))
      (hpc : x.pc = .idle) :
      CallMove k c s x (.call cfg text) s { x with cfg := cfg, pc := .lookup addr }
  | badAddress (cfg : Connector) (text : String) (e : Fault) (hpc : x.pc = .idle) :
      CallMove k c s x (.call cfg text) s { x with cfg := cfg, pc := .returned (.error e) }
  | found (addr : Option (String × UInt16)) (m : μ) (hpc : x.pc = .lookup addr)
      (hmanager : s.managers x.cfg.name = some m) :
      CallMove k c s x .lookup s { x with pc := .insert addr m }
  | offline (addr : Option (String × UInt16)) (e : Fault) (hpc : x.pc = .lookup addr)
      (hmanager : s.managers x.cfg.name = none) :
      CallMove k c s x .lookup s { x with pc := .returned (.error e) }
  | insert (connId : String) (addr : Option (String × UInt16)) (m : μ) (req : ManagerRes)
      (hpc : x.pc = .insert addr m) :
      CallMove k c s x (.insert connId)
        ((s.setOneshot k c .empty).insert k connId ⟨c, addr, x.cfg.pw⟩)
        { x with connId := some connId, pc := .send m req }
  | sent (m : μ) (req : ManagerRes) (hpc : x.pc = .send m req) (hopen : (s.control m).isOpen) :
      CallMove k c s x .sent (s.tell m req) { x with pc := .wait }
  | sendFailed (m : μ) (req : ManagerRes) (e : IoError) (hpc : x.pc = .send m req)
      (hclosed : ¬(s.control m).isOpen) :
      CallMove k c s x .sendFailed s { x with pc := .remove e }
  | received (d : Delivered ν) (hpc : x.pc = .wait) (hsent : s.oneshot (k, c) = .sent d) :
      CallMove k c s x .receive (s.setOneshot k c .gone) { x with pc := .returned (.ok d) }
  | channelClosed (e : IoError) (hpc : x.pc = .wait) (hclosed : s.oneshot (k, c) = .closed) :
      CallMove k c s x .receive (s.setOneshot k c .gone) { x with pc := .remove e }
  | elapse (hpc : x.pc = .wait) (hempty : s.oneshot (k, c) = .empty) :
      CallMove k c s x .elapse s { x with pc := .elapsed }
  | dropRx (e : IoError) (hpc : x.pc = .elapsed) :
      CallMove k c s x .dropRx (s.setOneshot k c .gone) { x with pc := .remove e }
  | remove (connId : String) (e : IoError) (hpc : x.pc = .remove e)
      (hconnId : x.connId = some connId) :
      CallMove k c s x .remove (s.remove k connId) { x with pc := .leave e }
  | leave (e : IoError) (hpc : x.pc = .leave e) :
      CallMove k c s x .leave (s.setOneshot k c .gone)
        { x with pc := .returned (.error (.err e)) }

theorem callStep_move {v : CallKind} {c : κ} {s s' : RevGrpcState κ ν μ} {x x' : Call ν μ}
    {e : CallEvent} (h : callStep v c s x e = some (s', x')) :
    CallMove v.kind c s x e s' x' := by
  cases e with
  | call cfg text =>
      cases hpc : x.pc <;> simp only [callStep, hpc, reduceCtorEq] at h
      cases hparse : v.parse text with
      | ok addr =>
          obtain ⟨rfl, rfl⟩ : s = s' ∧ _ = x' := by simpa [hparse] using h
          exact .call cfg text addr hpc
      | error e =>
          obtain ⟨rfl, rfl⟩ : s = s' ∧ _ = x' := by simpa [hparse] using h
          exact .badAddress cfg text e hpc
  | lookup =>
      cases hpc : x.pc with
      | lookup addr =>
          cases hm : s.managers x.cfg.name with
          | some m =>
              obtain ⟨rfl, rfl⟩ : s = s' ∧ _ = x' := by simpa [callStep, hpc, hm] using h
              exact .found addr m hpc hm
          | none =>
              obtain ⟨rfl, rfl⟩ : s = s' ∧ _ = x' := by simpa [callStep, hpc, hm] using h
              exact .offline addr _ hpc hm
      | _ => simp [callStep, hpc] at h
  | insert connId =>
      cases hpc : x.pc with
      | insert addr m =>
          obtain ⟨rfl, rfl⟩ : _ = s' ∧ _ = x' := by simpa [callStep, hpc] using h
          exact .insert connId addr m _ hpc
      | _ => simp [callStep, hpc] at h
  | sent =>
      cases hpc : x.pc with
      | send m req =>
          obtain ⟨hopen, rfl, rfl⟩ : (s.control m).isOpen ∧ _ = s' ∧ _ = x' := by
            simpa [callStep, hpc] using h
          exact .sent m req hpc hopen
      | _ => simp [callStep, hpc] at h
  | sendFailed =>
      cases hpc : x.pc with
      | send m req =>
          obtain ⟨hclosed, rfl, rfl⟩ : (s.control m).isOpen = false ∧ s = s' ∧ _ = x' := by
            simpa [callStep, hpc] using h
          exact .sendFailed m req _ hpc (by simp [hclosed])
      | _ => simp [callStep, hpc] at h
  | receive =>
      cases hpc : x.pc with
      | wait =>
          cases hrx : s.oneshot (v.kind, c) with
          | sent d =>
              obtain ⟨rfl, rfl⟩ : _ = s' ∧ _ = x' := by simpa [callStep, hpc, hrx] using h
              exact .received d hpc hrx
          | closed =>
              obtain ⟨rfl, rfl⟩ : _ = s' ∧ _ = x' := by simpa [callStep, hpc, hrx] using h
              exact .channelClosed _ hpc hrx
          | _ => simp [callStep, hpc, hrx] at h
      | _ => simp [callStep, hpc] at h
  | elapse =>
      cases hpc : x.pc with
      | wait =>
          cases hrx : s.oneshot (v.kind, c) with
          | empty =>
              obtain ⟨rfl, rfl⟩ : s = s' ∧ _ = x' := by simpa [callStep, hpc, hrx] using h
              exact .elapse hpc hrx
          | _ => simp [callStep, hpc, hrx] at h
      | _ => simp [callStep, hpc] at h
  | dropRx =>
      cases hpc : x.pc with
      | elapsed =>
          obtain ⟨rfl, rfl⟩ : _ = s' ∧ _ = x' := by simpa [callStep, hpc] using h
          exact .dropRx _ hpc
      | _ => simp [callStep, hpc] at h
  | remove =>
      cases hpc : x.pc with
      | remove e =>
          cases hid : x.connId with
          | some connId =>
              obtain ⟨rfl, rfl⟩ : s.remove v.kind connId = s' ∧ { x with pc := .leave e } = x' := by
                simpa [callStep, hpc, hid] using h
              exact .remove connId e hpc hid
          | none => simp [callStep, hpc, hid] at h
      | _ => simp [callStep, hpc] at h
  | leave =>
      cases hpc : x.pc with
      | leave e =>
          obtain ⟨rfl, rfl⟩ : _ = s' ∧ _ = x' := by simpa [callStep, hpc] using h
          exact .leave e hpc
      | _ => simp [callStep, hpc] at h

end CallStep

end Rog
