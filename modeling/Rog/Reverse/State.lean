import Rog.Lib.Oneshot
import Rog.Proto
import Mathlib.Logic.Function.Basic
import Mathlib.Data.Fintype.Basic

/-!
# The state of the reverse server

`RevGrpcState` of `connector/rev_grpc.rs`, with the channels that its entries hold the
sending ends of. Stream connections and UDP tunnels have tables of their own; what is alike
in both is written once, for a `Kind`.
-/

namespace Rog

open Lib

inductive Kind where
  | stream
  | udp
  deriving DecidableEq

instance : Fintype Kind := ⟨{.stream, .udp}, fun k ↦ by cases k <;> simp⟩

/-- `PendingConn` and `PendingUdpConn`; `tx` is the call that holds the receiving end. The
latter has no address. -/
structure PendingConn (κ : Type) where
  tx : κ
  addr : Option (String × UInt16)
  pw : Option String
  deriving DecidableEq

/-- What is sent to a waiting call: a `RevGrpcServerRunStream`, or a reader and a writer, over
the `in_stream` of an incoming call. -/
inductive Delivered (ν : Type) where
  | stream (inStream : ν) (addr : Option (String × UInt16))
  | udp (inStream : ν) (auth : String)
  deriving DecidableEq

/-- The `in_stream`, as one of all incoming calls. -/
def Delivered.inStream {ν : Type} : Delivered ν → Kind × ν
  | .stream i _ => (.stream, i)
  | .udp i _ => (.udp, i)

/-- The channel on which a manager is sent its messages. -/
structure Control where
  isOpen : Bool
  sent : List ManagerRes
  deriving DecidableEq

/-- `κ` names the calls of `connect` and of `udp_tunnel`, `ν` the incoming `stream` and `udp`
calls, and `μ` the `manager` calls, each name together with its kind where there are two. -/
structure RevGrpcState (κ ν μ : Type) where
  managers : String → Option μ
  pending : Kind × String → Option (PendingConn κ)
  oneshot : Kind × κ → Oneshot (Delivered ν)
  control : μ → Control

namespace RevGrpcState

variable {κ ν μ : Type}

def new : RevGrpcState κ ν μ := ⟨fun _ ↦ none, fun _ ↦ none, fun _ ↦ .gone, fun _ ↦ ⟨false, []⟩⟩

section Managers

variable [DecidableEq μ]

/-- `entry.insert(tx)`, with the channel of session `m` created. -/
def register (s : RevGrpcState κ ν μ) (tag : String) (m : μ) : RevGrpcState κ ν μ :=
  { s with
    managers := Function.update s.managers tag (some m)
    control := Function.update s.control m ⟨true, []⟩ }

/-- The message enters the channel of session `m`. -/
def tell (s : RevGrpcState κ ν μ) (m : μ) (req : ManagerRes) : RevGrpcState κ ν μ :=
  let sent := (s.control m).sent ++ [req]
  { s with control := Function.update s.control m ⟨(s.control m).isOpen, sent⟩ }

def closeControl (s : RevGrpcState κ ν μ) (m : μ) : RevGrpcState κ ν μ :=
  { s with control := Function.update s.control m ⟨false, (s.control m).sent⟩ }

end Managers

def unregister (s : RevGrpcState κ ν μ) (tag : String) : RevGrpcState κ ν μ :=
  { s with managers := Function.update s.managers tag none }

/-- The entry is taken out of the table. -/
def take (s : RevGrpcState κ ν μ) (k : Kind) (id : String) : RevGrpcState κ ν μ :=
  { s with pending := Function.update s.pending (k, id) none }

variable [DecidableEq κ]

def setOneshot (s : RevGrpcState κ ν μ) (k : Kind) (c : κ) (o : Oneshot (Delivered ν)) :
    RevGrpcState κ ν μ :=
  { s with oneshot := Function.update s.oneshot (k, c) o }

theorem setOneshot_self (s : RevGrpcState κ ν μ) (k : Kind) (c : κ) :
    s.setOneshot k c (s.oneshot (k, c)) = s := by
  simp [setOneshot]

/-- An entry that is not in the table is dropped, and its sender with it. -/
def dropEntry (s : RevGrpcState κ ν μ) (k : Kind) (p : PendingConn κ) : RevGrpcState κ ν μ :=
  s.setOneshot k p.tx (s.oneshot (k, p.tx)).dropSender

/-- `DashMap::remove`, with the entry dropped. -/
def remove (s : RevGrpcState κ ν μ) (k : Kind) (id : String) : RevGrpcState κ ν μ :=
  match s.pending (k, id) with
  | some p => (s.take k id).dropEntry k p
  | none => s

theorem pending_remove (s : RevGrpcState κ ν μ) (k : Kind) (id : String) :
    (s.remove k id).pending = Function.update s.pending (k, id) none := by
  unfold remove
  cases h : s.pending (k, id) with
  | some p => rfl
  | none => exact (Function.update_eq_self_iff.mpr h.symm).symm

/-- Removing an entry is seen by the call that it belongs to only. -/
theorem oneshot_remove_of_ne {s : RevGrpcState κ ν μ} {k : Kind} {id : String} {y : Kind × κ}
    (h : ∀ p, s.pending (k, id) = some p → y ≠ (k, p.tx)) :
    (s.remove k id).oneshot y = s.oneshot y := by
  unfold remove
  cases hp : s.pending (k, id) with
  | some p => exact Function.update_of_ne (h p hp) _ _
  | none => rfl

theorem oneshot_dropEntry_eq_sent {s : RevGrpcState κ ν μ} {k : Kind} {p : PendingConn κ}
    {y : Kind × κ} {d : Delivered ν} :
    (s.dropEntry k p).oneshot y = .sent d ↔ s.oneshot y = .sent d := by
  by_cases hy : y = (k, p.tx)
  · subst hy
    simp [dropEntry, setOneshot, Oneshot.dropSender_eq_sent]
  · simp [dropEntry, setOneshot, hy]

theorem oneshot_remove_eq_sent {s : RevGrpcState κ ν μ} {k : Kind} {id : String} {y : Kind × κ}
    {d : Delivered ν} : (s.remove k id).oneshot y = .sent d ↔ s.oneshot y = .sent d := by
  unfold remove
  cases hp : s.pending (k, id) with
  | some p => exact oneshot_dropEntry_eq_sent
  | none => rfl

/-- `DashMap::insert`, with an entry that was there dropped. -/
def insert (s : RevGrpcState κ ν μ) (k : Kind) (id : String) (p : PendingConn κ) :
    RevGrpcState κ ν μ :=
  { s.remove k id with pending := Function.update s.pending (k, id) (some p) }

end RevGrpcState

end Rog
