import Rog.Stream.Stream
import Rog.Proto

/-!
# The streams of the gRPC transports

`stream/grpc_server.rs`, `stream/grpc_client.rs` and their reverse counterparts. A
`Streaming` is given by the messages and statuses that are still to come; after them it
ends.
-/

namespace Rog

open Lib Reassembler

/-- A status is given by its text. -/
abbrev Streaming (M : Type) := List (Except String M)

/-- The part of `read` that gets the next message. -/
def pullMessage {M : Type} (payloadOf : M → Io Bytes) : Streaming M → Io Bytes × Streaming M
  | [] => (Io.other "no more data", [])
  | .ok msg :: rest => (payloadOf msg, rest)
  | .error status :: rest => (Io.raise .interrupted status, rest)

/-- `Option::unwrap`. -/
def unwrap {α : Type} : Option α → Io α
  | some a => .ok a
  | none => .error .panic

section Incoming

variable {M : Type} {payloadOf : M → Io Bytes}

theorem yields_messages {msgs : List M} {payloads : List Bytes}
    (h : List.Forall₂ (fun msg payload ↦ payloadOf msg = .ok payload ∧ payload ≠ []) msgs payloads) :
    Yields (pullMessage payloadOf) (msgs.map .ok) payloads [] := by
  induction h with
  | nil => exact .nil []
  | @cons msg payload msgs payloads hmsg _ ih =>
      refine .cons ?_ hmsg.2 ih
      simp [pullMessage, hmsg.1]

theorem ended_pullMessage : Ended (pullMessage payloadOf) [] := by
  refine ⟨fun s ↦ s = [], rfl, ?_⟩
  rintro s rfl
  exact ⟨_, _, rfl, rfl⟩

end Incoming

/-! ## Forward streams -/

abbrev GrpcServerReadHalf := Reassembler (Streaming StreamReq) UInt8

abbrev GrpcServerRunStream := RunStream (Streaming StreamReq)

def GrpcServerReadHalf.read (cap : ℕ) (h : GrpcServerReadHalf) : Io Bytes × GrpcServerReadHalf :=
  Reassembler.read (pullMessage fun msg ↦ unwrap msg.payload) cap h

def GrpcServerRunStream.read (cap : ℕ) (s : GrpcServerRunStream) : Io Bytes × GrpcServerRunStream :=
  RunStream.read (pullMessage fun msg ↦ unwrap msg.payload) cap s

abbrev GrpcClientReadHalf := Reassembler (Streaming StreamRes) UInt8

abbrev GrpcClientRunStream := RunStream (Streaming StreamRes)

def GrpcClientReadHalf.read (cap : ℕ) (h : GrpcClientReadHalf) : Io Bytes × GrpcClientReadHalf :=
  Reassembler.read (pullMessage fun msg ↦ .ok msg.payload) cap h

def GrpcClientRunStream.read (cap : ℕ) (s : GrpcClientRunStream) : Io Bytes × GrpcClientRunStream :=
  RunStream.read (pullMessage fun msg ↦ .ok msg.payload) cap s

/-! ## Reverse streams -/

abbrev RevGrpcServerReadHalf := Reassembler (Streaming RevStreamReq) UInt8

structure RevGrpcServerRunStream where
  stream : RunStream (Streaming RevStreamReq)
  dstAddr : String
  dstPort : UInt16

def RevGrpcServerReadHalf.read (cap : ℕ) (h : RevGrpcServerReadHalf) :
    Io Bytes × RevGrpcServerReadHalf :=
  Reassembler.read (pullMessage fun msg ↦ unwrap msg.payload) cap h

namespace RevGrpcServerRunStream

def new (reader : Streaming RevStreamReq) (dstAddr : String) (dstPort : UInt16) :
    RevGrpcServerRunStream :=
  ⟨.new reader, dstAddr, dstPort⟩

def read (cap : ℕ) (s : RevGrpcServerRunStream) : Io Bytes × RevGrpcServerRunStream :=
  let (result, stream) := s.stream.read (pullMessage fun msg ↦ unwrap msg.payload) cap
  (result, { s with stream := stream })

def split (s : RevGrpcServerRunStream) : RevGrpcServerReadHalf := s.stream.split

end RevGrpcServerRunStream

abbrev RevGrpcClientReadHalf := Reassembler (Streaming RevStreamRes) UInt8

abbrev RevGrpcClientRunStream := RunStream (Streaming RevStreamRes)

def RevGrpcClientReadHalf.read (cap : ℕ) (h : RevGrpcClientReadHalf) :
    Io Bytes × RevGrpcClientReadHalf :=
  Reassembler.read (pullMessage fun msg ↦ .ok msg.payload) cap h

def RevGrpcClientRunStream.read (cap : ℕ) (s : RevGrpcClientRunStream) :
    Io Bytes × RevGrpcClientRunStream :=
  RunStream.read (pullMessage fun msg ↦ .ok msg.payload) cap s

end Rog
