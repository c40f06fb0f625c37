import Rog.Stream.Grpc
import Rog.Stream.PbTcp

/-!
# Handshakes of the forward transports

The first message of a gRPC stream, from `GrpcRunConnector::connect` to the acceptor, and the
check of the password in the acceptors of gRPC and pb_tcp.
-/

namespace Rog

namespace GrpcRunConnector

/-- `connect`: `resp` is what the call of the service returns, and `sent` whether the first
message enters its channel. -/
def connect (pw : Option String) (resp : Except String (Streaming StreamRes)) (sent : Bool)
    (addr : String) : Io (List StreamReq × GrpcClientRunStream) := do
  let (host, port) ← parseAddress addr
  let resp ← Io.mapErr id resp
  let auth ← unwrap pw
  let auth : StreamReq :=
    { StreamReq.default with auth := auth, dstPort := some port.toUInt32, dstAddr := some host }
  if sent then
    let stream : GrpcClientRunStream := RunStream.new resp
    return ([auth], stream.setInfo fun x ↦
      { x with protocolName := "grpc", dstPort := some port, dstAddr := some host })
  else Io.other "failed to send auth request"

end GrpcRunConnector

namespace GrpcServerRunStream

def new (reader : Streaming StreamReq) : GrpcServerRunStream := RunStream.new reader

def accept (a : StreamReq) : Io (RunAddr × String) := do
  let addr ← unwrap a.dstAddr
  let port ← unwrap a.dstPort
  return (⟨addr, port.toUInt16, false⟩, a.auth)

def handshake (s : GrpcServerRunStream) : Io (Option (RunAddr × String)) × GrpcServerRunStream :=
  match s.half.source with
  | .ok a :: rest => ((accept a).map some, s.setSource rest)
  | .error err :: rest => (Io.raise .interrupted err, s.setSource rest)
  | [] => (Io.raise .interrupted "interrupted", s)

end GrpcServerRunStream

def checkAuth (auth : String) (result : Io (Option (RunAddr × String))) :
    Io (RunAddr × Option Bytes) := do
  match ← result with
  | some (addr, sent) => if sent ≠ auth then Io.other "invalid auth" else return (addr, none)
  | none => Io.other "handshake failed"

def GrpcRunListener.handshake (auth : String) (stream : GrpcServerRunStream) :
    Io (RunAddr × Option Bytes) × GrpcServerRunStream :=
  let stream := stream.setInfo fun x ↦ { x with protocolName := "grpc" }
  let (result, stream) := GrpcServerRunStream.handshake stream
  (checkAuth auth result, stream)

def PbTcpRunAcceptor.handshake (x : PbTcpCrates) (auth : String) (stream : PbTcpServerRunStream) :
    Io (RunAddr × Option Bytes) × PbTcpServerRunStream :=
  let stream := stream.setInfo fun x ↦ { x with protocolName := "pb_tcp" }
  let (result, stream) := PbTcpServerRunStream.handshake x auth stream
  (checkAuth auth result, stream)

theorem checkAuth_eq_ok {auth : String} {result : Io (Option (RunAddr × String))}
    {r : RunAddr × Option Bytes} (h : checkAuth auth result = .ok r) :
    result = .ok (some (r.1, auth)) ∧ r.2 = none := by
  obtain ⟨a, ha, h⟩ := Io.bind_eq_ok h
  cases a with
  | none => cases h
  | some p =>
      obtain ⟨addr, sent⟩ := p
      have hif : (if sent ≠ auth then Io.other "invalid auth" else .ok (addr, none)) = Except.ok r := h
      by_cases hsent : sent = auth
      · rw [if_neg (not_not.mpr hsent)] at hif
        obtain rfl := Except.ok.inj hif
        exact ⟨hsent ▸ ha, rfl⟩
      · rw [if_pos hsent] at hif
        cases hif

theorem PbTcpServerRunStream.handshake_fst (x : PbTcpCrates) (pw : String) (s : PbTcpServerRunStream) :
    (handshake x pw s).1 = ((acceptMsg x pw).runOn s.half.source.reader).1.map
      fun (ra, auth, _) ↦ some (ra, auth) := by
  obtain ⟨result, reader, hrun⟩ : ∃ result reader,
      (acceptMsg x pw).runOn s.half.source.reader = (result, reader) := ⟨_, _, rfl⟩
  simp only [handshake, hrun]
  cases result <;> rfl

end Rog
