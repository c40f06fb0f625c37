import Rog.Listener.Htss5

/-!
# The task of a connection

The task that `Object::start` spawns for each TCP stream of its listener, up to where it ends or
begins to relay. What the router, the configuration and the connectors do is given by an
environment.
-/

namespace Rog

open StateIo TcpRunStream

/-! ## Replies -/

structure Confirm where
  status : UInt8
  port0 : UInt8
  port1 : UInt8

namespace Confirm

def new (error : Bool) (port : UInt16) : Confirm :=
  ⟨if error then 1 else 0, (port / 256).toUInt8, port.toUInt8⟩

def toBytes (confirm : Confirm) : Bytes :=
  [0x05, confirm.status, 0x00, 0x01, 0x00, 0x00, 0x00, 0x00, confirm.port0, confirm.port1]

end Confirm

def SocksRunAcceptor.postHandshake (error : Bool) (port : UInt16) : TcpM Unit :=
  write (Confirm.new error port).toBytes

def Htss5RunAcceptor.postHandshake (error : Bool) (port : UInt16) : TcpM Unit := fun s ↦
  if s.info.protocolName ≠ "socks5" then (.ok (), s) else write (Confirm.new error port).toBytes s

structure RunAcceptor where
  handshake : TcpM (RunAddr × Option Bytes)
  postHandshake : Bool → UInt16 → TcpM Unit

def SocksRunAcceptor.acceptor : RunAcceptor :=
  ⟨SocksRunAcceptor.handshake, SocksRunAcceptor.postHandshake⟩

def Htss5RunAcceptor.acceptor (x : UrlCrate) (serverId : String) : RunAcceptor :=
  ⟨Htss5RunAcceptor.handshake x serverId, Htss5RunAcceptor.postHandshake⟩

/-! ## The task -/

/-- The name that the router returns, the names in the configuration, and how the creation of a
connector and its `connect` come out; `connect` panics where a `pw` is missing. -/
structure TaskEnv where
  route : RunAddr → String
  connector : String → Bool
  create : String → Except IoError Unit
  connect : String → String → Io Unit

/-- The stream of the client and the names with a cached connector; `connected` keeps how
`connect` has come out. -/
structure TaskState where
  stream : TcpRunStream
  connectorCache : String → Bool
  connected : Option (Io Unit)

inductive TaskEnd where
  /-- The task is over, and with it the stream of the client. -/
  | ended
  /-- It goes on in `handle_udp_connection`. -/
  | udp (addr : RunAddr)
  /-- It goes on in `handle_tcp_connection`. -/
  | relay (addr : RunAddr) (payloadCache : Option Bytes)

abbrev TaskM := StateM TaskState

namespace TaskM

def onStream {α : Type} (x : TcpM α) : TaskM (Io α) := fun s ↦
  let (r, stream) := x.runOn s.stream
  (r, { s with stream := stream })

theorem pure_apply {α : Type} (a : α) (s : TaskState) : (pure a : TaskM α) s = (a, s) := rfl

end TaskM

namespace Object

/-- The scope of the lock on the cache: whether there is a connector then. Creating one happens
under the lock, so no other task comes between. -/
def cachedConnector (env : TaskEnv) (clientName : String) : TaskM Bool := fun s ↦
  if s.connectorCache clientName then (true, s)
  else
    match env.create clientName with
    | .ok () =>
        (true, { s with connectorCache := fun name ↦ name = clientName || s.connectorCache name })
    | .error _ => (false, s)

def connect (env : TaskEnv) (clientName : String) (addr : RunAddr) :
    TaskM (Io Unit) := fun s ↦
  let r := env.connect clientName addr.endpoint
  (r, { s with connected := some r })

def serveConnector (acc : RunAcceptor) (env : TaskEnv) (clientName : String) (addr : RunAddr)
    (payloadCache : Option Bytes) : TaskM TaskEnd := do
  match ← connect env clientName addr with
  | .error (.err _) =>
      let _ ← TaskM.onStream (acc.postHandshake true 0)
      return .ended
  | .error .panic => return .ended
  | .ok () =>
      match ← TaskM.onStream (acc.postHandshake false 0) with
      | .error _ => return .ended
      | .ok () => return .relay addr payloadCache

/-- The branch for an address that is not one for UDP. -/
def serve (acc : RunAcceptor) (env : TaskEnv) (addr : RunAddr) (payloadCache : Option Bytes) :
    TaskM TaskEnd := do
  let clientName := env.route addr
  if env.connector clientName then
    if ← cachedConnector env clientName then serveConnector acc env clientName addr payloadCache
    else return .ended
  else return .ended

def task (acc : RunAcceptor) (env : TaskEnv) : TaskM TaskEnd := do
  match ← TaskM.onStream acc.handshake with
  | .error _ => return .ended
  | .ok (addr, payloadCache) =>
      if addr.udp then return .udp addr else serve acc env addr payloadCache

end Object

end Rog
