import Rog.Lib.MemoTable
import Rog.Object.Start
import Rog.Udp.Packet

/-!
# The tasks of an object

`Object::start` spawns a task for each stream and each UDP socket that its listener accepts. The
tasks run side by side and share the cache of the connectors; a connector is created under the lock
of the cache. Of `handle_raw_udp` this is the part up to the opening of the tunnel. A task for UDP
ASSOCIATE is followed up to its handshake: it goes on with a connector of its own.
-/

namespace Rog

open Lib

inductive TcpPc where
  | handshake
  | route (addr : RunAddr) (payloadCache : Option Bytes)
  /-- At the lock of the cache, or in its scope. -/
  | lookup (addr : RunAddr) (payloadCache : Option Bytes)
  | connect (addr : RunAddr) (payloadCache : Option Bytes)
  /-- `post_handshake` after `connect` has returned an error. -/
  | refuse
  | confirm (addr : RunAddr) (payloadCache : Option Bytes)
  | over (r : TaskEnd)

/-- How `handle_raw_udp` fails; `ErrorKind::NotFound` is found nowhere else. -/
inductive RawUdpError where
  | notFound (message : String)
  | io (e : IoError)
  | panic

def Fault.rawUdp : Fault → RawUdpError
  | .err e => .io e
  | .panic => .panic

inductive RawUdpPc where
  | firstRead
  | route (firstPacket : UDPPacket)
  | lookup (firstPacket : UDPPacket)
  | udpTunnel (firstPacket : UDPPacket)
  | left (e : RawUdpError)

/-- `client` is the stream that was accepted; `connected` keeps how `connect` has come out. -/
structure TcpJob where
  pc : TcpPc
  client : TcpRunStream
  stream : TcpRunStream
  connected : Option (Io Unit)

inductive Job where
  | tcp (j : TcpJob)
  | rawUdp (pc : RawUdpPc)

/-- The name from the router, the connector for it, what `connector::create` has returned where it
was called, and the cache as it was when the task had the lock. -/
structure Lookup (C : Type) where
  clientName : Option String
  connector : Option C
  created : Option (Except IoError C)
  cache : String → Option C

structure Task (C : Type) where
  job : Job
  look : Lookup C

inductive TaskEvent (C : Type) where
  /-- The listener accepts a stream, or a UDP socket. -/
  | accepted (stream : TcpRunStream)
  | acceptedUdp
  | handshaken (i : ℕ)
  | firstRead (i : ℕ) (r : Io UDPPacket)
  | routed (i : ℕ) (clientName : String)
  /-- The task has the lock of the cache. -/
  | locked (i : ℕ)
  | created (i : ℕ) (r : Except IoError C)
  | connected (i : ℕ) (r : Io Unit)
  | postHandshake (i : ℕ)

namespace Job

/-- The name that the router has found is in the configuration. -/
def known : Job → Option Job
  | .tcp j => match j.pc with
      | .route addr payloadCache => some (.tcp { j with pc := .lookup addr payloadCache })
      | _ => none
  | .rawUdp (.route firstPacket) => some (.rawUdp (.lookup firstPacket))
  | .rawUdp _ => none

def unknown (clientName : String) : Job → Option Job
  | .tcp j => match j.pc with
      | .route _ _ => some (.tcp { j with pc := .over .ended })
      | _ => none
  | .rawUdp (.route _) =>
      some (.rawUdp (.left (.notFound s!"Connector config '{clientName}' not found for UDP")))
  | .rawUdp _ => none

/-- The scope of the lock ends, with a connector or an error. -/
def leaveScope {C : Type} (r : Except IoError C) : Job → Job
  | .tcp j => match j.pc, r with
      | .lookup addr payloadCache, .ok _ => .tcp { j with pc := .connect addr payloadCache }
      | .lookup _ _, .error _ => .tcp { j with pc := .over .ended }
      | _, _ => .tcp j
  | .rawUdp (.lookup firstPacket) => match r with
      | .ok _ => .rawUdp (.udpTunnel firstPacket)
      | .error e => .rawUdp (.left (.io e))
  | .rawUdp pc => .rawUdp pc

def handshaken (acc : RunAcceptor) : Job → Option Job
  | .tcp j => match j.pc with
      | .handshake => some <| match acc.handshake.runOn j.stream with
          | (.error _, stream) => .tcp { j with stream := stream, pc := .over .ended }
          | (.ok (addr, payloadCache), stream) => .tcp { j with
              stream := stream
              pc := if addr.udp then .over (.udp addr) else .route addr payloadCache }
      | _ => none
  | .rawUdp _ => none

def firstRead (r : Io UDPPacket) : Job → Option Job
  | .rawUdp .firstRead => some <| match r with
      | .ok firstPacket => .rawUdp (.route firstPacket)
      | .error e => .rawUdp (.left e.rawUdp)
  | _ => none

def connected (r : Io Unit) : Job → Option Job
  | .tcp j => match j.pc with
      | .connect addr payloadCache => some <| match r with
          | .ok () => .tcp { j with pc := .confirm addr payloadCache, connected := some r }
          | .error (.err _) => .tcp { j with pc := .refuse, connected := some r }
          | .error .panic => .tcp { j with pc := .over .ended, connected := some r }
      | _ => none
  | .rawUdp _ => none

def postHandshake (acc : RunAcceptor) : Job → Option Job
  | .tcp j => match j.pc with
      | .refuse =>
          let (_, stream) := (acc.postHandshake true 0).runOn j.stream
          some (.tcp { j with stream := stream, pc := .over .ended })
      | .confirm addr payloadCache => some <|
          match (acc.postHandshake false 0).runOn j.stream with
          | (.error _, stream) => .tcp { j with stream := stream, pc := .over .ended }
          | (.ok (), stream) =>
              .tcp { j with stream := stream, pc := .over (.relay addr payloadCache) }
      | _ => none
  | .rawUdp _ => none

end Job

namespace Task

variable {C : Type}

def new (job : Job) : Task C := ⟨job, ⟨none, none, none, fun _ ↦ none⟩⟩

def leaveScope (t : Task C) (r : Except IoError C) : Task C :=
  ⟨t.job.leaveScope r, { t.look with connector := r.toOption }⟩

/-- The task is scheduled with the lock: it goes on unless it has a connector to create. -/
def locked (t : Task C) (cache : String → Option C) (phase : MemoPhase String C IoError) : Task C :=
  let t : Task C := { t with look := { t.look with cache := cache } }
  match phase with
  | .done r => t.leaveScope r
  | _ => t

def created (t : Task C) (r : Except IoError C) : Task C :=
  { t with look := { t.look with created := some r } }.leaveScope r

end Task

/-- `tasks` are numbered as they are accepted. -/
structure Tasks (C : Type) where
  accepted : ℕ
  tasks : ℕ → Option (Task C)
  cache : MemoTable ℕ String C IoError

namespace Tasks

variable {C : Type}

def new : Tasks C := ⟨0, fun _ ↦ none, .new fun _ ↦ none⟩

def spawn (s : Tasks C) (job : Job) : Tasks C :=
  { s with
    accepted := s.accepted + 1
    tasks := Function.update s.tasks s.accepted (some (.new job)) }

def put (s : Tasks C) (i : ℕ) (t : Task C) : Tasks C :=
  { s with tasks := Function.update s.tasks i (some t) }

/-- The task goes on without the cache. -/
def advance (s : Tasks C) (i : ℕ) (f : Job → Option Job) : Option (Tasks C) := do
  let t ← s.tasks i
  let job ← f t.job
  return s.put i { t with job := job }

def routed (connector : String → Bool) (s : Tasks C) (i : ℕ) (clientName : String) :
    Option (Tasks C) := do
  let t ← s.tasks i
  let look := { t.look with clientName := some clientName }
  if connector clientName then
    let job ← t.job.known
    return { s.put i ⟨job, look⟩ with cache := s.cache.ask i clientName }
  else
    let job ← t.job.unknown clientName
    return s.put i ⟨job, look⟩

def locked (s : Tasks C) (i : ℕ) : Option (Tasks C) := do
  let t ← s.tasks i
  let cache ← s.cache.step (.enter i)
  return { s.put i (t.locked s.cache.table (cache.phase i)) with cache := cache }

def created (s : Tasks C) (i : ℕ) (r : Except IoError C) : Option (Tasks C) := do
  let t ← s.tasks i
  let cache ← s.cache.step (.made i r)
  return { s.put i (t.created r) with cache := cache }

/-- `connector` has the names in the configuration. -/
def step (acc : RunAcceptor) (connector : String → Bool) (s : Tasks C) :
    TaskEvent C → Option (Tasks C)
  | .accepted stream => some (s.spawn (.tcp ⟨.handshake, stream, stream, none⟩))
  | .acceptedUdp => some (s.spawn (.rawUdp .firstRead))
  | .handshaken i => s.advance i (·.handshaken acc)
  | .firstRead i r => s.advance i (·.firstRead r)
  | .routed i clientName => s.routed connector i clientName
  | .locked i => s.locked i
  | .created i r => s.created i r
  | .connected i r => s.advance i (·.connected r)
  | .postHandshake i => s.advance i (·.postHandshake acc)

def machine (acc : RunAcceptor) (connector : String → Bool) :
    Machine (Tasks C) (TaskEvent C) where
  init s := s = new
  step := step acc connector

end Tasks

end Rog
