import Rog.Stream.Grpc

/-!
# UDP packets as messages

The conversions of `proto/v1.rs` between `UDPPacket` and the messages of the tunnels. A
conversion to a packet fails, panics or narrows the ports; one to a message does neither.
-/

namespace Rog

structure UDPMeta where
  dstAddr : String
  dstPort : UInt16
  srcAddr : String
  srcPort : UInt16
  deriving DecidableEq

structure UDPPacket where
  metadata : UDPMeta
  data : Bytes
  deriving DecidableEq

/-- What `try_into` comes to: a packet, or `Err(())`, or a panic. -/
abbrev TryInto := Io (Except Unit UDPPacket)

/-- `map_err` on the result of a conversion. -/
def TryInto.orErr (message : String) (x : TryInto) : Io UDPPacket := do
  match ← x with
  | .ok packet => return packet
  | .error () => Io.other message

/-- `unwrap` on the result of a conversion. -/
def TryInto.unwrap (x : TryInto) : Io UDPPacket := do
  match ← x with
  | .ok packet => return packet
  | .error () => .error .panic

def AddrInfo.toMeta (info : AddrInfo) : UDPMeta :=
  ⟨info.dstAddr, info.dstPort.toUInt16, info.srcAddr, info.srcPort.toUInt16⟩

def AddrInfo.ofMeta (m : UDPMeta) : AddrInfo :=
  ⟨m.dstAddr, m.dstPort.toUInt32, m.srcAddr, m.srcPort.toUInt32⟩

@[simp] theorem AddrInfo.toMeta_ofMeta (m : UDPMeta) : (AddrInfo.ofMeta m).toMeta = m := by
  simp [AddrInfo.toMeta, AddrInfo.ofMeta]

namespace UdpReq

def tryInto (r : UdpReq) : TryInto := do
  let dstAddr ← Rog.unwrap r.dstAddr
  let dstPort ← Rog.unwrap r.dstPort
  let srcAddr ← Rog.unwrap r.srcAddr
  let srcPort ← Rog.unwrap r.srcPort
  let data ← Rog.unwrap r.payload
  return .ok ⟨⟨dstAddr, dstPort.toUInt16, srcAddr, srcPort.toUInt16⟩, data⟩

def fromPacket (packet : UDPPacket) (auth : String) : UdpReq where
  auth := auth
  payload := some packet.data
  dstAddr := some packet.metadata.dstAddr
  dstPort := some packet.metadata.dstPort.toUInt32
  srcAddr := some packet.metadata.srcAddr
  srcPort := some packet.metadata.srcPort.toUInt32

@[simp] theorem tryInto_fromPacket (packet : UDPPacket) (auth : String) :
    (fromPacket packet auth).tryInto = .ok (.ok packet) := by
  simp [tryInto, fromPacket, Rog.unwrap, bind, Except.bind, pure, Except.pure]

end UdpReq

namespace UdpRes

def tryInto (r : UdpRes) : TryInto := do
  let dstAddr ← Rog.unwrap r.dstAddr
  let dstPort ← Rog.unwrap r.dstPort
  let srcAddr ← Rog.unwrap r.srcAddr
  let srcPort ← Rog.unwrap r.srcPort
  return .ok ⟨⟨dstAddr, dstPort.toUInt16, srcAddr, srcPort.toUInt16⟩, r.payload⟩

def tryFrom (packet : UDPPacket) : Except Unit UdpRes :=
  .ok {
    payload := packet.data
    dstAddr := some packet.metadata.dstAddr
    dstPort := some packet.metadata.dstPort.toUInt32
    srcAddr := some packet.metadata.srcAddr
    srcPort := some packet.metadata.srcPort.toUInt32 }

theorem tryInto_tryFrom {packet : UDPPacket} {r : UdpRes} (h : tryFrom packet = .ok r) :
    r.tryInto = .ok (.ok packet) := by
  obtain rfl := Except.ok.inj h
  simp [tryInto, Rog.unwrap, bind, Except.bind, pure, Except.pure]

end UdpRes

namespace RevUdpReq

def tryInto (r : RevUdpReq) : TryInto :=
  match r.addrInfo with
  | some info => .ok (.ok ⟨info.toMeta, r.payload.getD []⟩)
  | none => .ok (.error ())

def fromPacket (packet : UDPPacket) (auth : String) : RevUdpReq :=
  ⟨auth, some packet.data, some (.ofMeta packet.metadata), none⟩

@[simp] theorem tryInto_fromPacket (packet : UDPPacket) (auth : String) :
    (fromPacket packet auth).tryInto = .ok (.ok packet) := by
  simp [tryInto, fromPacket]

end RevUdpReq

namespace RevUdpRes

def tryInto (r : RevUdpRes) : TryInto :=
  match r.addrInfo with
  | some info => .ok (.ok ⟨info.toMeta, r.payload⟩)
  | none => .ok (.error ())

def tryFrom (packet : UDPPacket) : Except Unit RevUdpRes :=
  .ok ⟨packet.data, some (.ofMeta packet.metadata)⟩

theorem tryInto_tryFrom {packet : UDPPacket} {r : RevUdpRes} (h : tryFrom packet = .ok r) :
    r.tryInto = .ok (.ok packet) := by
  obtain rfl := Except.ok.inj h
  simp [tryInto]

end RevUdpRes

end Rog
