import Rog.Io
import Rog.Lib.Utf8

/-!
# Messages and the crates behind them

The messages of `rog.proto` and `rog_reverse.proto`, and what the program takes from other
crates to put them on the wire: the protobuf codec, base64, SHA-256 and ChaCha20-Poly1305.
The crates are parameters of everything that uses them.
-/

namespace Rog

structure StreamReq where
  auth : String
  payload : Option Bytes
  dstAddr : Option String
  dstPort : Option UInt32
  deriving DecidableEq

/-- `Default::default()`. -/
def StreamReq.default : StreamReq := ⟨"", none, none, none⟩

structure StreamRes where
  payload : Bytes
  deriving DecidableEq

structure RevStreamReq where
  auth : String
  payload : Option Bytes
  connId : Option String
  deriving DecidableEq

structure RevStreamRes where
  payload : Bytes
  deriving DecidableEq

structure AddrInfo where
  dstAddr : String
  dstPort : UInt32
  srcAddr : String
  srcPort : UInt32
  deriving DecidableEq

structure ManagerRes where
  addrInfo : Option AddrInfo
  udp : Option UInt32
  connId : Option String
  deriving DecidableEq

structure UdpReq where
  auth : String
  payload : Option Bytes
  dstAddr : Option String
  dstPort : Option UInt32
  srcAddr : Option String
  srcPort : Option UInt32
  deriving DecidableEq

structure UdpRes where
  payload : Bytes
  dstAddr : Option String
  dstPort : Option UInt32
  srcAddr : Option String
  srcPort : Option UInt32
  deriving DecidableEq

structure RevUdpReq where
  auth : String
  payload : Option Bytes
  addrInfo : Option AddrInfo
  connId : Option String
  deriving DecidableEq

structure RevUdpRes where
  payload : Bytes
  addrInfo : Option AddrInfo
  deriving DecidableEq

/-- The `prost::Message` methods of a message type. -/
structure Prost (M : Type) where
  encode : M → Bytes
  decode : Bytes → Except String M

/-- A `Vec<u8>` has at most `isize::MAX` bytes. -/
def FitsVec (bytes : Bytes) : Prop := bytes.length < 2 ^ 63

def Prost.RoundTrips {M : Type} (x : Prost M) : Prop :=
  ∀ msg, FitsVec (x.encode msg) → x.decode (x.encode msg) = .ok msg

structure Nonce where
  bytes : Bytes
  length_bytes : bytes.length = 12
  deriving DecidableEq

/-- The `sha2`, `chacha20poly1305` and `base64` crates. -/
structure CryptoCrates where
  sha256 : Bytes → Bytes
  encrypt : Bytes → Nonce → Bytes → Except String Bytes
  decrypt : Bytes → Nonce → Bytes → Except String Bytes
  base64Encode : Bytes → String
  base64Decode : String → Except String Bytes

structure CryptoCrates.RoundTrips (x : CryptoCrates) : Prop where
  decrypt_encrypt : ∀ key nonce plaintext ciphertext,
    x.encrypt key nonce plaintext = .ok ciphertext →
      x.decrypt key nonce ciphertext = .ok plaintext
  base64Decode_encode : ∀ bytes, x.base64Decode (x.base64Encode bytes) = .ok bytes

/-! ## Text -/

/-- `str::as_bytes`. -/
def asBytes (s : String) : Bytes := s.toUTF8.data.toList

/-- `String::from_utf8`. -/
def fromUtf8 (bytes : Bytes) : Option String := String.fromUTF8? ⟨bytes.toArray⟩

theorem fromUtf8_asBytes (s : String) : fromUtf8 (asBytes s) = some s := by
  have hbytes : (⟨(asBytes s).toArray⟩ : ByteArray) = s.toByteArray := by simp [asBytes]
  rw [fromUtf8, hbytes, String.fromUTF8?, dif_pos s.isValidUTF8]
  rfl

theorem asBytes_eq_utf8 (s : String) : asBytes s = Lib.utf8 s.toList := by
  rw [asBytes, ← Lib.toList_utf8Encode, String.utf8Encode_toList]
  rfl

theorem asBytes_ofList (cs : List Char) : asBytes (String.ofList cs) = Lib.utf8 cs := by
  rw [asBytes_eq_utf8, String.toList_ofList]

theorem asBytes_of_fromUtf8 {bytes : Bytes} {s : String} (h : fromUtf8 bytes = some s) :
    asBytes s = bytes := by
  unfold fromUtf8 String.fromUTF8? at h
  split at h
  · obtain rfl := Option.some.inj h
    rfl
  · cases h

end Rog
