import Rog.Io

/-!
# IP addresses as text

`Display` of the addresses of `std::net`.
-/

namespace Rog

structure Ipv4Addr where
  a : UInt8
  b : UInt8
  c : UInt8
  d : UInt8
  deriving DecidableEq

structure Ipv6Addr where
  segments : List UInt16
  length_segments : segments.length = 8
  deriving DecidableEq

inductive IpAddr where
  | v4 (ip : Ipv4Addr)
  | v6 (ip : Ipv6Addr)
  deriving DecidableEq

/-- `u16::from_be_bytes`. -/
def fromBeBytes (high low : UInt8) : UInt16 := UInt16.ofNat (high.toNat * 256 + low.toNat)

def Ipv4Addr.toString (ip : Ipv4Addr) : String :=
  ip.a.toNat.repr ++ "." ++ ip.b.toNat.repr ++ "." ++ ip.c.toNat.repr ++ "." ++ ip.d.toNat.repr

namespace Ipv6Addr

structure Span where
  start : ℕ
  len : ℕ
  deriving DecidableEq

/-- The first of the longest runs of zeros. -/
def zeroes (segments : List UInt16) : Span :=
  (segments.zipIdx.foldl (fun (longest, current) (segment, i) ↦
    if segment = 0 then
      let current : Span := if current.len = 0 then ⟨i, 1⟩ else ⟨current.start, current.len + 1⟩
      (if longest.len < current.len then current else longest, current)
    else (longest, ⟨0, 0⟩)) ((⟨0, 0⟩, ⟨0, 0⟩) : Span × Span)).1

/-- `{:x}`. -/
def hex (segment : UInt16) : String := String.ofList (Nat.toDigits 16 segment.toNat)

def fmtSubslice (chunk : List UInt16) : String := ":".intercalate (chunk.map hex)

def toIpv4Mapped (ip : Ipv6Addr) : Option Ipv4Addr :=
  match ip.segments with
  | [0, 0, 0, 0, 0, 0xffff, ab, cd] =>
      some ⟨(ab / 256).toUInt8, ab.toUInt8, (cd / 256).toUInt8, cd.toUInt8⟩
  | _ => none

def toString (ip : Ipv6Addr) : String :=
  match ip.toIpv4Mapped with
  | some ipv4 => "::ffff:" ++ ipv4.toString
  | none =>
      let zeroes := zeroes ip.segments
      if 1 < zeroes.len then
        fmtSubslice (ip.segments.take zeroes.start) ++ "::" ++
          fmtSubslice (ip.segments.drop (zeroes.start + zeroes.len))
      else fmtSubslice ip.segments

end Ipv6Addr

def IpAddr.toString : IpAddr → String
  | .v4 ip => ip.toString
  | .v6 ip => ip.toString

example : Ipv6Addr.toString ⟨[0x2001, 0xdb8, 0, 0, 1, 0, 0, 1], rfl⟩ = "2001:db8::1:0:0:1" := by
  decide

end Rog
