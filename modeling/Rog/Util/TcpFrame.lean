import Rog.Proto
import Rog.Lib.BigEndian

/-!
# Frames on a TCP connection

`util/tcp_frame.rs`. A frame is a header of two 64-bit numbers whose wrapping sum is the
length of the message, and the message. The first number is random.
-/

namespace Rog

open Lib SocketM

def connTypeStream : UInt8 := 0x01

def connTypeUdp : UInt8 := 0x02

/-- The bytes that `write_frame` writes, with `r` for the random number. -/
def writeFrame {M : Type} (x : Prost M) (r : UInt64) (msg : M) : Bytes :=
  let data := x.encode msg
  let len := UInt64.ofNat data.length
  let second := len - r
  bigEndian 8 r.toNat ++ (bigEndian 8 second.toNat ++ data)

def readFrame : SocketM Bytes := do
  let buf16 ← readExact 16
  let r := UInt64.ofNat (ofBigEndian (buf16.take 8))
  let second := UInt64.ofNat (ofBigEndian (buf16.drop 8))
  let len := (r + second).toNat
  if 16 * 1024 * 1024 < len then ofIo (Io.other "frame too large") else readExact len

def readMsg {M : Type} (x : Prost M) : SocketM M := do
  let data ← readFrame
  ofIo (Io.mapErr (fun e ↦ s!"protobuf decode: {e}") (x.decode data))

def readConnType : SocketM UInt8 := do
  let buf ← readExact 1
  return buf.headD 0

/-- The bytes that `write_conn_type` writes. -/
def writeConnType (connType : UInt8) : Bytes := [connType]

def FitsFrame (frame : Bytes) : Prop := frame.length ≤ 16 + 16 * 1024 * 1024

section RoundTrip

variable {M : Type} {x : Prost M} {s : Socket} {more : Bytes}

theorem length_writeFrame (r : UInt64) (msg : M) :
    (writeFrame x r msg).length = 16 + (x.encode msg).length := by
  simp [writeFrame]
  omega

theorem FitsFrame.fitsVec {r : UInt64} {msg : M} (h : FitsFrame (writeFrame x r msg)) :
    FitsVec (x.encode msg) := by
  rw [FitsFrame, length_writeFrame] at h
  rw [FitsVec]
  omega

theorem header_roundTrip (n : UInt64) : UInt64.ofNat (ofBigEndian (bigEndian 8 n.toNat)) = n := by
  have hn : n.toNat % 256 ^ 8 = n.toNat := Nat.mod_eq_of_lt n.toNat_lt
  rw [ofBigEndian_bigEndian, hn, UInt64.ofNat_toNat]

/-- Whatever the mask, the two numbers of a header add up to the length again. -/
theorem mask_roundTrip (r len : UInt64) : r + (len - r) = len := by
  rw [UInt64.add_comm, UInt64.sub_add_cancel]

theorem readFrame_header {r : UInt64} {msg : M} (hs : s.flatten = writeFrame x r msg ++ more)
    (hvec : (x.encode msg).length < 2 ^ 64) :
    ∃ t : Socket, t.flatten = x.encode msg ++ more ∧ readFrame.runOn s =
      (if 16 * 1024 * 1024 < (x.encode msg).length then ofIo (Io.other "frame too large")
        else readExact (x.encode msg).length).runOn t := by
  have hlen : (UInt64.ofNat (x.encode msg).length).toNat = (x.encode msg).length := by
    rw [UInt64.toNat_ofNat']
    exact Nat.mod_eq_of_lt hvec
  obtain ⟨header, hheader⟩ : ∃ header, header = bigEndian 8 r.toNat ++
      bigEndian 8 (UInt64.ofNat (x.encode msg).length - r).toNat := ⟨_, rfl⟩
  have hsplit : s.flatten = header ++ (x.encode msg ++ more) := by
    rw [hs, hheader]
    simp [writeFrame]
  have h16 : header.length = 16 := by simp [hheader]
  obtain ⟨t, hread, ht⟩ := readExact_append hsplit
  rw [h16] at hread
  refine ⟨t, ht, ?_⟩
  simp only [readFrame]
  rw [runOn_bind_ok hread]
  simp only [hheader, List.take_left' (length_bigEndian 8 _), List.drop_left' (length_bigEndian 8 _),
    header_roundTrip, mask_roundTrip, hlen]

theorem readFrame_writeFrame {r : UInt64} {msg : M}
    (hs : s.flatten = writeFrame x r msg ++ more) (hfits : FitsFrame (writeFrame x r msg)) :
    ∃ t, readFrame.runOn s = (.ok (x.encode msg), t) ∧ t.flatten = more := by
  have hlength : (x.encode msg).length ≤ 16 * 1024 * 1024 := by
    rw [FitsFrame, length_writeFrame] at hfits
    omega
  obtain ⟨t, ht, hread⟩ := readFrame_header hs (by omega)
  obtain ⟨u, hdata, hu⟩ := readExact_append ht
  rw [hread, if_neg (by omega), hdata]
  exact ⟨u, rfl, hu⟩

theorem readMsg_large {r : UInt64} {msg : M} (hs : s.flatten = writeFrame x r msg ++ more)
    (hvec : (x.encode msg).length < 2 ^ 64) (hlarge : ¬FitsFrame (writeFrame x r msg)) :
    ∃ t, (readMsg x).runOn s = (Io.other "frame too large", t) := by
  have hlength : 16 * 1024 * 1024 < (x.encode msg).length := by
    rw [FitsFrame, length_writeFrame] at hlarge
    omega
  obtain ⟨t, -, hread⟩ := readFrame_header hs hvec
  rw [if_pos hlength, runOn_ofIo] at hread
  exact ⟨t, runOn_bind_error hread⟩

/-- A message that was framed is read back, however the stream is segmented, and exactly its
bytes are consumed. -/
theorem readMsg_writeFrame (hx : x.RoundTrips) {r : UInt64} {msg : M}
    (hs : s.flatten = writeFrame x r msg ++ more) (hfits : FitsFrame (writeFrame x r msg)) :
    ∃ t, (readMsg x).runOn s = (.ok msg, t) ∧ t.flatten = more := by
  obtain ⟨t, hread, ht⟩ := readFrame_writeFrame hs hfits
  refine ⟨t, ?_, ht⟩
  rw [readMsg, runOn_bind_ok hread, hx msg hfits.fitsVec]
  rfl

theorem readConnType_cons {connType : UInt8} (hs : s.flatten = connType :: more) :
    ∃ t, readConnType.runOn s = (.ok connType, t) ∧ t.flatten = more := by
  have hsplit : s.flatten = [connType] ++ more := hs
  obtain ⟨t, hread, ht⟩ : ∃ t, (readExact 1).runOn s = (.ok [connType], t) ∧ t.flatten = more :=
    readExact_append hsplit
  refine ⟨t, ?_, ht⟩
  rw [readConnType, runOn_bind_ok hread]
  rfl

/-- Reading at the end of the connection fails, and fails again. -/
theorem readMsg_eof (x : Prost M) (hs : s.flatten = []) :
    (readMsg x).runOn s = (Io.raise .unexpectedEof "early eof", []) := by
  have hread : (readExact 16).runOn s = (Io.raise .unexpectedEof "early eof", []) :=
    readExact_eof (by simp [hs])
  have hframe : readFrame.runOn s = (Io.raise .unexpectedEof "early eof", []) :=
    runOn_bind_error hread
  exact runOn_bind_error hframe

end RoundTrip

end Rog
