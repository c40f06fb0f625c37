import Rog.Lib.BigEndian

/-!
# SHA-256
-/

namespace Rog.Lib.Sha256

/-- The fractional parts of the cube roots of the first 64 primes. -/
def roundConstants : List UInt32 := [
  0x428a2f98, 0x71374491, 0xb5c0fbcf, 0xe9b5dba5, 0x3956c25b, 0x59f111f1, 0x923f82a4, 0xab1c5ed5,
  0xd807aa98, 0x12835b01, 0x243185be, 0x550c7dc3, 0x72be5d74, 0x80deb1fe, 0x9bdc06a7, 0xc19bf174,
  0xe49b69c1, 0xefbe4786, 0x0fc19dc6, 0x240ca1cc, 0x2de92c6f, 0x4a7484aa, 0x5cb0a9dc, 0x76f988da,
  0x983e5152, 0xa831c66d, 0xb00327c8, 0xbf597fc7, 0xc6e00bf3, 0xd5a79147, 0x06ca6351, 0x14292967,
  0x27b70a85, 0x2e1b2138, 0x4d2c6dfc, 0x53380d13, 0x650a7354, 0x766a0abb, 0x81c2c92e, 0x92722c85,
  0xa2bfe8a1, 0xa81a664b, 0xc24b8b70, 0xc76c51a3, 0xd192e819, 0xd6990624, 0xf40e3585, 0x106aa070,
  0x19a4c116, 0x1e376c08, 0x2748774c, 0x34b0bcb5, 0x391c0cb3, 0x4ed8aa4a, 0x5b9cca4f, 0x682e6ff3,
  0x748f82ee, 0x78a5636f, 0x84c87814, 0x8cc70208, 0x90befffa, 0xa4506ceb, 0xbef9a3f7, 0xc67178f2]

/-- The fractional parts of the square roots of the first 8 primes. -/
def initial : List UInt32 := [
  0x6a09e667, 0xbb67ae85, 0x3c6ef372, 0xa54ff53a, 0x510e527f, 0x9b05688c, 0x1f83d9ab, 0x5be0cd19]

def rotateRight (x n : UInt32) : UInt32 := x >>> n ||| x <<< (32 - n)

def nextWord (last : List UInt32) : UInt32 :=
  let w := fun i ↦ last.getD i 0
  let s0 := rotateRight (w 1) 7 ^^^ rotateRight (w 1) 18 ^^^ w 1 >>> 3
  let s1 := rotateRight (w 14) 17 ^^^ rotateRight (w 14) 19 ^^^ w 14 >>> 10
  w 0 + s0 + w 9 + s1

def round (s : List UInt32) (k w : UInt32) : List UInt32 :=
  match s with
  | [a, b, c, d, e, f, g, h] =>
      let s1 := rotateRight e 6 ^^^ rotateRight e 11 ^^^ rotateRight e 25
      let ch := (e &&& f) ^^^ (~~~e &&& g)
      let t1 := h + s1 + ch + k + w
      let s0 := rotateRight a 2 ^^^ rotateRight a 13 ^^^ rotateRight a 22
      let maj := (a &&& b) ^^^ (a &&& c) ^^^ (b &&& c)
      [t1 + s0 + maj, a, b, c, d + t1, e, f, g]
  | s => s

def compress (s : List UInt32) (chunk : List UInt8) : List UInt32 :=
  let start := (List.range 16).map fun i ↦
    UInt32.ofNat (ofBigEndian ((chunk.drop (4 * i)).take 4))
  let step := fun (st : List UInt32 × List UInt32) (k : UInt32) ↦
    (round st.1 k (st.2.headD 0), st.2.tail ++ [nextWord st.2])
  List.zipWith (· + ·) s (roundConstants.foldl step (s, start)).1

/-- The fuel bounds the number of chunks. -/
def compressAll : ℕ → List UInt32 → List UInt8 → List UInt32
  | 0, s, _ => s
  | fuel + 1, s, data =>
      if data.isEmpty then s else compressAll fuel (compress s (data.take 64)) (data.drop 64)

def hash (data : List UInt8) : List UInt8 :=
  let zeros := (119 - data.length % 64) % 64
  let padded := data ++ [0x80] ++ List.replicate zeros 0 ++ bigEndian 8 (8 * data.length)
  (compressAll padded.length initial padded).flatMap fun w ↦ bigEndian 4 w.toNat

end Rog.Lib.Sha256
