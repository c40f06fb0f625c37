import Mathlib.Data.List.Basic
import Mathlib.Algebra.Group.Nat.Defs

/-!
# ChaCha20-Poly1305

The authenticated cipher with a 96-bit nonce and no associated data. A ciphertext is the
plaintext under the key stream, followed by a tag of sixteen bytes.
-/

namespace Rog.Lib.ChaCha20Poly1305

def littleEndian (bytes : List UInt8) : ℕ := bytes.foldr (fun b n ↦ b.toNat + 256 * n) 0

def toLittleEndian : ℕ → ℕ → List UInt8
  | 0, _ => []
  | w + 1, n => UInt8.ofNat n :: toLittleEndian w (n / 256)

@[simp] theorem length_toLittleEndian (w n : ℕ) : (toLittleEndian w n).length = w := by
  induction w generalizing n with
  | zero => rfl
  | succ w ih => simp [toLittleEndian, ih]

/-! ## The key stream -/

def rotateLeft (x n : UInt32) : UInt32 := x <<< n ||| x >>> (32 - n)

def quarterRound (s : List UInt32) (i j k l : ℕ) : List UInt32 :=
  let a := s.getD i 0
  let b := s.getD j 0
  let c := s.getD k 0
  let d := s.getD l 0
  let a := a + b
  let d := rotateLeft (d ^^^ a) 16
  let c := c + d
  let b := rotateLeft (b ^^^ c) 12
  let a := a + b
  let d := rotateLeft (d ^^^ a) 8
  let c := c + d
  let b := rotateLeft (b ^^^ c) 7
  (((s.set i a).set j b).set k c).set l d

def doubleRound (s : List UInt32) : List UInt32 :=
  [(0, 4, 8, 12), (1, 5, 9, 13), (2, 6, 10, 14), (3, 7, 11, 15), (0, 5, 10, 15), (1, 6, 11, 12),
    (2, 7, 8, 13), (3, 4, 9, 14)].foldl (fun s (i, j, k, l) ↦ quarterRound s i j k l) s

/-- The `n` words of `bytes`. -/
def words (n : ℕ) (bytes : List UInt8) : List UInt32 :=
  (List.range n).map fun i ↦ UInt32.ofNat (littleEndian ((bytes.drop (4 * i)).take 4))

def block (key nonce : List UInt8) (counter : ℕ) : List UInt8 :=
  let start := [0x61707865, 0x3320646e, 0x79622d32, 0x6b206574] ++ words 8 key ++
    [UInt32.ofNat counter] ++ words 3 nonce
  let rounds := (List.range 10).foldl (fun s _ ↦ doubleRound s) start
  (List.zipWith (· + ·) rounds start).flatMap fun w ↦ toLittleEndian 4 w.toNat

/-- The bytes of `data` under the key stream, which starts at the block with counter 1. -/
def applyKeystream (key nonce data : List UInt8) : List UInt8 :=
  data.mapIdx fun i b ↦ b ^^^ (block key nonce (1 + i / 64)).getD (i % 64) 0

@[simp] theorem length_applyKeystream (key nonce data : List UInt8) :
    (applyKeystream key nonce data).length = data.length := by
  simp [applyKeystream]

theorem applyKeystream_applyKeystream (key nonce data : List UInt8) :
    applyKeystream key nonce (applyKeystream key nonce data) = data := by
  apply List.ext_getElem
  · simp
  · intro i _ _
    simp only [applyKeystream, List.getElem_mapIdx]
    rw [UInt8.xor_assoc, UInt8.xor_self, UInt8.xor_zero]

/-! ## The tag -/

/-- The fuel bounds the number of blocks. -/
def polyBlocks (r : ℕ) : ℕ → ℕ → List UInt8 → ℕ
  | 0, acc, _ => acc
  | fuel + 1, acc, data =>
      if data.isEmpty then acc
      else
        let n := littleEndian (data.take 16 ++ [1])
        polyBlocks r fuel ((acc + n) * r % (2 ^ 130 - 5)) (data.drop 16)

def poly1305 (key data : List UInt8) : List UInt8 :=
  let r := littleEndian (key.take 16) &&& 0x0ffffffc0ffffffc0ffffffc0fffffff
  let s := littleEndian (key.drop 16)
  toLittleEndian 16 (polyBlocks r data.length 0 data + s)

def tag (key nonce ciphertext : List UInt8) : List UInt8 :=
  let padding := List.replicate ((16 - ciphertext.length % 16) % 16) 0
  let lengths := toLittleEndian 8 0 ++ toLittleEndian 8 ciphertext.length
  poly1305 ((block key nonce 0).take 32) (ciphertext ++ padding ++ lengths)

@[simp] theorem length_tag (key nonce ciphertext : List UInt8) :
    (tag key nonce ciphertext).length = 16 := by
  simp [tag, poly1305]

/-! ## The cipher -/

/-- The block counter has 32 bits. -/
def TooLong (length : ℕ) : Prop := 2 ^ 32 - 1 ≤ length / 64

instance (length : ℕ) : Decidable (TooLong length) := inferInstanceAs (Decidable (_ ≤ _))

theorem not_tooLong_iff {length : ℕ} : ¬TooLong length ↔ length < 64 * (2 ^ 32 - 1) := by
  rw [TooLong, Nat.not_le, Nat.div_lt_iff_lt_mul (by decide), Nat.mul_comm]

def encrypt (key nonce plaintext : List UInt8) : Except String (List UInt8) :=
  if TooLong plaintext.length then .error "aead::Error"
  else
    let ciphertext := applyKeystream key nonce plaintext
    .ok (ciphertext ++ tag key nonce ciphertext)

def decrypt (key nonce input : List UInt8) : Except String (List UInt8) :=
  if input.length < 16 then .error "aead::Error"
  else
    let ciphertext := input.take (input.length - 16)
    if TooLong ciphertext.length ∨ input.drop (input.length - 16) ≠ tag key nonce ciphertext then
      .error "aead::Error"
    else .ok (applyKeystream key nonce ciphertext)

theorem encrypt_of_short (key nonce : List UInt8) {plaintext : List UInt8}
    (h : ¬ TooLong plaintext.length) :
    ∃ output, encrypt key nonce plaintext = .ok output ∧
      output.length = plaintext.length + 16 := by
  refine ⟨_, if_neg h, ?_⟩
  simp

theorem decrypt_encrypt {key nonce plaintext output : List UInt8}
    (h : encrypt key nonce plaintext = .ok output) : decrypt key nonce output = .ok plaintext := by
  by_cases hlong : TooLong plaintext.length
  · simp [encrypt, hlong] at h
  · simp only [encrypt, hlong, if_false, Except.ok.injEq] at h
    obtain ⟨ciphertext, hciphertext⟩ : ∃ c, c = applyKeystream key nonce plaintext := ⟨_, rfl⟩
    have hback : applyKeystream key nonce ciphertext = plaintext := by
      rw [hciphertext, applyKeystream_applyKeystream]
    have hshort : ¬ TooLong ciphertext.length := by simpa [hciphertext] using hlong
    have hcut : (ciphertext ++ tag key nonce ciphertext).length - 16 = ciphertext.length := by
      simp
    have hlength : ¬ (ciphertext ++ tag key nonce ciphertext).length < 16 := by simp
    rw [← h, ← hciphertext]
    simp only [decrypt, hlength, if_false, hcut, List.take_left, List.drop_left, hback]
    simp [hshort]

end Rog.Lib.ChaCha20Poly1305
