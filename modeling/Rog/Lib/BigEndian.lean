import Mathlib.Data.List.Basic
import Mathlib.Tactic.Ring

/-!
# Big-endian numbers
-/

namespace Rog.Lib

/-- The lowest `w` bytes of `n`, most significant byte first. -/
def bigEndian : ℕ → ℕ → List UInt8
  | 0, _ => []
  | w + 1, n => UInt8.ofNat (n / 256 ^ w) :: bigEndian w n

def ofBigEndian (bytes : List UInt8) : ℕ :=
  bytes.foldl (fun n b ↦ n * 256 + b.toNat) 0

@[simp] theorem length_bigEndian (w n : ℕ) : (bigEndian w n).length = w := by
  induction w with
  | zero => rfl
  | succ w ih => simp [bigEndian, ih]

theorem foldl_bigEndian (w n m : ℕ) :
    (bigEndian w n).foldl (fun n b ↦ n * 256 + b.toNat) m = m * 256 ^ w + n % 256 ^ w := by
  induction w generalizing m with
  | zero => simp [bigEndian, Nat.mod_one]
  | succ w ih =>
      have hmod : n % 256 ^ (w + 1) = n / 256 ^ w % 256 * 256 ^ w + n % 256 ^ w := by
        rw [pow_succ, Nat.mod_mul]
        ring
      rw [bigEndian, List.foldl_cons, ih, hmod, UInt8.toNat_ofNat']
      ring

theorem ofBigEndian_bigEndian (w n : ℕ) : ofBigEndian (bigEndian w n) = n % 256 ^ w := by
  simpa [ofBigEndian] using foldl_bigEndian w n 0

end Rog.Lib
