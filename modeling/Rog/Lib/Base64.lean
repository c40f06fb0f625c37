import Rog.Lib.Utf8

/-!
# Base64

The standard alphabet with padding: three bytes are four digits of six bits, and one or two
bytes at the end are padded to four characters.
-/

namespace Rog.Lib.Base64

def alphabet : List Char :=
  "ABCDEFGHIJKLMNOPQRSTUVWXYZabcdefghijklmnopqrstuvwxyz0123456789+/".toList

def digit (n : ℕ) : Char := alphabet.getD (n % 64) '='

def value (c : Char) : Option ℕ :=
  let n := alphabet.idxOf c
  if n < 64 then some n else none

def encode : List UInt8 → List Char
  | [] => []
  | [a] =>
      let n := a.toNat * 65536
      [digit (n / 262144), digit (n / 4096), '=', '=']
  | [a, b] =>
      let n := a.toNat * 65536 + b.toNat * 256
      [digit (n / 262144), digit (n / 4096), digit (n / 64), '=']
  | a :: b :: c :: rest =>
      let n := a.toNat * 65536 + b.toNat * 256 + c.toNat
      digit (n / 262144) :: digit (n / 4096) :: digit (n / 64) :: digit n :: encode rest

def group (p q r s : ℕ) : List UInt8 :=
  let n := p * 262144 + q * 4096 + r * 64 + s
  [UInt8.ofNat (n / 65536), UInt8.ofNat (n / 256), UInt8.ofNat n]

def decode : List Char → Option (List UInt8)
  | [] => some []
  | p :: q :: r :: s :: rest => do
      let p ← value p
      let q ← value q
      if r = '=' ∧ s = '=' ∧ rest = [] then some ((group p q 0 0).take 1)
      else
        let r ← value r
        if s = '=' ∧ rest = [] then some ((group p q r 0).take 2)
        else
          let s ← value s
          let bytes ← decode rest
          some (group p q r s ++ bytes)
  | _ => none

theorem value_digit (n : ℕ) : value (digit n) = some (n % 64) := by
  have hall : ∀ m < 64, value (alphabet.getD m '=') = some m := by decide +kernel
  exact hall (n % 64) (Nat.mod_lt n (by decide))

theorem digit_ne_pad (n : ℕ) : digit n ≠ '=' := by
  intro h
  have hvalue := value_digit n
  have hpad : value '=' = none := by decide
  rw [h, hpad] at hvalue
  cases hvalue

theorem digit_lt (n : ℕ) : (digit n).toNat < 128 := by
  have hall : ∀ m < 64, (alphabet.getD m '=').toNat < 128 := by decide +kernel
  exact hall (n % 64) (Nat.mod_lt n (by decide))

theorem ascii_encode (bytes : List UInt8) : Ascii (encode bytes) := by
  induction bytes using encode.induct with
  | case1 => simp [encode, Ascii]
  | case2 a => simp [encode, Ascii, digit_lt]
  | case3 a b => simp [encode, Ascii, digit_lt]
  | case4 a b c rest ih =>
      simp only [Ascii, encode, List.forall_mem_cons, digit_lt, true_and]
      exact ih

theorem length_encode (bytes : List UInt8) :
    (encode bytes).length = (bytes.length + 2) / 3 * 4 := by
  induction bytes using encode.induct with
  | case1 => rfl
  | case2 a => simp [encode]
  | case3 a b => simp [encode]
  | case4 a b c rest ih =>
      simp only [encode, List.length_cons, ih]
      omega

theorem group_digits (a b c : UInt8) :
    let n := a.toNat * 65536 + b.toNat * 256 + c.toNat
    group (n / 262144 % 64) (n / 4096 % 64) (n / 64 % 64) (n % 64) = [a, b, c] := by
  have ha := a.toNat_lt
  have hb := b.toNat_lt
  have hc := c.toNat_lt
  intro n
  have hn : n / 262144 % 64 * 262144 + n / 4096 % 64 * 4096 + n / 64 % 64 * 64 + n % 64 = n := by
    omega
  have hbyte (m : ℕ) (x : UInt8) (h : m % 256 = x.toNat) : UInt8.ofNat m = x :=
    UInt8.toNat_inj.mp (by rw [UInt8.toNat_ofNat', h])
  rw [group, hn, hbyte (n / 65536) a (by omega), hbyte (n / 256) b (by omega),
    hbyte n c (by omega)]

theorem decode_encode (bytes : List UInt8) : decode (encode bytes) = some bytes := by
  induction bytes using encode.induct with
  | case1 => rfl
  | case2 a =>
      have hgroup := group_digits a 0 0
      have hr : (a.toNat * 65536) / 64 % 64 = 0 := by omega
      have hs : (a.toNat * 65536) % 64 = 0 := by omega
      simp only [UInt8.toNat_zero, Nat.zero_mul, Nat.add_zero, hr, hs] at hgroup
      simp [encode, decode, value_digit, hgroup]
  | case3 a b =>
      have hgroup := group_digits a b 0
      have hs : (a.toNat * 65536 + b.toNat * 256) % 64 = 0 := by omega
      simp only [UInt8.toNat_zero, Nat.add_zero, hs] at hgroup
      simp [encode, decode, value_digit, digit_ne_pad, hgroup]
  | case4 a b c rest ih =>
      have hgroup := group_digits a b c
      simp only at hgroup
      simp [encode, decode, value_digit, digit_ne_pad, ih, hgroup]

end Rog.Lib.Base64
