import Mathlib.Data.List.Basic
import Mathlib.Tactic.Ring

/-!
# The protobuf wire format

A message on the wire is a sequence of fields, each with its number and a value: an integer,
or a byte string. Integers are written in groups of seven bits, lowest group first.
-/

namespace Rog.Lib.Protobuf

/-! ## Integers -/

/-- The fuel bounds the number of groups; `n` groups hold `n`. -/
def varintAux : ℕ → ℕ → List UInt8
  | 0, n => [UInt8.ofNat n]
  | fuel + 1, n =>
      if n < 128 then [UInt8.ofNat n]
      else UInt8.ofNat (n % 128 + 128) :: varintAux fuel (n / 128)

def varint (n : ℕ) : List UInt8 := varintAux n n

/-- `left` groups at most are read; the last of ten holds one bit of a 64-bit number. -/
def readGroups : ℕ → List UInt8 → Option (ℕ × List UInt8)
  | 0, _ | _, [] => none
  | left + 1, b :: rest =>
      if b.toNat < 128 then if left = 0 ∧ 2 ≤ b.toNat then none else some (b.toNat, rest)
      else (readGroups left rest).map fun (n, rest) ↦ (b.toNat - 128 + n * 128, rest)

def readVarint (input : List UInt8) : Option (ℕ × List UInt8) := readGroups 10 input

theorem readGroups_varintAux {fuel left n : ℕ} (h : n ≤ fuel) (hn : n < 2 ^ (7 * left + 1))
    (rest : List UInt8) : readGroups (left + 1) (varintAux fuel n ++ rest) = some (n, rest) := by
  induction fuel generalizing left n with
  | zero =>
      obtain rfl : n = 0 := Nat.le_zero.mp h
      simp [varintAux, readGroups]
  | succ fuel ih =>
      by_cases hsmall : n < 128
      · have hbyte : n % 256 = n := Nat.mod_eq_of_lt (by omega)
        have hlast : ¬(left = 0 ∧ 2 ≤ n) := by
          rintro ⟨rfl, htwo⟩
          omega
        simp [varintAux, hsmall, readGroups, hbyte, hlast]
      · have hbyte : (n % 128 + 128) % 256 = n % 128 + 128 := Nat.mod_eq_of_lt (by omega)
        obtain ⟨left, rfl⟩ : ∃ m, left = m + 1 := Nat.exists_eq_add_one_of_ne_zero (by
          rintro rfl
          omega)
        have hdiv : n / 128 < 2 ^ (7 * left + 1) := by
          have hpow : 2 ^ (7 * (left + 1) + 1) = 2 ^ (7 * left + 1) * 128 := by ring
          omega
        have hfuel : n / 128 ≤ fuel := by omega
        rw [varintAux, if_neg hsmall, List.cons_append, readGroups, ih hfuel hdiv]
        have hbig : ¬n % 128 + 128 < 128 := by omega
        have hvalue : n % 128 + n / 128 * 128 = n := by omega
        simp [hbyte, hvalue]

theorem readVarint_varint {n : ℕ} (hn : n < 2 ^ 64) (rest : List UInt8) :
    readVarint (varint n ++ rest) = some (n, rest) :=
  readGroups_varintAux (Nat.le_refl n) hn rest

theorem varint_ne_nil (n : ℕ) : varint n ≠ [] := by
  cases n with
  | zero => exact List.cons_ne_nil _ _
  | succ n =>
      unfold varint varintAux
      split <;> exact List.cons_ne_nil _ _

theorem length_varintAux_le (fuel n : ℕ) : (varintAux fuel n).length ≤ fuel + 1 := by
  induction fuel generalizing n with
  | zero => simp [varintAux]
  | succ fuel ih =>
      rw [varintAux]
      split
      · simp
      · simpa using ih (n / 128)

/-! ## Fields -/

/-- A value of 32 or 64 bits, or a group, is passed over. -/
inductive Value where
  | int (n : ℕ)
  | bytes (b : List UInt8)
  | skipped
  deriving DecidableEq

/-- No fewer than the bytes that the value takes. -/
def Value.size : Value → ℕ
  | .int n => n
  | .bytes b => b.length
  | .skipped => 4

structure Field where
  number : ℕ
  value : Value
  deriving DecidableEq

/-- The number of a field, and its wire type. -/
def readKey (input : List UInt8) : Option (ℕ × ℕ × List UInt8) := do
  let (key, rest) ← readVarint input
  if key < 2 ^ 32 ∧ 1 ≤ key / 8 then some (key / 8, key % 8, rest) else none

/-- A value that is no group. -/
def readFlat (wireType : ℕ) (input : List UInt8) : Option (Value × List UInt8) :=
  match wireType with
  | 0 => (readVarint input).map fun (n, rest) ↦ (.int n, rest)
  | 1 => if 8 ≤ input.length then some (.skipped, input.drop 8) else none
  | 2 => do
      let (n, rest) ← readVarint input
      if n ≤ rest.length then some (.bytes (rest.take n), rest.drop n) else none
  | 5 => if 4 ≤ input.length then some (.skipped, input.drop 4) else none
  | _ => none

/-- The fields of a group, up to the key that ends it; they nest `depth` deep at most. -/
def skipGroup : ℕ → ℕ → ℕ → List UInt8 → Option (List UInt8)
  | 0, _, _, _ => none
  | fuel + 1, depth, number, input => do
      let (inner, wireType, rest) ← readKey input
      if wireType = 4 then if inner = number then some rest else none
      else if depth = 0 then none
      else
        let rest ←
          if wireType = 3 then skipGroup fuel (depth - 1) inner rest
          else (readFlat wireType rest).map Prod.snd
        skipGroup fuel depth number rest

namespace Field

/-- A value that is passed over is written as one of 32 bits. -/
def encode (f : Field) : List UInt8 :=
  match f.value with
  | .int n => varint (f.number * 8) ++ varint n
  | .bytes b => varint (f.number * 8 + 2) ++ (varint b.length ++ b)
  | .skipped => varint (f.number * 8 + 5) ++ List.replicate 4 0

def decode (input : List UInt8) : Option (Field × List UInt8) := do
  let (number, wireType, rest) ← readKey input
  if wireType = 3 then
    (skipGroup rest.length 99 number rest).map fun rest ↦ (⟨number, .skipped⟩, rest)
  else (readFlat wireType rest).map fun (value, rest) ↦ (⟨number, value⟩, rest)

/-- What a field on the wire can hold. -/
structure Wf (f : Field) : Prop where
  number : 1 ≤ f.number ∧ f.number < 2 ^ 29
  int : ∀ n, f.value = .int n → n < 2 ^ 64

theorem readKey_varint {number wireType : ℕ} (hnumber : 1 ≤ number ∧ number < 2 ^ 29)
    (htype : wireType < 8) (rest : List UInt8) :
    readKey (varint (number * 8 + wireType) ++ rest) = some (number, wireType, rest) := by
  have hread := readVarint_varint (n := number * 8 + wireType) (by omega) rest
  have hkey : number * 8 + wireType < 2 ^ 32 ∧ 1 ≤ (number * 8 + wireType) / 8 := by omega
  have hdiv : (number * 8 + wireType) / 8 = number := by omega
  have hmod : (number * 8 + wireType) % 8 = wireType := by omega
  simp only [readKey, hread, Option.bind_eq_bind, Option.bind_some]
  rw [if_pos hkey, hdiv, hmod]

theorem decode_encode {f : Field} (hf : f.Wf) (hlength : f.encode.length < 2 ^ 64)
    (rest : List UInt8) : decode (f.encode ++ rest) = some (f, rest) := by
  obtain ⟨number, value⟩ := f
  have hnumber := hf.number
  cases value with
  | int n =>
      have hkey := readKey_varint hnumber (by omega : 0 < 8) (varint n ++ rest)
      have hread := readVarint_varint (hf.int n rfl) rest
      simp only [Nat.add_zero] at hkey
      simp [encode, decode, hkey, readFlat, hread]
  | bytes b =>
      have hshort : b.length < 2 ^ 64 := by
        simp only [encode, List.length_append] at hlength
        omega
      have hkey := readKey_varint hnumber (by omega : 2 < 8) (varint b.length ++ (b ++ rest))
      have hread := readVarint_varint hshort (b ++ rest)
      simp [encode, decode, hkey, readFlat, hread]
  | skipped =>
      have hkey := readKey_varint hnumber (by omega : 5 < 8) (0 :: 0 :: 0 :: 0 :: rest)
      simp [encode, decode, hkey, readFlat]

theorem encode_ne_nil (f : Field) : f.encode ≠ [] := by
  obtain ⟨number, value⟩ := f
  cases value <;> simp [encode, varint_ne_nil]

theorem length_encode_le (f : Field) :
    f.encode.length ≤ f.number * 8 + 4 + 2 * f.value.size := by
  obtain ⟨number, value⟩ := f
  cases value with
  | int n =>
      have htag := length_varintAux_le (number * 8) (number * 8)
      have hvalue := length_varintAux_le n n
      simp only [encode, varint, Value.size, List.length_append]
      omega
  | bytes b =>
      have htag := length_varintAux_le (number * 8 + 2) (number * 8 + 2)
      have hlen := length_varintAux_le b.length b.length
      simp only [encode, varint, Value.size, List.length_append]
      omega
  | skipped =>
      have htag := length_varintAux_le (number * 8 + 5) (number * 8 + 5)
      simp only [encode, varint, Value.size, List.length_append, List.length_replicate]
      omega

theorem length_le_length_encode (number : ℕ) (b : List UInt8) :
    b.length ≤ (encode ⟨number, .bytes b⟩).length := by
  simp only [encode, List.length_append]
  omega

end Field

/-! ## Messages -/

def encodeFields (fields : List Field) : List UInt8 := fields.flatMap Field.encode

theorem length_encodeFields_le (fields : List Field) :
    (encodeFields fields).length ≤ (fields.map fun f ↦ f.number * 8 + 4 + 2 * f.value.size).sum := by
  induction fields with
  | nil => simp [encodeFields]
  | cons f fields ih =>
      have hf := f.length_encode_le
      rw [encodeFields, List.flatMap_cons, List.length_append, List.map_cons, List.sum_cons]
      exact Nat.add_le_add hf ih

def decodeFieldsAux : ℕ → List UInt8 → Option (List Field)
  | _, [] => some []
  | 0, _ => none
  | fuel + 1, input => do
      let (f, rest) ← Field.decode input
      let fields ← decodeFieldsAux fuel rest
      return f :: fields

/-- A field takes at least one byte. -/
def decodeFields (input : List UInt8) : Option (List Field) := decodeFieldsAux input.length input

theorem length_le_encodeFields (fields : List Field) :
    fields.length ≤ (encodeFields fields).length := by
  induction fields with
  | nil => exact Nat.le_refl 0
  | cons f fields ih =>
      have hf : 0 < f.encode.length := List.length_pos_iff.mpr f.encode_ne_nil
      simp only [encodeFields, List.flatMap_cons, List.length_append, List.length_cons] at ih ⊢
      omega

theorem decodeFieldsAux_encodeFields {fuel : ℕ} {fields : List Field} (h : fields.length ≤ fuel)
    (hfields : ∀ f ∈ fields, f.Wf) (hlength : (encodeFields fields).length < 2 ^ 64) :
    decodeFieldsAux fuel (encodeFields fields) = some fields := by
  induction fields generalizing fuel with
  | nil => cases fuel <;> rfl
  | cons f fields ih =>
      obtain ⟨fuel, rfl⟩ : ∃ m, fuel = m + 1 := Nat.exists_eq_add_one_of_ne_zero (by
        rintro rfl
        simp at h)
      have hcons : encodeFields (f :: fields) = f.encode ++ encodeFields fields := by
        simp [encodeFields]
      rw [hcons, List.length_append] at hlength
      have hne : f.encode ++ encodeFields fields ≠ [] :=
        List.append_ne_nil_of_left_ne_nil f.encode_ne_nil _
      obtain ⟨b, bs, hb⟩ := List.exists_cons_of_ne_nil hne
      have hdecode : Field.decode (b :: bs) = some (f, encodeFields fields) := by
        rw [← hb]
        exact Field.decode_encode (hfields f (by simp)) (by omega) _
      have hrest : decodeFieldsAux fuel (encodeFields fields) = some fields :=
        ih (by simpa using h) (fun g hg ↦ hfields g (List.mem_cons_of_mem f hg)) (by omega)
      rw [hcons, hb]
      simp [decodeFieldsAux, hdecode, hrest]

theorem decodeFields_encodeFields {fields : List Field} (hfields : ∀ f ∈ fields, f.Wf)
    (hlength : (encodeFields fields).length < 2 ^ 64) :
    decodeFields (encodeFields fields) = some fields :=
  decodeFieldsAux_encodeFields (length_le_encodeFields fields) hfields hlength

end Rog.Lib.Protobuf
