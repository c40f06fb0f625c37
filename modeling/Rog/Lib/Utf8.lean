import Rog.Lib.Search

/-!
# Text as bytes

The bytes of characters outside ASCII are no ASCII bytes, so that an ASCII pattern occurs in
the bytes of a text exactly where it occurs in the text.
-/

namespace Rog.Lib

def utf8 (cs : List Char) : List UInt8 := cs.flatMap String.utf8EncodeChar

def Ascii (cs : List Char) : Prop := ∀ c ∈ cs, c.toNat < 128

instance (cs : List Char) : Decidable (Ascii cs) :=
  @List.decidableBAll Char (fun c ↦ c.toNat < 128) inferInstance cs

@[simp] theorem utf8_nil : utf8 [] = [] := rfl

@[simp] theorem utf8_cons (c : Char) (cs : List Char) :
    utf8 (c :: cs) = String.utf8EncodeChar c ++ utf8 cs := List.flatMap_cons

@[simp] theorem utf8_append (cs ds : List Char) : utf8 (cs ++ ds) = utf8 cs ++ utf8 ds :=
  List.flatMap_append

theorem toList_utf8Encode (cs : List Char) : cs.utf8Encode.data.toList = utf8 cs := by
  simp [List.utf8Encode, utf8]

section Char

variable {c : Char}

theorem utf8EncodeChar_ascii (h : c.toNat < 128) :
    String.utf8EncodeChar c = [UInt8.ofNat c.toNat] := by
  have hle : c.val.toNat ≤ 0x7f := by
    change c.toNat ≤ 127
    omega
  rw [String.utf8EncodeChar]
  exact if_pos hle

theorem le_of_mem_utf8EncodeChar (h : 128 ≤ c.toNat) {b : UInt8} (hb : b ∈ String.utf8EncodeChar c) :
    128 ≤ b.toNat := by
  have hlt : ¬c.val.toNat ≤ 0x7f := by
    change ¬c.toNat ≤ 127
    omega
  have hbyte (n : ℕ) (hn : 128 ≤ n % 256) : 128 ≤ (UInt8.ofNat n).toNat := by
    rwa [UInt8.toNat_ofNat']
  rw [String.utf8EncodeChar, if_neg hlt] at hb
  split at hb
  · simp only [List.mem_cons, List.not_mem_nil, or_false] at hb
    rcases hb with rfl | rfl <;> exact hbyte _ (by omega)
  · split at hb
    · simp only [List.mem_cons, List.not_mem_nil, or_false] at hb
      rcases hb with rfl | rfl | rfl <;> exact hbyte _ (by omega)
    · simp only [List.mem_cons, List.not_mem_nil, or_false] at hb
      rcases hb with rfl | rfl | rfl | rfl <;> exact hbyte _ (by omega)

end Char

section Pattern

variable {p : Char} {pat cs : List Char}

theorem utf8_ascii_cons (hp : p.toNat < 128) (pat : List Char) :
    utf8 (p :: pat) = UInt8.ofNat p.toNat :: utf8 pat := by
  rw [utf8_cons, utf8EncodeChar_ascii hp, List.singleton_append]

theorem utf8_of_ascii (h : Ascii cs) : utf8 cs = cs.map fun c ↦ UInt8.ofNat c.toNat := by
  induction cs with
  | nil => rfl
  | cons c cs ih =>
      rw [utf8_ascii_cons (h c (by simp)), ih fun d hd ↦ h d (List.mem_cons_of_mem c hd),
        List.map_cons]

theorem take_utf8_of_ascii (h : Ascii cs) (n : ℕ) : (utf8 cs).take n = utf8 (cs.take n) := by
  rw [utf8_of_ascii h, utf8_of_ascii fun c hc ↦ h c (List.mem_of_mem_take hc), List.map_take]

theorem ofNat_ne_of_mem (hp : p.toNat < 128) {c : Char} (hc : 128 ≤ c.toNat) {b : UInt8}
    (hb : b ∈ String.utf8EncodeChar c) : b ≠ UInt8.ofNat p.toNat := by
  rintro rfl
  have hle := le_of_mem_utf8EncodeChar hc hb
  rw [UInt8.toNat_ofNat'] at hle
  omega

theorem utf8_prefix_iff (hpat : Ascii pat) : utf8 pat <+: utf8 cs ↔ pat <+: cs := by
  induction pat generalizing cs with
  | nil => simp
  | cons p pat ih =>
      have hp : p.toNat < 128 := hpat p (by simp)
      have hpat' : Ascii pat := fun c hc ↦ hpat c (List.mem_cons_of_mem p hc)
      rw [utf8_ascii_cons hp]
      cases cs with
      | nil => simp
      | cons c cs =>
          rw [List.cons_prefix_cons]
          by_cases hc : c.toNat < 128
          · have hchar : UInt8.ofNat p.toNat = UInt8.ofNat c.toNat ↔ p = c := by
              rw [← UInt8.toNat_inj, UInt8.toNat_ofNat', UInt8.toNat_ofNat', ← Char.toNat_inj]
              omega
            rw [utf8_ascii_cons hc, List.cons_prefix_cons, ih hpat', hchar]
          · obtain ⟨b, bs, hbs⟩ := List.exists_cons_of_ne_nil (String.utf8EncodeChar_ne_nil (c := c))
            have hne : b ≠ UInt8.ofNat p.toNat :=
              ofNat_ne_of_mem hp (Nat.le_of_not_lt hc) (by simp [hbs])
            rw [utf8_cons, hbs, List.cons_append, List.cons_prefix_cons]
            refine ⟨fun h ↦ absurd h.1.symm hne, fun h ↦ ?_⟩
            exact absurd (h.1 ▸ hp) hc

theorem cut_utf8 (hpat : Ascii pat) (hne : pat ≠ []) (cs : List Char) :
    cut (utf8 pat) (utf8 cs) = (cut pat cs).map fun (before, after) ↦ (utf8 before, utf8 after) := by
  obtain ⟨p, pat, rfl⟩ := List.exists_cons_of_ne_nil hne
  have hp : p.toNat < 128 := hpat p (by simp)
  induction cs with
  | nil => simp [cut, utf8_ascii_cons hp]
  | cons c cs ih =>
      by_cases hfront : p :: pat <+: c :: cs
      · have hsplit := List.prefix_iff_eq_append.mp hfront
        rw [cut_of_isPrefix hfront, ← hsplit, utf8_append,
          cut_of_isPrefix (List.prefix_append _ _), List.drop_left, hsplit]
        rfl
      · rw [cut_cons_of_not_isPrefix hfront]
        by_cases hc : c.toNat < 128
        · have hnot := (utf8_prefix_iff hpat).not.mpr hfront
          rw [utf8_ascii_cons hc] at hnot ⊢
          rw [cut_cons_of_not_isPrefix hnot, ih, Option.map_map, Option.map_map]
          congr 1
          funext q
          simp [utf8EncodeChar_ascii hc]
        · have hskip : ∀ b ∈ String.utf8EncodeChar c, b ≠ UInt8.ofNat p.toNat :=
            fun b hb ↦ ofNat_ne_of_mem hp (Nat.le_of_not_lt hc) hb
          rw [utf8_cons c cs, utf8_ascii_cons hp, cut_append_of_ne _ hskip, ← utf8_ascii_cons hp, ih,
            Option.map_map, Option.map_map]
          rfl

end Pattern

section Front

theorem eq_of_utf8EncodeChar_append {c d : Char} {xs ys : List UInt8}
    (h : String.utf8EncodeChar c ++ xs = String.utf8EncodeChar d ++ ys) : c = d := by
  have hdecode (c : Char) (xs : List UInt8) :
      (String.utf8EncodeChar c ++ xs).toByteArray.utf8DecodeChar? 0 = some c := by
    rw [List.toByteArray_append, ByteArray.utf8DecodeChar?_utf8EncodeChar_append]
  have hsome := hdecode c xs
  rw [h, hdecode] at hsome
  exact (Option.some.inj hsome).symm

/-- Bytes that begin like a text and are a text are one that begins with it. -/
theorem exists_append_of_utf8 {front cs : List Char} {bytes : List UInt8}
    (h : utf8 cs = utf8 front ++ bytes) : ∃ rest, cs = front ++ rest ∧ utf8 rest = bytes := by
  induction front generalizing cs with
  | nil => exact ⟨cs, rfl, h⟩
  | cons c front ih =>
      cases cs with
      | nil =>
          rw [utf8_cons, utf8_nil, List.append_assoc] at h
          exact absurd (List.append_eq_nil_iff.mp h.symm).1 String.utf8EncodeChar_ne_nil
      | cons d cs =>
          rw [utf8_cons, utf8_cons, List.append_assoc] at h
          obtain rfl := eq_of_utf8EncodeChar_append h
          obtain ⟨rest, rfl, hrest⟩ := ih (List.append_cancel_left h)
          exact ⟨rest, rfl, hrest⟩

theorem utf8_injective {cs ds : List Char} (h : utf8 cs = utf8 ds) : cs = ds := by
  obtain ⟨rest, rfl, hrest⟩ := exists_append_of_utf8 (h.trans (List.append_nil (utf8 ds)).symm)
  cases rest with
  | nil => exact List.append_nil ds
  | cons c rest => exact absurd (List.append_eq_nil_iff.mp hrest).1 String.utf8EncodeChar_ne_nil

end Front

/-! ## Bytes that are no text -/

/-- The number of bytes of a character that begins with this byte, and between which its second
byte is. -/
def utf8Lead (first : UInt8) : Option (ℕ × UInt8 × UInt8) :=
  if 0xC2 ≤ first ∧ first ≤ 0xDF then some (2, 0x80, 0xBF)
  else if first = 0xE0 then some (3, 0xA0, 0xBF)
  else if first = 0xED then some (3, 0x80, 0x9F)
  else if 0xE1 ≤ first ∧ first ≤ 0xEF then some (3, 0x80, 0xBF)
  else if first = 0xF0 then some (4, 0x90, 0xBF)
  else if first = 0xF4 then some (4, 0x80, 0x8F)
  else if 0xF1 ≤ first ∧ first ≤ 0xF3 then some (4, 0x80, 0xBF)
  else none

/-- What is wrong with the `left` bytes that are to follow `read` ones of a character: the number of
bytes up to the wrong one, or that there are not enough. -/
def utf8Tail : ℕ → ℕ → UInt8 → UInt8 → List UInt8 → Option (Option ℕ)
  | 0, _, _, _, _ => none
  | _ + 1, _, _, _, [] => some none
  | left + 1, read, lo, hi, b :: rest =>
      if lo ≤ b ∧ b ≤ hi then utf8Tail left (read + 1) 0x80 0xBF rest else some (some read)

def utf8ErrorAux : ℕ → ℕ → List UInt8 → Option (ℕ × Option ℕ)
  | 0, _, _ | _, _, [] => none
  | fuel + 1, index, b :: rest =>
      if b < 0x80 then utf8ErrorAux fuel (index + 1) rest
      else match utf8Lead b with
        | none => some (index, some 1)
        | some (width, lo, hi) => match utf8Tail (width - 1) 1 lo hi rest with
            | some len => some (index, len)
            | none => utf8ErrorAux fuel (index + width) (rest.drop (width - 1))

/-- The message for bytes that are no text. -/
def utf8Error (bytes : List UInt8) : String :=
  match utf8ErrorAux bytes.length 0 bytes with
  | some (index, some len) => s!"invalid utf-8 sequence of {len} bytes from index {index}"
  | some (index, none) => s!"incomplete utf-8 byte sequence from index {index}"
  | none => ""

theorem utf8Error_head (bytes : List UInt8) : ∀ c ∈ (utf8Error bytes).toList.head?, c = 'i' := by
  have htext (text : String) : toString text = text := rfl
  unfold utf8Error
  split
  · simp [String.toList_append, htext, eq_comm]
  · simp [String.toList_append, htext, eq_comm]
  · simp

example : utf8ErrorAux 4 0 [0x61, 0xE2, 0x82, 0x61] = some (1, some 2) := by decide

end Rog.Lib
