import Rog.Util.Address
import Rog.Util.Text

/-!
# Sizes

`parse_size` of `util/parse.rs`, as it is compiled for release: the product of a number and its
unit is taken modulo `2 ^ 64`. What a percentage of the memory comes to is a parameter.
-/

namespace Rog

/-- `char::to_lowercase`. Outside ASCII only two characters have an ASCII character in their lower
case; the others become characters outside ASCII again, which is all that matters here. -/
def lowerChar (c : Char) : List Char :=
  if c = Char.ofNat 0x212a then ['k']
  else if c = Char.ofNat 0x130 then ['i', Char.ofNat 0x307]
  else [c.toLower]

/-- `str::to_lowercase`. -/
def toLowercase (s : String) : List Char := s.toList.flatMap lowerChar

def endsWith (s : List Char) (suffix : String) : Bool := suffix.toList.isSuffixOf s

/-- `&s[..s.len() - end]`. -/
def withoutEnd (s : List Char) (n : ℕ) : List Char := s.take (s.length - n)

/-- `str::parse` of a `u64`. -/
def parseU64 (s : List Char) : Option UInt64 := (parseUnsigned UInt64.size s).map UInt64.ofNat

/-- `(num_str, multiplier)`, if the text ends with a unit. -/
def numAndMultiplier (s : List Char) : Option (List Char × UInt64) :=
  if endsWith s "kb" ∨ endsWith s "k" then
    some (withoutEnd s (if endsWith s "kb" then 2 else 1), 1024)
  else if endsWith s "mb" ∨ endsWith s "m" then
    some (withoutEnd s (if endsWith s "mb" then 2 else 1), 1024 * 1024)
  else if endsWith s "gb" ∨ endsWith s "g" then
    some (withoutEnd s (if endsWith s "gb" then 2 else 1), 1024 * 1024 * 1024)
  else if endsWith s "b" then some (withoutEnd s 1, 1)
  else none

/-- `percentage` is what the branch for a text that ends with `%` returns for the rest of it. -/
def parseSize (percentage : List Char → Io UInt64) (s : String) : Io UInt64 :=
  let s := toLowercase (trim s)
  if s = "off".toList ∨ s = [] then .ok 0
  else if endsWith s "%" then percentage (withoutEnd s 1)
  else
    match numAndMultiplier s with
    | none =>
        match parseU64 s with
        | some bytes => .ok bytes
        | none => Io.raise .invalidInput "invalid size format"
    | some (numStr, multiplier) =>
        match parseU64 (trim (String.ofList numStr)).toList with
        | some num => .ok (num * multiplier)
        | none => Io.raise .invalidInput "invalid number format"

/-! ## Numbers with units -/

/-- These digits are the number `n` in decimal. -/
def Decimal (digits : List Char) (n : ℕ) : Prop :=
  digits ≠ [] ∧ (∀ c ∈ digits, c.isDigit) ∧
    digits.foldl (fun n c ↦ n * 10 + (c.toNat - '0'.toNat)) 0 = n

/-- The units in lower case, with what they stand for. -/
def sizeUnits : List (List Char × ℕ) :=
  [([], 1), (['b'], 1), (['k'], 1024), (['k', 'b'], 1024), (['m'], 1024 ^ 2),
    (['m', 'b'], 1024 ^ 2), (['g'], 1024 ^ 3), (['g', 'b'], 1024 ^ 3)]

/-- The text is taken for `n` times a unit exactly if the number and the product fit, and refused
otherwise. -/
def ParsesExactly (percentage : List Char → Io UInt64) (text : List Char) (n multiplier : ℕ) :
    Prop :=
  if n < 2 ^ 64 ∧ n * multiplier < 2 ^ 64 then
    ∃ size, parseSize percentage (String.ofList text) = .ok size ∧ size.toNat = n * multiplier
  else ∃ kind message, parseSize percentage (String.ofList text) = Io.raise kind message

theorem parseU64_decimal {digits : List Char} {n : ℕ} (h : Decimal digits n) :
    parseU64 digits = if n < 2 ^ 64 then some (UInt64.ofNat n) else none := by
  obtain ⟨hne, hdigits, hvalue⟩ := h
  have hhead : digits.head? ≠ some '+' := by
    intro hplus
    cases hdigits _ (List.mem_of_mem_head? hplus)
  have hall : digits.all (·.isDigit) := List.all_eq_true.mpr hdigits
  have hsize : UInt64.size = 2 ^ 64 := rfl
  rw [parseU64, parseUnsigned]
  simp only [hhead, if_false, hne, hall, hvalue, hsize, ne_eq, not_false_eq_true, and_self, if_true]
  split <;> rfl

section Chars

variable {c : Char}

/-- What may stand before a unit: digits, and whitespace behind them. -/
def SizeChar (c : Char) : Prop := c.isDigit ∨ isWhitespace c

theorem not_whitespace_of_isDigit (h : c.isDigit) : ¬isWhitespace c := by
  obtain ⟨hle, hge⟩ := Char.isDigit_iff_toNat.mp h
  have hzero : '0'.toNat = 48 := rfl
  have hnine : '9'.toNat = 57 := rfl
  intro hspace
  simp only [isWhitespace, List.mem_cons, List.not_mem_nil, or_false, decide_eq_true_eq] at hspace
  omega

theorem SizeChar.ne {d : Char} (h : SizeChar c) (hd : ¬SizeChar d) : c ≠ d := by
  rintro rfl
  exact hd h

theorem SizeChar.toNat (h : SizeChar c) : c.toNat < 65 ∨ 90 < c.toNat := by
  rcases h with h | h
  · have hnine : '9'.toNat = 57 := rfl
    have hle := (Char.isDigit_iff_toNat.mp h).2
    omega
  · simp only [isWhitespace, List.mem_cons, List.not_mem_nil, or_false, decide_eq_true_eq] at h
    omega

theorem SizeChar.lowerChar_eq (h : SizeChar c) : lowerChar c = [c] := by
  have hkelvin : c ≠ Char.ofNat 0x212a := h.ne (by unfold SizeChar; decide)
  have hdotted : c ≠ Char.ofNat 0x130 := h.ne (by unfold SizeChar; decide)
  have hrange := h.toNat
  have hupper : ¬(c.val ≥ 'A'.val ∧ c.val ≤ 'Z'.val) := by
    rintro ⟨hA, hZ⟩
    rw [ge_iff_le, UInt32.le_iff_toNat_le] at hA
    rw [UInt32.le_iff_toNat_le] at hZ
    have hbounds : 'A'.val.toNat = 65 ∧ 'Z'.val.toNat = 90 ∧ c.val.toNat = c.toNat :=
      ⟨rfl, rfl, rfl⟩
    omega
  have hlower : c.toLower = c := dif_neg hupper
  rw [lowerChar, if_neg hkelvin, if_neg hdotted, hlower]

theorem lowerChar_of_unit (h : c.toLower ∈ ['b', 'k', 'm', 'g']) : lowerChar c = [c.toLower] := by
  have hkelvin : c ≠ Char.ofNat 0x212a := by
    rintro rfl
    exact absurd h (by decide)
  have hdotted : c ≠ Char.ofNat 0x130 := by
    rintro rfl
    exact absurd h (by decide)
  rw [lowerChar, if_neg hkelvin, if_neg hdotted]

end Chars

section Units

variable {front unit digits : List Char} {multiplier n : ℕ}

theorem flatMap_lowerChar_front (h : ∀ c ∈ front, SizeChar c) :
    front.flatMap lowerChar = front := by
  induction front with
  | nil => rfl
  | cons c front ih =>
      rw [List.flatMap_cons, (h c List.mem_cons_self).lowerChar_eq,
        ih fun d hd ↦ h d (List.mem_cons_of_mem c hd), List.singleton_append]

theorem mem_of_sizeUnits (h : (unit, multiplier) ∈ sizeUnits) :
    ∀ c ∈ unit, c ∈ ['b', 'k', 'm', 'g'] := by
  have hall : ∀ u ∈ sizeUnits, u.1.all fun c ↦ c ∈ ['b', 'k', 'm', 'g'] := by decide
  simpa only [List.all_eq_true, decide_eq_true_eq] using hall _ h

theorem flatMap_lowerChar_unit (h : ∀ c ∈ unit.map Char.toLower, c ∈ ['b', 'k', 'm', 'g']) :
    unit.flatMap lowerChar = unit.map Char.toLower := by
  induction unit with
  | nil => rfl
  | cons c unit ih =>
      rw [List.map_cons, List.forall_mem_cons] at h
      rw [List.flatMap_cons, lowerChar_of_unit h.1, ih h.2, List.map_cons, List.singleton_append]

/-- The unit is found and taken off. -/
theorem numAndMultiplier_eq {last : Char} (hlast : SizeChar last)
    (h : (unit, multiplier) ∈ sizeUnits) :
    numAndMultiplier (front ++ [last] ++ unit) =
      if unit = [] then none else some (front ++ [last], UInt64.ofNat multiplier) := by
  have hb : 'b' ≠ last := Ne.symm (hlast.ne (by unfold SizeChar; decide))
  have hk : 'k' ≠ last := Ne.symm (hlast.ne (by unfold SizeChar; decide))
  have hm : 'm' ≠ last := Ne.symm (hlast.ne (by unfold SizeChar; decide))
  have hg : 'g' ≠ last := Ne.symm (hlast.ne (by unfold SizeChar; decide))
  have htake (u : List Char) : (front ++ last :: u).take (front.length + 1) = front ++ [last] := by
    rw [← List.singleton_append, ← List.append_assoc]
    exact List.take_left' (by simp)
  simp only [sizeUnits, List.mem_cons, Prod.mk.injEq, List.not_mem_nil, or_false] at h
  rcases h with ⟨rfl, rfl⟩ | ⟨rfl, rfl⟩ | ⟨rfl, rfl⟩ | ⟨rfl, rfl⟩ | ⟨rfl, rfl⟩ | ⟨rfl, rfl⟩ |
    ⟨rfl, rfl⟩ | ⟨rfl, rfl⟩
  all_goals
    simp [numAndMultiplier, endsWith, withoutEnd, List.isSuffixOf, hb, hk, hm, hg, htake]

theorem not_whitespace_of_unit {c : Char} (h : c.toLower ∈ ['b', 'k', 'm', 'g']) :
    ¬isWhitespace c := by
  intro hspace
  have hlower : c = c.toLower := by
    rw [← List.singleton_inj, ← lowerChar_of_unit h, SizeChar.lowerChar_eq (Or.inr hspace)]
  rw [← hlower] at h
  simp only [List.mem_cons, List.not_mem_nil, or_false] at h
  rcases h with rfl | rfl | rfl | rfl <;> exact absurd hspace (by decide)

variable {before between after : List Char} {percentage : List Char → Io UInt64}

theorem Decimal.not_whitespace_head (h : Decimal digits n) : ∀ c ∈ digits.head?, ¬isWhitespace c :=
  fun c hc ↦ not_whitespace_of_isDigit (h.2.1 c (List.mem_of_mem_head? hc))

theorem Decimal.not_whitespace_getLast (h : Decimal digits n) :
    ∀ c ∈ digits.getLast?, ¬isWhitespace c :=
  fun c hc ↦ not_whitespace_of_isDigit (h.2.1 c (List.mem_of_getLast? hc))

/-- What is left of a number with its unit once it is trimmed. -/
theorem toList_trim_size (hdigits : Decimal digits n)
    (hunit : (unit.map Char.toLower, multiplier) ∈ sizeUnits)
    (hbefore : ∀ c ∈ before, isWhitespace c) (hafter : ∀ c ∈ after, isWhitespace c)
    (hmerged : unit = [] → between = []) :
    (trim (String.ofList (before ++ (digits ++ between ++ unit) ++ after))).toList =
      digits ++ between ++ unit := by
  apply toList_trim_append hbefore hafter
  · rw [List.append_assoc, List.head?_append_of_ne_nil _ hdigits.1]
    exact hdigits.not_whitespace_head
  · by_cases hu : unit = []
    · rw [hu, hmerged hu, List.append_nil, List.append_nil]
      exact hdigits.not_whitespace_getLast
    · intro c hc
      rw [List.getLast?_append_of_ne_nil _ hu] at hc
      have hmem : c.toLower ∈ unit.map Char.toLower :=
        List.mem_map_of_mem (List.mem_of_getLast? hc)
      exact not_whitespace_of_unit (mem_of_sizeUnits hunit _ hmem)

theorem sizeChar_of_mem (hdigits : Decimal digits n) (hbetween : ∀ c ∈ between, isWhitespace c) :
    ∀ c ∈ digits ++ between, SizeChar c := by
  intro c hc
  rcases List.mem_append.mp hc with hc | hc
  · exact Or.inl (hdigits.2.1 c hc)
  · exact Or.inr (hbetween c hc)

theorem numAndMultiplier_decimal (hdigits : Decimal digits n)
    (hbetween : ∀ c ∈ between, isWhitespace c) (hunit : (unit, multiplier) ∈ sizeUnits) :
    numAndMultiplier (digits ++ between ++ unit) =
      if unit = [] then none else some (digits ++ between, UInt64.ofNat multiplier) := by
  obtain ⟨front, last, hlast⟩ : ∃ front last, digits ++ between = front ++ [last] := by
    have hne : digits ++ between ≠ [] := fun h ↦ hdigits.1 (List.append_eq_nil_iff.mp h).1
    exact ⟨_, _, (List.dropLast_concat_getLast hne).symm⟩
  have hsize : SizeChar last := sizeChar_of_mem hdigits hbetween last (by simp [hlast])
  rw [hlast]
  exact numAndMultiplier_eq hsize hunit

/-- A number with its unit is none of the other notations of a size. -/
theorem not_percentage_or_off (hdigits : Decimal digits n)
    (hbetween : ∀ c ∈ between, isWhitespace c) (hunit : (unit, multiplier) ∈ sizeUnits) :
    ¬(digits ++ between ++ unit = "off".toList ∨ digits ++ between ++ unit = []) ∧
      ¬endsWith (digits ++ between ++ unit) "%" := by
  have hchars : ∀ c ∈ digits ++ between ++ unit, SizeChar c ∨ c ∈ ['b', 'k', 'm', 'g'] := by
    intro c hc
    rcases List.mem_append.mp hc with hc | hc
    · exact Or.inl (sizeChar_of_mem hdigits hbetween c hc)
    · exact Or.inr (mem_of_sizeUnits hunit c hc)
  refine ⟨?_, ?_⟩
  · rintro (hoff | hempty)
    · have hmem : 'o' ∈ digits ++ between ++ unit := by
        rw [hoff]
        decide
      exact absurd (hchars 'o' hmem) (by unfold SizeChar; decide)
    · rw [List.append_assoc] at hempty
      exact hdigits.1 (List.append_eq_nil_iff.mp hempty).1
  · intro hpercent
    have hsuffix : ['%'] <:+ digits ++ between ++ unit := List.isSuffixOf_iff_suffix.mp hpercent
    have hmem : '%' ∈ digits ++ between ++ unit := hsuffix.mem List.mem_cons_self
    exact absurd (hchars '%' hmem) (by unfold SizeChar; decide)

/-- A number with its unit is read as their product modulo `2 ^ 64`. -/
theorem parseSize_of_merged (hdigits : Decimal digits n)
    (hunit : (unit.map Char.toLower, multiplier) ∈ sizeUnits)
    (hbefore : ∀ c ∈ before, isWhitespace c) (hbetween : ∀ c ∈ between, isWhitespace c)
    (hafter : ∀ c ∈ after, isWhitespace c) (hmerged : unit = [] → between = []) :
    parseSize percentage (String.ofList (before ++ (digits ++ between ++ unit) ++ after)) =
      if n < 2 ^ 64 then .ok (UInt64.ofNat n * UInt64.ofNat multiplier)
      else Io.raise .invalidInput
        (if unit = [] then "invalid size format" else "invalid number format") := by
  have hlower : toLowercase
      (trim (String.ofList (before ++ (digits ++ between ++ unit) ++ after))) =
        digits ++ between ++ unit.map Char.toLower := by
    rw [toLowercase, toList_trim_size hdigits hunit hbefore hafter hmerged, List.flatMap_append,
      flatMap_lowerChar_front (sizeChar_of_mem hdigits hbetween),
      flatMap_lowerChar_unit (mem_of_sizeUnits hunit)]
  obtain ⟨hoff, hpercent⟩ := not_percentage_or_off hdigits hbetween hunit
  have hnum := numAndMultiplier_decimal hdigits hbetween hunit
  have htrim : (trim (String.ofList (digits ++ between))).toList = digits := by
    rw [← List.nil_append digits]
    exact toList_trim_append (fun c hc ↦ absurd hc List.not_mem_nil) hbetween
      hdigits.not_whitespace_head hdigits.not_whitespace_getLast
  unfold parseSize
  simp only [hlower, hoff, hpercent, if_false, Bool.false_eq_true, hnum, List.map_eq_nil_iff]
  by_cases hu : unit = []
  · have hone : multiplier = 1 := by
      rw [hu] at hunit
      simpa [sizeUnits] using hunit
    rw [if_pos hu, if_pos hu, hu, hmerged hu, List.map_nil, List.append_nil, List.append_nil,
      parseU64_decimal hdigits, hone]
    by_cases hn : n < 2 ^ 64
    · rw [if_pos hn, if_pos hn]
      exact congrArg Except.ok (UInt64.mul_one _).symm
    · rw [if_neg hn, if_neg hn]
  · rw [if_neg hu, if_neg hu]
    simp only [htrim, parseU64_decimal hdigits]
    by_cases hn : n < 2 ^ 64
    · rw [if_pos hn, if_pos hn]
    · rw [if_neg hn, if_neg hn]

theorem parseSize_decimal (hdigits : Decimal digits n)
    (hunit : (unit.map Char.toLower, multiplier) ∈ sizeUnits)
    (hbefore : ∀ c ∈ before, isWhitespace c) (hbetween : ∀ c ∈ between, isWhitespace c)
    (hafter : ∀ c ∈ after, isWhitespace c) :
    parseSize percentage (String.ofList (before ++ digits ++ between ++ unit ++ after)) =
      if n < 2 ^ 64 then .ok (UInt64.ofNat n * UInt64.ofNat multiplier)
      else Io.raise .invalidInput
        (if unit = [] then "invalid size format" else "invalid number format") := by
  by_cases hu : unit = []
  · -- without a unit the whitespace behind the digits is at the end of the text
    subst hu
    have hafter' : ∀ c ∈ between ++ after, isWhitespace c := by
      intro c hc
      exact (List.mem_append.mp hc).elim (hbetween c) (hafter c)
    have hspace : ∀ c ∈ ([] : List Char), isWhitespace c := fun c hc ↦ absurd hc List.not_mem_nil
    simpa using parseSize_of_merged hdigits hunit hbefore hspace hafter' (fun _ ↦ rfl)
  · simpa using parseSize_of_merged hdigits hunit hbefore hbetween hafter (fun h ↦ absurd h hu)

/-- A number that fits is taken for its size exactly if the product fits as well. -/
theorem parsesExactly_iff (hdigits : Decimal digits n)
    (hunit : (unit.map Char.toLower, multiplier) ∈ sizeUnits)
    (hbefore : ∀ c ∈ before, isWhitespace c) (hbetween : ∀ c ∈ between, isWhitespace c)
    (hafter : ∀ c ∈ after, isWhitespace c) :
    ParsesExactly percentage (before ++ digits ++ between ++ unit ++ after) n multiplier ↔
      2 ^ 64 ≤ n ∨ n * multiplier < 2 ^ 64 := by
  rw [ParsesExactly, parseSize_decimal hdigits hunit hbefore hbetween hafter]
  by_cases hn : n < 2 ^ 64
  · have hproduct : (UInt64.ofNat n * UInt64.ofNat multiplier).toNat =
        n * multiplier % 2 ^ 64 := by
      rw [UInt64.toNat_mul, UInt64.toNat_ofNat', UInt64.toNat_ofNat', ← Nat.mul_mod]
    rw [if_pos hn]
    by_cases hfits : n * multiplier < 2 ^ 64
    · rw [if_pos ⟨hn, hfits⟩]
      exact iff_of_true ⟨_, rfl, by rw [hproduct, Nat.mod_eq_of_lt hfits]⟩ (Or.inr hfits)
    · -- the product is returned modulo `2 ^ 64` where an error is due
      rw [if_neg fun h ↦ hfits h.2]
      refine iff_of_false ?_ (not_or.mpr ⟨hn.not_ge, hfits⟩)
      rintro ⟨kind, message, h⟩
      cases h
  · rw [if_neg hn, if_neg fun h ↦ hn h.1]
    exact iff_of_true ⟨_, _, rfl⟩ (Or.inl (not_lt.mp hn))

theorem parsesExactly_spaced :
    ParsesExactly (fun _ ↦ Io.raise .invalidInput "invalid percentage format")
      ([' '] ++ ['1', '0'] ++ [' '] ++ ['K', 'b'] ++ ['\n']) 10 1024 :=
  (parsesExactly_iff ⟨List.cons_ne_nil _ _, List.all_eq_true.mp rfl, rfl⟩ (by decide)
    (List.all_eq_true.mp rfl) (List.all_eq_true.mp rfl) (List.all_eq_true.mp rfl)).mpr
    (Or.inr (by decide))

/-- A limit of `2 ^ 34` gigabytes is read as none at all. -/
theorem huge_size_is_off :
    parseSize (fun _ ↦ Io.raise .invalidInput "invalid percentage format") "17179869184g" = .ok 0 ∧
      ¬ParsesExactly (fun _ ↦ Io.raise .invalidInput "invalid percentage format")
        "17179869184g".toList (2 ^ 34) (1024 ^ 3) := by
  have hoff : parseSize (fun _ ↦ Io.raise .invalidInput "invalid percentage format")
      "17179869184g" = .ok 0 := by decide
  refine ⟨hoff, ?_⟩
  rw [ParsesExactly, if_neg (by decide), String.ofList_toList, hoff]
  rintro ⟨kind, message, h⟩
  cases h

end Units

end Rog
