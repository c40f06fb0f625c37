import Mathlib.Data.List.DropRight

/-!
# Texts

Methods of `str`, for texts that are given by their characters.
-/

namespace Rog

/-- `char::is_whitespace`. -/
def isWhitespace (c : Char) : Bool :=
  let n := c.toNat
  9 ≤ n ∧ n ≤ 13 ∨ 0x2000 ≤ n ∧ n ≤ 0x200a ∨
    n ∈ [0x20, 0x85, 0xa0, 0x1680, 0x2028, 0x2029, 0x202f, 0x205f, 0x3000]

/-- `str::trim`. -/
def trim (s : String) : String :=
  String.ofList ((s.toList.dropWhile isWhitespace).rdropWhile isWhitespace)

section Trim

variable {before core after : List Char}

theorem rdropWhile_append_of_pos {p : Char → Bool} (hafter : ∀ c ∈ after, p c) :
    (core ++ after).rdropWhile p = core.rdropWhile p := by
  rw [List.rdropWhile, List.reverse_append,
    List.dropWhile_append_of_pos fun c hc ↦ hafter c (List.mem_reverse.mp hc), List.rdropWhile]

/-- Whitespace at the end of a text makes no difference once it is trimmed. -/
theorem trim_concat {c : Char} (h : isWhitespace c) (cs : List Char) :
    trim (String.ofList (cs ++ [c])) = trim (String.ofList cs) := by
  rw [trim, trim, String.toList_ofList, String.toList_ofList, List.dropWhile_append]
  by_cases hempty : cs.dropWhile isWhitespace = []
  · simp [hempty, h]
  · rw [if_neg (by simpa using hempty), List.rdropWhile_concat_pos _ _ _ h]

/-- Whitespace is taken off around a text that neither begins nor ends with some. -/
theorem toList_trim_append (hbefore : ∀ c ∈ before, isWhitespace c)
    (hafter : ∀ c ∈ after, isWhitespace c) (hfirst : ∀ c ∈ core.head?, ¬isWhitespace c)
    (hlast : ∀ c ∈ core.getLast?, ¬isWhitespace c) :
    (trim (String.ofList (before ++ core ++ after))).toList = core := by
  rw [trim, String.toList_ofList, String.toList_ofList, List.append_assoc,
    List.dropWhile_append_of_pos hbefore]
  cases core with
  | nil =>
      rw [List.nil_append, List.rdropWhile_eq_nil_iff]
      exact fun c hc ↦ hafter c ((List.dropWhile_suffix _).mem hc)
  | cons c core =>
      rw [List.cons_append, List.dropWhile_cons_of_neg (hfirst c rfl), ← List.cons_append,
        rdropWhile_append_of_pos hafter, List.rdropWhile_eq_self_iff]
      exact fun hne ↦ hlast _ (List.getLast_mem_getLast? hne)

end Trim

end Rog
