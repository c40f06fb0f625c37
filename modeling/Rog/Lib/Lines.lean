import Rog.Lib.Utf8

/-!
# Lines

A list is divided behind its separators or at them. Either way the induction is on its lines: the
list is free of separators, or it is a line with its separator and the lines behind it.
-/

namespace Rog.Lib

variable {α : Type*} [DecidableEq α]

/-- The pieces end with a separator, except what follows the last one, which is no piece if it is
empty. -/
def splitInclusive (sep : α) : List α → List (List α)
  | [] => []
  | a :: xs =>
      if a = sep then [a] :: splitInclusive sep xs
      else match splitInclusive sep xs with
        | [] => [[a]]
        | piece :: pieces => (a :: piece) :: pieces

omit [DecidableEq α] in
@[elab_as_elim]
theorem lines_induction (sep : α) {motive : List α → Prop}
    (last : ∀ line, sep ∉ line → motive line)
    (line : ∀ line rest, sep ∉ line → motive rest → motive (line ++ sep :: rest)) (xs : List α) :
    motive xs := by
  induction hlength : xs.length using Nat.strong_induction_on generalizing xs with
  | _ n ih =>
      by_cases hsep : sep ∈ xs
      · obtain ⟨front, rest, rfl, hfront⟩ := List.eq_append_cons_of_mem hsep
        refine line front rest hfront (ih rest.length ?_ rest rfl)
        rw [List.length_append, List.length_cons] at hlength
        omega
      · exact last xs hsep

section

variable {sep : α} {line : List α}

theorem split_of_notMem (h : sep ∉ line) : split [sep] line = [line] := by
  have hcut : cut [sep] line = none := by
    rw [cut_eq_none_iff, List.singleton_infix_iff]
    exact h
  rw [split_eq (List.cons_ne_nil _ _), hcut]

theorem split_line (h : sep ∉ line) (rest : List α) :
    split [sep] (line ++ sep :: rest) = line :: split [sep] rest := by
  have hcut : cut [sep] (line ++ sep :: rest) = some (line, rest) := by
    have hne : ∀ x ∈ line, x ≠ sep := by
      rintro x hx rfl
      exact h hx
    have hfront : cut [sep] (sep :: rest) = some ([], rest) := cut_of_isPrefix ⟨rest, rfl⟩
    rw [cut_append_of_ne [] hne, hfront]
    simp
  exact split_of_cut (List.cons_ne_nil _ _) hcut

theorem splitInclusive_of_notMem (h : sep ∉ line) (hne : line ≠ []) :
    splitInclusive sep line = [line] := by
  induction line with
  | nil => exact absurd rfl hne
  | cons a line ih =>
      rw [List.mem_cons, not_or] at h
      rw [splitInclusive, if_neg (Ne.symm h.1)]
      cases line with
      | nil => rfl
      | cons b line => rw [ih h.2 (List.cons_ne_nil b line)]

theorem splitInclusive_line (h : sep ∉ line) (rest : List α) :
    splitInclusive sep (line ++ sep :: rest) = (line ++ [sep]) :: splitInclusive sep rest := by
  induction line with
  | nil => rw [List.nil_append, splitInclusive, if_pos rfl, List.nil_append]
  | cons a line ih =>
      rw [List.mem_cons, not_or] at h
      rw [List.cons_append, splitInclusive, if_neg (Ne.symm h.1), ih h.2, List.cons_append]

/-- What does not see the separator behind a piece, nor an empty piece, does not see how the list is
divided. -/
theorem exists_splitInclusive_iff {p : List α → Prop} (hnil : ¬p [])
    (hsep : ∀ piece, p (piece ++ [sep]) ↔ p piece) (xs : List α) :
    (∃ piece ∈ splitInclusive sep xs, p piece) ↔ ∃ piece ∈ split [sep] xs, p piece := by
  induction xs using lines_induction sep with
  | last line h =>
      rw [split_of_notMem h]
      by_cases hne : line = []
      · subst hne
        simp [splitInclusive, hnil]
      · rw [splitInclusive_of_notMem h hne]
  | line line rest h ih =>
      rw [split_line h, splitInclusive_line h, List.exists_mem_cons_iff, List.exists_mem_cons_iff,
        hsep, ih]

end

theorem notMem_utf8 {sep : Char} (hsep : sep.toNat < 128) {cs : List Char} (h : sep ∉ cs) :
    UInt8.ofNat sep.toNat ∉ utf8 cs := by
  intro hmem
  obtain ⟨c, hc, hbyte⟩ := List.mem_flatMap.mp hmem
  by_cases hascii : c.toNat < 128
  · rw [utf8EncodeChar_ascii hascii, List.mem_singleton, ← UInt8.toNat_inj, UInt8.toNat_ofNat',
      UInt8.toNat_ofNat', Nat.mod_eq_of_lt (by omega), Nat.mod_eq_of_lt (by omega)] at hbyte
    exact h (Char.toNat_inj.mp hbyte ▸ hc)
  · exact ofNat_ne_of_mem hsep (Nat.le_of_not_lt hascii) hbyte rfl

theorem utf8_ne_nil {cs : List Char} (h : cs ≠ []) : utf8 cs ≠ [] := by
  obtain ⟨c, cs, rfl⟩ := List.exists_cons_of_ne_nil h
  rw [utf8_cons]
  exact List.append_ne_nil_of_left_ne_nil String.utf8EncodeChar_ne_nil (utf8 cs)

/-- The bytes of a text are divided where the text is. -/
theorem splitInclusive_utf8 {sep : Char} (hsep : sep.toNat < 128) (cs : List Char) :
    splitInclusive (UInt8.ofNat sep.toNat) (utf8 cs) = (splitInclusive sep cs).map utf8 := by
  induction cs using lines_induction sep with
  | last line h =>
      by_cases hne : line = []
      · subst hne
        rfl
      · rw [splitInclusive_of_notMem (notMem_utf8 hsep h) (utf8_ne_nil hne),
          splitInclusive_of_notMem h hne, List.map_singleton]
  | line line rest h ih =>
      rw [utf8_append, utf8_ascii_cons hsep, splitInclusive_line (notMem_utf8 hsep h),
        splitInclusive_line h, ih]
      simp [utf8EncodeChar_ascii hsep]

end Rog.Lib
