import Mathlib.Data.List.Basic
import Mathlib.Tactic.Linarith

/-!
# Byte streams that arrive in segments

A stream is read in the pieces in which it arrives, which its sender does not choose. A
reader that asks for an exact number of items sees only their concatenation.
-/

namespace Rog.Lib

variable {α : Type*}

/-- Read calls are repeated until `n` items have come; each returns at most one segment. -/
def takeExact : ℕ → List (List α) → Option (List α × List (List α))
  | 0, segs => some ([], segs)
  | _ + 1, [] => none
  | n + 1, seg :: segs =>
      if n + 1 < seg.length then some (seg.take (n + 1), seg.drop (n + 1) :: segs)
      else (takeExact (n + 1 - seg.length) segs).map fun (xs, rest) ↦ (seg ++ xs, rest)

theorem takeExact_of_le {n : ℕ} {segs : List (List α)} (h : n ≤ segs.flatten.length) :
    ∃ rest, takeExact n segs = some (segs.flatten.take n, rest) ∧
      rest.flatten = segs.flatten.drop n := by
  induction segs generalizing n with
  | nil =>
      obtain rfl : n = 0 := by simpa using h
      exact ⟨[], rfl, rfl⟩
  | cons seg segs ih =>
      cases n with
      | zero => exact ⟨seg :: segs, rfl, rfl⟩
      | succ n =>
          by_cases hn : n + 1 < seg.length
          · refine ⟨seg.drop (n + 1) :: segs, ?_, ?_⟩
            · simp [takeExact, hn, List.take_append_of_le_length hn.le]
            · simp [List.drop_append_of_le_length hn.le]
          · have hseg : seg.length ≤ n + 1 := Nat.le_of_not_lt hn
            have hrest : n + 1 - seg.length ≤ segs.flatten.length := by
              rw [List.flatten_cons, List.length_append] at h
              omega
            obtain ⟨rest, htake, hflatten⟩ := ih hrest
            refine ⟨rest, ?_, ?_⟩
            · simp [takeExact, hn, htake, List.take_append, List.take_of_length_le hseg]
            · simp [hflatten, List.drop_append, List.drop_eq_nil_of_le hseg]

theorem takeExact_of_lt {n : ℕ} {segs : List (List α)} (h : segs.flatten.length < n) :
    takeExact n segs = none := by
  induction segs generalizing n with
  | nil =>
      obtain ⟨m, rfl⟩ := Nat.exists_eq_add_one_of_ne_zero (Nat.ne_zero_of_lt h)
      rfl
  | cons seg segs ih =>
      obtain ⟨m, rfl⟩ := Nat.exists_eq_add_one_of_ne_zero (Nat.ne_zero_of_lt h)
      rw [List.flatten_cons, List.length_append] at h
      have hseg : ¬ m + 1 < seg.length := by omega
      have hrest : segs.flatten.length < m + 1 - seg.length := by omega
      simp [takeExact, hseg, ih hrest]

/-- However the stream is cut, an exact read of a prefix returns it. -/
theorem takeExact_append {segs : List (List α)} {xs ys : List α} (h : segs.flatten = xs ++ ys) :
    ∃ rest, takeExact xs.length segs = some (xs, rest) ∧ rest.flatten = ys := by
  have hle : xs.length ≤ segs.flatten.length := by simp [h]
  obtain ⟨rest, htake, hrest⟩ := takeExact_of_le hle
  exact ⟨rest, by simpa [h] using htake, by simpa [h] using hrest⟩

/-- One read call, into a buffer of `n` items. An empty segment is no segment. -/
def takeSome (n : ℕ) : List (List α) → List α × List (List α)
  | [] => ([], [])
  | seg :: segs =>
      if seg.isEmpty then takeSome n segs
      else (seg.take n, if n < seg.length then seg.drop n :: segs else segs)

theorem takeSome_append (n : ℕ) (segs : List (List α)) :
    (takeSome n segs).1 ++ (takeSome n segs).2.flatten = segs.flatten := by
  induction segs with
  | nil => rfl
  | cons seg segs ih =>
      cases seg with
      | nil => exact ih
      | cons a seg =>
          by_cases hn : n < (a :: seg).length
          · simp only [takeSome, List.isEmpty_cons, Bool.false_eq_true, if_false, if_pos hn,
              List.flatten_cons]
            rw [← List.append_assoc, List.take_append_drop]
          · simp only [takeSome, List.isEmpty_cons, Bool.false_eq_true, if_false, if_neg hn,
              List.flatten_cons]
            rw [List.take_of_length_le (Nat.le_of_not_lt hn)]

theorem length_takeSome (n : ℕ) (segs : List (List α)) : (takeSome n segs).1.length ≤ n := by
  induction segs with
  | nil => exact Nat.zero_le n
  | cons seg segs ih =>
      cases seg with
      | nil => exact ih
      | cons a seg => exact List.length_take_le n (a :: seg)

/-- Only the end of the stream is read as nothing. -/
theorem takeSome_eq_nil_iff {n : ℕ} (hn : 0 < n) (segs : List (List α)) :
    (takeSome n segs).1 = [] ↔ segs.flatten = [] := by
  induction segs with
  | nil => simp [takeSome]
  | cons seg segs ih =>
      cases seg with
      | nil => exact ih
      | cons a seg => simp [takeSome, hn.ne']

theorem takeSome_cons {n : ℕ} {seg : List α} (hne : seg ≠ []) (hn : seg.length ≤ n)
    (segs : List (List α)) : takeSome n (seg :: segs) = (seg, segs) := by
  have hempty : seg.isEmpty = false := by simpa using hne
  simp [takeSome, hempty, List.take_of_length_le hn, Nat.not_lt.mpr hn]

end Rog.Lib
