import Mathlib.Data.List.Infix

/-!
# First occurrences in a list

`cut` divides a list at the first occurrence of a pattern, and `split` at all that it meets on
its way.
-/

namespace Rog.Lib

variable {α : Type*} [DecidableEq α]

/-- What stands before and after the first occurrence of `pat`. -/
def cut (pat : List α) : List α → Option (List α × List α)
  | [] => if pat = [] then some ([], []) else none
  | a :: xs =>
      if pat <+: a :: xs then some ([], (a :: xs).drop pat.length)
      else (cut pat xs).map fun (before, after) ↦ (a :: before, after)

/-- `split`, with `skip` items of a separator still to pass over. -/
def splitFrom (pat : List α) : ℕ → List α → List (List α)
  | _, [] => [[]]
  | skip + 1, _ :: xs => splitFrom pat skip xs
  | 0, a :: xs =>
      if pat <+: a :: xs then [] :: splitFrom pat (pat.length - 1) xs
      else match splitFrom pat 0 xs with
        | [] => [[a]]
        | piece :: pieces => (a :: piece) :: pieces

def split (pat xs : List α) : List (List α) := splitFrom pat 0 xs

section Cut

variable {pat xs before after : List α}

theorem cut_cons_of_not_isPrefix {a : α} (h : ¬pat <+: a :: xs) :
    cut pat (a :: xs) = (cut pat xs).map fun (before, after) ↦ (a :: before, after) := by
  rw [cut, if_neg h]

theorem cut_of_isPrefix (h : pat <+: xs) : cut pat xs = some ([], xs.drop pat.length) := by
  cases xs with
  | nil => simp [cut, List.prefix_nil.mp h]
  | cons a xs => rw [cut, if_pos h]

theorem eq_append_of_cut (h : cut pat xs = some (before, after)) :
    xs = before ++ (pat ++ after) := by
  induction xs generalizing before with
  | nil =>
      by_cases hpat : pat = []
      · simp only [cut, hpat, if_true, Option.some.injEq, Prod.mk.injEq] at h
        simp [← h.1, ← h.2, hpat]
      · simp [cut, hpat] at h
  | cons a xs ih =>
      by_cases hfront : pat <+: a :: xs
      · rw [cut, if_pos hfront] at h
        obtain ⟨rfl, rfl⟩ := Prod.mk.inj (Option.some.inj h)
        exact (List.prefix_iff_eq_append.mp hfront).symm
      · rw [cut_cons_of_not_isPrefix hfront, Option.map_eq_some_iff] at h
        obtain ⟨⟨l, r⟩, hcut, heq⟩ := h
        obtain ⟨rfl, rfl⟩ := Prod.mk.inj heq
        rw [List.cons_append, ← ih hcut]

omit [DecidableEq α] in
/-- Whether a pattern stands at the front of a list is seen from as many items. -/
theorem prefix_append_congr {us : List α} (hlength : pat.length ≤ us.length) (vs ws : List α) :
    pat <+: us ++ vs ↔ pat <+: us ++ ws := by
  have hfront (zs : List α) : pat <+: us ++ zs ↔ pat <+: us := by
    refine ⟨fun h ↦ ?_, fun h ↦ h.trans (List.prefix_append us zs)⟩
    exact List.prefix_of_prefix_length_le h (List.prefix_append us zs) hlength
  rw [hfront vs, hfront ws]

omit [DecidableEq α] in
/-- A pattern without a separator is at the front of a word if it is at the front of a line. -/
theorem prefix_append_cons_iff {word : List α} {sep : α} (hsep : sep ∉ pat) (more : List α) :
    pat <+: word ++ sep :: more ↔ pat <+: word := by
  refine ⟨fun h ↦ ?_, fun h ↦ h.trans (List.prefix_append word _)⟩
  have hword : word ++ [sep] <+: word ++ sep :: more := ⟨more, List.append_assoc _ _ _⟩
  have hmem : sep ∈ word ++ [sep] := List.mem_append_right word (List.mem_singleton_self sep)
  obtain hshort | hlong := List.prefix_or_prefix_of_prefix h hword
  · obtain rfl | hpat := List.prefix_concat_iff.mp hshort
    · exact absurd hmem hsep
    · exact hpat
  · exact absurd (hlong.subset hmem) hsep

/-- What follows the first occurrence has no part in finding it. -/
theorem cut_replace (h : cut pat xs = some (before, after)) (after' : List α) :
    cut pat (before ++ (pat ++ after')) = some (before, after') := by
  induction xs generalizing before with
  | nil =>
      by_cases hpat : pat = []
      · simp only [cut, hpat, if_true, Option.some.injEq, Prod.mk.injEq] at h
        rw [← h.1, List.nil_append, cut_of_isPrefix (List.prefix_append pat after'),
          List.drop_left]
      · simp [cut, hpat] at h
  | cons a xs ih =>
      by_cases hfront : pat <+: a :: xs
      · rw [cut, if_pos hfront] at h
        obtain ⟨rfl, rfl⟩ := Prod.mk.inj (Option.some.inj h)
        rw [List.nil_append, cut_of_isPrefix (List.prefix_append pat after'), List.drop_left]
      · rw [cut_cons_of_not_isPrefix hfront, Option.map_eq_some_iff] at h
        obtain ⟨⟨l, r⟩, hcut, heq⟩ := h
        obtain ⟨rfl, rfl⟩ := Prod.mk.inj heq
        have hxs := eq_append_of_cut hcut
        have hnot : ¬pat <+: a :: (l ++ (pat ++ after')) := by
          have hlength : pat.length ≤ (a :: (l ++ pat)).length := by
            simp
            omega
          have hcongr := prefix_append_congr hlength r after'
          rw [List.cons_append, List.cons_append, List.append_assoc, List.append_assoc,
            ← hxs] at hcongr
          exact hcongr.not.mp hfront
        rw [List.cons_append, cut_cons_of_not_isPrefix hnot, ih hcut]
        rfl

theorem cut_append (h : cut pat xs = some (before, after)) (ys : List α) :
    cut pat (xs ++ ys) = some (before, after ++ ys) := by
  rw [eq_append_of_cut h, List.append_assoc, List.append_assoc]
  exact cut_replace h (after ++ ys)

/-- Items that cannot begin the pattern are passed over. -/
theorem cut_append_of_ne {p : α} (pat : List α) {xs : List α} (h : ∀ x ∈ xs, x ≠ p)
    (ys : List α) :
    cut (p :: pat) (xs ++ ys) =
      (cut (p :: pat) ys).map fun (before, after) ↦ (xs ++ before, after) := by
  induction xs with
  | nil => simp
  | cons x xs ih =>
      have hnot : ¬(p :: pat) <+: x :: (xs ++ ys) := fun hfront ↦
        h x (by simp) (List.cons_prefix_cons.mp hfront).1.symm
      rw [List.cons_append, cut_cons_of_not_isPrefix hnot,
        ih fun y hy ↦ h y (List.mem_cons_of_mem x hy), Option.map_map]
      rfl

/-- A longer pattern does not occur before a part of it does. -/
theorem cut_of_cut_isPrefix {short : List α} (hshort : short <+: pat)
    (h : cut short xs = some (before, after)) :
    cut pat xs = (cut pat (short ++ after)).map fun (l, r) ↦ (before ++ l, r) := by
  induction xs generalizing before with
  | nil =>
      by_cases hpat : short = []
      · simp only [cut, hpat, if_true, Option.some.injEq, Prod.mk.injEq] at h
        simp [← h.1, ← h.2, hpat]
      · simp [cut, hpat] at h
  | cons a xs ih =>
      by_cases hfront : short <+: a :: xs
      · rw [cut, if_pos hfront] at h
        obtain ⟨rfl, rfl⟩ := Prod.mk.inj (Option.some.inj h)
        rw [← List.prefix_iff_eq_append.mp hfront]
        simp
      · rw [cut_cons_of_not_isPrefix hfront, Option.map_eq_some_iff] at h
        obtain ⟨⟨l, r⟩, hcut, heq⟩ := h
        obtain ⟨rfl, rfl⟩ := Prod.mk.inj heq
        rw [cut_cons_of_not_isPrefix fun hpat ↦ hfront (hshort.trans hpat), ih hcut,
          Option.map_map]
        rfl

theorem cut_eq_none_iff : cut pat xs = none ↔ ¬pat <:+: xs := by
  induction xs with
  | nil =>
      rw [cut, List.infix_nil]
      split <;> simp_all
  | cons a xs ih =>
      rw [List.infix_cons_iff, not_or, ← ih]
      by_cases hfront : pat <+: a :: xs
      · simp [cut, hfront]
      · simp [cut, hfront]

end Cut

section Split

variable {pat xs before after : List α}

theorem splitFrom_eq_split_drop (skip : ℕ) (xs : List α) :
    splitFrom pat skip xs = split pat (xs.drop skip) := by
  induction xs generalizing skip with
  | nil =>
      rw [List.drop_nil]
      cases skip <;> rfl
  | cons a xs ih =>
      cases skip with
      | zero => rfl
      | succ skip => exact ih skip

theorem split_ne_nil (pat xs : List α) : split pat xs ≠ [] := by
  cases xs with
  | nil => simp [split, splitFrom]
  | cons a xs =>
      rw [split, splitFrom]
      split
      · simp
      · split <;> simp

theorem split_eq (hpat : pat ≠ []) (xs : List α) :
    split pat xs = match cut pat xs with
      | none => [xs]
      | some (before, after) => before :: split pat after := by
  induction xs with
  | nil => simp [split, splitFrom, cut, hpat]
  | cons a xs ih =>
      by_cases hfront : pat <+: a :: xs
      · have hdrop : (a :: xs).drop pat.length = xs.drop (pat.length - 1) := by
          obtain ⟨n, hn⟩ := Nat.exists_eq_add_one_of_ne_zero (mt List.length_eq_zero_iff.mp hpat)
          rw [hn, List.drop_succ_cons, Nat.add_sub_cancel]
        rw [split, splitFrom, if_pos hfront, splitFrom_eq_split_drop, cut, if_pos hfront, hdrop]
      · have hcons : split pat (a :: xs) = match split pat xs with
            | [] => [[a]]
            | piece :: pieces => (a :: piece) :: pieces := by
          rw [split, splitFrom, if_neg hfront]
          rfl
        rw [hcons, ih, cut_cons_of_not_isPrefix hfront]
        cases cut pat xs with
        | none => rfl
        | some p => rfl

theorem split_of_cut (hpat : pat ≠ []) (h : cut pat xs = some (before, after)) :
    split pat xs = before :: split pat after := by
  rw [split_eq hpat, h]

end Split

end Rog.Lib
