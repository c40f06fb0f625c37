import Mathlib.Algebra.BigOperators.Group.Finset.Piecewise

/-!
# Sums over a family in which one member changes

The bookkeeping of a pool of components: a total over all members, after one member has
been replaced.
-/

namespace Rog.Lib

open Finset

variable {ι β : Type*} [DecidableEq ι]

theorem sum_replace_of_notMem (s : Finset ι) {i : ι} (hi : i ∉ s) (f : ι → β) (x : β)
    (g : β → ℕ) : ∑ j ∈ s, g (Function.update f i x j) = ∑ j ∈ s, g (f j) := by
  apply Finset.sum_congr rfl
  intro j hj
  rw [Function.update_of_ne (ne_of_mem_of_not_mem hj hi)]

/-- Replacing member `i` by `x` trades its old contribution for that of `x`. -/
theorem sum_replace (s : Finset ι) {i : ι} (hi : i ∈ s) (f : ι → β) (x : β) (g : β → ℕ) :
    ∑ j ∈ s, g (Function.update f i x j) + g (f i) = ∑ j ∈ s, g (f j) + g x := by
  obtain ⟨t, hit, rfl⟩ : ∃ t, i ∉ t ∧ insert i t = s :=
    ⟨s.erase i, Finset.notMem_erase i s, Finset.insert_erase hi⟩
  rw [Finset.sum_insert hit, Finset.sum_insert hit, sum_replace_of_notMem t hit,
    Function.update_self]
  omega

end Rog.Lib
