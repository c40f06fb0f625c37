import Mathlib.Logic.Function.Basic

/-!
# Partial functions that are inverse to each other

Two tables that are kept together: an index and the values that it indexes, a lock table and
the owners that know their locks. The rules are those for one table changing with the other.
-/

namespace Rog.Lib

variable {α β : Type*}

/-- `g` says of each value of `f` where it stands. -/
def Inverse (f : α → Option β) (g : β → Option α) : Prop :=
  ∀ a b, f a = some b ↔ g b = some a

namespace Inverse

variable {f : α → Option β} {g : β → Option α}

theorem empty : Inverse (fun _ : α ↦ (none : Option β)) fun _ ↦ none := by
  intro a b
  simp

theorem injective (h : Inverse f g) {b b' : β} {a : α} (hb : g b = some a) (hb' : g b' = some a) :
    b = b' := by
  have hentry := (h a b).mpr hb
  rw [(h a b').mpr hb'] at hentry
  exact (Option.some.inj hentry).symm

variable [DecidableEq α] [DecidableEq β]

/-- An entry is made for a value that had none, where none was. -/
theorem link (h : Inverse f g) {a : α} {b : β} (ha : f a = none) (hb : g b = none) :
    Inverse (Function.update f a (some b)) (Function.update g b (some a)) := by
  intro a' b'
  by_cases hfst : a' = a
  · subst hfst
    by_cases hsnd : b' = b
    · simp [hsnd]
    · have hfree : g b' ≠ some a' := by simp [← h a' b', ha]
      simp [hsnd, hfree, Ne.symm hsnd]
  · by_cases hsnd : b' = b
    · subst hsnd
      have hfree : f a' ≠ some b' := by simp [h a' b', hb]
      simp [hfst, hfree, Ne.symm hfst]
    · simp [hfst, hsnd, h a' b']

theorem unlink (h : Inverse f g) {a : α} {b : β} (hb : g b = some a) :
    Inverse (Function.update f a none) (Function.update g b none) := by
  intro a' b'
  by_cases hfst : a' = a
  · subst hfst
    by_cases hsnd : b' = b
    · simp [hsnd]
    · have hother : g b' ≠ some a' := fun hb' ↦ hsnd (h.injective hb' hb)
      simp [hsnd, hother]
  · by_cases hsnd : b' = b
    · subst hsnd
      have hother : f a' ≠ some b' := by simp [h a' b', hb, Ne.symm hfst]
      simp [hfst, hother]
    · simp [hfst, hsnd, h a' b']

end Inverse

end Rog.Lib
