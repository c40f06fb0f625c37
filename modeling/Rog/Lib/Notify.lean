import Mathlib.Data.List.Basic

/-!
# A one-permit notification

The waiting discipline of an asynchronous notifier. `notifyOne` wakes the longest waiting
future or, when nobody waits, stores a single permit. A future registers on its first poll
that finds no permit. A future that is dropped after it was woken, but before it was polled
again, passes its notification on.

A waiter is *pending* when its next poll completes.
-/

namespace Rog.Lib

/-- `waiters` are the registered futures, the oldest first; `woken` are those which were
notified and have not been polled since. -/
structure Notify (W : Type*) where
  permit : Bool
  waiters : List W
  woken : List W
  deriving DecidableEq, Repr

namespace Notify

variable {W : Type*}

def new : Notify W := ⟨false, [], []⟩

def notifyOne (n : Notify W) : Notify W :=
  match n.waiters with
  | [] => { n with permit := true }
  | w :: ws => { n with waiters := ws, woken := w :: n.woken }

def Pending (n : Notify W) (w : W) : Prop :=
  n.permit = true ∨ w ∈ n.woken

/-- With a single possible waiter every notification reaches it, whether or not its future
is registered at that moment. -/
theorem pending_notifyOne [Subsingleton W] (n : Notify W) (w : W) : n.notifyOne.Pending w := by
  cases hw : n.waiters with
  | nil => simp [notifyOne, hw, Pending]
  | cons v ws =>
      obtain rfl : v = w := Subsingleton.elim v w
      simp [notifyOne, hw, Pending]

variable [DecidableEq W]

/-- Poll the future of waiter `w`; the first component tells whether it is ready. -/
def poll (n : Notify W) (w : W) : Bool × Notify W :=
  if w ∈ n.woken then (true, { n with woken := n.woken.erase w })
  else if w ∈ n.waiters then (false, n)
  else if n.permit then (true, { n with permit := false })
  else (false, { n with waiters := n.waiters ++ [w] })

def dropFuture (n : Notify W) (w : W) : Notify W :=
  if w ∈ n.woken then { n with woken := n.woken.erase w }.notifyOne
  else { n with waiters := n.waiters.erase w }

instance (n : Notify W) (w : W) : Decidable (n.Pending w) :=
  inferInstanceAs (Decidable (_ ∨ _))

theorem Pending.poll_of_not_ready {n : Notify W} {w : W} (h : n.Pending w)
    (hready : (n.poll w).1 = false) : (n.poll w).2.Pending w := by
  unfold poll at hready ⊢
  rcases h with h | h
  · by_cases hwoken : w ∈ n.woken
    · simp [hwoken] at hready
    · by_cases hwait : w ∈ n.waiters
      · simp [hwoken, hwait, Pending, h]
      · simp [hwoken, hwait, h] at hready
  · simp [h] at hready

/-! ## Notifiers that are used as intended -/

/-- A permit is stored only while nobody waits. -/
def Sound (n : Notify W) : Prop := n.permit = true → n.waiters = []

omit [DecidableEq W] in
theorem Sound.new : (new : Notify W).Sound := fun _ ↦ rfl

omit [DecidableEq W] in
theorem Sound.notifyOne {n : Notify W} (h : n.Sound) : n.notifyOne.Sound := by
  intro hpermit
  cases hw : n.waiters with
  | nil => simp [Notify.notifyOne, hw]
  | cons w ws =>
      have hnil := h (by simpa [Notify.notifyOne, hw] using hpermit)
      simp [hw] at hnil

theorem Sound.poll {n : Notify W} (h : n.Sound) (w : W) : (n.poll w).2.Sound := by
  unfold Notify.poll
  split
  · exact h
  · split
    · exact h
    · split
      case isTrue => exact fun hpermit ↦ absurd hpermit (by simp)
      case isFalse hpermit => exact fun htrue ↦ absurd htrue hpermit

theorem Sound.dropFuture {n : Notify W} (h : n.Sound) (w : W) : (n.dropFuture w).Sound := by
  unfold Notify.dropFuture
  split
  · exact Sound.notifyOne h
  · intro hpermit
    have hnil := h hpermit
    simp [hnil]

/-- The next poll of a pending waiter completes. -/
theorem Pending.poll_ready {n : Notify W} {w : W} (h : n.Pending w) (hsound : n.Sound) :
    (n.poll w).1 = true := by
  unfold Notify.poll
  rcases h with h | h
  · by_cases hwoken : w ∈ n.woken
    · simp [hwoken]
    · simp [hwoken, hsound h, h]
  · simp [h]

end Notify

end Rog.Lib
