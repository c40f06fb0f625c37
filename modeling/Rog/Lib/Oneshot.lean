import Mathlib.Data.List.Basic

/-!
# One-shot channels

A channel for a single value. Its sender is used up by sending or by being dropped; sending
fails when the receiver has been dropped.
-/

namespace Rog.Lib

variable {D : Type*}

inductive Oneshot (D : Type*) where
  /-- Both ends exist and nothing has been sent. -/
  | empty
  | sent (d : D)
  /-- The sender was dropped. -/
  | closed
  /-- The receiver was dropped. -/
  | gone
  deriving DecidableEq

namespace Oneshot

/-- Whether the send succeeds, and the channel after it. -/
def send (d : D) : Oneshot D → Bool × Oneshot D
  | .empty => (true, .sent d)
  | o => (false, o)

def dropSender : Oneshot D → Oneshot D
  | .empty => .closed
  | o => o

/-- The sender may still exist. -/
def Unsent : Oneshot D → Prop
  | .empty | .gone => True
  | .sent _ | .closed => False

theorem Unsent.ne_sent {o : Oneshot D} (h : o.Unsent) (d : D) : o ≠ .sent d := by
  rintro rfl
  exact h

theorem dropSender_eq_sent {o : Oneshot D} {d : D} : o.dropSender = .sent d ↔ o = .sent d := by
  cases o <;> simp [dropSender]

theorem send_of_ne_empty {o : Oneshot D} (h : o ≠ .empty) (d : D) : o.send d = (false, o) := by
  cases o with
  | empty => exact absurd rfl h
  | _ => rfl

end Oneshot

end Rog.Lib
