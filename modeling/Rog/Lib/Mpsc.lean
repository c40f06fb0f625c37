import Mathlib.Data.List.Nodup

/-!
# Bounded channels

A channel with several senders, one receiver and room for so many values. A sender first asks for
a place. Places are given out in the order in which they are asked for: where there is none left,
the sender waits in line, and each value that is received gives a place to the first one that has
none. A sender with a place puts its value in when it is scheduled.
-/

namespace Rog.Lib

universe u v

variable {capacity : ℕ} {σ : Type u} {α : Type v}

/-- `line` has the senders that have asked and have not put their value in, those with a place
before those that wait for one. -/
structure Mpsc (capacity : ℕ) (σ : Type u) (α : Type v) where
  queue : List α
  line : List σ
  txOpen : Bool
  rxOpen : Bool
  length_le : queue.length ≤ capacity

namespace Mpsc

def new : Mpsc capacity σ α := ⟨[], [], true, true, Nat.zero_le capacity⟩

def request (c : Mpsc capacity σ α) (i : σ) : Mpsc capacity σ α := { c with line := c.line ++ [i] }

/-- `recv`, which waits on an empty channel as long as there is a sender. -/
def recv (c : Mpsc capacity σ α) : Option (Mpsc capacity σ α × Option α) :=
  match c.queue.head? with
  | some a => some ({ c with
      queue := c.queue.tail
      length_le := Nat.le_trans (c.queue.tail_sublist.length_le) c.length_le }, some a)
  | none => if c.txOpen then none else some (c, none)

variable {c c' : Mpsc capacity σ α} {a : α}

theorem recv_of_cons {rest : List α} (hqueue : c.queue = a :: rest) :
    ∃ c', c.recv = some (c', some a) ∧ c'.queue = rest ∧ c'.line = c.line := by
  simp only [recv, hqueue, List.head?_cons]
  exact ⟨_, rfl, rfl, rfl⟩

theorem recv_eq_some (h : c.recv = some (c', some a)) :
    c.queue = a :: c'.queue ∧ c'.line = c.line ∧ c'.txOpen = c.txOpen ∧ c'.rxOpen = c.rxOpen := by
  unfold recv at h
  split at h
  · rename_i b hhead
    obtain ⟨rfl, hb⟩ := Prod.mk.inj (Option.some.inj h)
    obtain rfl := Option.some.inj hb
    exact ⟨(List.cons_head?_tail hhead).symm, rfl, rfl, rfl⟩
  · split at h
    · cases h
    · cases (Prod.mk.inj (Option.some.inj h)).2

theorem recv_eq_none (h : c.recv = some (c', none)) : c' = c ∧ c.txOpen = false := by
  unfold recv at h
  split at h
  · cases (Prod.mk.inj (Option.some.inj h)).2
  · split at h
    · cases h
    · rename_i hclosed
      exact ⟨(Prod.mk.inj (Option.some.inj h)).1.symm, by simpa using hclosed⟩

/-- As long as there is a sender, only a value ends the waiting. -/
theorem recv_spec {item : Option α} (h : c.recv = some (c', item)) (hopen : c.txOpen) :
    item.isSome ∧ c'.txOpen ∧ c'.rxOpen = c.rxOpen ∧ c'.queue.length < c.queue.length := by
  cases item with
  | none =>
      rw [(recv_eq_none h).2] at hopen
      cases hopen
  | some a =>
      obtain ⟨hqueue, -, htx, hrx⟩ := recv_eq_some h
      exact ⟨rfl, htx.trans hopen, hrx, by simp [hqueue]⟩

variable [DecidableEq σ] {i : σ}

/-- The senders that have asked before `i`. -/
def ahead (c : Mpsc capacity σ α) (i : σ) : List σ := c.line.takeWhile (· ≠ i)

/-- `i` has a place. -/
def Placed (c : Mpsc capacity σ α) (i : σ) : Prop :=
  (c.ahead i).length + c.queue.length < capacity

instance (c : Mpsc capacity σ α) (i : σ) : Decidable (c.Placed i) :=
  inferInstanceAs (Decidable (_ < _))

theorem Placed.length_append_le (h : c.Placed i) (a : α) : (c.queue ++ [a]).length ≤ capacity := by
  unfold Placed at h
  rw [List.length_append, List.length_singleton]
  omega

/-- The end of the `send` of `i`, which has a place or no receiver any more. -/
def send (c : Mpsc capacity σ α) (i : σ) (a : α) : Option (Mpsc capacity σ α × Bool) :=
  if c.rxOpen then
    if h : c.Placed i then some ({ c with
      queue := c.queue ++ [a]
      line := c.line.erase i
      length_le := h.length_append_le a }, true)
    else none
  else some ({ c with line := c.line.erase i }, false)

theorem send_of_placed (h : c.Placed i) (a : α) : (c.send i a).isSome := by
  unfold send
  split
  · rfl
  · rfl

theorem send_spec {ok : Bool} (h : c.send i a = some (c', ok)) :
    c'.line = c.line.erase i ∧ c'.txOpen = c.txOpen := by
  unfold send at h
  split at h
  · split at h
    · obtain ⟨rfl, -⟩ := Prod.mk.inj (Option.some.inj h)
      exact ⟨rfl, rfl⟩
    · cases h
  · obtain ⟨rfl, -⟩ := Prod.mk.inj (Option.some.inj h)
    exact ⟨rfl, rfl⟩

theorem send_eq_some {ok : Bool} (h : c.send i a = some (c', ok)) (hopen : c.rxOpen = true) :
    c'.queue = c.queue ++ [a] ∧ c'.txOpen = c.txOpen ∧ c'.rxOpen = true := by
  unfold send at h
  rw [if_pos hopen] at h
  split at h
  · obtain ⟨rfl, -⟩ := Prod.mk.inj (Option.some.inj h)
    exact ⟨rfl, rfl, hopen⟩
  · cases h

/-! ## Who is ahead -/

theorem ahead_of_head {rest : List σ} (hline : c.line = i :: rest) : c.ahead i = [] := by
  simp [ahead, hline]

/-- A single sender has a place where there is room. -/
theorem placed_of_subsingleton [Subsingleton σ] : c.Placed i ↔ c.queue.length < capacity := by
  have hahead : c.ahead i = [] := by
    cases hline : c.line with
    | nil => simp [ahead, hline]
    | cons j rest =>
        rw [Subsingleton.elim j i] at hline
        exact ahead_of_head hline
  rw [Placed, hahead, List.length_nil, Nat.zero_add]

/-- The one that has asked first is ahead, until it is served. -/
theorem ahead_eq_cons {j : σ} {rest : List σ} (hline : c.line = j :: rest) (hne : j ≠ i) :
    c.ahead i = j :: rest.takeWhile (· ≠ i) := by
  simp [ahead, hline, hne]

theorem ahead_request (hi : i ∉ c.line) : (c.request i).ahead i = c.line := by
  have hall : ∀ j ∈ c.line, decide (j ≠ i) = true := by
    rintro j hj
    exact decide_eq_true fun h ↦ hi (h ▸ hj)
  rw [ahead, request, List.takeWhile_append_of_pos hall]
  simp

end Mpsc

end Rog.Lib
