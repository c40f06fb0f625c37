import Rog.Lib.Machine

/-!
# Forwarding until cancelled

A loop takes an item on one side and gives what it makes of it to the other. Each time before it
waits for an item it looks whether its token is cancelled, and ends if it is; where it ends for
another reason, it cancels the token. Two loops that share a token end together, as long as none of
their calls panics.
-/

namespace Rog.Lib

universe u v w x y

variable {α : Type u} {β : Type v} {ε : Type w} {γ : Type x} {δ : Type y}

inductive LoopPc (β : Type v) where
  /-- About to look at the token. -/
  | selecting
  /-- The token was not cancelled. -/
  | reading
  | writing (item : β)
  /-- Out of the loop, and about to cancel the token. -/
  | left
  | ended
  /-- Over by a panic, without a word to the token. -/
  | crashed

inductive LoopEvent (α : Type u) (ε : Type w) where
  | cancelled
  | uncancelled
  /-- There is nothing to read yet. -/
  | pending
  | read (r : Except ε α)
  | written (r : Except ε Unit)
  /-- The call that reads or writes panics. -/
  | panicked
  /-- The token is cancelled, and the loop is over. -/
  | cancel

/-- Where the event is the return of a call, it returns the one or the other. -/
def LoopEvent.Returns (read : Except ε α) (written : Except ε Unit) : LoopEvent α ε → Prop
  | .read r => r = read
  | .written r => r = written
  | .pending | .panicked => False
  | .cancelled | .uncancelled | .cancel => True

/-- `taken` keeps what has been read and `given` what has been written. -/
structure ForwardLoop (α : Type u) (β : Type v) where
  pc : LoopPc β
  taken : List α
  given : List β

namespace LoopPc

/-- What is being written. -/
def items : LoopPc β → List β
  | .writing item => [item]
  | .selecting | .reading | .left | .ended | .crashed => []

def Over : LoopPc β → Prop
  | .ended | .crashed => True
  | .selecting | .reading | .writing _ | .left => False

instance : (pc : LoopPc β) → Decidable pc.Over
  | .ended | .crashed => .isTrue trivial
  | .selecting | .reading | .writing _ | .left => .isFalse id

/-- The steps that are still possible once the token is cancelled. -/
def rank : LoopPc β → ℕ
  | .reading => 4
  | .writing _ => 3
  | .selecting => 2
  | .left => 1
  | .ended | .crashed => 0

/-- The writes that are still possible once the token is cancelled. -/
def writes : LoopPc β → ℕ
  | .reading | .writing _ => 1
  | .selecting | .left | .ended | .crashed => 0

theorem rank_le (pc : LoopPc β) : pc.rank ≤ 4 := by
  cases pc <;> simp [rank]

theorem writes_le (pc : LoopPc β) : pc.writes ≤ 1 := by
  cases pc <;> simp [writes]

theorem length_items_le (pc : LoopPc β) : pc.items.length ≤ 1 := by
  cases pc <;> simp [items]

end LoopPc

namespace ForwardLoop

def new : ForwardLoop α β := ⟨.selecting, [], []⟩

def goto (l : ForwardLoop α β) (pc : LoopPc β) : ForwardLoop α β := { l with pc := pc }

/-- `f` makes of an item what is written, and drops the item where it is `none`. -/
def take (f : α → Option β) (l : ForwardLoop α β) (a : α) : ForwardLoop α β where
  pc := match f a with
    | some item => .writing item
    | none => .selecting
  taken := l.taken ++ [a]
  given := l.given

def give (l : ForwardLoop α β) (item : β) : ForwardLoop α β where
  pc := .selecting
  taken := l.taken
  given := l.given ++ [item]

def step (f : α → Option β) (token : Bool) (l : ForwardLoop α β) :
    LoopEvent α ε → Option (ForwardLoop α β)
  | .cancelled => match l.pc with
      | .selecting => if token then some (l.goto .left) else none
      | _ => none
  | .uncancelled => match l.pc with
      | .selecting => if token then none else some (l.goto .reading)
      | _ => none
  | .pending => match l.pc with
      | .reading => some (l.goto .selecting)
      | _ => none
  | .read (.ok a) => match l.pc with
      | .reading => some (l.take f a)
      | _ => none
  | .read (.error _) => match l.pc with
      | .reading => some (l.goto .left)
      | _ => none
  | .written (.ok ()) => match l.pc with
      | .writing item => some (l.give item)
      | _ => none
  | .written (.error _) => match l.pc with
      | .writing _ => some (l.goto .left)
      | _ => none
  | .panicked => match l.pc with
      | .reading | .writing _ => some (l.goto .crashed)
      | _ => none
  | .cancel => match l.pc with
      | .left => some (l.goto .ended)
      | _ => none

variable {f : α → Option β} {token : Bool} {l l' : ForwardLoop α β} {e : LoopEvent α ε}

/-- What a step can be. -/
theorem step_cases (h : l.step f token e = some l') :
    (e = .cancelled ∧ l.pc = .selecting ∧ token = true ∧ l' = l.goto .left) ∨
    (e = .uncancelled ∧ l.pc = .selecting ∧ token = false ∧ l' = l.goto .reading) ∨
    (e = .pending ∧ l.pc = .reading ∧ l' = l.goto .selecting) ∨
    (∃ a, e = .read (.ok a) ∧ l.pc = .reading ∧ l' = l.take f a) ∨
    (∃ err, e = .read (.error err) ∧ l.pc = .reading ∧ l' = l.goto .left) ∨
    (∃ item, e = .written (.ok ()) ∧ l.pc = .writing item ∧ l' = l.give item) ∨
    (∃ item err, e = .written (.error err) ∧ l.pc = .writing item ∧ l' = l.goto .left) ∨
    (e = .panicked ∧ (l.pc = .reading ∨ ∃ item, l.pc = .writing item) ∧ l' = l.goto .crashed) ∨
    (e = .cancel ∧ l.pc = .left ∧ l' = l.goto .ended) := by
  obtain ⟨pc, taken, given⟩ := l
  cases e with
  | cancelled =>
      cases pc <;> cases token <;> cases h
      exact .inl ⟨rfl, rfl, rfl, rfl⟩
  | uncancelled =>
      cases pc <;> cases token <;> cases h
      exact .inr (.inl ⟨rfl, rfl, rfl, rfl⟩)
  | pending =>
      cases pc <;> cases h
      exact .inr (.inr (.inl ⟨rfl, rfl, rfl⟩))
  | read r =>
      cases r with
      | ok a =>
          cases pc <;> cases h
          exact .inr (.inr (.inr (.inl ⟨a, rfl, rfl, rfl⟩)))
      | error err =>
          cases pc <;> cases h
          exact .inr (.inr (.inr (.inr (.inl ⟨err, rfl, rfl, rfl⟩))))
  | written r =>
      cases r with
      | ok v =>
          cases pc <;> cases h
          exact .inr (.inr (.inr (.inr (.inr (.inl ⟨_, rfl, rfl, rfl⟩)))))
      | error err =>
          cases pc <;> cases h
          exact .inr (.inr (.inr (.inr (.inr (.inr (.inl ⟨_, err, rfl, rfl, rfl⟩))))))
  | panicked =>
      cases pc <;> cases h
      · exact .inr (.inr (.inr (.inr (.inr (.inr (.inr (.inl ⟨rfl, .inl rfl, rfl⟩)))))))
      · exact .inr (.inr (.inr (.inr (.inr (.inr (.inr (.inl ⟨rfl, .inr ⟨_, rfl⟩, rfl⟩)))))))
  | cancel =>
      cases pc <;> cases h
      exact .inr (.inr (.inr (.inr (.inr (.inr (.inr (.inr ⟨rfl, rfl, rfl⟩)))))))

/-- What has been written, and what is being written, is what is made of the items that were read,
in order. At most one has got lost, and the loop is over then. -/
structure Forwards (f : α → Option β) (l : ForwardLoop α β) : Prop where
  exact : l.pc ≠ .left → ¬l.pc.Over → l.given ++ l.pc.items = l.taken.filterMap f
  lost : ∃ lost, lost.length ≤ 1 ∧ l.given ++ lost = l.taken.filterMap f

namespace Forwards

theorem of_exact (h : l.given ++ l.pc.items = l.taken.filterMap f) : l.Forwards f :=
  ⟨fun _ _ ↦ h, l.pc.items, l.pc.length_items_le, h⟩

theorem new : (new : ForwardLoop α β).Forwards f := of_exact rfl

theorem leave (hs : l.Forwards f) : (l.goto .left).Forwards f :=
  ⟨fun h ↦ absurd rfl h, hs.lost⟩

theorem take (hs : l.Forwards f) (hpc : l.pc = .reading) (a : α) : (l.take f a).Forwards f := by
  have h := hs.exact (by rw [hpc]; rintro ⟨⟩) (by rw [hpc]; exact id)
  rw [hpc, LoopPc.items, List.append_nil] at h
  apply of_exact
  change l.given ++ _ = (l.taken ++ [a]).filterMap f
  rw [List.filterMap_append, ← h]
  cases hf : f a <;> simp [ForwardLoop.take, hf, LoopPc.items]

theorem step (hs : l.Forwards f) (h : l.step f token e = some l') : l'.Forwards f := by
  rcases step_cases h with ⟨-, hpc, -, rfl⟩ | ⟨-, hpc, -, rfl⟩ | ⟨-, hpc, rfl⟩ |
    ⟨a, -, hpc, rfl⟩ | ⟨err, -, hpc, rfl⟩ | ⟨item, -, hpc, rfl⟩ | ⟨item, err, -, hpc, rfl⟩ |
    ⟨-, hpc, rfl⟩ | ⟨-, hpc, rfl⟩
  · exact hs.leave
  · have h := hs.exact (by rw [hpc]; rintro ⟨⟩) (by rw [hpc]; exact id)
    rw [hpc] at h
    exact of_exact h
  · have h := hs.exact (by rw [hpc]; rintro ⟨⟩) (by rw [hpc]; exact id)
    rw [hpc] at h
    exact of_exact h
  · exact hs.take hpc a
  · exact hs.leave
  · have h := hs.exact (by rw [hpc]; rintro ⟨⟩) (by rw [hpc]; exact id)
    rw [hpc] at h
    exact of_exact ((List.append_nil _).trans h)
  · exact hs.leave
  · exact ⟨fun _ h ↦ absurd trivial h, hs.lost⟩
  · exact ⟨fun _ h ↦ absurd trivial h, hs.lost⟩

end Forwards

/-- Once the token is cancelled each step of the loop brings it nearer to its end, and it writes no
more than the one item it is about. -/
theorem step_cancelled (h : l.step f true e = some l') : l'.pc.rank < l.pc.rank ∧
    l'.given.length + l'.pc.writes ≤ l.given.length + l.pc.writes := by
  rcases step_cases h with ⟨-, hpc, -, rfl⟩ | ⟨-, -, h, -⟩ | ⟨-, hpc, rfl⟩ | ⟨a, -, hpc, rfl⟩ |
    ⟨err, -, hpc, rfl⟩ | ⟨item, -, hpc, rfl⟩ | ⟨item, err, -, hpc, rfl⟩ | ⟨-, hpc, rfl⟩ |
    ⟨-, hpc, rfl⟩
  · simp [goto, hpc, LoopPc.rank, LoopPc.writes]
  · cases h
  · simp [goto, hpc, LoopPc.rank, LoopPc.writes]
  · cases hf : f a <;> simp [take, hpc, hf, LoopPc.rank, LoopPc.writes]
  · simp [goto, hpc, LoopPc.rank, LoopPc.writes]
  · simp [give, hpc, LoopPc.rank, LoopPc.writes]
  · simp [goto, hpc, LoopPc.rank, LoopPc.writes]
  · rcases hpc with hpc | ⟨item, hpc⟩ <;> simp [goto, hpc, LoopPc.rank, LoopPc.writes]
  · simp [goto, hpc, LoopPc.rank, LoopPc.writes]

/-- A loop is over by the step that cancels the token, or by a panic. -/
theorem over_iff (h : l.step f token e = some l') :
    l'.pc.Over ↔ e = .cancel ∨ e = .panicked := by
  rcases step_cases h with ⟨rfl, -, -, rfl⟩ | ⟨rfl, -, -, rfl⟩ | ⟨rfl, -, rfl⟩ | ⟨a, rfl, -, rfl⟩ |
    ⟨err, rfl, -, rfl⟩ | ⟨item, rfl, -, rfl⟩ | ⟨item, err, rfl, -, rfl⟩ | ⟨rfl, -, rfl⟩ |
    ⟨rfl, -, rfl⟩
  · simp [goto, LoopPc.Over]
  · simp [goto, LoopPc.Over]
  · simp [goto, LoopPc.Over]
  · cases hf : f a <;> simp [take, hf, LoopPc.Over]
  · simp [goto, LoopPc.Over]
  · simp [give, LoopPc.Over]
  · simp [goto, LoopPc.Over]
  · simp [goto, LoopPc.Over]
  · simp [goto, LoopPc.Over]

theorem step_of_over (hover : l.pc.Over) : l.step f token e = none := by
  cases h : l.step f token e with
  | none => rfl
  | some l' =>
      exfalso
      obtain ⟨pc, taken, given⟩ := l
      rcases step_cases h with ⟨-, hpc, -⟩ | ⟨-, hpc, -⟩ | ⟨-, hpc, -⟩ | ⟨a, -, hpc, -⟩ |
        ⟨err, -, hpc, -⟩ | ⟨item, -, hpc, -⟩ | ⟨item, err, -, hpc, -⟩ | ⟨-, hpc | ⟨item, hpc⟩, -⟩ |
        ⟨-, hpc, -⟩ <;> rw [hpc] at hover <;> exact hover

/-- A loop that is not over can go on, whatever the call that it makes returns. -/
theorem exists_step (hpc : ¬l.pc.Over) (f : α → Option β) (token : Bool) (read : Except ε α)
    (written : Except ε Unit) :
    ∃ e l', l.step f token e = some l' ∧ LoopEvent.Returns read written e := by
  obtain ⟨pc, taken, given⟩ := l
  cases pc with
  | selecting =>
      cases token with
      | true => exact ⟨.cancelled, _, rfl, trivial⟩
      | false => exact ⟨.uncancelled, _, rfl, trivial⟩
  | reading =>
      refine ⟨.read read, ?_⟩
      cases read <;> exact ⟨_, rfl, rfl⟩
  | writing item =>
      refine ⟨.written written, ?_⟩
      cases written <;> exact ⟨_, rfl, rfl⟩
  | left => exact ⟨.cancel, _, rfl, trivial⟩
  | ended | crashed => exact absurd trivial hpc

end ForwardLoop

/-! ## Two loops with one token -/

structure LoopPair (α : Type u) (β : Type v) (γ : Type x) (δ : Type y) where
  first : ForwardLoop α β
  second : ForwardLoop γ δ
  token : Bool

inductive PairEvent (α : Type u) (γ : Type x) (ε : Type w) where
  | first (e : LoopEvent α ε)
  | second (e : LoopEvent γ ε)

def PairEvent.Returns (readFirst : Except ε α) (readSecond : Except ε γ)
    (written : Except ε Unit) : PairEvent α γ ε → Prop
  | .first e => e.Returns readFirst written
  | .second e => e.Returns readSecond written

def LoopEvent.cancels : LoopEvent α ε → Bool
  | .cancel => true
  | .cancelled | .uncancelled | .pending | .read _ | .written _ | .panicked => false

namespace LoopPair

def new : LoopPair α β γ δ := ⟨.new, .new, false⟩

def step (f : α → Option β) (g : γ → Option δ) (s : LoopPair α β γ δ) :
    PairEvent α γ ε → Option (LoopPair α β γ δ)
  | .first e => (s.first.step f s.token e).map fun l ↦
      { s with first := l, token := s.token || e.cancels }
  | .second e => (s.second.step g s.token e).map fun l ↦
      { s with second := l, token := s.token || e.cancels }

def machine (f : α → Option β) (g : γ → Option δ) :
    Machine (LoopPair α β γ δ) (PairEvent α γ ε) where
  init s := s = new
  step := step f g

def Over (s : LoopPair α β γ δ) : Prop := s.first.pc.Over ∧ s.second.pc.Over

def rank (s : LoopPair α β γ δ) : ℕ := s.first.pc.rank + s.second.pc.rank

variable {f : α → Option β} {g : γ → Option δ} {s s' : LoopPair α β γ δ} {e : PairEvent α γ ε}

theorem step_cases (h : s.step f g e = some s') :
    (∃ e' l, e = .first e' ∧ s.first.step f s.token e' = some l ∧
      s' = { s with first := l, token := s.token || e'.cancels }) ∨
    ∃ e' l, e = .second e' ∧ s.second.step g s.token e' = some l ∧
      s' = { s with second := l, token := s.token || e'.cancels } := by
  cases e with
  | first e =>
      obtain ⟨l, hl, rfl⟩ := Option.map_eq_some_iff.mp h
      exact .inl ⟨e, l, rfl, hl, rfl⟩
  | second e =>
      obtain ⟨l, hl, rfl⟩ := Option.map_eq_some_iff.mp h
      exact .inr ⟨e, l, rfl, hl, rfl⟩

structure Forwards (f : α → Option β) (g : γ → Option δ) (s : LoopPair α β γ δ) : Prop where
  first : s.first.Forwards f
  second : s.second.Forwards g

theorem Forwards.new : (new : LoopPair α β γ δ).Forwards f g := ⟨.new, .new⟩

theorem Forwards.step (hs : s.Forwards f g) (h : s.step f g e = some s') : s'.Forwards f g := by
  rcases step_cases h with ⟨e', l, -, hl, rfl⟩ | ⟨e', l, -, hl, rfl⟩
  · exact ⟨hs.first.step hl, hs.second⟩
  · exact ⟨hs.first, hs.second.step hl⟩

/-- Where one loop is over the token is cancelled, so that the other one ends too. -/
def Together (s : LoopPair α β γ δ) : Prop := s.first.pc.Over ∨ s.second.pc.Over → s.token = true

/-- No call panics before the token is cancelled. -/
def Calm (s : LoopPair α β γ δ) (e : PairEvent α γ ε) : Prop :=
  e = .first .panicked ∨ e = .second .panicked → s.token = true

theorem together_iff_of_over {ended other token : Prop} {e : LoopEvent α ε} (htoken : ¬token)
    (hother : ¬other) (hover : ended ↔ e = .cancel ∨ e = .panicked) :
    (ended ∨ other → token ∨ e.cancels = true) ↔ (e = .panicked → token) := by
  rw [hover]
  cases e <;> simp [LoopEvent.cancels, htoken, hother]

theorem Together.step_iff (hs : s.Together) (h : s.step f g e = some s') :
    s'.Together ↔ s.Calm e := by
  by_cases htoken : s.token = true
  · refine iff_of_true (fun _ ↦ ?_) fun _ ↦ htoken
    rcases step_cases h with ⟨e', l, -, -, rfl⟩ | ⟨e', l, -, -, rfl⟩ <;> simp [htoken]
  · have hrunning : ¬s.first.pc.Over ∧ ¬s.second.pc.Over := not_or.mp (mt hs htoken)
    rcases step_cases h with ⟨e', l, rfl, hl, rfl⟩ | ⟨e', l, rfl, hl, rfl⟩
    · simpa [Together, Calm] using
        together_iff_of_over htoken hrunning.2 (ForwardLoop.over_iff hl)
    · simpa [Together, Calm, or_comm] using
        together_iff_of_over htoken hrunning.1 (ForwardLoop.over_iff hl)

theorem over_step (h : s.step f g e = some s') :
    (s.first.pc.Over → s'.first.pc.Over) ∧ (s.second.pc.Over → s'.second.pc.Over) := by
  rcases step_cases h with ⟨e', l, -, hl, rfl⟩ | ⟨e', l, -, hl, rfl⟩
  · refine ⟨fun hover ↦ ?_, id⟩
    cases (ForwardLoop.step_of_over hover).symm.trans hl
  · refine ⟨id, fun hover ↦ ?_⟩
    cases (ForwardLoop.step_of_over hover).symm.trans hl

/-- The token stays cancelled, and each step brings the loops nearer to their end. -/
theorem step_cancelled (htoken : s.token = true) (h : s.step f g e = some s') :
    s'.token = true ∧ s'.rank < s.rank ∧
      s'.first.given.length + s'.first.pc.writes ≤ s.first.given.length + s.first.pc.writes ∧
      s'.second.given.length + s'.second.pc.writes ≤
        s.second.given.length + s.second.pc.writes := by
  rcases step_cases h with ⟨e', l, -, hl, rfl⟩ | ⟨e', l, -, hl, rfl⟩
  · rw [htoken] at hl
    obtain ⟨hrank, hwrites⟩ := ForwardLoop.step_cancelled hl
    refine ⟨by simp [htoken], ?_, hwrites, Nat.le_refl _⟩
    simpa [rank] using hrank
  · rw [htoken] at hl
    obtain ⟨hrank, hwrites⟩ := ForwardLoop.step_cancelled hl
    refine ⟨by simp [htoken], ?_, Nat.le_refl _, hwrites⟩
    simpa [rank] using hrank

theorem rank_le (s : LoopPair α β γ δ) : s.rank ≤ 8 :=
  Nat.add_le_add s.first.pc.rank_le s.second.pc.rank_le

/-- While the loops are not both over one of them can go on, whatever its call returns. -/
theorem exists_step (hover : ¬s.Over) (f : α → Option β) (g : γ → Option δ)
    (readFirst : Except ε α) (readSecond : Except ε γ) (written : Except ε Unit) :
    ∃ e s', s.step f g e = some s' ∧ PairEvent.Returns readFirst readSecond written e := by
  by_cases hfirst : s.first.pc.Over
  · have hsecond : ¬s.second.pc.Over := fun h ↦ hover ⟨hfirst, h⟩
    obtain ⟨e, l, hl, he⟩ := ForwardLoop.exists_step hsecond g s.token readSecond written
    exact ⟨.second e, _, by simp [step, hl]; rfl, he⟩
  · obtain ⟨e, l, hl, he⟩ := ForwardLoop.exists_step hfirst f s.token readFirst written
    exact ⟨.first e, _, by simp [step, hl]; rfl, he⟩

/-- Once the token is cancelled the loops come to their end, whatever their calls return. -/
theorem exists_over (htoken : s.token = true) (f : α → Option β) (g : γ → Option δ)
    (readFirst : Except ε α) (readSecond : Except ε γ) (written : Except ε Unit) :
    ∃ es s', (machine f g).run s es = some s' ∧ s'.Over ∧
      ∀ e ∈ es, PairEvent.Returns readFirst readSecond written e := by
  have hprogress : ∀ s : LoopPair α β γ δ, s.token = true → ¬s.Over →
      ∃ e t, (machine f g).step s e = some t ∧ PairEvent.Returns readFirst readSecond written e ∧
        t.token = true ∧ t.rank < s.rank := by
    intro s htoken hover
    obtain ⟨e, t, ht, he⟩ := exists_step hover f g readFirst readSecond written
    obtain ⟨htoken', hrank, -⟩ := step_cancelled htoken ht
    exact ⟨e, t, ht, he, htoken', hrank⟩
  obtain ⟨es, s', hrun, hes, -, -, hover⟩ := Machine.exists_run_of_rank rank hprogress htoken
  exact ⟨es, s', hrun, hover, hes⟩

end LoopPair

end Rog.Lib
