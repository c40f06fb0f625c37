import Rog.Pool.Accounting
import Mathlib.Algebra.BigOperators.Ring.Finset

/-!
# How far the pool exceeds its limit

`can_take` and `take` are separate steps and an empty queue ignores the limit, so that the
number of queued chunks can exceed the limit. The excess of a block counts its queued chunks
and the push its provider is committed to, beyond the first one. A check of `can_take` can
only succeed while the total is below the limit; every other step leaves the excess as it
is or decreases it, the push into an empty queue included.
-/

namespace Rog

open Lib

/-! ## The excess of a cell -/

/-- One while the provider has passed a check of `inner_provide` and has not pushed yet. -/
def Provide.armed : Provide → ℕ
  | .take _ | .count _ | .push _ => 1
  | _ => 0

theorem Provide.armed_le_one (p : Provide) : p.armed ≤ 1 := by
  cases p <;> simp [Provide.armed]

namespace Cell

def excess (c : Cell) : ℕ :=
  if c.life = .live then c.block.data.length + c.provider.armed - 1 else 0

@[simp] theorem excess_new : excess .new = 0 := rfl

theorem excess_of_live {c : Cell} (h : c.life = .live) :
    c.excess = c.block.data.length + c.provider.armed - 1 := by
  simp [excess, h]

theorem excess_le_queued (c : Cell) : c.excess ≤ c.queued := by
  have := c.provider.armed_le_one
  unfold excess queued
  split <;> omega

theorem queued_le_excess (c : Cell) : c.queued ≤ c.excess + if c.life = .live then 1 else 0 := by
  unfold excess queued
  split <;> omega

end Cell

section Step

variable {ι : Type*} [DecidableEq ι] {m m' : BlockManager ι} {b b' : DataBlock}

theorem ProvideMove.excess {i : ι} {e : ProvideEvent} {p p' : Provide}
    (h : ProvideMove i m b e p m' b' p') :
    (b'.data.length + p'.armed - 1 ≤ b.data.length + p.armed - 1) ∨
      (m.canTake = true ∧ b' = b) := by
  cases h with
  | canTake data hlimit => exact .inr ⟨hlimit, rfl⟩
  | empty _ data hp hempty =>
      left
      simp [hempty, Provide.armed]
  | nonempty _ data hp _ =>
      left
      rcases hp with rfl | rfl <;> exact Nat.le_refl _
  | push data =>
      left
      simp [DataBlock.pushBack, Provide.armed]
  | _ => exact .inl (Nat.le_refl _)

omit [DecidableEq ι] in
theorem ConsumeMove.length_le {e : ConsumeEvent} {q q' : Consume}
    (h : ConsumeMove m b e q m' b' q') :
    b'.data.length ≤ b.data.length := by
  cases h with
  | pop data rest hdata => simp [hdata]
  | _ => exact Nat.le_refl _

omit [DecidableEq ι] in
theorem ConsumeMove.blockLimit {e : ConsumeEvent} {q q' : Consume}
    (h : ConsumeMove m b e q m' b' q') :
    m'.blockLimit = m.blockLimit := by
  cases h <;> rfl

theorem ProvideMove.blockLimit {i : ι} {e : ProvideEvent} {p p' : Provide}
    (h : ProvideMove i m b e p m' b' p') :
    m'.blockLimit = m.blockLimit := by
  cases h <;> rfl

theorem CellMove.blockLimit {i : ι} {c c' : Cell} {a : CellAction} (h : CellMove i m c a m' c') :
    m'.blockLimit = m.blockLimit := by
  cases h with
  | provider e m' b p _ hmove => exact hmove.blockLimit
  | consumer e m' b q _ hmove => exact hmove.blockLimit
  | _ => rfl

/-- A step of a cell does not increase its excess, or is a check of `can_take` that
succeeds and leaves the queue as it is. -/
theorem CellMove.excess {i : ι} {c c' : Cell} {a : CellAction} (h : CellMove i m c a m' c') :
    c'.excess ≤ c.excess ∨ (m.canTake = true ∧ c'.queued = c.queued) := by
  cases h with
  | provide data hlive hidle =>
      left
      simp [Cell.excess_of_live, hlive, hidle, Provide.armed]
  | provider e m' b p hlive hmove =>
      rw [Cell.excess_of_live hlive,
        Cell.excess_of_live (c := { c with block := b, provider := p }) hlive]
      rcases hmove.excess with hle | ⟨hcan, rfl⟩
      · exact .inl hle
      · exact .inr ⟨hcan, rfl⟩
  | consume hlive _ => exact .inl (Nat.le_refl _)
  | consumer e m' b q hlive hmove =>
      left
      rw [Cell.excess_of_live hlive,
        Cell.excess_of_live (c := { c with block := b, consumer := q }) hlive]
      exact Nat.sub_le_sub_right (Nat.add_le_add_right hmove.length_le _) 1
  | taken data hlive _ => exact .inl (Nat.le_refl _)
  | drop => exact .inl (by simp [Cell.excess])
  | release => exact .inl (by simp [Cell.excess])
  | notify => exact .inl (by simp [Cell.excess])
  | dropped => exact .inl (by simp [Cell.excess])

end Step

/-! ## The pool -/

namespace Pool

variable {ι : Type*} [DecidableEq ι]

def excess (s : Pool ι) : ℕ := ∑ i ∈ s.ids, (s.cell i).excess

def live (s : Pool ι) : Finset ι := s.ids.filter fun i ↦ (s.cell i).life = .live

omit [DecidableEq ι] in
theorem queued_le_charge (s : Pool ι) : s.queued ≤ s.charge := by
  rw [charge_eq]
  omega

omit [DecidableEq ι] in
theorem queued_le_excess (s : Pool ι) : s.queued ≤ s.excess + s.live.card := by
  rw [live, Finset.card_filter, excess, ← Finset.sum_add_distrib]
  exact Finset.sum_le_sum fun i _ ↦ (s.cell i).queued_le_excess

theorem queued_update {s : Pool ι} {i : ι} (hi : i ∈ s.ids) (m : BlockManager ι) {c : Cell}
    (h : c.queued = (s.cell i).queued) : (s.update i m c).queued = s.queued := by
  have hsum : (s.update i m c).queued + (s.cell i).queued = s.queued + c.queued :=
    sum_update hi m c Cell.queued
  omega

/-- The limit of the pool is fixed, and the excess stays below it. -/
def Limited (blockLimit : UInt64) (s : Pool ι) : Prop :=
  s.manager.blockLimit = blockLimit ∧ s.excess ≤ blockLimit.toNat - 1

theorem Limited.step {blockLimit : UInt64} {s t : Pool ι} {a : PoolAction ι}
    (hacc : s.Accounted) (hs : s.Limited blockLimit) (h : s.step a = some t) :
    t.Limited blockLimit := by
  obtain ⟨hlimit, hexcess⟩ := hs
  obtain ⟨i, hi, rfl⟩ | ⟨i, b, m, c, hi, -, hmove, rfl⟩ := step_cases h
  · refine ⟨hlimit, ?_⟩
    simpa [excess, sum_insert_new hi] using hexcess
  · refine ⟨hmove.blockLimit.trans hlimit, ?_⟩
    have hsum : (s.update i m c).excess + (s.cell i).excess = s.excess + c.excess :=
      sum_update hi m c Cell.excess
    rcases hmove.excess with hle | ⟨hcan, hqueued⟩
    · omega
    · -- The check saw fewer chunks than the limit, and these bound every excess.
      have hbound : (s.update i m c).excess ≤ (s.update i m c).queued :=
        Finset.sum_le_sum fun j _ ↦ ((s.update i m c).cell j).excess_le_queued
      rw [queued_update hi m hqueued] at hbound
      have hlt : s.charge < blockLimit.toNat := by
        rw [← hacc.exact, ← hlimit, ← UInt64.lt_iff_toNat_lt]
        simpa [BlockManager.canTake] using hcan
      have := s.queued_le_charge
      omega

theorem Limited.of_reachable {blockLimit : UInt64} {s : Pool ι}
    (hs : (machine ι blockLimit).Reachable s) : s.Limited blockLimit := by
  refine hs.invariant_of (J := Accounted) (fun _ ↦ .of_reachable) ?_ ?_
  · rintro s rfl
    exact ⟨rfl, Nat.zero_le _⟩
  · intro s a t hacc hI h
    exact hI.step hacc h

end Pool

/-! ## The configured limit -/

/-- `u64::div_ceil`. -/
def divCeil (a b : UInt64) : UInt64 := if 0 < a % b then a / b + 1 else a / b

/-- The limit of the block manager that `main` creates for a configured buffer size; without
a buffer there is none. -/
def blockNumber (bufferSize : UInt64) : Option UInt64 :=
  if 0 < bufferSize then some (divCeil bufferSize tcpIoBufferSize) else none

theorem divCeil_toNat (a : UInt64) :
    (divCeil a tcpIoBufferSize).toNat = (a.toNat + 2047) / 2048 := by
  have hsize := a.toNat_lt
  have hmod : (a % tcpIoBufferSize).toNat = a.toNat % 2048 := UInt64.toNat_mod a _
  have hdiv : (a / tcpIoBufferSize).toNat = a.toNat / 2048 := UInt64.toNat_div a _
  unfold divCeil
  split
  case isTrue h =>
    rw [UInt64.lt_iff_toNat_lt, hmod] at h
    simp only [UInt64.toNat_zero] at h
    rw [UInt64.toNat_add, hdiv]
    simp only [UInt64.toNat_one]
    omega
  case isFalse h =>
    rw [UInt64.lt_iff_toNat_lt, hmod] at h
    simp only [UInt64.toNat_zero] at h
    rw [hdiv]
    omega

theorem blockNumber_lt {bufferSize blockLimit : UInt64}
    (h : blockNumber bufferSize = some blockLimit) :
    1 ≤ blockLimit.toNat ∧ (blockLimit.toNat - 1) * 2048 < bufferSize.toNat := by
  unfold blockNumber at h
  split at h
  case isTrue hpos =>
    obtain rfl := Option.some.inj h
    rw [UInt64.lt_iff_toNat_lt] at hpos
    simp only [UInt64.toNat_zero] at hpos
    rw [divCeil_toNat]
    omega
  case isFalse => simp at h

namespace Pool

variable {ι : Type*} [DecidableEq ι]

def queuedBytes (s : Pool ι) : ℕ :=
  ∑ i ∈ s.live, ((s.cell i).block.data.map List.length).sum

omit [DecidableEq ι] in
theorem queued_eq_sum_live (s : Pool ι) :
    s.queued = ∑ i ∈ s.live, (s.cell i).block.data.length := by
  rw [live, Finset.sum_filter]
  rfl

omit [DecidableEq ι] in
theorem queuedBytes_le {s : Pool ι}
    (hchunk : ∀ i ∈ s.live, ∀ data ∈ (s.cell i).block.data, data.length ≤ 2048) :
    s.queuedBytes ≤ s.queued * 2048 := by
  rw [queued_eq_sum_live, Finset.sum_mul]
  apply Finset.sum_le_sum
  intro i hi
  have h := List.sum_le_card_nsmul ((s.cell i).block.data.map List.length) 2048
    (by simpa using hchunk i hi)
  simpa using h

/-- In every reachable pool the number of queued chunks exceeds the limit by less than the
number of live blocks; with the limit that `main` computes and chunks of at most
`TCP_IO_BUFFER_SIZE` bytes, the queued bytes exceed the configured size by less than one
chunk for each live block. -/
theorem queued_le_limit {blockLimit : UInt64} {s : Pool ι}
    (hs : (machine ι blockLimit).Reachable s) :
    s.queued ≤ blockLimit.toNat - 1 + s.live.card ∧
      ∀ bufferSize, blockNumber bufferSize = some blockLimit →
        (∀ i ∈ s.live, ∀ data ∈ (s.cell i).block.data,
          data.length ≤ tcpIoBufferSize.toNat) →
        s.queuedBytes < bufferSize.toNat + s.live.card * tcpIoBufferSize.toNat := by
  have hqueued : s.queued ≤ blockLimit.toNat - 1 + s.live.card := by
    have hexcess := (Limited.of_reachable hs).2
    have := s.queued_le_excess
    omega
  refine ⟨hqueued, ?_⟩
  intro bufferSize hnumber hchunk
  obtain ⟨-, hlt⟩ := blockNumber_lt hnumber
  calc
    s.queuedBytes ≤ s.queued * 2048 := queuedBytes_le hchunk
    _ ≤ (blockLimit.toNat - 1 + s.live.card) * 2048 := Nat.mul_le_mul_right 2048 hqueued
    _ = (blockLimit.toNat - 1) * 2048 + s.live.card * 2048 := Nat.add_mul _ _ _
    _ < bufferSize.toNat + s.live.card * 2048 := Nat.add_lt_add_right hlt _

/-- On a pool of one chunk two blocks, each empty when its provider looks, hold two. -/
def overRun : List (PoolAction ℕ) :=
  [.new 0, .new 1, .act 0 (.provide [1]), .act 1 (.provide [2])] ++
    List.replicate 5 (.act 0 (.provider .run)) ++ List.replicate 5 (.act 1 (.provider .run))

theorem queued_le_limit_overRun : ∃ s, (machine ℕ 1).run (new 1) overRun = some s ∧
    s.queued ≤ (1 : UInt64).toNat - 1 + s.live.card ∧
      ∀ bufferSize, blockNumber bufferSize = some 1 →
        (∀ i ∈ s.live, ∀ data ∈ (s.cell i).block.data,
          data.length ≤ tcpIoBufferSize.toNat) →
        s.queuedBytes < bufferSize.toNat + s.live.card * tcpIoBufferSize.toNat := by
  have hsome : ((machine ℕ 1).run (new 1) overRun).isSome = true := by decide
  obtain ⟨s, hs⟩ := Option.isSome_iff_exists.mp hsome
  exact ⟨s, hs, queued_le_limit ⟨new 1, overRun, rfl, hs⟩⟩

end Pool

end Rog
