import Rog.Pool.System
import Mathlib.Algebra.Order.BigOperators.Group.Finset

/-!
# Pool accounting

`taken_blocks` is compared with the number of chunks it should count: the queued chunks of
live blocks, a chunk whose provider is between `take` and `push_back`, a chunk whose consumer
is between `pop_front` and `release`, and the entries that a running `Drop` has not yet
released. One step of a cell moves the counter and its own charge together; the sum over all
cells then follows the counter through any run.
-/

namespace Rog

open Lib

/-! ## What a cell is charged for -/

/-- One while the provider is between `take` and `push_back`. -/
def Provide.taken : Provide → ℕ
  | .count _ | .push _ => 1
  | _ => 0

/-- One while the consumer is between `pop_front` and `release`. -/
def Consume.popped : Consume → ℕ
  | .release _ => 1
  | _ => 0

/-- The entries that a running `Drop` has not yet released. -/
def Life.unreleased : Life → ℕ
  | .releasing k | .notifying k => k
  | .live | .dropped => 0

namespace Cell

def queued (c : Cell) : ℕ := if c.life = .live then c.block.data.length else 0

def charge (c : Cell) : ℕ :=
  c.queued + c.provider.taken + c.consumer.popped + c.life.unreleased

/-- Once a block is dropped no call borrows it, and `Drop` releases no more entries than
the queue holds. -/
structure WellFormed (c : Cell) : Prop where
  calls : c.life ≠ .live → c.provider = .idle ∧ c.consumer = .idle
  unreleased : c.life.unreleased ≤ c.block.data.length

theorem WellFormed.new : WellFormed .new :=
  ⟨fun h ↦ absurd rfl h, Nat.zero_le _⟩

@[simp] theorem charge_new : charge .new = 0 := rfl

@[simp] theorem held_new : held .new = 0 := rfl

theorem charge_of_live {c : Cell} (h : c.life = .live) :
    c.charge = c.block.data.length + c.provider.taken + c.consumer.popped := by
  simp [charge, queued, h, Life.unreleased]

theorem WellFormed.charge_of_not_live {c : Cell} (hc : c.WellFormed) (h : c.life ≠ .live) :
    c.charge = c.life.unreleased := by
  obtain ⟨hp, hq⟩ := hc.calls h
  simp [charge, queued, h, hp, hq, Provide.taken, Consume.popped]

theorem WellFormed.charge_le_held {c : Cell} (hc : c.WellFormed) : c.charge ≤ c.held := by
  by_cases hlive : c.life = .live
  · have hp : c.provider.taken ≤ c.provider.chunks := by
      cases c.provider <;> simp [Provide.taken, Provide.chunks]
    have hq : c.consumer.popped ≤ c.consumer.chunks := by
      cases c.consumer <;> simp [Consume.popped, Consume.chunks]
    rw [charge_of_live hlive, held]
    omega
  · rw [hc.charge_of_not_live hlive, held]
    have := hc.unreleased
    omega

end Cell

/-! ## One step -/

/-- The counter and a charge move together: neither changes, both are increased, or both
are decreased. -/
def Charged (taken taken' : UInt64) (charge charge' : ℕ) : Prop :=
  (taken' = taken ∧ charge' = charge) ∨
    (taken' = taken + 1 ∧ charge' = charge + 1) ∨
    (taken' = taken - 1 ∧ charge = charge' + 1)

theorem Charged.add_right {taken taken' : UInt64} {charge charge' : ℕ}
    (h : Charged taken taken' charge charge') (k : ℕ) :
    Charged taken taken' (charge + k) (charge' + k) := by
  rcases h with ⟨ht, hn⟩ | ⟨ht, hn⟩ | ⟨ht, hn⟩
  · exact .inl ⟨ht, by omega⟩
  · exact .inr (.inl ⟨ht, by omega⟩)
  · exact .inr (.inr ⟨ht, by omega⟩)

/-- An exact counter stays exact as long as the charge fits in 64 bits. -/
theorem Charged.exact {taken taken' : UInt64} {charge charge' : ℕ}
    (h : Charged taken taken' charge charge') (hexact : taken.toNat = charge)
    (hfits : charge' < UInt64.size) : taken'.toNat = charge' := by
  rcases h with ⟨rfl, rfl⟩ | ⟨rfl, rfl⟩ | ⟨rfl, rfl⟩
  · exact hexact
  · rw [UInt64.toNat_add, hexact]
    exact Nat.mod_eq_of_lt hfits
  · have hle : (1 : UInt64) ≤ taken := by
      rw [UInt64.le_iff_toNat_le, hexact]
      exact Nat.le_add_left 1 charge'
    rw [UInt64.toNat_sub_of_le _ _ hle, hexact]
    rfl

section Step

variable {ι : Type*} [DecidableEq ι] {m m' : BlockManager ι} {b b' : DataBlock}

theorem ProvideMove.charged {i : ι} {e : ProvideEvent} {p p' : Provide}
    (h : ProvideMove i m b e p m' b' p') :
    Charged m.takenBlocks m'.takenBlocks (b.data.length + p.taken)
      (b'.data.length + p'.taken) := by
  cases h with
  | take data => exact .inr (.inl ⟨rfl, rfl⟩)
  | push data =>
      left
      simp [DataBlock.pushBack, Provide.taken]
  | empty _ data hp _ => rcases hp with rfl | rfl <;> exact .inl ⟨rfl, rfl⟩
  | nonempty _ data hp _ => rcases hp with rfl | rfl <;> exact .inl ⟨rfl, rfl⟩
  | _ => exact .inl ⟨rfl, rfl⟩

omit [DecidableEq ι] in
theorem ConsumeMove.charged {e : ConsumeEvent} {q q' : Consume}
    (h : ConsumeMove m b e q m' b' q') :
    Charged m.takenBlocks m'.takenBlocks (b.data.length + q.popped)
      (b'.data.length + q'.popped) := by
  cases h with
  | release data => exact .inr (.inr ⟨rfl, rfl⟩)
  | pop data rest hdata =>
      left
      simp [hdata, Consume.popped]
  | empty _ hq _ => rcases hq with rfl | rfl <;> exact .inl ⟨rfl, rfl⟩
  | nonempty _ hq _ => rcases hq with rfl | rfl <;> exact .inl ⟨rfl, rfl⟩
  | _ => exact .inl ⟨rfl, rfl⟩

theorem Cell.WellFormed.move {i : ι} {c c' : Cell} {a : CellAction} (hc : c.WellFormed)
    (h : CellMove i m c a m' c') : c'.WellFormed := by
  cases h with
  | provide data hlive _ => exact ⟨fun hne ↦ absurd hlive hne, by simp [hlive, Life.unreleased]⟩
  | provider e m' b p hlive _ => exact ⟨fun hne ↦ absurd hlive hne, by simp [hlive, Life.unreleased]⟩
  | consume hlive _ => exact ⟨fun hne ↦ absurd hlive hne, by simp [hlive, Life.unreleased]⟩
  | consumer e m' b q hlive _ => exact ⟨fun hne ↦ absurd hlive hne, by simp [hlive, Life.unreleased]⟩
  | taken data hlive _ => exact ⟨fun hne ↦ absurd hlive hne, by simp [hlive, Life.unreleased]⟩
  | drop _ hprovider hconsumer => exact ⟨fun _ ↦ ⟨hprovider, hconsumer⟩, le_refl _⟩
  | release k hlife =>
      have hle : k + 1 ≤ c.block.data.length := by
        simpa [hlife, Life.unreleased] using hc.unreleased
      exact ⟨fun _ ↦ hc.calls (by simp [hlife]), Nat.le_of_succ_le hle⟩
  | notify k hlife =>
      have hle : k ≤ c.block.data.length := by
        simpa [hlife, Life.unreleased] using hc.unreleased
      exact ⟨fun _ ↦ hc.calls (by simp [hlife]), hle⟩
  | dropped hlife => exact ⟨fun _ ↦ hc.calls (by simp [hlife]), Nat.zero_le _⟩

theorem CellMove.charged {i : ι} {c c' : Cell} {a : CellAction} (h : CellMove i m c a m' c') :
    Charged m.takenBlocks m'.takenBlocks c.charge c'.charge := by
  cases h with
  | provide data hlive hidle =>
      left
      simp [Cell.charge_of_live, hlive, hidle, Provide.taken]
  | provider e m' b p hlive hmove =>
      rw [Cell.charge_of_live hlive,
        Cell.charge_of_live (c := { c with block := b, provider := p }) hlive]
      exact hmove.charged.add_right c.consumer.popped
  | consume hlive hidle =>
      left
      simp [Cell.charge_of_live, hlive, hidle, Consume.popped]
  | consumer e m' b q hlive hmove =>
      rw [Cell.charge_of_live hlive,
        Cell.charge_of_live (c := { c with block := b, consumer := q }) hlive]
      have h := hmove.charged.add_right c.provider.taken
      simpa only [Nat.add_right_comm] using h
  | taken data hlive hready =>
      left
      simp [Cell.charge_of_live, hlive, hready, Consume.popped]
  | drop hlive hprovider hconsumer =>
      left
      simp [Cell.charge, Cell.queued, hlive, hprovider, hconsumer, Provide.taken,
        Consume.popped, Life.unreleased]
  | release k hlife =>
      right; right
      simp [Cell.charge, Cell.queued, hlife, Life.unreleased, BlockManager.releaseBlock]
      omega
  | notify k hlife =>
      left
      simp [Cell.charge, Cell.queued, hlife, Life.unreleased, BlockManager.releaseNotify]
  | dropped hlife =>
      left
      simp [Cell.charge, Cell.queued, hlife, Life.unreleased]

theorem ProvideMove.chunks_le {i : ι} {e : ProvideEvent} {p p' : Provide}
    (h : ProvideMove i m b e p m' b' p') :
    b'.data.length + p'.chunks ≤ b.data.length + p.chunks := by
  cases h with
  | push data => simp [DataBlock.pushBack, Provide.chunks]
  | empty _ data hp _ => rcases hp with rfl | rfl <;> simp [Provide.chunks]
  | nonempty _ data hp _ => rcases hp with rfl | rfl <;> simp [Provide.chunks]
  | _ => simp [Provide.chunks]

omit [DecidableEq ι] in
theorem ConsumeMove.chunks_le {e : ConsumeEvent} {q q' : Consume}
    (h : ConsumeMove m b e q m' b' q') :
    b'.data.length + q'.chunks ≤ b.data.length + q.chunks := by
  cases h with
  | pop data rest hdata => simp [hdata, Consume.chunks]
  | empty _ hq _ => rcases hq with rfl | rfl <;> simp [Consume.chunks]
  | nonempty _ hq _ => rcases hq with rfl | rfl <;> simp [Consume.chunks]
  | _ => simp [Consume.chunks]

/-- The chunks an action brings into the pool: only a call of `provide` brings one. -/
def CellAction.allocates : CellAction → ℕ
  | .provide _ => 1
  | _ => 0

theorem CellMove.held_le {i : ι} {c c' : Cell} {a : CellAction} (h : CellMove i m c a m' c') :
    c'.held ≤ c.held + a.allocates := by
  cases h with
  | provide data _ hidle => simp [Cell.held, hidle, Provide.chunks, CellAction.allocates]; omega
  | provider e m' b p _ hmove =>
      have := hmove.chunks_le
      simp only [Cell.held]
      omega
  | consume _ hidle => simp [Cell.held, hidle, Consume.chunks]
  | consumer e m' b q _ hmove =>
      have := hmove.chunks_le
      simp only [Cell.held]
      omega
  | taken data _ hready =>
      simp [Cell.held, hready, Consume.chunks]
      omega
  | drop => exact Nat.le_refl _
  | release => exact Nat.le_refl _
  | notify => exact Nat.le_refl _
  | dropped =>
      simp only [Cell.held, List.length_nil]
      omega

end Step

/-! ## The pool -/

namespace Pool

variable {ι : Type*} [DecidableEq ι]

def charge (s : Pool ι) : ℕ := ∑ i ∈ s.ids, (s.cell i).charge

structure Accounted (s : Pool ι) : Prop where
  wellFormed : ∀ i ∈ s.ids, (s.cell i).WellFormed
  fits : s.held < UInt64.size
  exact : s.manager.takenBlocks.toNat = s.charge

omit [DecidableEq ι] in
theorem Accounted.new (blockLimit : UInt64) : Accounted (new blockLimit : Pool ι) where
  wellFormed i hi := by simp [Pool.new] at hi
  fits := by simp [held, Pool.new, UInt64.size]
  exact := rfl

omit [DecidableEq ι] in
theorem charge_le_held {s : Pool ι} (h : ∀ i ∈ s.ids, (s.cell i).WellFormed) :
    s.charge ≤ s.held :=
  Finset.sum_le_sum fun i hi ↦ (h i hi).charge_le_held

theorem Accounted.step {s t : Pool ι} {a : PoolAction ι} (hs : s.Accounted)
    (h : s.step a = some t) : t.Accounted := by
  obtain ⟨i, hi, rfl⟩ | ⟨i, b, m, c, hi, hfits, hmove, rfl⟩ := step_cases h
  · refine ⟨?_, ?_, ?_⟩
    · intro j hj
      by_cases hji : j = i
      · simpa [hji] using Cell.WellFormed.new
      · simpa [hji] using hs.wellFormed j ((Finset.mem_insert.mp hj).resolve_left hji)
    · simpa [held, sum_insert_new hi] using hs.fits
    · simpa [charge, sum_insert_new hi] using hs.exact
  · have hwell : ∀ j ∈ s.ids, ((s.update i m c).cell j).WellFormed := by
      intro j hj
      by_cases hji : j = i
      · simpa [hji] using (hs.wellFormed i hi).move hmove
      · simpa [hji] using hs.wellFormed j hj
    have hheld : (s.update i m c).held < UInt64.size := by
      have hsum : (s.update i m c).held + (s.cell i).held = s.held + c.held :=
        sum_update hi m c Cell.held
      have hle := hmove.held_le
      have hbound := hs.fits
      cases b <;> simp only [CellAction.allocates, Fits] at hle hfits <;> omega
    refine ⟨hwell, hheld, ?_⟩
    -- The charge of the other cells is the same on both sides of the step.
    have hsum : (s.update i m c).charge + (s.cell i).charge = s.charge + c.charge :=
      sum_update hi m c Cell.charge
    have hcell : (s.cell i).charge ≤ s.charge :=
      Finset.single_le_sum (f := fun j ↦ (s.cell j).charge) (fun j _ ↦ Nat.zero_le _) hi
    have hcharged := hmove.charged.add_right (s.charge - (s.cell i).charge)
    rw [show (s.cell i).charge + (s.charge - (s.cell i).charge) = s.charge by omega,
      show c.charge + (s.charge - (s.cell i).charge) = (s.update i m c).charge by omega]
      at hcharged
    exact hcharged.exact hs.exact ((charge_le_held hwell).trans_lt hheld)

theorem Accounted.of_reachable {blockLimit : UInt64} {s : Pool ι}
    (hs : (machine ι blockLimit).Reachable s) : s.Accounted := by
  refine hs.invariant ?_ ?_
  · rintro s rfl
    exact .new blockLimit
  · intro s a t hI h
    exact hI.step h

/-! ## The counter of a reachable pool -/

def queued (s : Pool ι) : ℕ := ∑ i ∈ s.ids, (s.cell i).queued

def takenNotPushed (s : Pool ι) : ℕ := ∑ i ∈ s.ids, (s.cell i).provider.taken

def poppedNotReleased (s : Pool ι) : ℕ := ∑ i ∈ s.ids, (s.cell i).consumer.popped

def unreleased (s : Pool ι) : ℕ := ∑ i ∈ s.ids, (s.cell i).life.unreleased

omit [DecidableEq ι] in
theorem charge_eq (s : Pool ι) :
    s.charge = s.queued + s.takenNotPushed + s.poppedNotReleased + s.unreleased := by
  simp only [charge, Cell.charge, queued, takenNotPushed, poppedNotReleased, unreleased,
    Finset.sum_add_distrib]

end Pool

/-- The next step of the consumer, or of the running `Drop`, is the `fetch_sub` of
`BlockManager::release`. -/
def Cell.Releasing (c : Cell) : Prop :=
  (∃ data, c.consumer = .release data) ∨ ∃ k, c.life = .releasing (k + 1)

theorem Cell.Releasing.charge_pos {c : Cell} (h : c.Releasing) : 0 < c.charge := by
  rcases h with ⟨data, h⟩ | ⟨k, h⟩
  · simp only [charge, h, Consume.popped]
    omega
  · simp only [charge, h, Life.unreleased]
    omega

namespace Pool

variable {ι : Type*} [DecidableEq ι]

/-- In every reachable pool `taken_blocks` counts exactly the chunks it should; no `release`
wraps it below zero; and it is zero once every block has been dropped. -/
theorem takenBlocks_exact (blockLimit : UInt64) {s : Pool ι}
    (hs : (machine ι blockLimit).Reachable s) :
    s.manager.takenBlocks.toNat =
        s.queued + s.takenNotPushed + s.poppedNotReleased + s.unreleased ∧
      (∀ i ∈ s.ids, (s.cell i).Releasing →
        s.manager.releaseBlock.takenBlocks.toNat + 1 = s.manager.takenBlocks.toNat) ∧
      ((∀ i ∈ s.ids, (s.cell i).life = .dropped) → s.manager.takenBlocks = 0) := by
  have hacc := Accounted.of_reachable hs
  refine ⟨hacc.exact.trans s.charge_eq, ?_, ?_⟩
  · intro i hi hrel
    have hle : (s.cell i).charge ≤ s.charge :=
      Finset.single_le_sum (f := fun j ↦ (s.cell j).charge) (fun j _ ↦ Nat.zero_le _) hi
    have hpos := hrel.charge_pos
    have hone : (1 : UInt64) ≤ s.manager.takenBlocks := by
      rw [UInt64.le_iff_toNat_le, hacc.exact]
      exact hpos.trans_le hle
    have hsub := UInt64.toNat_sub_of_le _ _ hone
    rw [UInt64.le_iff_toNat_le] at hone
    rw [BlockManager.releaseBlock, hsub]
    exact Nat.sub_add_cancel hone
  · intro hdropped
    have hzero : s.charge = 0 := by
      apply Finset.sum_eq_zero
      intro i hi
      have hne : (s.cell i).life ≠ .live := by simp [hdropped i hi]
      rw [(hacc.wellFormed i hi).charge_of_not_live hne, hdropped i hi]
      rfl
    exact UInt64.toNat_inj.mp (hacc.exact.trans hzero)

/-- Two blocks on a pool of one chunk: the first is dropped with a chunk in its queue, while
the provider of the second is between `take` and `push_back`. -/
def dropRun : List (PoolAction ℕ) :=
  [.new 0, .new 1, .act 0 (.provide [1])] ++
    List.replicate 5 (.act 0 (.provider .run)) ++
    [.act 0 .drop, .act 0 .dropping, .act 1 (.provide [2])] ++
    List.replicate 2 (.act 1 (.provider .run))

theorem takenBlocks_exact_dropRun : ∃ s, (machine ℕ 1).run (new 1) dropRun = some s ∧
    s.manager.takenBlocks.toNat =
        s.queued + s.takenNotPushed + s.poppedNotReleased + s.unreleased ∧
      (∀ i ∈ s.ids, (s.cell i).Releasing →
        s.manager.releaseBlock.takenBlocks.toNat + 1 = s.manager.takenBlocks.toNat) ∧
      ((∀ i ∈ s.ids, (s.cell i).life = .dropped) → s.manager.takenBlocks = 0) := by
  have hsome : ((machine ℕ 1).run (new 1) dropRun).isSome = true := by decide
  obtain ⟨s, hs⟩ := Option.isSome_iff_exists.mp hsome
  have hreachable : (machine ℕ 1).Reachable s := .of_run (.of_init rfl) hs
  exact ⟨s, hs, takenBlocks_exact 1 hreachable⟩

end Pool

end Rog
