import Rog.Block
import Rog.Lib.Machine
import Rog.Lib.FiniteSum

/-!
# Data blocks sharing one block manager

The pool: any number of data blocks on one `BlockManager`, each with one task that calls
`provide` and one that calls `consume`, the calls being cancelled at any of their await
points, and each block being dropped at any moment at which no call borrows it.

A data block together with its two calls is a `Cell`. Every action concerns one cell and
the manager, so that all invariants are proved cell by cell.
-/

namespace Rog

open Lib

/-! ## A data block with its tasks -/

/-- Where a data block is in its life. While `Drop` runs, `releasing k` is before and
`notifying k` inside one of its `release` calls, with `k` entries not yet released. -/
inductive Life where
  | live
  | releasing (remaining : ℕ)
  | notifying (remaining : ℕ)
  | dropped
  deriving DecidableEq

structure Cell where
  block : DataBlock
  provider : Provide
  consumer : Consume
  life : Life
  deriving DecidableEq

inductive CellAction where
  | provide (data : Bytes)
  | provider (e : ProvideEvent)
  | consume
  | consumer (e : ConsumeEvent)
  /-- The consuming task takes the chunk of its ready future. -/
  | taken
  /-- The last handle of the block goes away: `Drop` reads the number of entries left. -/
  | drop
  | dropping
  deriving DecidableEq

namespace Cell

def new : Cell := ⟨.new, .idle, .idle, .live⟩

end Cell

section CellStep

variable {ι : Type*} [DecidableEq ι]

/-- The loop of `Drop`, and the release of the queue's memory after it. -/
def dropStep (m : BlockManager ι) (c : Cell) : Option (BlockManager ι × Cell) :=
  match c.life with
  | .releasing 0 => some (m, { c with block := { c.block with data := [] }, life := .dropped })
  | .releasing (k + 1) => some (m.releaseBlock, { c with life := .notifying k })
  | .notifying k => some (m.releaseNotify, { c with life := .releasing k })
  | .live | .dropped => none

def cellStep (i : ι) (m : BlockManager ι) (c : Cell) : CellAction → Option (BlockManager ι × Cell)
  | .provide data =>
      if c.life = .live ∧ c.provider = .idle then some (m, { c with provider := .start data })
      else none
  | .provider e =>
      if c.life = .live then
        (provideStep i e m c.block c.provider).map fun (m, b, p) ↦
          (m, { c with block := b, provider := p })
      else none
  | .consume =>
      if c.life = .live ∧ c.consumer = .idle then some (m, { c with consumer := .start })
      else none
  | .consumer e =>
      if c.life = .live then
        (consumeStep e m c.block c.consumer).map fun (m, b, q) ↦
          (m, { c with block := b, consumer := q })
      else none
  | .taken => match c.consumer with
      | .ready _ => if c.life = .live then some (m, { c with consumer := .idle }) else none
      | _ => none
  | .drop =>
      if c.life = .live ∧ c.provider = .idle ∧ c.consumer = .idle then
        some (m, { c with life := .releasing c.block.data.length })
      else none
  | .dropping => dropStep m c

/-- What a step of a cell can be, with its guards; the inversion of `cellStep`. -/
inductive CellMove (i : ι) (m : BlockManager ι) (c : Cell) :
    CellAction → BlockManager ι → Cell → Prop where
  | provide (data : Bytes) (hlive : c.life = .live) (hidle : c.provider = .idle) :
      CellMove i m c (.provide data) m { c with provider := .start data }
  | provider (e : ProvideEvent) (m' : BlockManager ι) (b : DataBlock) (p : Provide)
      (hlive : c.life = .live) (hmove : ProvideMove i m c.block e c.provider m' b p) :
      CellMove i m c (.provider e) m' { c with block := b, provider := p }
  | consume (hlive : c.life = .live) (hidle : c.consumer = .idle) :
      CellMove i m c .consume m { c with consumer := .start }
  | consumer (e : ConsumeEvent) (m' : BlockManager ι) (b : DataBlock) (q : Consume)
      (hlive : c.life = .live) (hmove : ConsumeMove m c.block e c.consumer m' b q) :
      CellMove i m c (.consumer e) m' { c with block := b, consumer := q }
  | taken (data : Bytes) (hlive : c.life = .live) (hready : c.consumer = .ready data) :
      CellMove i m c .taken m { c with consumer := .idle }
  | drop (hlive : c.life = .live) (hprovider : c.provider = .idle) (hconsumer : c.consumer = .idle) :
      CellMove i m c .drop m { c with life := .releasing c.block.data.length }
  | release (k : ℕ) (hlife : c.life = .releasing (k + 1)) :
      CellMove i m c .dropping m.releaseBlock { c with life := .notifying k }
  | notify (k : ℕ) (hlife : c.life = .notifying k) :
      CellMove i m c .dropping m.releaseNotify { c with life := .releasing k }
  | dropped (hlife : c.life = .releasing 0) :
      CellMove i m c .dropping m
        { c with block := { c.block with data := [] }, life := .dropped }

theorem cellStep_move {i : ι} {m m' : BlockManager ι} {c c' : Cell} {a : CellAction}
    (h : cellStep i m c a = some (m', c')) : CellMove i m c a m' c' := by
  cases a with
  | provide data =>
      obtain ⟨hguard, rfl, rfl⟩ : (c.life = .live ∧ c.provider = .idle) ∧ _ := by
        simpa [cellStep] using h
      exact .provide data hguard.1 hguard.2
  | provider e =>
      obtain ⟨hlive, b, p, hstep, rfl⟩ : c.life = .live ∧ ∃ b p,
          provideStep i e m c.block c.provider = some (m', b, p) ∧
            { c with block := b, provider := p } = c' := by
        simpa [cellStep] using h
      exact .provider e m' b p hlive (provideStep_move hstep)
  | consume =>
      obtain ⟨hguard, rfl, rfl⟩ : (c.life = .live ∧ c.consumer = .idle) ∧ _ := by
        simpa [cellStep] using h
      exact .consume hguard.1 hguard.2
  | consumer e =>
      obtain ⟨hlive, b, q, hstep, rfl⟩ : c.life = .live ∧ ∃ b q,
          consumeStep e m c.block c.consumer = some (m', b, q) ∧
            { c with block := b, consumer := q } = c' := by
        simpa [cellStep] using h
      exact .consumer e m' b q hlive (consumeStep_move hstep)
  | taken =>
      cases hready : c.consumer with
      | ready data =>
          obtain ⟨hlive, rfl, rfl⟩ : c.life = .live ∧ _ := by
            simpa [cellStep, hready] using h
          exact .taken data hlive hready
      | _ => simp [cellStep, hready] at h
  | drop =>
      obtain ⟨hguard, rfl, rfl⟩ :
          (c.life = .live ∧ c.provider = .idle ∧ c.consumer = .idle) ∧ _ := by
        simpa [cellStep] using h
      exact .drop hguard.1 hguard.2.1 hguard.2.2
  | dropping =>
      cases hlife : c.life with
      | live => simp [cellStep, dropStep, hlife] at h
      | dropped => simp [cellStep, dropStep, hlife] at h
      | notifying k =>
          obtain ⟨rfl, rfl⟩ := by simpa [cellStep, dropStep, hlife] using h
          exact .notify k hlife
      | releasing k =>
          cases k with
          | zero =>
              obtain ⟨rfl, rfl⟩ := by simpa [cellStep, dropStep, hlife] using h
              exact .dropped hlife
          | succ k =>
              obtain ⟨rfl, rfl⟩ := by simpa [cellStep, dropStep, hlife] using h
              exact .release k hlife

end CellStep

/-! ## Counting chunks -/

def Provide.chunks : Provide → ℕ
  | .start _ | .retry _ | .limit _ | .take _ | .count _ | .push _ | .select _ | .dropWait _
  | .dropNotified _ => 1
  | .idle | .notify | .cancelNotified | .cancelWait => 0

def Consume.chunks : Consume → ℕ
  | .release _ | .releaseNotify _ | .notify _ | .ready _ => 1
  | .idle | .start | .wait | .recheck | .pop | .cancel | .panicked => 0

/-- Every chunk of a cell that is still allocated. -/
def Cell.held (c : Cell) : ℕ :=
  c.block.data.length + c.provider.chunks + c.consumer.chunks

/-! ## The pool -/

structure Pool (ι : Type*) where
  manager : BlockManager ι
  /-- The data blocks created so far. -/
  ids : Finset ι
  cell : ι → Cell

inductive PoolAction (ι : Type*) where
  | new (i : ι)
  | act (i : ι) (a : CellAction)

def PoolAction.target {ι : Type*} : PoolAction ι → ι
  | .new i | .act i _ => i

namespace Pool

variable {ι : Type*}

def new (blockLimit : UInt64) : Pool ι := ⟨.new blockLimit, ∅, fun _ ↦ .new⟩

def held (s : Pool ι) : ℕ := ∑ i ∈ s.ids, (s.cell i).held

/-- A chunk passed to `provide` is an allocation of its own, and fewer of them than there
are addresses fit in memory. -/
def Fits (s : Pool ι) : CellAction → Prop
  | .provide _ => s.held + 1 < UInt64.size
  | _ => True

instance (s : Pool ι) (a : CellAction) : Decidable (s.Fits a) := by
  cases a <;> unfold Fits <;> infer_instance

variable [DecidableEq ι]

def update (s : Pool ι) (i : ι) (m : BlockManager ι) (c : Cell) : Pool ι :=
  { s with manager := m, cell := Function.update s.cell i c }

def step (s : Pool ι) : PoolAction ι → Option (Pool ι)
  | .new i =>
      if i ∈ s.ids then none
      else some { s with ids := insert i s.ids, cell := Function.update s.cell i .new }
  | .act i a =>
      if i ∈ s.ids ∧ s.Fits a then
        (cellStep i s.manager (s.cell i) a).map fun (m, c) ↦ s.update i m c
      else none

def machine (ι : Type*) [DecidableEq ι] (blockLimit : UInt64) :
    Machine (Pool ι) (PoolAction ι) where
  init s := s = new blockLimit
  step := step

theorem reachable_step {blockLimit : UInt64} {s t : Pool ι} {a : PoolAction ι}
    (hs : (machine ι blockLimit).Reachable s) (h : s.step a = some t) :
    (machine ι blockLimit).Reachable t :=
  Machine.Reachable.step (a := a) hs h

/-- A step creates a block, or is a step of one existing cell and the manager. -/
theorem step_cases {s t : Pool ι} {a : PoolAction ι} (h : s.step a = some t) :
    (∃ i, i ∉ s.ids ∧
      t = { s with ids := insert i s.ids, cell := Function.update s.cell i .new }) ∨
    ∃ i b m c, i ∈ s.ids ∧ s.Fits b ∧ CellMove i s.manager (s.cell i) b m c ∧
      t = s.update i m c := by
  cases a with
  | new i =>
      by_cases hi : i ∈ s.ids
      · simp [step, hi] at h
      · left
        exact ⟨i, hi, by simpa [step, hi] using h.symm⟩
  | act i b =>
      right
      simp only [step] at h
      split at h
      case isTrue hguard =>
        obtain ⟨⟨m, c⟩, hcell, ht⟩ := Option.map_eq_some_iff.mp h
        exact ⟨i, b, m, c, hguard.1, hguard.2, cellStep_move hcell, ht.symm⟩
      case isFalse => simp at h

@[simp] theorem update_manager (s : Pool ι) (i : ι) (m : BlockManager ι) (c : Cell) :
    (s.update i m c).manager = m := rfl

@[simp] theorem update_ids (s : Pool ι) (i : ι) (m : BlockManager ι) (c : Cell) :
    (s.update i m c).ids = s.ids := rfl

@[simp] theorem update_cell (s : Pool ι) (i : ι) (m : BlockManager ι) (c : Cell) :
    (s.update i m c).cell = Function.update s.cell i c := rfl

theorem sum_update {s : Pool ι} {i : ι} (hi : i ∈ s.ids) (m : BlockManager ι) (c : Cell)
    (g : Cell → ℕ) :
    ∑ j ∈ (s.update i m c).ids, g ((s.update i m c).cell j) + g (s.cell i) =
      ∑ j ∈ s.ids, g (s.cell j) + g c :=
  sum_replace s.ids hi s.cell c g

theorem sum_insert_new {s : Pool ι} {i : ι} (hi : i ∉ s.ids) (g : Cell → ℕ) :
    ∑ j ∈ insert i s.ids, g (Function.update s.cell i .new j) =
      g .new + ∑ j ∈ s.ids, g (s.cell j) := by
  rw [Finset.sum_insert hi, Function.update_self, sum_replace_of_notMem s.ids hi]

theorem ids_subset {s t : Pool ι} {a : PoolAction ι} (h : s.step a = some t) : s.ids ⊆ t.ids := by
  obtain ⟨i, _, rfl⟩ | ⟨i, b, m, c, _, _, _, rfl⟩ := step_cases h
  · exact Finset.subset_insert i s.ids
  · exact Finset.Subset.refl s.ids

theorem step_cell_of_ne {s t : Pool ι} {a : PoolAction ι} (h : s.step a = some t) {j : ι}
    (hj : j ≠ a.target) : t.cell j = s.cell j := by
  cases a with
  | new i =>
      obtain ⟨-, rfl⟩ : i ∉ s.ids ∧ _ := by simpa [step] using h
      exact Function.update_of_ne hj _ _
  | act i b =>
      simp only [step] at h
      split at h
      case isTrue =>
        obtain ⟨⟨m, c⟩, -, rfl⟩ := Option.map_eq_some_iff.mp h
        exact Function.update_of_ne hj _ _
      case isFalse => simp at h

theorem step_new {s t : Pool ι} {i : ι} (h : s.step (.new i) = some t) :
    i ∉ s.ids ∧ t = { s with ids := insert i s.ids, cell := Function.update s.cell i .new } := by
  by_cases hi : i ∈ s.ids
  · simp [step, hi] at h
  · exact ⟨hi, by simpa [step, hi] using h.symm⟩

theorem step_act {s t : Pool ι} {i : ι} {a : CellAction} (h : s.step (.act i a) = some t) :
    ∃ m c, CellMove i s.manager (s.cell i) a m c ∧ t = s.update i m c := by
  simp only [step] at h
  split at h
  case isTrue =>
    obtain ⟨⟨m, c⟩, hcell, rfl⟩ := Option.map_eq_some_iff.mp h
    exact ⟨m, c, cellStep_move hcell, rfl⟩
  case isFalse => simp at h

/-- The cell rule: what holds of a new cell, and is preserved by each cell step whatever the
manager does, holds of every cell of every reachable pool. -/
theorem cell_invariant {I : Cell → Prop} {blockLimit : UInt64} (hnew : I .new)
    (hstep : ∀ (i : ι) m c b m' c', I c → CellMove i m c b m' c' → I c')
    {s : Pool ι} (hs : (machine ι blockLimit).Reachable s) : ∀ i ∈ s.ids, I (s.cell i) := by
  refine hs.invariant (I := fun s ↦ ∀ i ∈ s.ids, I (s.cell i)) ?_ ?_
  · rintro s rfl i hi
    simp [new] at hi
  · intro s a t hI h j hj
    obtain ⟨i, hi, rfl⟩ | ⟨i, b, m, c, hi, -, hcell, rfl⟩ := step_cases h
    · by_cases hji : j = i
      · simpa [hji] using hnew
      · simpa [hji] using hI j ((Finset.mem_insert.mp hj).resolve_left hji)
    · by_cases hji : j = i
      · simpa [hji] using hstep i _ _ b m c (hI i hi) hcell
      · simpa [hji] using hI j hj

end Pool

end Rog
