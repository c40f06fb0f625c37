import Rog.Relay.Drain
import Rog.Relay.Progress

/-!
# How a cancelled connection comes to its end

Once the token of a connection is cancelled, its tasks can leave their loops from wherever they
are, without another chunk from either side and without anything that the other connections do:
from the `select!` that waits for a free block as well as from the one that waits for a chunk.
When they have left, the last handles of the data blocks go away, and `Drop` gives the blocks that
are still queued back to the block manager.
-/

namespace Rog

open Lib

/-! ## How far a lane is from its end -/

def Provide.rank : Provide → ℕ
  | .idle => 0
  | .notify | .cancelWait => 1
  | .push _ | .cancelNotified => 2
  | .count _ | .select _ => 3
  | .take _ => 4
  | .limit _ => 5
  | .start _ | .retry _ => 6
  | .dropWait _ | .dropNotified _ => 7

def Consume.rank : Consume → ℕ
  | .start | .wait | .cancel | .panicked => 0
  | .idle => 1
  | .ready _ => 4
  | .notify _ => 5
  | .releaseNotify _ => 6
  | .release _ => 7
  | .pop => 8
  | .recheck => 9

def Reader.rank (p : Provide) : Reader → ℕ
  | .finished _ => 0
  | .finishing _ => p.rank + 1
  | .reading => 2
  | .providing => p.rank + 3

def Writer.rank (q : Consume) : Writer → ℕ
  | .finished => 0
  | .finishing => if q = .cancel then 2 else 1
  | .consuming => q.rank + 3
  | .counting _ => 5
  | .writing _ => 6

/-- `Drop` makes two steps for each entry, and a `provide` call may still add one. -/
def Cell.rank (c : Cell) : ℕ := match c.life with
  | .live => 2 * (c.block.data.length + c.provider.chunks) + 2
  | .releasing k => 2 * k + 1
  | .notifying k => 2 * k + 2
  | .dropped => 0

def Lane.rank (l : Lane) (c : Cell) : ℕ :=
  l.reader.rank c.provider + l.writer.rank c.consumer + c.rank

/-- What a task does by itself. A pending write call returns what `writes` says. -/
def LaneEvent.Own (writes : Bool) : LaneEvent → Prop
  | .read _ => False
  | .written => writes = true
  | .writeFailed => writes = false
  | _ => True

section Nearer

variable {ι : Type*} [DecidableEq ι] {i : ι} {m : BlockManager ι} {b : DataBlock} {c : Cell}
  {observe writes : Bool} {l : Lane}

/-- With the token cancelled, a step of the lane's own brings it nearer to its end. -/
abbrev Lane.Nearer (observe writes : Bool) (i : ι) (m : BlockManager ι) (c : Cell) (l : Lane) :
    Prop :=
  l.Goes observe true (LaneEvent.Own writes) Lane.rank i m c

theorem Provide.exists_run (i : ι) (m : BlockManager ι) (b : DataBlock) {p : Provide}
    (hidle : p ≠ .idle) (hselect : ∀ data, p ≠ .select data) :
    ∃ m' b' p', provideStep i .run m b p = some (m', b', p') ∧ p'.rank < p.rank ∧
      b'.data.length + p'.chunks ≤ b.data.length + p.chunks := by
  cases p with
  | idle => exact absurd rfl hidle
  | select data => exact absurd rfl (hselect data)
  | start data | retry data =>
      refine ⟨_, _, _, rfl, ?_, ?_⟩ <;> unfold checkEmpty <;> split <;>
        simp [Provide.rank, Provide.chunks]
  | limit data =>
      refine ⟨_, _, _, rfl, ?_, ?_⟩ <;> split <;> simp [Provide.rank, Provide.chunks]
  | push data =>
      exact ⟨_, _, _, rfl, by simp [Provide.rank], by simp [DataBlock.pushBack, Provide.chunks]⟩
  | _ => exact ⟨_, _, _, rfl, by simp [Provide.rank], by simp [Provide.chunks]⟩

/-- The caller of `consume` cannot leave here, and the call goes on by itself. -/
def Consume.Runs : Consume → Prop
  | .recheck | .pop | .release _ | .releaseNotify _ | .notify _ => True
  | _ => False

omit [DecidableEq ι] in
theorem Consume.exists_run (m : BlockManager ι) {b : DataBlock} {q : Consume} (hq : q.Runs)
    (hpop : q = .pop → b.data ≠ []) :
    ∃ m' b' q', consumeStep .run m b q = some (m', b', q') ∧ q'.rank < q.rank ∧
      b'.data.length ≤ b.data.length := by
  cases q with
  | recheck =>
      refine ⟨_, _, _, rfl, ?_, Nat.le_refl _⟩
      split <;> simp [Consume.rank]
  | pop =>
      obtain ⟨data, rest, hdata⟩ := List.exists_cons_of_ne_nil (hpop rfl)
      refine ⟨m, { b with data := rest }, .release data, by simp [consumeStep, hdata], ?_, ?_⟩
      · simp [Consume.rank]
      · simp [hdata]
  | release data | releaseNotify data | notify data =>
      exact ⟨_, _, _, rfl, by simp [Consume.rank], Nat.le_refl _⟩
  | _ => exact hq.elim

theorem Lane.nearer_provider (hlive : c.life = .live)
    (hreader : l.reader = .providing ∨ ∃ why, l.reader = .finishing why)
    (hidle : c.provider ≠ .idle) (hselect : ∀ data, c.provider ≠ .select data) :
    l.Nearer observe writes i m c := by
  obtain ⟨m', b', p', hstep, hrank, hlength⟩ := c.provider.exists_run i m c.block hidle hselect
  refine ⟨.provider .run, l, some (.provider .run), false, m',
    { c with block := b', provider := p' }, rfl, trivial, ?_, ?_⟩
  · simp [cellAct, cellStep, hlive, hstep]
  · obtain hreader | ⟨why, hreader⟩ := hreader <;>
      simp only [Lane.rank, hreader, Reader.rank, Cell.rank, hlive] <;> omega

theorem Lane.nearer_consumer (hlive : c.life = .live) (hconsuming : l.writer = .consuming)
    (hruns : c.consumer.Runs) (hpop : c.consumer = .pop → c.block.data ≠ []) :
    l.Nearer observe writes i m c := by
  obtain ⟨m', b', q', hstep, hrank, hlength⟩ := c.consumer.exists_run m hruns hpop
  refine ⟨.consumer .run, l, some (.consumer .run), false, m',
    { c with block := b', consumer := q' }, rfl, trivial, ?_, ?_⟩
  · simp [cellAct, cellStep, hlive, hstep]
  · simp only [Lane.rank, hconsuming, Writer.rank, Cell.rank, hlive]
    omega

theorem Lane.Coherent.nearer_reader (h : l.Coherent c) (hlive : c.life = .live)
    (hreader : ∀ why, l.reader ≠ .finished why) : l.Nearer observe writes i m c := by
  have hallows := h.reader
  cases hr : l.reader with
  | finished why => exact absurd hr (hreader why)
  | reading =>
      rw [hr] at hallows
      refine ⟨.readCancelled, { l with reader := .finishing .interrupted }, none, false, m, c, ?_,
        trivial, rfl, ?_⟩
      · simp [laneStep, hr]
      · have hidle : c.provider = .idle := hallows
        simp [Lane.rank, hr, Reader.rank, hidle, Provide.rank]
  | providing =>
      have hcancelled (p' : Provide)
          (hstep : provideStep i .drop m c.block c.provider = some (m, c.block, p'))
          (hrank : p'.rank + 1 < c.provider.rank + 3) (hchunks : p'.chunks = 0) :
          l.Nearer observe writes i m c := by
        refine ⟨.provideCancelled, { l with reader := .finishing .interruptedWaiting },
          some (.provider .drop), false, m, { c with provider := p' }, ?_, trivial, ?_, ?_⟩
        · simp [laneStep, hr]
        · simp [cellAct, cellStep, hlive, hstep]
        · simp only [Lane.rank, hr, Reader.rank, Cell.rank, hlive, hchunks]
          omega
      cases hp : c.provider with
      | idle =>
          refine ⟨.provided, { l with reader := .reading }, none, false, m, c, ?_, trivial, rfl, ?_⟩
          · simp [laneStep, hr, hp]
          · simp [Lane.rank, hr, Reader.rank, hp, Provide.rank]
      | start data => exact hcancelled .idle (by rw [hp]; rfl) (by simp [hp, Provide.rank]) rfl
      | select data =>
          exact hcancelled .cancelNotified (by rw [hp]; rfl) (by simp [hp, Provide.rank]) rfl
      | _ => exact nearer_provider hlive (.inl hr) (by simp [hp]) (by simp [hp])
  | finishing why =>
      rw [hr] at hallows
      by_cases hidle : c.provider = .idle
      · refine ⟨.readerCancel, { l with reader := .finished why }, none, true, m, c, ?_, trivial,
          rfl, ?_⟩
        · simp [laneStep, hr, hidle]
        · simp [Lane.rank, hr, Reader.rank]
      · refine nearer_provider hlive (.inr ⟨why, hr⟩) hidle fun data hdata ↦ ?_
        rcases hallows with hp | hp | hp <;> simp [hp] at hdata

theorem Lane.Coherent.nearer_writer (h : l.Coherent c) (hlive : c.life = .live)
    (hwriter : l.writer ≠ .finished) : l.Nearer observe writes i m c := by
  have hallows := h.writer
  have hwake := h.awake.wakeUp hlive
  cases hw : l.writer with
  | finished => exact absurd hw hwriter
  | consuming =>
      have hcancelled (q' : Consume)
          (hstep : consumeStep .drop m c.block c.consumer = some (m, c.block, q')) :
          l.Nearer observe writes i m c := by
        refine ⟨.writerCancelled, { l with writer := .finishing }, some (.consumer .drop), false, m,
          { c with consumer := q' }, ?_, trivial, ?_, ?_⟩
        · simp [laneStep, hw]
        · simp [cellAct, cellStep, hlive, hstep]
        · simp only [Lane.rank, hw, Writer.rank, Cell.rank, hlive]
          split <;> omega
      cases hq : c.consumer with
      | idle =>
          refine ⟨.consume, l, some .consume, false, m, { c with consumer := .start }, ?_, trivial,
            ?_, ?_⟩
          · simp [laneStep, hw]
          · simp [cellAct, cellStep, hlive, hq]
          · simp [Lane.rank, hw, Writer.rank, Cell.rank, hlive, hq, Consume.rank]
      | start => exact hcancelled .idle (by rw [hq]; rfl)
      | wait => exact hcancelled .cancel (by rw [hq]; rfl)
      | ready data =>
          refine ⟨.consumed, { l with writer := .writing data }, some .taken, false, m,
            { c with consumer := .idle }, ?_, trivial, ?_, ?_⟩
          · simp [laneStep, hw, hq]
          · simp [cellAct, cellStep, hlive, hq]
          · simp [Lane.rank, hw, Writer.rank, Cell.rank, hlive, hq, Consume.rank]
      | cancel =>
          rw [hw, hq] at hallows
          exact absurd rfl hallows
      | panicked => exact absurd hq hwake.noPanic
      | _ => exact nearer_consumer hlive hw (by simp [hq, Consume.Runs]) hwake.pop
  | writing data =>
      cases writes with
      | true =>
          refine ⟨.written, { l with ends := l.ends.write data, writer := .counting data.length },
            none, false, m, c, ?_, rfl, rfl, ?_⟩
          · simp [laneStep, hw]
          · simp [Lane.rank, hw, Writer.rank]
      | false =>
          refine ⟨.writeFailed, { l with writer := .finishing }, none, false, m, c, ?_, rfl, rfl,
            ?_⟩
          · simp [laneStep, hw]
          · simp only [Lane.rank, hw, Writer.rank]
            split <;> omega
  | counting n =>
      rw [hw] at hallows
      refine ⟨.counted, { l with ends := l.ends.count observe n, writer := .consuming }, none,
        false, m, c, ?_, trivial, rfl, ?_⟩
      · simp [laneStep, hw]
      · have hidle : c.consumer = .idle := hallows
        simp [Lane.rank, hw, Writer.rank, hidle, Consume.rank]
  | finishing =>
      rw [hw] at hallows
      rcases hallows with hq | hq
      · refine ⟨.writerCancel, { l with writer := .finished }, none, true, m, c, ?_, trivial, rfl,
          ?_⟩
        · simp [laneStep, hw, hq]
        · simp [Lane.rank, hw, Writer.rank, hq]
      · let b' := { c.block with provideNotify := c.block.provideNotify.dropFuture () }
        refine ⟨.consumer .run, l, some (.consumer .run), false, m,
          { c with block := b', consumer := .idle }, rfl, trivial, ?_, ?_⟩
        · simp [cellAct, cellStep, hlive, hq, consumeStep, b']
        · simp [Lane.rank, hw, Writer.rank, Cell.rank, hlive, hq, b']

theorem Lane.Coherent.nearer_drop (h : l.Coherent c) (hover : l.Over)
    (hdropped : c.life ≠ .dropped) : l.Nearer observe writes i m c := by
  obtain ⟨⟨why, hreader⟩, hwriter⟩ := hover
  have hdropping (m' : BlockManager ι) (c' : Cell) (hstep : dropStep m c = some (m', c'))
      (hrank : l.rank c' < l.rank c) : l.Nearer observe writes i m c :=
    ⟨.dropping, l, some .dropping, false, m', c', rfl, trivial, hstep, hrank⟩
  cases hlife : c.life with
  | live =>
      have hprovider := h.reader
      have hconsumer := h.writer
      rw [hreader] at hprovider
      rw [hwriter] at hconsumer
      refine ⟨.drop, l, some .drop, false, m, { c with life := .releasing c.block.data.length }, ?_,
        trivial, ?_, ?_⟩
      · simp [laneStep, hreader, hwriter]
      · simpa [cellAct, cellStep, hlife] using ⟨hprovider, hconsumer⟩
      · simp only [Lane.rank, Cell.rank, hlife]
        omega
  | releasing k =>
      cases k with
      | zero =>
          refine hdropping m { c with block := { c.block with data := [] }, life := .dropped } ?_ ?_
          · simp [dropStep, hlife]
          · simp [Lane.rank, Cell.rank, hlife]
      | succ k =>
          refine hdropping m.releaseBlock { c with life := .notifying k } ?_ ?_
          · simp [dropStep, hlife]
          · simp only [Lane.rank, Cell.rank, hlife]
            omega
  | notifying k =>
      refine hdropping m.releaseNotify { c with life := .releasing k } ?_ ?_
      · simp [dropStep, hlife]
      · simp [Lane.rank, Cell.rank, hlife]
  | dropped => exact absurd hlife hdropped

/-- Both tasks have ended, and the data block is gone with what was in its queue. -/
def Lane.Left (l : Lane) (c : Cell) : Prop := l.Over ∧ c.life = .dropped

theorem Lane.Coherent.nearer (h : l.Coherent c) (hleft : ¬l.Left c) :
    l.Nearer observe writes i m c := by
  by_cases hlive : c.life = .live
  · by_cases hreader : ∃ why, l.reader = .finished why
    · by_cases hwriter : l.writer = .finished
      · exact h.nearer_drop ⟨hreader, hwriter⟩ (by simp [hlive])
      · exact h.nearer_writer hlive hwriter
    · exact h.nearer_reader hlive (not_exists.mp hreader)
  · have hover : l.Over := h.gone hlive
    exact h.nearer_drop hover fun hdropped ↦ hleft ⟨hover, hdropped⟩

end Nearer

theorem Reader.rank_le (r : Reader) (p : Provide) : r.rank p ≤ 10 := by
  cases r <;> cases p <;> simp [Reader.rank, Provide.rank]

theorem Writer.rank_le (w : Writer) (q : Consume) : w.rank q ≤ 12 := by
  cases w <;> cases q <;> simp [Writer.rank, Consume.rank]

theorem Cell.WellFormed.rank_le {c : Cell} (h : c.WellFormed) :
    c.rank ≤ 2 * c.block.data.length + 4 := by
  have hunreleased := h.unreleased
  have hchunks : c.provider.chunks ≤ 1 := by
    cases c.provider <;> simp [Provide.chunks]
  cases hlife : c.life <;> simp only [Cell.rank, hlife, Life.unreleased] at hunreleased ⊢ <;> omega

theorem Lane.rank_le (l : Lane) {c : Cell} (h : c.WellFormed) :
    l.rank c ≤ 2 * c.block.data.length + 26 := by
  have hreader := l.reader.rank_le c.provider
  have hwriter := l.writer.rank_le c.consumer
  have hcell := h.rank_le
  rw [Lane.rank]
  omega

/-! ## The connection -/

/-- What the tasks of a connection do by themselves. A pending write call of the writer of `d`
returns what `writes d` says. -/
def RelayEvent.Own {ι : Type*} (writes : Direction → Bool) : RelayEvent ι → Prop
  | .lane d e => e.Own (writes d)
  | _ => False

namespace Relay

variable {ι : Type*} [DecidableEq ι] {blockLimit : UInt64} {cache : Option Bytes} {observe : Bool}
  {name : Direction → ι} {s t : Relay ι} {d : Direction} {ev : RelayEvent ι}
  {writes : Direction → Bool}

/-- What stays as it is while the tasks of a connection leave. -/
structure Beside (name : Direction → ι) (s t : Relay ι) : Prop where
  main : t.main = s.main
  token : s.token = true → t.token = true
  ids : t.pool.ids = s.pool.ids
  cell : ∀ i, (∀ d, i ≠ name d) → t.pool.cell i = s.pool.cell i

omit [DecidableEq ι] in
theorem Beside.refl (name : Direction → ι) (s : Relay ι) : s.Beside name s :=
  ⟨rfl, id, rfl, fun _ _ ↦ rfl⟩

omit [DecidableEq ι] in
theorem Beside.trans {u : Relay ι} (h : s.Beside name t) (h' : t.Beside name u) :
    s.Beside name u where
  main := h'.main.trans h.main
  token := h'.token ∘ h.token
  ids := h'.ids.trans h.ids
  cell i hi := (h'.cell i hi).trans (h.cell i hi)

theorem beside_step (hown : ev.Own writes) (h : s.step observe name ev = some t) :
    s.Beside name t := by
  cases ev with
  | lane d e =>
      obtain ⟨hmain, htoken, hids, -, hcell⟩ := lane_step_frame h
      exact ⟨hmain, htoken, hids, fun i hi ↦ hcell i (hi d)⟩
  | _ => exact hown.elim

/-- How far the tasks of a connection are from their end. -/
def rank (name : Direction → ι) (s : Relay ι) : ℕ :=
  (s.lane .s2c).rank (s.pool.cell (name .s2c)) + (s.lane .c2s).rank (s.pool.cell (name .c2s))

theorem rank_lt (hname : name d ≠ name d.opposite) {e : LaneEvent}
    (h : s.step observe name (.lane d e) = some t)
    (hrank : (t.lane d).rank (t.pool.cell (name d)) < (s.lane d).rank (s.pool.cell (name d))) :
    t.rank name < s.rank name := by
  obtain ⟨-, -, -, hlane, hcell⟩ := lane_step_frame h
  have hother := hcell (name d.opposite) hname.symm
  cases d <;> simp only [Direction.opposite] at hlane hother <;>
    simp only [rank, hlane, hother] <;> omega

/-- While a lane of a cancelled connection has not left, the connection has a step of its own that
brings it nearer to its end. -/
theorem exists_step (hs : (machine blockLimit cache observe name).Reachable s)
    (hmain : s.main = .spawned) (htoken : s.token = true)
    (hleft : ¬(s.lane d).Left (s.pool.cell (name d))) (writes : Direction → Bool) :
    ∃ ev t, s.step observe name ev = some t ∧ ev.Own writes ∧ t.rank name < s.rank name := by
  obtain ⟨-, hname⟩ := (wired hs).named hmain d
  have hgoes : (s.lane d).Nearer observe (writes d) (name d) s.pool.manager
      (s.pool.cell (name d)) :=
    (coherent hs hmain d).nearer hleft
  rw [Lane.Nearer, ← htoken] at hgoes
  obtain ⟨e, t, hstep, hown, hrank⟩ := exists_lane_step hs hmain (fun _ ↦ id) hgoes
  exact ⟨.lane d e, t, hstep, hown, rank_lt hname hstep hrank⟩

/-- The blocks that the manager counts for the other connections are the same before and after. -/
theorem takenBlocks_of_left (hs : (machine blockLimit cache observe name).Reachable s)
    (ht : (machine blockLimit cache observe name).Reachable t) (hmain : s.main = .spawned)
    (hbeside : s.Beside name t) (hleft : ∀ d, (t.lane d).Left (t.pool.cell (name d))) :
    t.pool.manager.takenBlocks.toNat +
        ((s.pool.cell (name .s2c)).charge + (s.pool.cell (name .c2s)).charge) =
      s.pool.manager.takenBlocks.toNat := by
  have haccounted := Pool.Accounted.of_reachable (pool_reachable hs)
  have haccounted' := Pool.Accounted.of_reachable (pool_reachable ht)
  obtain ⟨hids, hne⟩ := (wired hs).named hmain .s2c
  have hname : name .s2c ≠ name .c2s := hne
  have hids' := ((wired hs).named hmain .c2s).1
  have hnames : {name .s2c, name .c2s} ⊆ s.pool.ids :=
    Finset.insert_subset hids (Finset.singleton_subset_iff.mpr hids')
  have hcharge (d : Direction) : (t.pool.cell (name d)).charge = 0 := by
    have hdropped := (hleft d).2
    have hmem : name d ∈ t.pool.ids := hbeside.ids ▸ ((wired hs).named hmain d).1
    rw [(haccounted'.wellFormed _ hmem).charge_of_not_live (by simp [hdropped]), hdropped]
    rfl
  have hothers : ∑ i ∈ s.pool.ids \ {name .s2c, name .c2s}, (t.pool.cell i).charge =
      ∑ i ∈ s.pool.ids \ {name .s2c, name .c2s}, (s.pool.cell i).charge := by
    refine Finset.sum_congr rfl fun i hi ↦ congrArg Cell.charge (hbeside.cell i fun d hd ↦ ?_)
    apply (Finset.mem_sdiff.mp hi).2
    cases d with
    | s2c => simp [hd]
    | c2s => simp [hd]
  rw [haccounted.exact, haccounted'.exact, Pool.charge, Pool.charge, hbeside.ids,
    ← Finset.sum_sdiff hnames, ← Finset.sum_sdiff hnames, hothers, Finset.sum_pair hname,
    Finset.sum_pair hname, hcharge, hcharge]
  rfl

/-- A cancelled connection can always come to its end by a bounded number of steps of its own,
whatever its write calls return. It has given back then exactly the blocks that it was charged for,
and the data blocks of the other connections are as they were. -/
theorem leaves (hs : (machine blockLimit cache observe name).Reachable s)
    (hmain : s.main = .spawned) (htoken : s.token = true) (writes : Direction → Bool) :
    ∃ evs t, (machine blockLimit cache observe name).run s evs = some t ∧
      (∀ ev ∈ evs, ev.Own writes) ∧
      evs.length ≤ 52 + 2 * ((s.pool.cell (name .s2c)).block.data.length +
        (s.pool.cell (name .c2s)).block.data.length) ∧
      t.Finished ∧ (∀ d, (t.pool.cell (name d)).life = .dropped) ∧
      (∀ i, (∀ d, i ≠ name d) → t.pool.cell i = s.pool.cell i) ∧
      t.pool.manager.takenBlocks.toNat +
          ((s.pool.cell (name .s2c)).charge + (s.pool.cell (name .c2s)).charge) =
        s.pool.manager.takenBlocks.toNat := by
  have hprogress : ∀ t : Relay ι,
      (machine blockLimit cache observe name).Reachable t ∧ s.Beside name t →
      ¬(∀ d, (t.lane d).Left (t.pool.cell (name d))) →
      ∃ ev u, (machine blockLimit cache observe name).step t ev = some u ∧ ev.Own writes ∧
        ((machine blockLimit cache observe name).Reachable u ∧ s.Beside name u) ∧
          u.rank name < t.rank name := by
    intro t hI hgoal
    obtain ⟨ht, hbeside⟩ := hI
    obtain ⟨d, hleft⟩ := not_forall.mp hgoal
    obtain ⟨ev, u, hstep, hown, hrank⟩ :=
      exists_step ht (hbeside.main.trans hmain) (hbeside.token htoken) hleft writes
    exact ⟨ev, u, hstep, hown, ⟨ht.step hstep, hbeside.trans (beside_step hown hstep)⟩, hrank⟩
  obtain ⟨evs, t, hrun, hown, hlength, ⟨ht, hbeside⟩, hleft⟩ :=
    Machine.exists_run_of_rank (rank name) hprogress ⟨hs, .refl name s⟩
  refine ⟨evs, t, hrun, hown, ?_, fun d ↦ (hleft d).1, fun d ↦ (hleft d).2, hbeside.cell,
    takenBlocks_of_left hs ht hmain hbeside hleft⟩
  have hbound (d : Direction) := (s.lane d).rank_le (coherent hs hmain d).awake.wellFormed
  have hs2c := hbound .s2c
  have hc2s := hbound .c2s
  rw [rank] at hlength
  omega

/-- The second chunk of the server waits for a free block when the client ends. -/
def fullThenEof : List (RelayEvent Direction) :=
  List.flatten [[.spawn, .lane .s2c (.read (.ok [1]))],
    List.replicate 5 (.lane .s2c (.provider .run)),
    [.lane .s2c .provided, .lane .s2c (.read (.ok [2])), .lane .s2c (.provider .run),
      .lane .s2c (.provider .run), .lane .c2s (.read .eof), .lane .c2s .readerCancel]]

theorem leaves_fullThenEof : ∃ s evs t,
    (machine 1 none true id).run (.new none (.new 1)) fullThenEof = some s ∧
      (s.pool.cell .s2c).provider = .select [2] ∧ s.pool.manager.takenBlocks = 1 ∧
      (machine 1 none true id).run s evs = some t ∧ t.Finished ∧
      t.pool.manager.takenBlocks.toNat = 0 := by
  have hrun : ((machine 1 none true id).run (.new none (.new 1)) fullThenEof).map (fun s ↦
      (s.main, s.token, s.pool.manager.takenBlocks, (s.pool.cell .s2c).provider,
        (s.pool.cell .s2c).charge, (s.pool.cell .c2s).charge)) =
      some (.spawned, true, 1, .select [2], 1, 0) := by
    decide +kernel
  obtain ⟨s, hs, hfields⟩ := Option.map_eq_some_iff.mp hrun
  simp only [Prod.mk.injEq] at hfields
  obtain ⟨hmain, htoken, htaken, hprovider, hs2c, hc2s⟩ := hfields
  have hpool : (Pool.machine Direction 1).Reachable (.new 1) := .of_init rfl
  have hreachable : (machine 1 none true id).Reachable s := ⟨_, _, ⟨_, hpool, rfl⟩, hs⟩
  obtain ⟨evs, t, hevs, -, -, hfinished, -, -, hcount⟩ :=
    leaves hreachable hmain htoken fun _ ↦ true
  refine ⟨s, evs, t, hs, hprovider, htaken, hevs, hfinished, ?_⟩
  simp only [id, hs2c, hc2s, htaken] at hcount
  have hone : (1 : UInt64).toNat = 1 := rfl
  omega

end Relay

end Rog
