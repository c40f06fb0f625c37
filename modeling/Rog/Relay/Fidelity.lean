import Rog.Lib.Pipeline
import Rog.Relay.Buffered
import Rog.Relay.Unbuffered

/-!
# The relay never reorders, duplicates, invents or crosses bytes

Each direction of a connection, in either mode, is a pipeline from a read half to a write
half. In the buffered mode what is on its way is, from the write half backwards: the
writer's chunk, the chunk of its `consume` call, the queue, and the chunk of the reader's
`provide` call. In the unbuffered mode it is the chunk being written.
-/

namespace Rog

open Lib

/-! ## What is on its way -/

def Provide.hand : Provide → Bytes
  | .start data | .retry data | .limit data | .take data | .count data | .push data
  | .select data | .dropWait data | .dropNotified data => data
  | .idle | .notify | .cancelNotified | .cancelWait => []

def Consume.hand : Consume → Bytes
  | .release data | .releaseNotify data | .notify data | .ready data => data
  | .idle | .start | .wait | .recheck | .pop | .cancel | .panicked => []

def Writer.hand : Writer → Bytes
  | .writing data => data
  | _ => []

/-- The bytes between the read and the write half of a lane with cell `c`. -/
def Lane.transit (l : Lane) (c : Cell) : Bytes :=
  l.writer.hand ++ (c.consumer.hand ++ (c.block.data.flatten ++ c.provider.hand))

/-- No chunk has been dropped at the reading end. -/
def Reader.Intact : Reader → Prop
  | .finishing .interruptedWaiting | .finished .interruptedWaiting => False
  | _ => True

def Writer.Active : Writer → Prop
  | .consuming | .writing _ | .counting _ => True
  | .finishing | .finished => False

/-- The bytes written that the observer has not been told of. -/
def Writer.uncounted : Writer → ℕ
  | .counting n => n
  | _ => 0

section Step

variable {ι : Type*} [DecidableEq ι] {m m' : BlockManager ι} {b b' : DataBlock}

/-- A `provide` call that is not dropped moves its chunk to the end of the queue. -/
theorem ProvideMove.transit {i : ι} {e : ProvideEvent} {p p' : Provide}
    (h : ProvideMove i m b e p m' b' p') (he : e ≠ .drop) :
    b'.data.flatten ++ p'.hand = b.data.flatten ++ p.hand := by
  cases h with
  | unpolled data => exact absurd rfl he
  | cancel data => exact absurd rfl he
  | empty _ data hp _ => rcases hp with rfl | rfl <;> rfl
  | nonempty _ data hp _ => rcases hp with rfl | rfl <;> rfl
  | push data => simp [DataBlock.pushBack, Provide.hand]
  | _ => rfl

omit [DecidableEq ι] in
theorem ConsumeMove.transit {e : ConsumeEvent} {q q' : Consume}
    (h : ConsumeMove m b e q m' b' q') :
    q'.hand ++ b'.data.flatten = q.hand ++ b.data.flatten := by
  cases h with
  | empty _ hq _ => rcases hq with rfl | rfl <;> rfl
  | nonempty _ hq _ => rcases hq with rfl | rfl <;> rfl
  | pop data rest hdata => simp [hdata, Consume.hand]
  | _ => rfl

/-- Dropping a `provide` call where that is possible loses its chunk and nothing else. -/
theorem ProvideMove.drop {i : ι} {p p' : Provide} (h : ProvideMove i m b .drop p m' b' p') :
    b' = b ∧ p'.hand = [] := by
  cases h <;> exact ⟨rfl, rfl⟩

end Step

/-! ## The invariant of a buffered lane -/

/-- `cached` is what has been written before anything is read. -/
structure Lane.Faithful (observe : Bool) (cached : Bytes) (l : Lane) (c : Cell) : Prop where
  pipe : Pipeline (cached ++ l.ends.source) l.ends.written (l.transit c) l.reader.Intact
    l.writer.Active
  observed : l.ends.Observed observe l.writer.uncounted
  /-- The block is dropped only after both tasks. -/
  live : l.writer.Active → c.life = .live

theorem Lane.Faithful.new {observe : Bool} {cached : Bytes} {l : Lane}
    (hreturned : l.ends.returned = []) (hwritten : l.ends.written = cached)
    (hobserved : l.ends.Observed observe 0) (hwriter : l.writer = .consuming) :
    l.Faithful observe cached .new := by
  refine ⟨?_, by simpa [hwriter, Writer.uncounted] using hobserved, fun _ ↦ rfl⟩
  have hempty : l.transit .new = [] := by
    simp [Lane.transit, hwriter, Writer.hand, Cell.new, Consume.hand, DataBlock.new, Provide.hand]
  simpa [hempty, hwritten, Ends.source, hreturned] using Pipeline.start cached _ _

section LaneStep

variable {ι : Type*} [DecidableEq ι] {i : ι} {m m' : BlockManager ι} {c c' : Cell}

theorem Lane.Faithful.step {observe token cancels : Bool} {cached : Bytes} {l l' : Lane}
    {e : LaneEvent} {a : Option CellAction} (h : l.Faithful observe cached c)
    (hlane : LaneMove observe token c l e l' a cancels) (hcell : CellEffect i m c a m' c') :
    l'.Faithful observe cached c' := by
  obtain ⟨pipe, observed, live⟩ := h
  cases hlane with
  | read data hreading _ =>
      cases hcell with
      | provide _ hlive hidle =>
          have hintact : l.reader.Intact := by simp [hreading, Reader.Intact]
          have hsend := pipe.send hintact data
          refine ⟨?_, observed.read data, live⟩
          rw [List.append_assoc, ← Ends.read_source] at hsend
          refine hsend.mono ?_ (fun _ ↦ hintact) id
          simp [Lane.transit, hidle, Provide.hand]
  | eof hreading =>
      obtain ⟨rfl, rfl⟩ := hcell
      exact ⟨pipe.mono rfl (by simp [hreading, Reader.Intact]) id, observed, live⟩
  | readError hreading =>
      obtain ⟨rfl, rfl⟩ := hcell
      exact ⟨pipe.mono rfl (by simp [hreading, Reader.Intact]) id, observed, live⟩
  | readCancelled hreading _ =>
      obtain ⟨rfl, rfl⟩ := hcell
      exact ⟨pipe.mono rfl (by simp [hreading, Reader.Intact]) id, observed, live⟩
  | provider e he =>
      cases hcell with
      | provider _ m' b p hlive hmove =>
          refine ⟨pipe.mono ?_ id id, observed, live⟩
          simp only [Lane.transit, hmove.transit he]
  | provided hproviding _ =>
      obtain ⟨rfl, rfl⟩ := hcell
      exact ⟨pipe.mono rfl (by simp [hproviding, Reader.Intact]) id, observed, live⟩
  | provideCancelled hproviding _ =>
      cases hcell with
      | provider _ m' b p hlive hmove =>
          obtain ⟨rfl, hhand⟩ := hmove.drop
          have htransit : { l with reader := Reader.finishing .interruptedWaiting }.transit
              { c with provider := p } ++ c.provider.hand = l.transit c := by
            simp [Lane.transit, hhand]
          exact ⟨(pipe.mono htransit id id).dropTail (by simp [Reader.Intact]), observed, live⟩
  | readerCancel why hfinishing _ =>
      obtain ⟨rfl, rfl⟩ := hcell
      refine ⟨pipe.mono rfl ?_ id, observed, live⟩
      cases why <;> simp [hfinishing, Reader.Intact]
  | consume hconsuming =>
      cases hcell with
      | consume hlive hidle =>
          refine ⟨pipe.mono ?_ id id, observed, live⟩
          simp [Lane.transit, hidle, Consume.hand]
  | consumer e he =>
      cases hcell with
      | consumer _ m' b q hlive hmove =>
          refine ⟨pipe.mono ?_ id id, observed, live⟩
          simp only [Lane.transit]
          rw [← List.append_assoc q.hand, hmove.transit, List.append_assoc]
  | consumed data hconsuming hready =>
      cases hcell with
      | taken _ hlive _ =>
          refine ⟨pipe.mono ?_ id (fun _ ↦ by simp [hconsuming, Writer.Active]), ?_,
            fun _ ↦ hlive⟩
          · simp [Lane.transit, hconsuming, hready, Writer.hand, Consume.hand]
          · simpa [hconsuming, Writer.uncounted] using observed
  | written data hwriting =>
      obtain ⟨rfl, rfl⟩ := hcell
      have hactive : l.writer.Active := by simp [hwriting, Writer.Active]
      have hobserved : l.ends.Observed observe 0 := by
        simpa [hwriting, Writer.uncounted] using observed
      have htransit : data ++ Lane.transit
          { l with ends := l.ends.write data, writer := .counting data.length } c' =
            l.transit c' := by
        simp [Lane.transit, hwriting, Writer.hand]
      have hdeliver := (pipe.mono htransit id id).deliver hactive
      exact ⟨hdeliver.mono rfl id fun _ ↦ hactive, hobserved.write data, fun _ ↦ live hactive⟩
  | writeFailed data hwriting =>
      obtain ⟨rfl, rfl⟩ := hcell
      have hstopped : ¬ Writer.finishing.Active := id
      refine ⟨pipe.stop _ hstopped, ?_, fun h ↦ absurd h hstopped⟩
      simpa [hwriting, Writer.uncounted] using observed
  | counted n hcounting =>
      obtain ⟨rfl, rfl⟩ := hcell
      have hactive : l.writer.Active := by simp [hcounting, Writer.Active]
      have hobserved : l.ends.Observed observe n := by
        simpa [hcounting, Writer.uncounted] using observed
      refine ⟨?_, hobserved.count, fun _ ↦ live hactive⟩
      simpa [Lane.transit, hcounting, Writer.hand] using pipe.mono rfl id fun _ ↦ hactive
  | writerCancelled hconsuming _ =>
      have hstopped : ¬ Writer.finishing.Active := id
      refine ⟨pipe.stop _ hstopped, ?_, fun h ↦ absurd h hstopped⟩
      simpa [hconsuming, Writer.uncounted] using observed
  | writerCancel hfinishing _ =>
      obtain ⟨rfl, rfl⟩ := hcell
      have hstopped : ¬ Writer.finished.Active := id
      refine ⟨pipe.stop _ hstopped, ?_, fun h ↦ absurd h hstopped⟩
      simpa [hfinishing, Writer.uncounted] using observed
  | drop why _ hwriter =>
      have hstopped : ¬ l.writer.Active := by simp [hwriter, Writer.Active]
      exact ⟨pipe.stop _ hstopped, observed, fun h ↦ absurd h hstopped⟩
  | dropping =>
      -- `Drop` runs after the writer has ended, so the queue it frees does not matter.
      have hstopped : ¬ l.writer.Active := by
        intro hactive
        cases hcell <;> simp_all
      exact ⟨pipe.stop _ hstopped, observed, fun h ↦ absurd h hstopped⟩

end LaneStep

/-! ## The invariant of an unbuffered lane -/

def Copier.hand : Copier → Bytes
  | .writing data => data
  | _ => []

def Copier.Active : Copier → Prop
  | .finishing .writeError | .finished .writeError => False
  | _ => True

def Copier.uncounted : Copier → ℕ
  | .counting n => n
  | _ => 0

structure CopyLane.Faithful (observe : Bool) (cached : Bytes) (l : CopyLane) : Prop where
  pipe : Pipeline (cached ++ l.ends.source) l.ends.written l.task.hand True l.task.Active
  observed : l.ends.Observed observe l.task.uncounted

theorem CopyLane.Faithful.new {observe : Bool} {cached : Bytes} {l : CopyLane}
    (hreturned : l.ends.returned = []) (hwritten : l.ends.written = cached)
    (hobserved : l.ends.Observed observe 0) (htask : l.task = .reading) :
    l.Faithful observe cached := by
  refine ⟨?_, by simpa [htask, Copier.uncounted] using hobserved⟩
  simpa [htask, Copier.hand, hwritten, Ends.source, hreturned] using Pipeline.start cached _ _

theorem CopyLane.Faithful.step {observe token cancels : Bool} {cached : Bytes} {l l' : CopyLane}
    {e : CopyEvent} (h : l.Faithful observe cached)
    (hcopy : CopyMove observe token l e l' cancels) : l'.Faithful observe cached := by
  obtain ⟨pipe, observed⟩ := h
  cases hcopy with
  | read data hreading _ =>
      have hsend := pipe.send trivial data
      rw [List.append_assoc, ← Ends.read_source] at hsend
      refine ⟨hsend.mono ?_ id fun _ ↦ by simp [hreading, Copier.Active], ?_⟩
      · simp [hreading, Copier.hand]
      · simpa [hreading, Copier.uncounted] using observed.read data
  | eof hreading | readError hreading | readCancelled hreading _ =>
      refine ⟨pipe.mono ?_ id fun _ ↦ by simp [hreading, Copier.Active], ?_⟩
      · simp [hreading, Copier.hand]
      · simpa [hreading, Copier.uncounted] using observed
  | written data hwriting =>
      have hactive : l.task.Active := by simp [hwriting, Copier.Active]
      have hobserved : l.ends.Observed observe 0 := by
        simpa [hwriting, Copier.uncounted] using observed
      have htransit : data ++ [] = l.task.hand := by simp [hwriting, Copier.hand]
      have hdeliver := (pipe.mono htransit id id).deliver hactive
      exact ⟨hdeliver.mono rfl id fun _ ↦ hactive, hobserved.write data⟩
  | writeFailed data hwriting =>
      have hstopped : ¬ (Copier.finishing .writeError).Active := id
      refine ⟨pipe.stop _ hstopped, ?_⟩
      simpa [hwriting, Copier.uncounted] using observed
  | counted n hcounting =>
      have hobserved : l.ends.Observed observe n := by
        simpa [hcounting, Copier.uncounted] using observed
      refine ⟨?_, hobserved.count⟩
      simpa using pipe.mono (by simp [hcounting, Copier.hand]) id
        fun _ ↦ by simp [hcounting, Copier.Active]
  | cancel why hfinishing =>
      refine ⟨pipe.mono ?_ id ?_, ?_⟩
      · simp [hfinishing, Copier.hand]
      · cases why <;> simp [hfinishing, Copier.Active]
      · simpa [hfinishing, Copier.uncounted] using observed

/-! ## Connections -/

theorem Relay.faithful {ι : Type*} [DecidableEq ι] {blockLimit : UInt64} {cache : Option Bytes}
    {observe : Bool} {name : Direction → ι} {s : Relay ι}
    (hs : (machine blockLimit cache observe name).Reachable s) (hmain : s.main = .spawned)
    (d : Direction) :
    (s.lane d).Faithful observe (cacheOf cache d) (s.pool.cell (name d)) := by
  refine lane_invariant (I := fun d ↦ Lane.Faithful observe (cacheOf cache d)) ?_ ?_ hs hmain d
  · intro d l _ hwriter hreturned hwritten hobserved
    exact .new hreturned hwritten hobserved hwriter
  · intro i d token m c l e l' a cancels m' c' h hlane hcell
    exact h.step hlane hcell

namespace DirectRelay

structure Faithful (cache : Option Bytes) (observe : Bool) (s : DirectRelay) : Prop where
  ready : s.main.Ready observe cache fun d ↦ (s.lane d).ends
  fresh : s.main ≠ .spawned → ∀ d, (s.lane d).task = .reading
  lanes : s.main = .spawned → ∀ d, (s.lane d).Faithful observe (cacheOf cache d)

theorem ends_setLane (s : DirectRelay) (d : Direction) (l : CopyLane) :
    (fun e ↦ ((s.setLane d l).lane e).ends) =
      Function.update (fun e ↦ (s.lane e).ends) d l.ends := by
  funext e
  by_cases he : e = d
  · subst he
    simp [setLane]
  · simp [setLane, he]

theorem Faithful.step {cache : Option Bytes} {observe : Bool} {s t : DirectRelay}
    {ev : DirectEvent} (h : s.Faithful cache observe) (hstep : s.step observe ev = some t) :
    t.Faithful cache observe := by
  obtain ⟨e, p, x, rfl, hcache, rfl⟩ | ⟨rfl, hmain, rfl⟩ |
    ⟨d, e, l, cancels, rfl, hmain, hcopy, rfl⟩ := step_cases hstep
  · obtain ⟨hready, hmain⟩ := h.ready.cacheStep hcache
    refine ⟨?_, fun _ d ↦ ?_, fun hs ↦ absurd hs hmain⟩
    · simpa [ends_setLane] using hready
    · have hfresh := h.fresh (cacheStep_not_spawned hcache)
      by_cases hd : d = .s2c
      · subst hd
        simpa [setLane] using hfresh .s2c
      · simpa [setLane, hd] using hfresh d
  · have hready := h.ready
    rw [hmain] at hready
    refine ⟨trivial, fun hne ↦ absurd rfl hne, fun _ d ↦ ?_⟩
    obtain ⟨hreturned, hwritten, hobserved⟩ := hready d
    exact .new hreturned hwritten hobserved (h.fresh (by simp [hmain]) d)
  · refine ⟨by simp [setLane, hmain, Main.Ready], fun hs ↦ absurd hmain hs, fun _ e ↦ ?_⟩
    obtain rfl | rfl := d.eq_or_eq_opposite e
    · simpa [setLane] using (h.lanes hmain e).step hcopy
    · simpa [setLane, d.opposite_ne] using h.lanes hmain d.opposite

theorem faithful_of_reachable {cache : Option Bytes} {observe : Bool} {s : DirectRelay}
    (hs : (machine cache observe).Reachable s) : s.Faithful cache observe := by
  refine hs.invariant ?_ fun s ev t h hstep ↦ h.step hstep
  rintro s rfl
  have hnew : Main.new cache ≠ .spawned := by cases cache <;> simp [Main.new]
  exact ⟨Main.ready_new observe cache, fun _ _ ↦ rfl, fun hs ↦ absurd hs hnew⟩

end DirectRelay

/-! ## What both modes promise -/

/-- `settled` says that no task is between a finished write and its counter update. -/
structure Relayed (cache : Option Bytes) (observe : Bool) (settled : Prop)
    (ends : Direction → Ends) : Prop where
  client : (ends .s2c).written <+: cache.getD [] ++ (ends .s2c).source
  server : (ends .c2s).written <+: (ends .c2s).source
  observed : observe = true → settled → ∀ d, (ends d).observed = (ends d).written.length

theorem Main.Ready.relayed {observe : Bool} {cache : Option Bytes} {p : Main}
    {ends : Direction → Ends} (h : p.Ready observe cache ends) (hp : p ≠ .spawned)
    {settled : Prop} (hsettled : settled → ∀ n, p ≠ .countCache n) :
    Relayed cache observe settled ends := by
  cases p with
  | spawned => exact absurd rfl hp
  | writeCache c =>
      obtain ⟨rfl, hnew⟩ := h
      refine ⟨?_, ?_, fun _ _ d ↦ ?_⟩ <;> simp [hnew, Ends.new]
  | failed => refine ⟨?_, ?_, fun _ _ d ↦ ?_⟩ <;> simp [h _, Ends.new]
  | countCache n =>
      obtain ⟨hends, -, -⟩ := h
      refine ⟨?_, ?_, fun _ hs ↦ absurd rfl (hsettled hs n)⟩ <;>
        simp [(hends _).1, (hends _).2, Ends.source, cacheOf]
  | startLoop =>
      refine ⟨?_, ?_, fun ho _ d ↦ (h d).2.2 ho⟩ <;>
        simp [(h _).1, (h _).2.1, Ends.source, cacheOf]

def Relay.Settled {ι : Type*} (s : Relay ι) : Prop :=
  (∀ n, s.main ≠ .countCache n) ∧ ∀ d n, (s.lane d).writer ≠ .counting n

def DirectRelay.Settled (s : DirectRelay) : Prop :=
  (∀ n, s.main ≠ .countCache n) ∧ ∀ d n, (s.lane d).task ≠ .counting n

section Modes

variable {ι : Type*} [DecidableEq ι] {cache : Option Bytes} {observe : Bool}

theorem Writer.uncounted_eq_zero {w : Writer} (h : ∀ n, w ≠ .counting n) : w.uncounted = 0 := by
  cases w with
  | counting n => exact absurd rfl (h n)
  | _ => rfl

theorem Copier.uncounted_eq_zero {w : Copier} (h : ∀ n, w ≠ .counting n) : w.uncounted = 0 := by
  cases w with
  | counting n => exact absurd rfl (h n)
  | _ => rfl

theorem Relay.relayed {blockLimit : UInt64} {name : Direction → ι} {s : Relay ι}
    (hs : (machine blockLimit cache observe name).Reachable s) :
    Relayed cache observe s.Settled fun d ↦ (s.lane d).ends := by
  by_cases hmain : s.main = .spawned
  · have hlanes := faithful hs hmain
    refine ⟨(hlanes .s2c).pipe.delivered_prefix, (hlanes .c2s).pipe.delivered_prefix, ?_⟩
    intro ho hsettled d
    have hobserved := (hlanes d).observed ho
    rwa [Writer.uncounted_eq_zero (hsettled.2 d)] at hobserved
  · exact (wired hs).ready.relayed hmain And.left

theorem DirectRelay.Faithful.relayed {s : DirectRelay} (h : s.Faithful cache observe) :
    Relayed cache observe s.Settled fun d ↦ (s.lane d).ends := by
  by_cases hmain : s.main = .spawned
  · have hlanes := h.lanes hmain
    refine ⟨(hlanes .s2c).pipe.delivered_prefix, (hlanes .c2s).pipe.delivered_prefix, ?_⟩
    intro ho hsettled d
    have hobserved := (hlanes d).observed ho
    rwa [Copier.uncounted_eq_zero (hsettled.2 d)] at hobserved
  · exact h.ready.relayed hmain And.left

/-- In every reachable state of either mode, what has been written to a write half is a
prefix of the cache and what its read half has returned, and the observer's totals are the
lengths of what has been written. -/
theorem relayed_of_reachable (blockLimit : UInt64) (cache : Option Bytes) (observe : Bool)
    (name : Direction → ι) :
    (∀ s, (Relay.machine blockLimit cache observe name).Reachable s →
      Relayed cache observe s.Settled fun d ↦ (s.lane d).ends) ∧
    (∀ s, (DirectRelay.machine cache observe).Reachable s →
      Relayed cache observe s.Settled fun d ↦ (s.lane d).ends) :=
  ⟨fun _ hs ↦ Relay.relayed hs,
    fun _ hs ↦ (DirectRelay.faithful_of_reachable hs).relayed⟩

/-- A chunk on its way through a lane of the buffered mode. -/
def chunkSteps (d : Direction) (chunk : Bytes) : List (RelayEvent Direction) :=
  [.lane d .consume, .lane d (.read (.ok chunk))] ++
    List.replicate 5 (.lane d (.provider .run)) ++ [.lane d .provided] ++
    List.replicate 5 (.lane d (.consumer .run)) ++
    [.lane d .consumed, .lane d .written, .lane d .counted]

/-- Two chunks one way, after a cache, and one the other. -/
def threeChunksRun : List (RelayEvent Direction) :=
  [.cache .written, .cache .counted, .spawn] ++ chunkSteps .s2c [1, 2] ++ chunkSteps .c2s [4] ++
    chunkSteps .s2c [3]

/-- The same in the unbuffered mode. -/
def threeChunksDirectRun : List DirectEvent :=
  [.cache .written, .cache .counted, .spawn, .lane .s2c (.read (.ok [1, 2])),
    .lane .c2s (.read (.ok [4])), .lane .s2c .written, .lane .s2c .counted, .lane .c2s .written,
    .lane .c2s .counted, .lane .s2c (.read (.ok [3])), .lane .s2c .written, .lane .s2c .counted]

theorem relayed_of_reachable_threeChunks :
    (∃ s, (Relay.machine 1 (some [0]) true id).run (.new (some [0]) (.new 1)) threeChunksRun =
        some s ∧ Relayed (some [0]) true s.Settled (fun d ↦ (s.lane d).ends) ∧
      (s.lane .s2c).ends.written = [0, 1, 2, 3] ∧ (s.lane .c2s).ends.written = [4]) ∧
    ∃ s, (DirectRelay.machine (some [0]) true).run (.new (some [0])) threeChunksDirectRun = some s ∧
      Relayed (some [0]) true s.Settled (fun d ↦ (s.lane d).ends) ∧
      (s.lane .s2c).ends.written = [0, 1, 2, 3] ∧ (s.lane .c2s).ends.written = [4] := by
  constructor
  · have hrun : ((Relay.machine 1 (some [0]) true id).run (.new (some [0]) (.new 1))
        threeChunksRun).map (fun s ↦ ((s.lane .s2c).ends.written, (s.lane .c2s).ends.written)) =
          some ([0, 1, 2, 3], [4]) := by
      decide +kernel
    obtain ⟨s, hs, hwritten⟩ := Option.map_eq_some_iff.mp hrun
    obtain ⟨hs2c, hc2s⟩ := Prod.mk.inj hwritten
    have hpool : (Pool.machine Direction 1).Reachable (.new 1) := .of_init rfl
    have hreachable : (Relay.machine 1 (some [0]) true id).Reachable s :=
      .of_run (.of_init ⟨_, hpool, rfl⟩) hs
    exact ⟨s, hs, (relayed_of_reachable 1 (some [0]) true id).1 s hreachable, hs2c, hc2s⟩
  · have hrun : ((DirectRelay.machine (some [0]) true).run (.new (some [0]))
        threeChunksDirectRun).map (fun s ↦
          ((s.lane .s2c).ends.written, (s.lane .c2s).ends.written)) = some ([0, 1, 2, 3], [4]) := by
      decide +kernel
    obtain ⟨s, hs, hwritten⟩ := Option.map_eq_some_iff.mp hrun
    obtain ⟨hs2c, hc2s⟩ := Prod.mk.inj hwritten
    exact ⟨s, hs, (relayed_of_reachable (ι := Direction) 1 (some [0]) true id).2 s
      ⟨_, _, rfl, hs⟩, hs2c, hc2s⟩

end Modes

end Rog
