import Rog.Relay.Fidelity
import Rog.Relay.Progress

/-!
# No connection blocks another one

The limit on blocks is one for all connections, and a `provide` call waits when it is reached. It
never waits on an empty queue, so that the tasks of one direction can always get rid of what they
have: the writer takes what is in the queue, and the chunk that waits is let in when there is
nothing left. All of it is done by the two tasks of the direction, however many blocks the other
connections hold.
-/

namespace Rog

open Lib

/-! ## What is on its way -/

def Writer.chunks : Writer → ℕ
  | .writing _ => 1
  | _ => 0

/-- The chunks that have been read and not been written. -/
def Lane.onWay (l : Lane) (c : Cell) : ℕ := c.held + l.writer.chunks

theorem Lane.transit_of_onWay {l : Lane} {c : Cell} (h : l.onWay c = 0) : l.transit c = [] := by
  simp only [onWay, Cell.held, Nat.add_eq_zero_iff, List.length_eq_zero_iff] at h
  obtain ⟨⟨⟨hqueue, hprovider⟩, hconsumer⟩, hwriter⟩ := h
  have hprovide : c.provider.hand = [] := by
    cases hp : c.provider <;> simp [hp, Provide.chunks] at hprovider <;> rfl
  have hconsume : c.consumer.hand = [] := by
    cases hq : c.consumer <;> simp [hq, Consume.chunks] at hconsumer <;> rfl
  have hwrite : l.writer.hand = [] := by
    cases hw : l.writer <;> simp [hw, Writer.chunks] at hwriter <;> rfl
  simp [transit, hprovide, hconsume, hwrite, hqueue]

/-! ## How far the chunks have to go -/

/-- The steps that a `provide` call may still take before its chunk is queued. -/
def Provide.toQueue : Provide → ℕ
  | .idle | .cancelNotified | .cancelWait => 0
  | .notify => 1
  | .push _ => 11
  | .count _ => 12
  | .take _ => 13
  | .start _ | .retry _ => 14
  | .dropWait _ | .dropNotified _ => 15
  | .select _ => 16
  | .limit _ => 17

def Consume.toWrite (queued : Prop) [Decidable queued] : Consume → ℕ
  | .wait => if queued then 9 else 0
  | .start | .recheck => if queued then 8 else 1
  | .pop => 7
  | .idle => 10
  | .ready _ => 17
  | .notify _ => 18
  | .releaseNotify _ => 19
  | .release _ => 20
  | .cancel | .panicked => 0

def Writer.toWrite (q : ℕ) : Writer → ℕ
  | .consuming => q
  | .counting _ => 11
  | .writing _ => 16
  | .finishing | .finished => 0

def Lane.toWrite (l : Lane) (c : Cell) : ℕ :=
  30 * (c.block.data.length + c.provider.chunks) + c.provider.toQueue +
    l.writer.toWrite (c.consumer.toWrite (c.block.data ≠ []))

/-- The steps of the two tasks that neither read anything nor end a task. -/
def LaneEvent.Flows : LaneEvent → Prop
  | .provider _ | .consume | .consumer _ | .consumed | .written | .counted => True
  | _ => False

section Flows

variable {ι : Type*} [DecidableEq ι] {i : ι} {m : BlockManager ι} {b : DataBlock} {c : Cell}
  {observe token : Bool} {l : Lane}

/-- With an empty queue the call comes nearer to its end, whatever the limit is. -/
theorem Provide.exists_flow (i : ι) (m : BlockManager ι) {p : Provide} (hchunk : p.chunks ≠ 0)
    (hempty : b.data = []) (hsound : b.consumeNotify.Sound)
    (hpending : p.SawData → b.consumeNotify.Pending ()) :
    ∃ e m' b' p', e ≠ .drop ∧ provideStep i e m b p = some (m', b', p') ∧
      (b'.data = [] ∧ p'.chunks = p.chunks ∧ p'.toQueue < p.toQueue ∨
        b'.data.length = 1 ∧ p'.chunks = 0 ∧ p'.toQueue + 10 = p.toQueue) := by
  have hone : p.chunks = 1 := by
    cases p <;> first | rfl | exact absurd rfl hchunk
  rw [hone]
  cases p with
  | idle | notify | cancelNotified | cancelWait => exact absurd rfl hchunk
  | start data | retry data =>
      refine ⟨.run, m, b, .take data, by simp, ?_, .inl ⟨hempty, rfl, by simp [Provide.toQueue]⟩⟩
      simp [provideStep, checkEmpty, hempty]
  | limit data =>
      refine ⟨.run, m, b, _, by simp, rfl, .inl ⟨hempty, ?_, ?_⟩⟩ <;> split <;>
        simp [Provide.chunks, Provide.toQueue]
  | take data | count data | dropWait data =>
      exact ⟨.run, _, _, _, by simp, rfl, .inl ⟨hempty, rfl, by simp [Provide.toQueue]⟩⟩
  | dropNotified data =>
      exact ⟨.run, _, _, _, by simp, rfl, .inl ⟨hempty, rfl, by simp [Provide.toQueue]⟩⟩
  | push data =>
      refine ⟨.run, m, b.pushBack data, .notify, by simp, rfl, .inr ⟨?_, rfl, rfl⟩⟩
      simp [DataBlock.pushBack, hempty]
  | select data =>
      have hready := (hpending trivial).poll_ready hsound
      refine ⟨.pollNotified, m, { b with consumeNotify := (b.consumeNotify.poll ()).2 },
        .dropWait data, by simp, ?_, .inl ⟨hempty, rfl, by simp [Provide.toQueue]⟩⟩
      simp [provideStep, hready]

theorem Lane.goes_provider {e : ProvideEvent} {m' : BlockManager ι} {b' : DataBlock} {p' : Provide}
    (hlive : c.life = .live) (he : e ≠ .drop)
    (hstep : provideStep i e m c.block c.provider = some (m', b', p'))
    (hrank : l.toWrite { c with block := b', provider := p' } < l.toWrite c) :
    l.Goes observe token LaneEvent.Flows Lane.toWrite i m c := by
  refine ⟨.provider e, l, some (.provider e), false, m', { c with block := b', provider := p' }, ?_,
    trivial, ?_, hrank⟩
  · simp [laneStep, he]
  · simp [cellAct, cellStep, hlive, hstep]

theorem Lane.goes_consumer {e : ConsumeEvent} {m' : BlockManager ι} {b' : DataBlock} {q' : Consume}
    (hlive : c.life = .live) (he : e ≠ .drop)
    (hstep : consumeStep e m c.block c.consumer = some (m', b', q'))
    (hrank : l.toWrite { c with block := b', consumer := q' } < l.toWrite c) :
    l.Goes observe token LaneEvent.Flows Lane.toWrite i m c := by
  refine ⟨.consumer e, l, some (.consumer e), false, m', { c with block := b', consumer := q' }, ?_,
    trivial, ?_, hrank⟩
  · simp [laneStep, he]
  · simp [cellAct, cellStep, hlive, hstep]

/-- The consumer waits. The chunk to come is in the queue, and a notification or the provider is on
its way; or it is the provider's, which nothing holds up. -/
theorem Lane.goes_waiting (hlive : c.life = .live)
    (hwake : WakeUp c.block c.provider c.consumer) (hconsuming : l.writer = .consuming)
    (hwait : c.consumer = .wait) (hway : l.onWay c ≠ 0) :
    l.Goes observe token LaneEvent.Flows Lane.toWrite i m c := by
  by_cases hempty : c.block.data = []
  · have hchunk : c.provider.chunks ≠ 0 := by
      simpa [onWay, Cell.held, hempty, hwait, Consume.chunks, hconsuming, Writer.chunks] using hway
    have hpending : c.provider.SawData → c.block.consumeNotify.Pending () := by
      intro hsaw
      apply (hwake.provider hsaw hempty).resolve_right
      rw [hwait]
      exact id
    obtain ⟨e, m', b', p', he, hstep, hrank⟩ :=
      c.provider.exists_flow i m hchunk hempty hwake.consumeSound hpending
    apply goes_provider hlive he hstep
    rcases hrank with ⟨hempty', hchunks, hrank⟩ | ⟨hlength, hchunks, hrank⟩
    · simpa [toWrite, hconsuming, Writer.toWrite, hwait, Consume.toWrite, hempty, hempty', hchunks]
        using hrank
    · have hne : b'.data ≠ [] := by
        intro hnil
        simp [hnil] at hlength
      simp only [toWrite, hconsuming, Writer.toWrite, hwait, Consume.toWrite, hempty, hlength,
        hchunks, hne, ne_eq, not_true_eq_false, not_false_eq_true, if_true, if_false,
        List.length_nil]
      omega
  · rcases hwake.consumer (by rw [hwait]; trivial) hempty with hpending | hnotifying
    · have hready := hpending.poll_ready hwake.provideSound
      have hstep : consumeStep .poll m c.block c.consumer = some (m,
          { c.block with provideNotify := (c.block.provideNotify.poll ()).2 }, .recheck) := by
        simp [hwait, consumeStep, hready]
      apply goes_consumer hlive (by simp) hstep
      simp [toWrite, hconsuming, Writer.toWrite, hwait, Consume.toWrite, hempty]
    · have hnotify : c.provider = .notify := by
        cases hp : c.provider <;> rw [hp] at hnotifying <;> first | rfl | exact hnotifying.elim
      have hstep : provideStep i .run m c.block c.provider = some (m,
          { c.block with provideNotify := c.block.provideNotify.notifyOne }, .idle) := by
        simp [hnotify, provideStep]
      apply goes_provider hlive (by simp) hstep
      simp [toWrite, hconsuming, Writer.toWrite, hnotify, Provide.toQueue, Provide.chunks]

/-- As long as the writer has not stopped and a chunk is on its way, one of the two tasks can bring
it on. -/
theorem Lane.Coherent.goes (h : l.Coherent c) (hactive : l.writer.Active)
    (hlive : c.life = .live) (hway : l.onWay c ≠ 0) :
    l.Goes observe token LaneEvent.Flows Lane.toWrite i m c := by
  have hallows := h.writer
  have hwake := h.awake.wakeUp hlive
  cases hw : l.writer with
  | finishing | finished =>
      rw [hw] at hactive
      exact hactive.elim
  | writing data =>
      refine ⟨.written, { l with ends := l.ends.write data, writer := .counting data.length }, none,
        false, m, c, ?_, trivial, rfl, ?_⟩
      · simp [laneStep, hw]
      · simp [toWrite, hw, Writer.toWrite]
  | counting n =>
      rw [hw] at hallows
      have hidle : c.consumer = .idle := hallows
      refine ⟨.counted, { l with ends := l.ends.count observe n, writer := .consuming }, none,
        false, m, c, ?_, trivial, rfl, ?_⟩
      · simp [laneStep, hw]
      · simp [toWrite, hw, Writer.toWrite, hidle, Consume.toWrite]
  | consuming =>
      have hruns {q' : Consume} {b' : DataBlock} {m' : BlockManager ι}
          (hstep : consumeStep .run m c.block c.consumer = some (m', b', q'))
          (hrank : l.toWrite { c with block := b', consumer := q' } < l.toWrite c) :
          l.Goes observe token LaneEvent.Flows Lane.toWrite i m c :=
        goes_consumer hlive (by simp) hstep hrank
      cases hq : c.consumer with
      | idle =>
          refine ⟨.consume, l, some .consume, false, m, { c with consumer := .start }, ?_, trivial,
            ?_, ?_⟩
          · simp [laneStep, hw]
          · simp [cellAct, cellStep, hlive, hq]
          · simp only [toWrite, hw, Writer.toWrite, hq, Consume.toWrite]
            split <;> omega
      | start | recheck =>
          apply hruns (by rw [hq]; rfl)
          by_cases hempty : c.block.data = [] <;>
            simp [toWrite, hw, Writer.toWrite, hq, Consume.toWrite, hempty]
      | wait => exact goes_waiting hlive hwake hw hq hway
      | pop =>
          obtain ⟨data, rest, hdata⟩ := List.exists_cons_of_ne_nil (hwake.pop hq)
          have hstep : consumeStep .run m c.block c.consumer =
              some (m, { c.block with data := rest }, .release data) := by
            simp [hq, consumeStep, hdata]
          apply hruns hstep
          simp only [toWrite, hw, Writer.toWrite, hq, Consume.toWrite, hdata, List.length_cons]
          omega
      | release data | releaseNotify data | notify data =>
          apply hruns (by rw [hq]; rfl)
          simp [toWrite, hw, Writer.toWrite, hq, Consume.toWrite]
      | ready data =>
          refine ⟨.consumed, { l with writer := .writing data }, some .taken, false, m,
            { c with consumer := .idle }, ?_, trivial, ?_, ?_⟩
          · simp [laneStep, hw, hq]
          · simp [cellAct, cellStep, hlive, hq]
          · simp [toWrite, hw, Writer.toWrite, hq, Consume.toWrite]
      | cancel =>
          rw [hw, hq] at hallows
          exact absurd rfl hallows
      | panicked => exact absurd hq hwake.noPanic

theorem Lane.toWrite_le (l : Lane) (c : Cell) : l.toWrite c ≤ 30 * c.block.data.length + 67 := by
  have hprovider : 30 * c.provider.chunks + c.provider.toQueue ≤ 47 := by
    cases c.provider <;> simp [Provide.chunks, Provide.toQueue]
  have hconsumer : c.consumer.toWrite (c.block.data ≠ []) ≤ 20 := by
    cases c.consumer <;> simp only [Consume.toWrite] <;> first | omega | split <;> omega
  have hwriter : l.writer.toWrite (c.consumer.toWrite (c.block.data ≠ [])) ≤ 20 := by
    cases l.writer <;> simp only [Writer.toWrite] <;> omega
  rw [toWrite]
  omega

omit [DecidableEq ι] in
theorem LaneMove.kept_of_flows {cancels : Bool} {l' : Lane} {e : LaneEvent} {a : Option CellAction}
    (h : LaneMove observe token c l e l' a cancels) (he : e.Flows) (hactive : l.writer.Active) :
    l'.reader = l.reader ∧ l'.ends.returned = l.ends.returned ∧ l'.writer.Active ∧
      cancels = false := by
  cases h with
  | provider | consume | consumer => exact ⟨rfl, rfl, hactive, rfl⟩
  | consumed | written => exact ⟨rfl, rfl, trivial, rfl⟩
  | counted n => exact ⟨rfl, by simp, trivial, rfl⟩
  | _ => exact he.elim

end Flows

/-! ## The connection -/

namespace Relay

variable {ι : Type*} [DecidableEq ι] {blockLimit : UInt64} {cache : Option Bytes} {observe : Bool}
  {name : Direction → ι} {s t : Relay ι} {d : Direction}

/-- What stays as it is while the tasks of `d` bring their chunks on. -/
structure Flowed (name : Direction → ι) (d : Direction) (s t : Relay ι) : Prop where
  main : t.main = s.main
  reader : (t.lane d).reader = (s.lane d).reader
  returned : (t.lane d).ends.returned = (s.lane d).ends.returned
  active : (t.lane d).writer.Active
  token : t.token = s.token
  opposite : t.lane d.opposite = s.lane d.opposite
  cell : ∀ i, i ≠ name d → t.pool.cell i = s.pool.cell i

omit [DecidableEq ι] in
theorem Flowed.refl (hactive : (s.lane d).writer.Active) : s.Flowed name d s :=
  ⟨rfl, rfl, rfl, hactive, rfl, rfl, fun _ _ ↦ rfl⟩

theorem Flowed.step {u : Relay ι} {e : LaneEvent} (h : s.Flowed name d t) (he : e.Flows)
    (hstep : t.step observe name (.lane d e) = some u) : s.Flowed name d u := by
  obtain ⟨hmain, -, -, hopposite, hcell⟩ := lane_step_frame hstep
  obtain ⟨-, l, a, cancels, m, c, hlane, -, rfl⟩ := step_lane hstep
  obtain ⟨hreader, hreturned, hactive, rfl⟩ := hlane.kept_of_flows he h.active
  refine ⟨hmain.trans h.main, ?_, ?_, ?_, by simp [h.token], hopposite.trans h.opposite,
    fun i hi ↦ (hcell i hi).trans (h.cell i hi)⟩
  · simpa [setLane] using hreader.trans h.reader
  · simpa [setLane] using hreturned.trans h.returned
  · simpa [setLane] using hactive

/-- From every state in which the writer of `d` has not stopped and no chunk was dropped, the two
tasks of `d` can write all that has been read, by a bounded number of their own steps: whatever the
other connections hold, and whether or not the limit is reached. -/
theorem flows (hs : (machine blockLimit cache observe name).Reachable s)
    (hmain : s.main = .spawned) (hintact : (s.lane d).reader.Intact)
    (hactive : (s.lane d).writer.Active) :
    ∃ evs t, (machine blockLimit cache observe name).run s evs = some t ∧
      (∀ ev ∈ evs, ∃ e : LaneEvent, ev = .lane d e ∧ e.Flows) ∧
      evs.length ≤ 30 * (s.pool.cell (name d)).block.data.length + 67 ∧ s.Flowed name d t ∧
      (t.lane d).ends.written = cacheOf cache d ++ (s.lane d).ends.source := by
  have hprogress : ∀ t : Relay ι,
      (machine blockLimit cache observe name).Reachable t ∧ s.Flowed name d t →
      ¬(t.lane d).onWay (t.pool.cell (name d)) = 0 →
      ∃ ev u, (machine blockLimit cache observe name).step t ev = some u ∧
        (∃ e : LaneEvent, ev = .lane d e ∧ e.Flows) ∧
        ((machine blockLimit cache observe name).Reachable u ∧ s.Flowed name d u) ∧
        (u.lane d).toWrite (u.pool.cell (name d)) < (t.lane d).toWrite (t.pool.cell (name d)) := by
    intro t hI hway
    obtain ⟨ht, hflowed⟩ := hI
    have hspawned : t.main = .spawned := hflowed.main.trans hmain
    have hlive := (faithful ht hspawned d).live hflowed.active
    have hgoes : (t.lane d).Goes observe t.token LaneEvent.Flows Lane.toWrite (name d)
        t.pool.manager (t.pool.cell (name d)) :=
      (coherent ht hspawned d).goes hflowed.active hlive hway
    obtain ⟨e, u, hstep, he, hrank⟩ := exists_lane_step ht hspawned (fun _ ↦ id) hgoes
    exact ⟨.lane d e, u, hstep, ⟨e, rfl, he⟩,
      ⟨ht.step (a := .lane d e) hstep, hflowed.step he hstep⟩, hrank⟩
  obtain ⟨evs, t, hrun, hevs, hlength, ⟨ht, hflowed⟩, hway⟩ :=
    Machine.exists_run_of_rank (fun t : Relay ι ↦ (t.lane d).toWrite (t.pool.cell (name d)))
      hprogress ⟨hs, .refl hactive⟩
  refine ⟨evs, t, hrun, hevs, hlength.trans (Lane.toWrite_le _ _), hflowed, ?_⟩
  have hall := (faithful ht (hflowed.main.trans hmain) d).pipe.lossless
    (hflowed.reader ▸ hintact) hflowed.active
  rwa [Lane.transit_of_onWay hway, List.append_nil, Ends.source, hflowed.returned] at hall

/-- Another connection holds the only block that the limit allows for, and the second chunk of the
server waits. -/
def limitReached : List (RelayEvent ℕ) :=
  List.flatten [[.others (.new 2), .others (.act 2 (.provide [9]))],
    List.replicate 5 (.others (.act 2 (.provider .run))),
    [.spawn, .lane .s2c (.read (.ok [1]))], List.replicate 5 (.lane .s2c (.provider .run)),
    [.lane .s2c .provided, .lane .s2c (.read (.ok [2])), .lane .s2c (.provider .run),
      .lane .s2c (.provider .run)]]

def twoNames : Direction → ℕ
  | .s2c => 0
  | .c2s => 1

theorem flows_limitReached : ∃ s evs t,
    (machine 1 none true twoNames).run (.new none (.new 1)) limitReached = some s ∧
      (s.pool.cell 2).block.data = [[9]] ∧ (s.pool.cell 0).provider = .select [2] ∧
      (machine 1 none true twoNames).run s evs = some t ∧
      (t.lane .s2c).ends.written = [1, 2] ∧ (t.pool.cell 2).block.data = [[9]] := by
  have hrun : ((machine 1 none true twoNames).run (.new none (.new 1)) limitReached).map (fun s ↦
      (s.main, s.lane .s2c, (s.pool.cell 2).block.data, (s.pool.cell 0).provider)) =
      some (.spawned, ⟨⟨[[1], [2]], [], 0⟩, .providing, .consuming⟩, [[9]], .select [2]) := by
    decide +kernel
  obtain ⟨s, hs, hfields⟩ := Option.map_eq_some_iff.mp hrun
  simp only [Prod.mk.injEq] at hfields
  obtain ⟨hmain, hlane, hother, hprovider⟩ := hfields
  have hpool : (Pool.machine ℕ 1).Reachable (.new 1) := .of_init rfl
  have hreachable : (machine 1 none true twoNames).Reachable s := ⟨_, _, ⟨_, hpool, rfl⟩, hs⟩
  obtain ⟨evs, t, hevs, -, -, hflowed, hwritten⟩ :=
    flows hreachable hmain (d := .s2c) (by rw [hlane]; trivial) (by rw [hlane]; trivial)
  refine ⟨s, evs, t, hs, hother, hprovider, hevs, ?_, ?_⟩
  · rw [hwritten, hlane]
    rfl
  · rw [hflowed.cell 2 (by decide), hother]

end Relay

end Rog
