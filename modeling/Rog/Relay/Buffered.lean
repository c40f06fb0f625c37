import Rog.Pool.System
import Rog.Relay.Ends

/-!
# The buffered relay

`handle_tcp_connection` with a block manager: four tasks joined by two data blocks and one
cancellation token. The two tasks of one direction form a `Lane`; their data block is a cell
of a pool that other connections use at the same time, so that everything shown of pools
holds of it.

A `select!` takes any ready branch. When its `cancelled()` branch wins, the future of the
other branch is dropped, which is possible only where that future awaits or has not been
polled.
-/

namespace Rog

open Lib

/-! ## The tasks of one direction -/

/-- Why a reading task has left its loop; it logs each of them. -/
inductive Exit where
  | eof
  | error
  | interrupted
  /-- Interrupted while waiting for buffer: the chunk in hand is dropped. -/
  | interruptedWaiting
  deriving DecidableEq

/-- `server_reader_task` and `client_reader_task`. -/
inductive Reader where
  /-- In the outer `select!`, with the read call pending. -/
  | reading
  /-- In the inner `select!`, with the `provide` call pending. -/
  | providing
  /-- Out of the loop, about to cancel the token. -/
  | finishing (why : Exit)
  | finished (why : Exit)
  deriving DecidableEq

/-- `client_writer_task` and `server_writer_task`. -/
inductive Writer where
  /-- In the `select!`, with the `consume` call pending. -/
  | consuming
  | writing (data : Bytes)
  /-- The write has returned; the observer has not been told. -/
  | counting (n : ℕ)
  | finishing
  | finished
  deriving DecidableEq

structure Lane where
  ends : Ends
  reader : Reader
  writer : Writer
  deriving DecidableEq

def Lane.new : Lane := ⟨.new, .reading, .consuming⟩

inductive LaneEvent where
  | read (r : ReadResult)
  | readCancelled
  | provider (e : ProvideEvent)
  | provided
  | provideCancelled
  | readerCancel
  | consume
  | consumer (e : ConsumeEvent)
  | consumed
  | written
  | writeFailed
  | counted
  | writerCancelled
  | writerCancel
  /-- Both tasks have ended and with them the last handle of the data block. -/
  | drop
  | dropping
  deriving DecidableEq

/-- One step of a task of the lane, given the token and the lane's cell: the lane after it,
the action on the cell, and whether it cancels the token. -/
def laneStep (observe token : Bool) (c : Cell) (l : Lane) :
    LaneEvent → Option (Lane × Option CellAction × Bool)
  | .read r => match l.reader, r with
    | .reading, .ok data =>
        if (ReadResult.ok data).Fits then
          some ({ l with ends := l.ends.read data, reader := .providing }, some (.provide data),
            false)
        else none
    | .reading, .eof => some ({ l with reader := .finishing .eof }, none, false)
    | .reading, .err => some ({ l with reader := .finishing .error }, none, false)
    | _, _ => none
  | .readCancelled => match l.reader with
    | .reading =>
        if token then some ({ l with reader := .finishing .interrupted }, none, false) else none
    | _ => none
  | .provider e => if e = .drop then none else some (l, some (.provider e), false)
  | .provided => match l.reader with
    | .providing =>
        if c.provider = .idle then some ({ l with reader := .reading }, none, false) else none
    | _ => none
  | .provideCancelled => match l.reader with
    | .providing =>
        if token then
          some ({ l with reader := .finishing .interruptedWaiting }, some (.provider .drop), false)
        else none
    | _ => none
  | .readerCancel => match l.reader with
    | .finishing why =>
        if c.provider = .idle then some ({ l with reader := .finished why }, none, true) else none
    | _ => none
  | .consume => match l.writer with
    | .consuming => some (l, some .consume, false)
    | _ => none
  | .consumer e => if e = .drop then none else some (l, some (.consumer e), false)
  | .consumed => match l.writer, c.consumer with
    | .consuming, .ready data => some ({ l with writer := .writing data }, some .taken, false)
    | _, _ => none
  | .written => match l.writer with
    | .writing data =>
        some ({ l with ends := l.ends.write data, writer := .counting data.length }, none, false)
    | _ => none
  | .writeFailed => match l.writer with
    | .writing _ => some ({ l with writer := .finishing }, none, false)
    | _ => none
  | .counted => match l.writer with
    | .counting n =>
        some ({ l with ends := l.ends.count observe n, writer := .consuming }, none, false)
    | _ => none
  | .writerCancelled => match l.writer with
    | .consuming =>
        if token then some ({ l with writer := .finishing }, some (.consumer .drop), false)
        else none
    | _ => none
  | .writerCancel => match l.writer with
    | .finishing =>
        if c.consumer = .idle then some ({ l with writer := .finished }, none, true) else none
    | _ => none
  | .drop => match l.reader, l.writer with
    | .finished _, .finished => some (l, some .drop, false)
    | _, _ => none
  | .dropping => some (l, some .dropping, false)

/-- What a step of a lane can be; the inversion of `laneStep`. -/
inductive LaneMove (observe token : Bool) (c : Cell) (l : Lane) :
    LaneEvent → Lane → Option CellAction → Bool → Prop where
  | read (data : Bytes) (hreading : l.reader = .reading) (hfits : (ReadResult.ok data).Fits) :
      LaneMove observe token c l (.read (.ok data))
        { l with ends := l.ends.read data, reader := .providing } (some (.provide data)) false
  | eof (hreading : l.reader = .reading) :
      LaneMove observe token c l (.read .eof) { l with reader := .finishing .eof } none false
  | readError (hreading : l.reader = .reading) :
      LaneMove observe token c l (.read .err) { l with reader := .finishing .error } none false
  | readCancelled (hreading : l.reader = .reading) (htoken : token = true) :
      LaneMove observe token c l .readCancelled { l with reader := .finishing .interrupted } none
        false
  | provider (e : ProvideEvent) (he : e ≠ .drop) :
      LaneMove observe token c l (.provider e) l (some (.provider e)) false
  | provided (hproviding : l.reader = .providing) (hidle : c.provider = .idle) :
      LaneMove observe token c l .provided { l with reader := .reading } none false
  | provideCancelled (hproviding : l.reader = .providing) (htoken : token = true) :
      LaneMove observe token c l .provideCancelled
        { l with reader := .finishing .interruptedWaiting } (some (.provider .drop)) false
  | readerCancel (why : Exit) (hfinishing : l.reader = .finishing why)
      (hidle : c.provider = .idle) :
      LaneMove observe token c l .readerCancel { l with reader := .finished why } none true
  | consume (hconsuming : l.writer = .consuming) :
      LaneMove observe token c l .consume l (some .consume) false
  | consumer (e : ConsumeEvent) (he : e ≠ .drop) :
      LaneMove observe token c l (.consumer e) l (some (.consumer e)) false
  | consumed (data : Bytes) (hconsuming : l.writer = .consuming)
      (hready : c.consumer = .ready data) :
      LaneMove observe token c l .consumed { l with writer := .writing data } (some .taken) false
  | written (data : Bytes) (hwriting : l.writer = .writing data) :
      LaneMove observe token c l .written
        { l with ends := l.ends.write data, writer := .counting data.length } none false
  | writeFailed (data : Bytes) (hwriting : l.writer = .writing data) :
      LaneMove observe token c l .writeFailed { l with writer := .finishing } none false
  | counted (n : ℕ) (hcounting : l.writer = .counting n) :
      LaneMove observe token c l .counted
        { l with ends := l.ends.count observe n, writer := .consuming } none false
  | writerCancelled (hconsuming : l.writer = .consuming) (htoken : token = true) :
      LaneMove observe token c l .writerCancelled { l with writer := .finishing }
        (some (.consumer .drop)) false
  | writerCancel (hfinishing : l.writer = .finishing) (hidle : c.consumer = .idle) :
      LaneMove observe token c l .writerCancel { l with writer := .finished } none true
  | drop (why : Exit) (hreader : l.reader = .finished why) (hwriter : l.writer = .finished) :
      LaneMove observe token c l .drop l (some .drop) false
  | dropping : LaneMove observe token c l .dropping l (some .dropping) false

theorem laneStep_move {observe token : Bool} {c : Cell} {l l' : Lane} {e : LaneEvent}
    {a : Option CellAction} {cancels : Bool}
    (h : laneStep observe token c l e = some (l', a, cancels)) :
    LaneMove observe token c l e l' a cancels := by
  cases e with
  | read r =>
      cases hr : l.reader <;> cases r <;> simp only [laneStep, hr, reduceCtorEq] at h
      case reading.ok data =>
        obtain ⟨hfits, rfl, rfl, rfl⟩ : (ReadResult.ok data).Fits ∧ _ := by simpa using h
        exact .read data hr hfits
      case reading.eof =>
        obtain ⟨rfl, rfl, rfl⟩ := by simpa using h
        exact .eof hr
      case reading.err =>
        obtain ⟨rfl, rfl, rfl⟩ := by simpa using h
        exact .readError hr
  | readCancelled =>
      cases hr : l.reader <;> simp only [laneStep, hr, reduceCtorEq] at h
      obtain ⟨htoken, rfl, rfl, rfl⟩ : token = true ∧ _ := by simpa using h
      exact .readCancelled hr htoken
  | provider e =>
      obtain ⟨he, rfl, rfl, rfl⟩ : e ≠ .drop ∧ _ := by simpa [laneStep] using h
      exact .provider e he
  | provided =>
      cases hr : l.reader <;> simp only [laneStep, hr, reduceCtorEq] at h
      obtain ⟨hidle, rfl, rfl, rfl⟩ : c.provider = .idle ∧ _ := by simpa using h
      exact .provided hr hidle
  | provideCancelled =>
      cases hr : l.reader <;> simp only [laneStep, hr, reduceCtorEq] at h
      obtain ⟨htoken, rfl, rfl, rfl⟩ : token = true ∧ _ := by simpa using h
      exact .provideCancelled hr htoken
  | readerCancel =>
      cases hr : l.reader <;> simp only [laneStep, hr, reduceCtorEq] at h
      case finishing why =>
        obtain ⟨hidle, rfl, rfl, rfl⟩ : c.provider = .idle ∧ _ := by simpa using h
        exact .readerCancel why hr hidle
  | consume =>
      cases hw : l.writer <;> simp only [laneStep, hw, reduceCtorEq] at h
      obtain ⟨rfl, rfl, rfl⟩ := by simpa using h
      exact .consume hw
  | consumer e =>
      obtain ⟨he, rfl, rfl, rfl⟩ : e ≠ .drop ∧ _ := by simpa [laneStep] using h
      exact .consumer e he
  | consumed =>
      cases hw : l.writer <;> cases hc : c.consumer <;>
        simp only [laneStep, hw, hc, reduceCtorEq] at h
      case consuming.ready data =>
        obtain ⟨rfl, rfl, rfl⟩ := by simpa using h
        exact .consumed data hw hc
  | written =>
      cases hw : l.writer <;> simp only [laneStep, hw, reduceCtorEq] at h
      case writing data =>
        obtain ⟨rfl, rfl, rfl⟩ := by simpa using h
        exact .written data hw
  | writeFailed =>
      cases hw : l.writer <;> simp only [laneStep, hw, reduceCtorEq] at h
      case writing data =>
        obtain ⟨rfl, rfl, rfl⟩ := by simpa using h
        exact .writeFailed data hw
  | counted =>
      cases hw : l.writer <;> simp only [laneStep, hw, reduceCtorEq] at h
      case counting n =>
        obtain ⟨rfl, rfl, rfl⟩ := by simpa using h
        exact .counted n hw
  | writerCancelled =>
      cases hw : l.writer <;> simp only [laneStep, hw, reduceCtorEq] at h
      obtain ⟨htoken, rfl, rfl, rfl⟩ : token = true ∧ _ := by simpa using h
      exact .writerCancelled hw htoken
  | writerCancel =>
      cases hw : l.writer <;> simp only [laneStep, hw, reduceCtorEq] at h
      obtain ⟨hidle, rfl, rfl, rfl⟩ : c.consumer = .idle ∧ _ := by simpa using h
      exact .writerCancel hw hidle
  | drop =>
      cases hr : l.reader <;> cases hw : l.writer <;>
        simp only [laneStep, hr, hw, reduceCtorEq] at h
      case finished.finished why =>
        obtain ⟨rfl, rfl, rfl⟩ := by simpa using h
        exact .drop why hr hw
  | dropping =>
      obtain ⟨rfl, rfl, rfl⟩ := by simpa [laneStep] using h
      exact .dropping

/-! ## The connection -/

structure Relay (ι : Type*) where
  main : Main
  token : Bool
  lane : Direction → Lane
  /-- The pool of the process, with the data blocks of all its connections. -/
  pool : Pool ι

inductive RelayEvent (ι : Type*) where
  | cache (e : CacheEvent)
  | spawn
  | lane (d : Direction) (e : LaneEvent)
  | others (a : PoolAction ι)

namespace Relay

variable {ι : Type*} [DecidableEq ι]

/-- An action of a lane on its cell, if it has one. -/
def poolStep (i : ι) (p : Pool ι) : Option CellAction → Option (Pool ι)
  | none => some p
  | some a => p.step (.act i a)

def setLane (s : Relay ι) (d : Direction) (l : Lane) : Relay ι :=
  { s with lane := Function.update s.lane d l }

/-- `name d` is the data block of direction `d`. -/
def step (observe : Bool) (name : Direction → ι) (s : Relay ι) : RelayEvent ι → Option (Relay ι)
  | .cache e =>
      (cacheStep observe e s.main (s.lane .s2c).ends).map fun (p, x) ↦
        { s.setLane .s2c { s.lane .s2c with ends := x } with main := p }
  | .spawn =>
      if s.main = .startLoop then
        (s.pool.step (.new (name .s2c))).bind fun p ↦
          (p.step (.new (name .c2s))).map fun p ↦ { s with main := .spawned, pool := p }
      else none
  | .lane d e =>
      if s.main = .spawned then
        (laneStep observe s.token (s.pool.cell (name d)) (s.lane d) e).bind fun (l, a, cancels) ↦
          (poolStep (name d) s.pool a).map fun p ↦
            { s.setLane d l with token := s.token || cancels, pool := p }
      else none
  | .others a =>
      if a.target = name .s2c ∨ a.target = name .c2s then none
      else (s.pool.step a).map fun p ↦ { s with pool := p }

def new (cache : Option Bytes) (p : Pool ι) : Relay ι := ⟨.new cache, false, fun _ ↦ .new, p⟩

/-- A connection starts at any moment in the life of the pool. -/
def machine (blockLimit : UInt64) (cache : Option Bytes) (observe : Bool)
    (name : Direction → ι) : Machine (Relay ι) (RelayEvent ι) where
  init s := ∃ p, (Pool.machine ι blockLimit).Reachable p ∧ s = new cache p
  step := step observe name

end Relay

def CellEffect {ι : Type*} [DecidableEq ι] (i : ι) (m : BlockManager ι) (c : Cell) :
    Option CellAction → BlockManager ι → Cell → Prop
  | none, m', c' => m' = m ∧ c' = c
  | some a, m', c' => CellMove i m c a m' c'

namespace Relay

variable {ι : Type*} [DecidableEq ι]

theorem poolStep_effect {i : ι} {p p' : Pool ι} {a : Option CellAction}
    (h : poolStep i p a = some p') :
    ∃ m c, CellEffect i p.manager (p.cell i) a m c ∧ p' = p.update i m c := by
  cases a with
  | none =>
      obtain rfl := Option.some.inj h
      exact ⟨p.manager, p.cell i, ⟨rfl, rfl⟩, by simp [Pool.update]⟩
  | some a => exact Pool.step_act h

theorem step_lane {observe : Bool} {name : Direction → ι} {s t : Relay ι} {d : Direction}
    {e : LaneEvent} (h : s.step observe name (.lane d e) = some t) :
    s.main = .spawned ∧ ∃ l a cancels m c,
      LaneMove observe s.token (s.pool.cell (name d)) (s.lane d) e l a cancels ∧
      CellEffect (name d) s.pool.manager (s.pool.cell (name d)) a m c ∧
      t = { s.setLane d l with
        token := s.token || cancels, pool := s.pool.update (name d) m c } := by
  simp only [step] at h
  split at h
  case isTrue hmain =>
    obtain ⟨⟨l, a, cancels⟩, hlane, h⟩ := Option.bind_eq_some_iff.mp h
    obtain ⟨p, hpool, rfl⟩ := Option.map_eq_some_iff.mp h
    obtain ⟨m, c, heffect, rfl⟩ := poolStep_effect hpool
    exact ⟨hmain, l, a, cancels, m, c, laneStep_move hlane, heffect, rfl⟩
  case isFalse => simp at h

theorem step_cases {observe : Bool} {name : Direction → ι} {s t : Relay ι} {ev : RelayEvent ι}
    (h : s.step observe name ev = some t) :
    (∃ e p x, ev = .cache e ∧ cacheStep observe e s.main (s.lane .s2c).ends = some (p, x) ∧
      t = { s.setLane .s2c { s.lane .s2c with ends := x } with main := p }) ∨
    (∃ p q, ev = .spawn ∧ s.main = .startLoop ∧ s.pool.step (.new (name .s2c)) = some p ∧
      p.step (.new (name .c2s)) = some q ∧ t = { s with main := .spawned, pool := q }) ∨
    (∃ d e l a cancels m c, ev = .lane d e ∧ s.main = .spawned ∧
      LaneMove observe s.token (s.pool.cell (name d)) (s.lane d) e l a cancels ∧
      CellEffect (name d) s.pool.manager (s.pool.cell (name d)) a m c ∧
      t = { s.setLane d l with
        token := s.token || cancels, pool := s.pool.update (name d) m c }) ∨
    (∃ a p, ev = .others a ∧ (∀ d, name d ≠ a.target) ∧ s.pool.step a = some p ∧
      t = { s with pool := p }) := by
  cases ev with
  | cache e =>
      obtain ⟨⟨p, x⟩, hcache, rfl⟩ := Option.map_eq_some_iff.mp h
      exact .inl ⟨e, p, x, rfl, hcache, rfl⟩
  | spawn =>
      obtain ⟨hmain, p, hp, q, hq, rfl⟩ : s.main = .startLoop ∧ ∃ p,
          s.pool.step (.new (name .s2c)) = some p ∧ ∃ q,
            p.step (.new (name .c2s)) = some q ∧ { s with main := .spawned, pool := q } = t := by
        simpa [step, Option.bind_eq_some_iff] using h
      exact .inr (.inl ⟨p, q, rfl, hmain, hp, hq, rfl⟩)
  | lane d e =>
      obtain ⟨hmain, l, a, cancels, m, c, hlane, heffect, rfl⟩ := step_lane h
      exact .inr (.inr (.inl ⟨d, e, l, a, cancels, m, c, rfl, hmain, hlane, heffect, rfl⟩))
  | others a =>
      simp only [step] at h
      split at h
      case isTrue => simp at h
      case isFalse hne =>
        obtain ⟨p, hpool, rfl⟩ := Option.map_eq_some_iff.mp h
        refine .inr (.inr (.inr ⟨a, p, rfl, ?_, hpool, rfl⟩))
        intro d hd
        cases d with
        | s2c => exact hne (.inl hd.symm)
        | c2s => exact hne (.inr hd.symm)

/-- The pool under a connection takes steps of the pool only, so what holds of every
reachable pool holds of the data blocks of every connection. -/
theorem pool_reachable {blockLimit : UInt64} {cache : Option Bytes} {observe : Bool}
    {name : Direction → ι} {s : Relay ι}
    (hs : (machine blockLimit cache observe name).Reachable s) :
    (Pool.machine ι blockLimit).Reachable s.pool := by
  refine hs.invariant (I := fun s ↦ (Pool.machine ι blockLimit).Reachable s.pool) ?_ ?_
  · rintro s ⟨p, hp, rfl⟩
    exact hp
  · intro s ev t hs hstep
    cases ev with
    | cache e =>
        obtain ⟨_, _, rfl⟩ := Option.map_eq_some_iff.mp hstep
        exact hs
    | spawn =>
        obtain ⟨-, p, hp, q, hq, rfl⟩ : s.main = .startLoop ∧ ∃ p,
            s.pool.step (.new (name .s2c)) = some p ∧ ∃ q,
              p.step (.new (name .c2s)) = some q ∧ { s with main := .spawned, pool := q } = t := by
          simpa [machine, step, Option.bind_eq_some_iff] using hstep
        exact Pool.reachable_step (Pool.reachable_step hs hp) hq
    | lane d e =>
        simp only [machine, step] at hstep
        split at hstep
        case isTrue =>
          obtain ⟨⟨l, a, cancels⟩, -, hstep⟩ := Option.bind_eq_some_iff.mp hstep
          obtain ⟨p, hpool, rfl⟩ := Option.map_eq_some_iff.mp hstep
          cases a with
          | none =>
              obtain rfl : s.pool = p := Option.some.inj hpool
              exact hs
          | some a => exact Pool.reachable_step (a := .act (name d) a) hs hpool
        case isFalse => simp at hstep
    | others a =>
        simp only [machine, step] at hstep
        split at hstep
        case isTrue => simp at hstep
        case isFalse =>
          obtain ⟨p, hpool, rfl⟩ := Option.map_eq_some_iff.mp hstep
          exact Pool.reachable_step hs hpool

/-! ## The lane rule -/

omit [DecidableEq ι] in
theorem ends_setLane (s : Relay ι) (d : Direction) (l : Lane) :
    (fun e ↦ ((s.setLane d l).lane e).ends) =
      Function.update (fun e ↦ (s.lane e).ends) d l.ends := by
  funext e
  by_cases he : e = d
  · subst he
    simp [setLane]
  · simp [setLane, he]

/-- How a connection is set up: its ends before its tasks are spawned, and two data blocks
of its own after that. -/
structure Wired (cache : Option Bytes) (observe : Bool) (name : Direction → ι)
    (s : Relay ι) : Prop where
  ready : s.main.Ready observe cache fun d ↦ (s.lane d).ends
  fresh : s.main ≠ .spawned → ∀ d, (s.lane d).reader = .reading ∧ (s.lane d).writer = .consuming
  named : s.main = .spawned → ∀ d, name d ∈ s.pool.ids ∧ name d ≠ name d.opposite

section Wired

variable {blockLimit : UInt64} {cache : Option Bytes} {observe : Bool} {name : Direction → ι}

omit [DecidableEq ι] in
theorem Wired.new (p : Pool ι) : (new cache p).Wired cache observe name := by
  have hnew : Main.new cache ≠ .spawned := by cases cache <;> simp [Main.new]
  exact ⟨Main.ready_new observe cache, fun _ _ ↦ ⟨rfl, rfl⟩, fun hs ↦ absurd hs hnew⟩

theorem spawn_new {p q r : Pool ι} (hp : p.step (.new (name .s2c)) = some q)
    (hq : q.step (.new (name .c2s)) = some r) (d : Direction) :
    (name d ∈ r.ids ∧ name d ≠ name d.opposite) ∧ r.cell (name d) = .new := by
  obtain ⟨hs2c, rfl⟩ := Pool.step_new hp
  obtain ⟨hc2s, rfl⟩ := Pool.step_new hq
  have hne : name .c2s ≠ name .s2c := fun h ↦ hc2s (by simp [h])
  cases d with
  | s2c => simp [Direction.opposite, hne.symm]
  | c2s => simp [Direction.opposite, hne]

theorem Wired.step {s t : Relay ι} {ev : RelayEvent ι} (h : s.Wired cache observe name)
    (hstep : s.step observe name ev = some t) : t.Wired cache observe name := by
  obtain ⟨e, p, x, rfl, hcache, rfl⟩ | ⟨p, q, rfl, hmain, hp, hq, rfl⟩ |
    ⟨d, e, l, a, cancels, m, c, rfl, hmain, hlane, hcell, rfl⟩ | ⟨a, p, rfl, hne, hpool, rfl⟩ :=
      step_cases hstep
  · obtain ⟨hready, hmain⟩ := h.ready.cacheStep hcache
    refine ⟨?_, fun _ d ↦ ?_, fun hs ↦ absurd hs hmain⟩
    · simpa [ends_setLane] using hready
    · have hfresh := h.fresh (cacheStep_not_spawned hcache)
      by_cases hd : d = .s2c
      · subst hd
        simpa [setLane] using hfresh .s2c
      · simpa [setLane, hd] using hfresh d
  · exact ⟨trivial, fun hs ↦ absurd rfl hs, fun _ d ↦ (spawn_new hp hq d).1⟩
  · exact ⟨by simp [setLane, hmain, Main.Ready], fun hs ↦ absurd hmain hs, fun _ ↦ h.named hmain⟩
  · refine ⟨h.ready, h.fresh, fun hs d ↦ ?_⟩
    exact ⟨Pool.ids_subset hpool (h.named hs d).1, (h.named hs d).2⟩

theorem wired {s : Relay ι} (hs : (machine blockLimit cache observe name).Reachable s) :
    s.Wired cache observe name := by
  refine hs.invariant ?_ fun s ev t h hstep ↦ h.step hstep
  rintro s ⟨p, -, rfl⟩
  exact .new p

/-- The lane rule: what holds of the two lanes when they are spawned, and is preserved by
each step of a lane on its own cell, holds of both lanes of every reachable connection. -/
theorem lane_invariant {I : Direction → Lane → Cell → Prop}
    (hspawn : ∀ d l, l.reader = .reading → l.writer = .consuming → l.ends.returned = [] →
      l.ends.written = cacheOf cache d → l.ends.Observed observe 0 → I d l .new)
    (hstep : ∀ (i : ι) d token m c l e l' a cancels m' c', I d l c →
      LaneMove observe token c l e l' a cancels → CellEffect i m c a m' c' → I d l' c')
    {s : Relay ι} (hs : (machine blockLimit cache observe name).Reachable s) :
    s.main = .spawned → ∀ d, I d (s.lane d) (s.pool.cell (name d)) := by
  refine hs.invariant_of (fun _ ↦ wired)
    (I := fun s ↦ s.main = .spawned → ∀ d, I d (s.lane d) (s.pool.cell (name d))) ?_ ?_
  · rintro s ⟨p, -, rfl⟩ hmain
    cases cache <;> simp [new, Main.new] at hmain
  · intro s ev t hwired hI hev
    obtain ⟨e, p, x, rfl, hcache, rfl⟩ | ⟨p, q, rfl, hmain, hp, hq, rfl⟩ |
      ⟨d, e, l, a, cancels, m, c, rfl, hmain, hlane, hcell, rfl⟩ |
      ⟨a, p, rfl, hne, hpool, rfl⟩ := step_cases hev
    · intro hmain
      exact absurd hmain (hwired.ready.cacheStep hcache).2
    · intro _ d
      have hready := hwired.ready
      rw [hmain] at hready
      obtain ⟨hreturned, hwritten, hobserved⟩ := hready d
      obtain ⟨hreader, hwriter⟩ := hwired.fresh (by simp [hmain]) d
      rw [(spawn_new hp hq d).2]
      exact hspawn d _ hreader hwriter hreturned hwritten hobserved
    · intro _ e
      obtain rfl | rfl := d.eq_or_eq_opposite e
      · simpa [setLane] using hstep (name e) _ _ _ _ _ _ _ _ _ _ _ (hI hmain e) hlane hcell
      · -- the step frames the lane and the cell of the other direction
        have hother := hI hmain d.opposite
        have hname := (hwired.named hmain d).2.symm
        simpa [setLane, Pool.update, d.opposite_ne, hname] using hother
    · intro hmain d
      simpa [Pool.step_cell_of_ne hpool (hne d)] using hI hmain d

end Wired

end Relay

end Rog
