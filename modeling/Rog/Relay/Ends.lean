import Rog.Block
import Mathlib.Logic.Function.Basic

/-!
# The ends of a relayed connection

What both modes of `handle_tcp_connection` share: the two directions, what has come out of
each read half and gone into each write half, the observer's totals, and the writing of the
handshake cache before any task is spawned.
-/

namespace Rog

open Lib

/-- `s2c` goes from `server_r` to `client_w`, `c2s` from `client_r` to `server_w`. -/
inductive Direction where
  | s2c
  | c2s
  deriving DecidableEq

namespace Direction

def opposite : Direction → Direction
  | .s2c => .c2s
  | .c2s => .s2c

theorem eq_or_eq_opposite (d e : Direction) : e = d ∨ e = d.opposite := by
  cases d <;> cases e <;> simp [opposite]

theorem opposite_ne (d : Direction) : d.opposite ≠ d := by
  cases d <;> simp [opposite]

end Direction

/-- One read half and the write half it is relayed to. `returned` are the chunks its read
calls have returned, `written` the bytes whose write calls have returned `Ok`, `observed`
the observer's total for this write half. -/
structure Ends where
  returned : List Bytes
  written : Bytes
  observed : ℕ
  deriving DecidableEq

namespace Ends

def new : Ends := ⟨[], [], 0⟩

def read (e : Ends) (data : Bytes) : Ends := { e with returned := e.returned ++ [data] }

def write (e : Ends) (data : Bytes) : Ends := { e with written := e.written ++ data }

/-- `observe.add_tx` or `observe.add_rx`, if there is an observer. -/
def count (e : Ends) (observe : Bool) (n : ℕ) : Ends :=
  if observe then { e with observed := e.observed + n } else e

def source (e : Ends) : Bytes := e.returned.flatten

@[simp] theorem read_source (e : Ends) (data : Bytes) :
    (e.read data).source = e.source ++ data := by
  simp [read, source]

@[simp] theorem read_written (e : Ends) (data : Bytes) : (e.read data).written = e.written := rfl

@[simp] theorem read_observed (e : Ends) (data : Bytes) : (e.read data).observed = e.observed := rfl

@[simp] theorem write_returned (e : Ends) (data : Bytes) :
    (e.write data).returned = e.returned := rfl

@[simp] theorem write_source (e : Ends) (data : Bytes) : (e.write data).source = e.source := rfl

@[simp] theorem write_written (e : Ends) (data : Bytes) :
    (e.write data).written = e.written ++ data := rfl

@[simp] theorem write_observed (e : Ends) (data : Bytes) :
    (e.write data).observed = e.observed := rfl

@[simp] theorem count_returned (e : Ends) (observe : Bool) (n : ℕ) :
    (e.count observe n).returned = e.returned := by
  cases observe <;> rfl

@[simp] theorem count_source (e : Ends) (observe : Bool) (n : ℕ) :
    (e.count observe n).source = e.source := by
  cases observe <;> rfl

@[simp] theorem count_written (e : Ends) (observe : Bool) (n : ℕ) :
    (e.count observe n).written = e.written := by
  cases observe <;> rfl

/-- All bytes written are observed, but for the last `n`. -/
def Observed (e : Ends) (observe : Bool) (n : ℕ) : Prop :=
  observe = true → e.observed + n = e.written.length

theorem Observed.write {e : Ends} {observe : Bool} (h : e.Observed observe 0) (data : Bytes) :
    (e.write data).Observed observe data.length := by
  intro ho
  have := h ho
  simp only [write_written, write_observed, List.length_append]
  omega

theorem Observed.count {e : Ends} {observe : Bool} {n : ℕ} (h : e.Observed observe n) :
    (e.count observe n).Observed observe 0 := by
  intro ho
  have := h ho
  simp only [Ends.count, ho, if_true]
  omega

theorem Observed.read {e : Ends} {observe : Bool} {n : ℕ} (h : e.Observed observe n)
    (data : Bytes) : (e.read data).Observed observe n := h

end Ends

/-- The result of a read call; `Ok(0)` is the end of the stream. -/
inductive ReadResult where
  | ok (data : Bytes)
  | eof
  | err
  deriving DecidableEq

/-- A read into a buffer of `TCP_IO_BUFFER_SIZE` bytes returns what fits. -/
def ReadResult.Fits : ReadResult → Prop
  | .ok data => data ≠ [] ∧ data.length ≤ tcpIoBufferSize.toNat
  | .eof | .err => True

instance (r : ReadResult) : Decidable r.Fits := by
  cases r <;> unfold ReadResult.Fits <;> infer_instance

/-! ## Before the tasks -/

/-- `handle_tcp_connection` up to the point where it spawns its tasks. -/
inductive Main where
  | writeCache (cache : Bytes)
  | countCache (n : ℕ)
  | startLoop
  | spawned
  | failed
  deriving DecidableEq

def Main.new : Option Bytes → Main
  | some cache => .writeCache cache
  | none => .startLoop

inductive CacheEvent where
  | written
  | writeFailed
  | counted
  deriving DecidableEq

/-- `if let Some(c) = cache { .. }`, on the ends of `client_w`. -/
def cacheStep (observe : Bool) : CacheEvent → Main → Ends → Option (Main × Ends)
  | .written, .writeCache cache, e => some (.countCache cache.length, e.write cache)
  | .writeFailed, .writeCache _, e => some (.failed, e)
  | .counted, .countCache n, e => some (.startLoop, e.count observe n)
  | _, _, _ => none

theorem cacheStep_not_spawned {observe : Bool} {p p' : Main} {e x : Ends} {ev : CacheEvent}
    (h : cacheStep observe ev p e = some (p', x)) : p ≠ .spawned := by
  rintro rfl
  cases ev <;> simp [cacheStep] at h

/-- The bytes that are written to a write half before any that its read half returns. -/
def cacheOf (cache : Option Bytes) : Direction → Bytes
  | .s2c => cache.getD []
  | .c2s => []

/-- What is known of the ends before the tasks are spawned. -/
def Main.Ready (observe : Bool) (cache : Option Bytes) : Main → (Direction → Ends) → Prop
  | .writeCache c, e => cache = some c ∧ ∀ d, e d = .new
  | .countCache n, e => (∀ d, (e d).returned = [] ∧ (e d).written = cacheOf cache d) ∧
      (e .s2c).Observed observe n ∧ (e .c2s).Observed observe 0
  | .startLoop, e => ∀ d, (e d).returned = [] ∧ (e d).written = cacheOf cache d ∧
      (e d).Observed observe 0
  | .failed, e => ∀ d, e d = .new
  | .spawned, _ => True

theorem Main.ready_new (observe : Bool) (cache : Option Bytes) :
    (Main.new cache).Ready observe cache fun _ ↦ .new := by
  cases cache with
  | none =>
      intro d
      cases d <;> exact ⟨rfl, rfl, fun _ ↦ rfl⟩
  | some c => exact ⟨rfl, fun _ ↦ rfl⟩

theorem Main.Ready.cacheStep {observe : Bool} {cache : Option Bytes} {p p' : Main}
    {e : Direction → Ends} {x : Ends} {ev : CacheEvent} (h : p.Ready observe cache e)
    (hstep : cacheStep observe ev p (e .s2c) = some (p', x)) :
    p'.Ready observe cache (Function.update e .s2c x) ∧ p' ≠ .spawned := by
  cases ev <;> cases p <;> simp only [Rog.cacheStep, Option.some.injEq, Prod.mk.injEq,
    reduceCtorEq] at hstep <;> obtain ⟨rfl, rfl⟩ := hstep
  case written.writeCache c =>
    obtain ⟨rfl, hnew⟩ := h
    refine ⟨⟨?_, ?_, ?_⟩, nofun⟩
    · intro d
      cases d <;> simp [hnew, cacheOf, Ends.new, Ends.write]
    · simp [hnew, Ends.Observed, Ends.new, Ends.write]
    · simp [hnew, Ends.Observed, Ends.new]
  case writeFailed.writeCache c =>
    refine ⟨?_, nofun⟩
    intro d
    cases d <;> simp [h.2]
  case counted.countCache n =>
    obtain ⟨hends, hs2c, hc2s⟩ := h
    refine ⟨?_, nofun⟩
    intro d
    cases d with
    | s2c => simpa using ⟨(hends .s2c).1, (hends .s2c).2, hs2c.count⟩
    | c2s => simpa using ⟨(hends .c2s).1, (hends .c2s).2, hc2s⟩

end Rog
