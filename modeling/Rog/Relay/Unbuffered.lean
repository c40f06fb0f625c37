import Rog.Lib.Machine
import Rog.Relay.Ends

/-!
# The unbuffered relay

`handle_tcp_connection` without a block manager: one task for each direction, which writes
each chunk before it reads the next one.
-/

namespace Rog

open Lib

/-- Why a copying task has left its loop; it logs each of them. -/
inductive CopyExit where
  | eof
  | error
  | interrupted
  | writeError
  deriving DecidableEq

/-- The tasks `s2c` and `c2s`. -/
inductive Copier where
  /-- In the `select!`, with the read call pending. -/
  | reading
  | writing (data : Bytes)
  | counting (n : ℕ)
  /-- Out of the loop, about to cancel the token. -/
  | finishing (why : CopyExit)
  | finished (why : CopyExit)
  deriving DecidableEq

structure CopyLane where
  ends : Ends
  task : Copier
  deriving DecidableEq

def CopyLane.new : CopyLane := ⟨.new, .reading⟩

inductive CopyEvent where
  | read (r : ReadResult)
  | readCancelled
  | written
  | writeFailed
  | counted
  | cancel
  deriving DecidableEq

/-- One step of a copying task: the lane after it, and whether it cancels the token. -/
def copyStep (observe token : Bool) (l : CopyLane) : CopyEvent → Option (CopyLane × Bool)
  | .read r => match l.task, r with
    | .reading, .ok data =>
        if (ReadResult.ok data).Fits then
          some ({ ends := l.ends.read data, task := .writing data }, false)
        else none
    | .reading, .eof => some ({ l with task := .finishing .eof }, false)
    | .reading, .err => some ({ l with task := .finishing .error }, false)
    | _, _ => none
  | .readCancelled => match l.task with
    | .reading => if token then some ({ l with task := .finishing .interrupted }, false) else none
    | _ => none
  | .written => match l.task with
    | .writing data =>
        some ({ ends := l.ends.write data, task := .counting data.length }, false)
    | _ => none
  | .writeFailed => match l.task with
    | .writing _ => some ({ l with task := .finishing .writeError }, false)
    | _ => none
  | .counted => match l.task with
    | .counting n => some ({ ends := l.ends.count observe n, task := .reading }, false)
    | _ => none
  | .cancel => match l.task with
    | .finishing why => some ({ l with task := .finished why }, true)
    | _ => none

/-- What a step of a copying task can be; the inversion of `copyStep`. -/
inductive CopyMove (observe token : Bool) (l : CopyLane) :
    CopyEvent → CopyLane → Bool → Prop where
  | read (data : Bytes) (hreading : l.task = .reading) (hfits : (ReadResult.ok data).Fits) :
      CopyMove observe token l (.read (.ok data))
        { ends := l.ends.read data, task := .writing data } false
  | eof (hreading : l.task = .reading) :
      CopyMove observe token l (.read .eof) { l with task := .finishing .eof } false
  | readError (hreading : l.task = .reading) :
      CopyMove observe token l (.read .err) { l with task := .finishing .error } false
  | readCancelled (hreading : l.task = .reading) (htoken : token = true) :
      CopyMove observe token l .readCancelled { l with task := .finishing .interrupted } false
  | written (data : Bytes) (hwriting : l.task = .writing data) :
      CopyMove observe token l .written
        { ends := l.ends.write data, task := .counting data.length } false
  | writeFailed (data : Bytes) (hwriting : l.task = .writing data) :
      CopyMove observe token l .writeFailed { l with task := .finishing .writeError } false
  | counted (n : ℕ) (hcounting : l.task = .counting n) :
      CopyMove observe token l .counted { ends := l.ends.count observe n, task := .reading } false
  | cancel (why : CopyExit) (hfinishing : l.task = .finishing why) :
      CopyMove observe token l .cancel { l with task := .finished why } true

theorem copyStep_move {observe token : Bool} {l l' : CopyLane} {e : CopyEvent} {cancels : Bool}
    (h : copyStep observe token l e = some (l', cancels)) :
    CopyMove observe token l e l' cancels := by
  cases e with
  | read r =>
      cases ht : l.task <;> cases r <;> simp only [copyStep, ht, reduceCtorEq] at h
      case reading.ok data =>
        obtain ⟨hfits, rfl, rfl⟩ : (ReadResult.ok data).Fits ∧ _ := by simpa using h
        exact .read data ht hfits
      case reading.eof =>
        obtain ⟨rfl, rfl⟩ := by simpa using h
        exact .eof ht
      case reading.err =>
        obtain ⟨rfl, rfl⟩ := by simpa using h
        exact .readError ht
  | readCancelled =>
      cases ht : l.task <;> simp only [copyStep, ht, reduceCtorEq] at h
      obtain ⟨htoken, rfl, rfl⟩ : token = true ∧ _ := by simpa using h
      exact .readCancelled ht htoken
  | written =>
      cases ht : l.task <;> simp only [copyStep, ht, reduceCtorEq] at h
      case writing data =>
        obtain ⟨rfl, rfl⟩ := by simpa using h
        exact .written data ht
  | writeFailed =>
      cases ht : l.task <;> simp only [copyStep, ht, reduceCtorEq] at h
      case writing data =>
        obtain ⟨rfl, rfl⟩ := by simpa using h
        exact .writeFailed data ht
  | counted =>
      cases ht : l.task <;> simp only [copyStep, ht, reduceCtorEq] at h
      case counting n =>
        obtain ⟨rfl, rfl⟩ := by simpa using h
        exact .counted n ht
  | cancel =>
      cases ht : l.task <;> simp only [copyStep, ht, reduceCtorEq] at h
      case finishing why =>
        obtain ⟨rfl, rfl⟩ := by simpa using h
        exact .cancel why ht

/-! ## The connection -/

structure DirectRelay where
  main : Main
  token : Bool
  lane : Direction → CopyLane

inductive DirectEvent where
  | cache (e : CacheEvent)
  | spawn
  | lane (d : Direction) (e : CopyEvent)
  deriving DecidableEq

namespace DirectRelay

def setLane (s : DirectRelay) (d : Direction) (l : CopyLane) : DirectRelay :=
  { s with lane := Function.update s.lane d l }

def step (observe : Bool) (s : DirectRelay) : DirectEvent → Option DirectRelay
  | .cache e =>
      (cacheStep observe e s.main (s.lane .s2c).ends).map fun (p, x) ↦
        { s.setLane .s2c { s.lane .s2c with ends := x } with main := p }
  | .spawn => if s.main = .startLoop then some { s with main := .spawned } else none
  | .lane d e =>
      if s.main = .spawned then
        (copyStep observe s.token (s.lane d) e).map fun (l, cancels) ↦
          { s.setLane d l with token := s.token || cancels }
      else none

def new (cache : Option Bytes) : DirectRelay := ⟨.new cache, false, fun _ ↦ .new⟩

def machine (cache : Option Bytes) (observe : Bool) : Machine DirectRelay DirectEvent where
  init s := s = new cache
  step := step observe

theorem step_cases {observe : Bool} {s t : DirectRelay} {ev : DirectEvent}
    (h : s.step observe ev = some t) :
    (∃ e p x, ev = .cache e ∧ cacheStep observe e s.main (s.lane .s2c).ends = some (p, x) ∧
      t = { s.setLane .s2c { s.lane .s2c with ends := x } with main := p }) ∨
    (ev = .spawn ∧ s.main = .startLoop ∧ t = { s with main := .spawned }) ∨
    (∃ d e l cancels, ev = .lane d e ∧ s.main = .spawned ∧
      CopyMove observe s.token (s.lane d) e l cancels ∧
      t = { s.setLane d l with token := s.token || cancels }) := by
  cases ev with
  | cache e =>
      obtain ⟨⟨p, x⟩, hcache, rfl⟩ := Option.map_eq_some_iff.mp h
      exact .inl ⟨e, p, x, rfl, hcache, rfl⟩
  | spawn =>
      obtain ⟨hmain, rfl⟩ : s.main = .startLoop ∧ _ := by simpa [step] using h
      exact .inr (.inl ⟨rfl, hmain, rfl⟩)
  | lane d e =>
      simp only [step] at h
      split at h
      case isTrue hmain =>
        obtain ⟨⟨l, cancels⟩, hcopy, rfl⟩ := Option.map_eq_some_iff.mp h
        exact .inr (.inr ⟨d, e, l, cancels, rfl, hmain, copyStep_move hcopy, rfl⟩)
      case isFalse => simp at h

end DirectRelay

end Rog
