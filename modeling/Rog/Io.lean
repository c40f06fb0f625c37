import Rog.Lib.Segments
import Rog.Block

/-!
# Input, output and their failures

A call of the modelled program returns a value, returns an `io::Error`, or panics.
-/

namespace Rog

open Lib

/-- The kinds of `io::Error` that the modelled functions construct. -/
inductive ErrorKind where
  | other
  | invalidData
  | invalidInput
  | interrupted
  | unexpectedEof
  | notConnected
  | connectionAborted
  | timedOut
  | brokenPipe
  deriving DecidableEq

structure IoError where
  kind : ErrorKind
  message : String
  deriving DecidableEq

inductive Fault where
  | err (e : IoError)
  | panic
  deriving DecidableEq

abbrev Io := Except Fault

namespace Io

variable {α β : Type}

def raise (kind : ErrorKind) (message : String) : Io α := .error (.err ⟨kind, message⟩)

/-- `io::Error::other`. -/
def other (message : String) : Io α := raise .other message

/-- `map_err` on what another crate returns. -/
def mapErr (describe : String → String) : Except String α → Io α
  | .ok a => .ok a
  | .error e => other (describe e)

theorem mapErr_eq_ok {describe : String → String} {r : Except String α} {a : α}
    (h : mapErr describe r = .ok a) : r = .ok a := by
  cases r with
  | ok b => exact congrArg Except.ok (Except.ok.inj h)
  | error e => cases h

/-- A computation none of whose steps ends in a fault does not end in it. -/
theorem bind_ne_error {x : Io α} {f : α → Io β} {e : Fault} (hx : x ≠ .error e)
    (hf : ∀ a, x = .ok a → f a ≠ .error e) : x >>= f ≠ .error e := by
  cases x with
  | error e' => exact fun h ↦ hx (congrArg Except.error (Except.error.inj h))
  | ok a => exact hf a rfl

/-- A computation that succeeds has succeeded at each of its steps. -/
theorem bind_eq_ok {x : Io α} {f : α → Io β} {b : β} (h : x >>= f = .ok b) :
    ∃ a, x = .ok a ∧ f a = .ok b := by
  cases x with
  | ok a => exact ⟨a, rfl, h⟩
  | error e => cases h

end Io

/-! ## Calls that act on a state -/

abbrev StateIo (σ : Type) := ExceptT Fault (StateM σ)

namespace StateIo

variable {σ α β : Type}

def runOn (x : StateIo σ α) (s : σ) : Io α × σ := x s

def ofIo (x : Io α) : StateIo σ α := fun s ↦ (x, s)

theorem runOn_pure (a : α) (s : σ) : runOn (pure a) s = (.ok a, s) := rfl

theorem runOn_ofIo (x : Io α) (s : σ) : runOn (ofIo x) s = (x, s) := rfl

theorem runOn_bind_ok {x : StateIo σ α} {f : α → StateIo σ β} {s t : σ} {a : α}
    (h : x.runOn s = (.ok a, t)) : (x >>= f).runOn s = (f a).runOn t := by
  have hx : x s = (.ok a, t) := h
  simp [runOn, bind, ExceptT.bind, ExceptT.mk, ExceptT.bindCont, StateT.bind, hx]

theorem runOn_bind_error {x : StateIo σ α} {f : α → StateIo σ β} {s t : σ} {e : Fault}
    (h : x.runOn s = (.error e, t)) : (x >>= f).runOn s = (.error e, t) := by
  have hx : x s = (.error e, t) := h
  simp [runOn, bind, ExceptT.bind, ExceptT.mk, ExceptT.bindCont, StateT.bind, hx]
  rfl

theorem runOn_bind_eq_ok {x : StateIo σ α} {f : α → StateIo σ β} {s u : σ} {b : β}
    (h : (x >>= f).runOn s = (.ok b, u)) :
    ∃ a t, x.runOn s = (.ok a, t) ∧ (f a).runOn t = (.ok b, u) := by
  obtain ⟨result, t, hx⟩ : ∃ result t, x.runOn s = (result, t) := ⟨_, _, rfl⟩
  cases result with
  | ok a => exact ⟨a, t, hx, by rwa [runOn_bind_ok hx] at h⟩
  | error e =>
      rw [runOn_bind_error hx] at h
      cases h

end StateIo

/-! ## The read half of a TCP connection -/

/-- The bytes that are still to come, in the segments in which they come. -/
abbrev Socket := List Bytes

abbrev SocketM := ExceptT Fault (StateM Socket)

namespace SocketM

variable {α β : Type}

def runOn (x : SocketM α) (s : Socket) : Io α × Socket := x s

/-- `AsyncReadExt::read_exact` into a buffer of `n` bytes. -/
def readExact (n : ℕ) : SocketM Bytes := fun s ↦
  match takeExact n s with
  | some (data, rest) => (.ok data, rest)
  | none => (Io.raise .unexpectedEof "early eof", [])

def ofIo (x : Io α) : SocketM α := fun s ↦ (x, s)

theorem runOn_pure (a : α) (s : Socket) : runOn (pure a) s = (.ok a, s) := rfl

theorem runOn_ofIo (x : Io α) (s : Socket) : runOn (ofIo x) s = (x, s) := rfl

theorem runOn_bind_ok {x : SocketM α} {f : α → SocketM β} {s t : Socket} {a : α}
    (h : x.runOn s = (.ok a, t)) : (x >>= f).runOn s = (f a).runOn t :=
  StateIo.runOn_bind_ok h

theorem runOn_bind_error {x : SocketM α} {f : α → SocketM β} {s t : Socket} {e : Fault}
    (h : x.runOn s = (.error e, t)) : (x >>= f).runOn s = (.error e, t) :=
  StateIo.runOn_bind_error h

theorem readExact_append {s : Socket} {data more : Bytes} (h : s.flatten = data ++ more) :
    ∃ t, (readExact data.length).runOn s = (.ok data, t) ∧ t.flatten = more := by
  obtain ⟨t, htake, ht⟩ := takeExact_append h
  exact ⟨t, by simp [readExact, runOn, htake], ht⟩

theorem readExact_eof {s : Socket} {n : ℕ} (h : s.flatten.length < n) :
    (readExact n).runOn s = (Io.raise .unexpectedEof "early eof", []) := by
  simp [readExact, runOn, takeExact_of_lt h]

end SocketM

end Rog
