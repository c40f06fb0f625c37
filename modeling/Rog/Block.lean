import Rog.Lib.Notify

/-!
# Block manager and data blocks

`BlockManager` is the pool counter that all connections share, `DataBlock` the queue
between the reading and the writing task of one direction of one connection.

`provide` and `consume` are asynchronous functions. Each is given here as a program counter
with one step for each lock, load, read-modify-write and notification of the source, so
that any interleaving of them can be run. Their futures can be dropped at the points where
the source awaits, and before their first poll.
-/

namespace Rog

open Lib

abbrev Bytes := List UInt8

/-- `TCP_IO_BUFFER_SIZE`, the size of every buffer that the relay reads into. -/
def tcpIoBufferSize : UInt64 := 2048

/-! ## The block manager -/

/-- `ι` names the data blocks; a waiting `provide` call registers under its block. -/
structure BlockManager (ι : Type*) where
  blockLimit : UInt64
  takenBlocks : UInt64
  takeCount : UInt64
  notify : Notify ι
  deriving DecidableEq

namespace BlockManager

variable {ι : Type*}

def new (blockLimit : UInt64) : BlockManager ι := ⟨blockLimit, 0, 0, .new⟩

def canTake (m : BlockManager ι) : Bool := decide (m.takenBlocks < m.blockLimit)

/-- The first atomic step of `take`; `fetch_add` wraps. -/
def takeBlock (m : BlockManager ι) : BlockManager ι :=
  { m with takenBlocks := m.takenBlocks + 1 }

/-- The second atomic step of `take`. What follows it is logging. -/
def takeCounted (m : BlockManager ι) : BlockManager ι :=
  { m with takeCount := m.takeCount + 1 }

/-- The first atomic step of `release`; `fetch_sub` wraps. -/
def releaseBlock (m : BlockManager ι) : BlockManager ι :=
  { m with takenBlocks := m.takenBlocks - 1 }

/-- The second atomic step of `release`. -/
def releaseNotify (m : BlockManager ι) : BlockManager ι :=
  { m with notify := m.notify.notifyOne }

end BlockManager

/-! ## The data block -/

structure DataBlock where
  data : List Bytes
  provideNotify : Notify Unit
  consumeNotify : Notify Unit
  deriving DecidableEq

namespace DataBlock

def new : DataBlock := ⟨[], .new, .new⟩

def pushBack (b : DataBlock) (data : Bytes) : DataBlock := { b with data := b.data ++ [data] }

end DataBlock

/-! ## `DataBlock::provide` -/

/-- The program counter of one task's `provide` call. -/
inductive Provide where
  | idle
  | start (data : Bytes)
  /-- `inner_provide` in the loop, about to test `is_empty`. -/
  | retry (data : Bytes)
  /-- The queue was not empty; about to call `can_take`. -/
  | limit (data : Bytes)
  | take (data : Bytes)
  | count (data : Bytes)
  | push (data : Bytes)
  | notify
  /-- In `select!` on `consume_notify.notified()` and `block_manager.wait()`. -/
  | select (data : Bytes)
  /-- The first branch won; the future of the second is about to be dropped. -/
  | dropWait (data : Bytes)
  /-- The second branch won; the future of the first is about to be dropped. -/
  | dropNotified (data : Bytes)
  /-- The call was cancelled in the `select!`; both futures are about to be dropped. -/
  | cancelNotified
  | cancelWait
  deriving DecidableEq

/-- What happens to a `provide` call: its code runs on, a branch of its `select!` is
polled, or its future is dropped. -/
inductive ProvideEvent where
  | run
  | pollNotified
  | pollWait
  | drop
  deriving DecidableEq

section Provide

variable {ι : Type*} [DecidableEq ι]

def checkEmpty (b : DataBlock) (data : Bytes) : Provide :=
  if b.data.isEmpty then .take data else .limit data

/-- One atomic step of the `provide` call on block `b`, which has name `i`. -/
def provideStep (i : ι) (e : ProvideEvent) (m : BlockManager ι) (b : DataBlock) :
    Provide → Option (BlockManager ι × DataBlock × Provide)
  | .start data => match e with
    | .run => some (m, b, checkEmpty b data)
    | .drop => some (m, b, .idle)
    | _ => none
  | .retry data => match e with
    | .run => some (m, b, checkEmpty b data)
    | _ => none
  | .limit data => match e with
    | .run => some (m, b, if m.canTake then .take data else .select data)
    | _ => none
  | .take data => match e with
    | .run => some (m.takeBlock, b, .count data)
    | _ => none
  | .count data => match e with
    | .run => some (m.takeCounted, b, .push data)
    | _ => none
  | .push data => match e with
    | .run => some (m, b.pushBack data, .notify)
    | _ => none
  | .notify => match e with
    | .run => some (m, { b with provideNotify := b.provideNotify.notifyOne }, .idle)
    | _ => none
  | .select data => match e with
    | .pollNotified =>
        let (ready, n) := b.consumeNotify.poll ()
        some (m, { b with consumeNotify := n }, if ready then .dropWait data else .select data)
    | .pollWait =>
        let (ready, n) := m.notify.poll i
        some ({ m with notify := n }, b, if ready then .dropNotified data else .select data)
    | .drop => some (m, b, .cancelNotified)
    | .run => none
  | .dropWait data => match e with
    | .run => some ({ m with notify := m.notify.dropFuture i }, b, .retry data)
    | _ => none
  | .dropNotified data => match e with
    | .run => some (m, { b with consumeNotify := b.consumeNotify.dropFuture () }, .retry data)
    | _ => none
  | .cancelNotified => match e with
    | .run => some (m, { b with consumeNotify := b.consumeNotify.dropFuture () }, .cancelWait)
    | _ => none
  | .cancelWait => match e with
    | .run => some ({ m with notify := m.notify.dropFuture i }, b, .idle)
    | _ => none
  | .idle => none

/-- What a step of `provide` can be; the inversion of `provideStep`. -/
inductive ProvideMove (i : ι) (m : BlockManager ι) (b : DataBlock) :
    ProvideEvent → Provide → BlockManager ι → DataBlock → Provide → Prop where
  | unpolled (data : Bytes) : ProvideMove i m b .drop (.start data) m b .idle
  | empty (p : Provide) (data : Bytes) (hp : p = .start data ∨ p = .retry data)
      (hempty : b.data = []) : ProvideMove i m b .run p m b (.take data)
  | nonempty (p : Provide) (data : Bytes) (hp : p = .start data ∨ p = .retry data)
      (hne : b.data ≠ []) : ProvideMove i m b .run p m b (.limit data)
  | canTake (data : Bytes) (hlimit : m.canTake = true) :
      ProvideMove i m b .run (.limit data) m b (.take data)
  | full (data : Bytes) (hlimit : m.canTake = false) :
      ProvideMove i m b .run (.limit data) m b (.select data)
  | take (data : Bytes) : ProvideMove i m b .run (.take data) m.takeBlock b (.count data)
  | count (data : Bytes) : ProvideMove i m b .run (.count data) m.takeCounted b (.push data)
  | push (data : Bytes) : ProvideMove i m b .run (.push data) m (b.pushBack data) .notify
  | notify : ProvideMove i m b .run .notify m
      { b with provideNotify := b.provideNotify.notifyOne } .idle
  | notified (data : Bytes) (hready : (b.consumeNotify.poll ()).1 = true) :
      ProvideMove i m b .pollNotified (.select data) m
        { b with consumeNotify := (b.consumeNotify.poll ()).2 } (.dropWait data)
  | notNotified (data : Bytes) (hready : (b.consumeNotify.poll ()).1 = false) :
      ProvideMove i m b .pollNotified (.select data) m
        { b with consumeNotify := (b.consumeNotify.poll ()).2 } (.select data)
  | released (data : Bytes) (hready : (m.notify.poll i).1 = true) :
      ProvideMove i m b .pollWait (.select data) { m with notify := (m.notify.poll i).2 } b
        (.dropNotified data)
  | notReleased (data : Bytes) (hready : (m.notify.poll i).1 = false) :
      ProvideMove i m b .pollWait (.select data) { m with notify := (m.notify.poll i).2 } b
        (.select data)
  | dropWait (data : Bytes) : ProvideMove i m b .run (.dropWait data)
      { m with notify := m.notify.dropFuture i } b (.retry data)
  | dropNotified (data : Bytes) : ProvideMove i m b .run (.dropNotified data) m
      { b with consumeNotify := b.consumeNotify.dropFuture () } (.retry data)
  | cancel (data : Bytes) : ProvideMove i m b .drop (.select data) m b .cancelNotified
  | cancelNotified : ProvideMove i m b .run .cancelNotified m
      { b with consumeNotify := b.consumeNotify.dropFuture () } .cancelWait
  | cancelWait : ProvideMove i m b .run .cancelWait
      { m with notify := m.notify.dropFuture i } b .idle

theorem checkEmpty_move (i : ι) (m : BlockManager ι) (b : DataBlock) (p : Provide) (data : Bytes)
    (hp : p = .start data ∨ p = .retry data) :
    ProvideMove i m b .run p m b (checkEmpty b data) := by
  cases hb : b.data with
  | nil => simpa [checkEmpty, hb] using ProvideMove.empty (m := m) (i := i) p data hp hb
  | cons x xs =>
      have hne : b.data ≠ [] := by simp [hb]
      simpa [checkEmpty, hb] using ProvideMove.nonempty (m := m) (i := i) p data hp hne

theorem provideStep_move {i : ι} {e : ProvideEvent} {m m' : BlockManager ι} {b b' : DataBlock}
    {p p' : Provide} (h : provideStep i e m b p = some (m', b', p')) :
    ProvideMove i m b e p m' b' p' := by
  cases p <;> cases e <;> simp only [provideStep, Option.some.injEq, Prod.mk.injEq,
    reduceCtorEq] at h <;> obtain ⟨rfl, rfl, rfl⟩ := h
  case start.run data => exact checkEmpty_move i m b _ data (.inl rfl)
  case start.drop data => exact .unpolled data
  case retry data => exact checkEmpty_move i m b _ data (.inr rfl)
  case limit data =>
    cases hlimit : m.canTake with
    | true => simpa using ProvideMove.canTake data hlimit
    | false => simpa using ProvideMove.full data hlimit
  case take data => exact .take data
  case count data => exact .count data
  case push data => exact .push data
  case notify => exact .notify
  case select.pollNotified data =>
    cases hready : (b.consumeNotify.poll ()).1 with
    | true => simpa using ProvideMove.notified data hready
    | false => simpa using ProvideMove.notNotified data hready
  case select.pollWait data =>
    cases hready : (m.notify.poll i).1 with
    | true => simpa using ProvideMove.released data hready
    | false => simpa using ProvideMove.notReleased data hready
  case select.drop data => exact .cancel data
  case dropWait data => exact .dropWait data
  case dropNotified data => exact .dropNotified data
  case cancelNotified => exact .cancelNotified
  case cancelWait => exact .cancelWait

end Provide

/-! ## `DataBlock::consume` -/

/-- The program counter of one task's `consume` call. -/
inductive Consume where
  | idle
  | start
  | wait
  /-- Notified, about to test `is_empty` again. -/
  | recheck
  /-- About to `pop_front().unwrap()`. -/
  | pop
  | release (data : Bytes)
  | releaseNotify (data : Bytes)
  | notify (data : Bytes)
  /-- The future is ready with the chunk and has not been taken by the task. -/
  | ready (data : Bytes)
  /-- The call was cancelled while it waited; its future is about to be dropped. -/
  | cancel
  /-- `unwrap` found an empty queue. -/
  | panicked
  deriving DecidableEq

inductive ConsumeEvent where
  | run
  | poll
  | drop
  deriving DecidableEq

section Consume

variable {ι : Type*}

/-- One atomic step of the `consume` call on block `b`. -/
def consumeStep (e : ConsumeEvent) (m : BlockManager ι) (b : DataBlock) :
    Consume → Option (BlockManager ι × DataBlock × Consume)
  | .start => match e with
    | .run => some (m, b, if b.data.isEmpty then .wait else .pop)
    | .drop => some (m, b, .idle)
    | .poll => none
  | .wait => match e with
    | .poll =>
        let (ready, n) := b.provideNotify.poll ()
        some (m, { b with provideNotify := n }, if ready then .recheck else .wait)
    | .drop => some (m, b, .cancel)
    | .run => none
  | .recheck => match e with
    | .run => some (m, b, if b.data.isEmpty then .wait else .pop)
    | _ => none
  | .pop => match e with
    | .run => match b.data with
      | [] => some (m, b, .panicked)
      | data :: rest => some (m, { b with data := rest }, .release data)
    | _ => none
  | .release data => match e with
    | .run => some (m.releaseBlock, b, .releaseNotify data)
    | _ => none
  | .releaseNotify data => match e with
    | .run => some (m.releaseNotify, b, .notify data)
    | _ => none
  | .notify data => match e with
    | .run => some (m, { b with consumeNotify := b.consumeNotify.notifyOne }, .ready data)
    | _ => none
  | .cancel => match e with
    | .run => some (m, { b with provideNotify := b.provideNotify.dropFuture () }, .idle)
    | _ => none
  | .idle | .ready _ | .panicked => none

/-- What a step of `consume` can be; the inversion of `consumeStep`. -/
inductive ConsumeMove (m : BlockManager ι) (b : DataBlock) :
    ConsumeEvent → Consume → BlockManager ι → DataBlock → Consume → Prop where
  | unpolled : ConsumeMove m b .drop .start m b .idle
  | empty (q : Consume) (hq : q = .start ∨ q = .recheck) (hempty : b.data = []) :
      ConsumeMove m b .run q m b .wait
  | nonempty (q : Consume) (hq : q = .start ∨ q = .recheck) (hne : b.data ≠ []) :
      ConsumeMove m b .run q m b .pop
  | notified (hready : (b.provideNotify.poll ()).1 = true) :
      ConsumeMove m b .poll .wait m { b with provideNotify := (b.provideNotify.poll ()).2 } .recheck
  | notNotified (hready : (b.provideNotify.poll ()).1 = false) :
      ConsumeMove m b .poll .wait m { b with provideNotify := (b.provideNotify.poll ()).2 } .wait
  | pop (data : Bytes) (rest : List Bytes) (hdata : b.data = data :: rest) :
      ConsumeMove m b .run .pop m { b with data := rest } (.release data)
  | panic (hdata : b.data = []) : ConsumeMove m b .run .pop m b .panicked
  | release (data : Bytes) :
      ConsumeMove m b .run (.release data) m.releaseBlock b (.releaseNotify data)
  | releaseNotify (data : Bytes) :
      ConsumeMove m b .run (.releaseNotify data) m.releaseNotify b (.notify data)
  | notify (data : Bytes) : ConsumeMove m b .run (.notify data) m
      { b with consumeNotify := b.consumeNotify.notifyOne } (.ready data)
  | cancel : ConsumeMove m b .drop .wait m b .cancel
  | cancelled : ConsumeMove m b .run .cancel m
      { b with provideNotify := b.provideNotify.dropFuture () } .idle

theorem consumeEmpty_move (m : BlockManager ι) (b : DataBlock) (q : Consume)
    (hq : q = .start ∨ q = .recheck) :
    ConsumeMove m b .run q m b (if b.data.isEmpty then .wait else .pop) := by
  cases hb : b.data with
  | nil => simpa using ConsumeMove.empty (m := m) q hq hb
  | cons x xs =>
      have hne : b.data ≠ [] := by simp [hb]
      simpa using ConsumeMove.nonempty (m := m) q hq hne

theorem consumeStep_move {e : ConsumeEvent} {m m' : BlockManager ι} {b b' : DataBlock}
    {q q' : Consume} (h : consumeStep e m b q = some (m', b', q')) :
    ConsumeMove m b e q m' b' q' := by
  cases q <;> cases e <;> simp only [consumeStep, Option.some.injEq, Prod.mk.injEq,
    reduceCtorEq] at h
  case pop.run =>
    cases hdata : b.data with
    | nil =>
        obtain ⟨rfl, rfl, rfl⟩ := by simpa [hdata] using h
        exact .panic hdata
    | cons data rest =>
        obtain ⟨rfl, rfl, rfl⟩ := by simpa [hdata] using h
        exact .pop data rest hdata
  all_goals obtain ⟨rfl, rfl, rfl⟩ := h
  case start.run => exact consumeEmpty_move m b _ (.inl rfl)
  case start.drop => exact .unpolled
  case wait.poll =>
    cases hready : (b.provideNotify.poll ()).1 with
    | true => simpa using ConsumeMove.notified hready
    | false => simpa using ConsumeMove.notNotified hready
  case wait.drop => exact .cancel
  case recheck.run => exact consumeEmpty_move m b _ (.inr rfl)
  case release.run data => exact .release data
  case releaseNotify.run data => exact .releaseNotify data
  case notify.run data => exact .notify data
  case cancel.run => exact .cancelled

end Consume

end Rog
