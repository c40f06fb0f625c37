import Rog.Listener.RevGrpc
import Rog.Util.FrameCut

/-!
# The pb_tcp listener

`listener/pb_tcp.rs`: the task that `listen` spawns, the tasks that it spawns for the connections
that come in, the two channels that these feed, and `accept` in the loop of `Object::start`, the
end of which ends `main`. The connections are numbered as they come in.
-/

namespace Rog

open Lib

/-- What a connection is for. -/
inductive ConnType where
  | stream
  | udp
  deriving DecidableEq

def ConnType.byte : ConnType → UInt8
  | .stream => connTypeStream
  | .udp => connTypeUdp

def ConnType.ofByte (connType : UInt8) : Option ConnType :=
  if connType = connTypeStream then some .stream
  else if connType = connTypeUdp then some .udp
  else none

theorem ConnType.ofByte_eq_some {b : UInt8} {k : ConnType} : ofByte b = some k ↔ b = k.byte := by
  have hne : connTypeUdp ≠ connTypeStream := by decide
  unfold ofByte
  split
  case isTrue h =>
    subst h
    cases k <;> simp [ConnType.byte, hne.symm]
  case isFalse h =>
    split
    case isTrue h' =>
      subst h'
      cases k <;> simp [ConnType.byte, hne]
    case isFalse h' => cases k <;> simp [ConnType.byte, h, h']

/-- Connection number `id`, of which `reader` is still to be read. -/
structure PbTcpConn where
  id : ℕ
  reader : Socket

/-- The task of a connection. -/
inductive ConnTask where
  -- in `read_conn_type`
  | readType (reader : Socket)
  -- in `stream_tx.send(..)` or `udp_tx.send(..)`
  | send (connType : ConnType) (reader : Socket)
  | ended

/-- The task from `read_conn_type` to its next await point. -/
def ConnTask.afterType (reader : Socket) : ConnTask :=
  match readConnType.runOn reader with
  | (.ok connType, rest) => match ConnType.ofByte connType with
      | some k => .send k rest
      | none => .ended
  | (.error _, _) => .ended

inductive PbTcpListenPc where
  -- in `TcpListener::bind`
  | binding
  -- in `listener.accept()`
  | accepting
  | returned
  deriving DecidableEq

structure PbTcpListener where
  pc : PbTcpListenPc
  count : ℕ
  /-- What the clients send. -/
  incoming : ℕ → Socket
  tasks : ℕ → ConnTask
  channel : ConnType → Mpsc 8 ℕ PbTcpConn
  /-- What the calls of `accept` have returned. -/
  handed : List (ConnType × PbTcpConn)
  object : ObjectPc
  mainRunning : Bool

inductive PbTcpListenEvent where
  | bound (ok : Bool)
  | accepted (incoming : Socket)
  | acceptFailed
  | typeRead (i : ℕ)
  | sent (i : ℕ)
  -- `accept`, with the branch that its `select!` takes
  | accept (k : ConnType)
  | selectAll

/-- What takes connection `i` on, or is done by the object. -/
def PbTcpListenEvent.Own (i : ℕ) : PbTcpListenEvent → Prop
  | .typeRead j | .sent j => j = i
  | .accept _ => True
  | _ => False

namespace PbTcpListener

def new : PbTcpListener :=
  ⟨.binding, 0, fun _ ↦ [], fun _ ↦ .ended, fun _ ↦ .new, [], .accepting, true⟩

def setTask (s : PbTcpListener) (i : ℕ) (t : ConnTask) : PbTcpListener :=
  { s with tasks := Function.update s.tasks i t }

def setChannel (s : PbTcpListener) (k : ConnType) (c : Mpsc 8 ℕ PbTcpConn) : PbTcpListener :=
  { s with channel := Function.update s.channel k c }

/-- The task of connection `i` asks for a place in the channel that it sends to. -/
def request (s : PbTcpListener) (i : ℕ) : ConnTask → PbTcpListener
  | .send k _ => s.setChannel k ((s.channel k).request i)
  | .readType _ | .ended => s

def receiverClosed : ConnType → IoError
  | .stream => ⟨.other, "stream receiver closed"⟩
  | .udp => ⟨.other, "udp receiver closed"⟩

def step (s : PbTcpListener) : PbTcpListenEvent → Option PbTcpListener
  | .bound ok => match s.pc with
      | .binding =>
          if ok then some { s with pc := .accepting }
          -- the senders that no task has cloned yet are dropped
          else some { s with
            pc := .returned
            channel := fun k ↦ { s.channel k with txOpen := false } }
      | _ => none
  | .accepted incoming => match s.pc with
      | .accepting => some { s with
          count := s.count + 1
          incoming := Function.update s.incoming s.count incoming
          tasks := Function.update s.tasks s.count (.readType incoming) }
      | _ => none
  | .acceptFailed => match s.pc with
      | .accepting => some s
      | _ => none
  | .typeRead i => match s.tasks i with
      | .readType reader => some ((s.setTask i (.afterType reader)).request i (.afterType reader))
      | _ => none
  | .sent i => match s.tasks i with
      | .send k reader => ((s.channel k).send i ⟨i, reader⟩).map fun (c, _) ↦
          (s.setChannel k c).setTask i .ended
      | _ => none
  | .accept k => match s.object with
      | .accepting => (s.channel k).recv.map fun (c, item) ↦ match item with
          | some conn => { s.setChannel k c with handed := s.handed ++ [(k, conn)] }
          | none => { s.setChannel k c with object := .returned (receiverClosed k) }
      | .returned _ => none
  -- the object has dropped its acceptor, and `main` ends with its result
  | .selectAll => match s.object with
      | .accepting => none
      | .returned _ => some { s with
          channel := fun k ↦ { s.channel k with rxOpen := false }
          mainRunning := false }

def machine : Machine PbTcpListener PbTcpListenEvent where
  init s := s = new
  step := step

/-- What a step of the listener can be; the inversion of `step`. -/
inductive Move (s : PbTcpListener) : PbTcpListenEvent → PbTcpListener → Prop where
  | bound (hbinding : s.pc = .binding) : Move s (.bound true) { s with pc := .accepting }
  | bindFailed (hbinding : s.pc = .binding) : Move s (.bound false) { s with
      pc := .returned
      channel := fun k ↦ { s.channel k with txOpen := false } }
  | accepted (incoming : Socket) (haccepting : s.pc = .accepting) :
      Move s (.accepted incoming) { s with
        count := s.count + 1
        incoming := Function.update s.incoming s.count incoming
        tasks := Function.update s.tasks s.count (.readType incoming) }
  | acceptFailed (haccepting : s.pc = .accepting) : Move s .acceptFailed s
  | typeRead (i : ℕ) (reader : Socket) (htask : s.tasks i = .readType reader) :
      Move s (.typeRead i) ((s.setTask i (.afterType reader)).request i (.afterType reader))
  | sent (i : ℕ) (k : ConnType) (reader : Socket) (c : Mpsc 8 ℕ PbTcpConn) (ok : Bool)
      (htask : s.tasks i = .send k reader)
      (hsend : (s.channel k).send i ⟨i, reader⟩ = some (c, ok)) :
      Move s (.sent i) ((s.setChannel k c).setTask i .ended)
  | handed (k : ConnType) (c : Mpsc 8 ℕ PbTcpConn) (conn : PbTcpConn)
      (hobject : s.object = .accepting) (hrecv : (s.channel k).recv = some (c, some conn)) :
      Move s (.accept k) { s.setChannel k c with handed := s.handed ++ [(k, conn)] }
  | closed (k : ConnType) (c : Mpsc 8 ℕ PbTcpConn) (hobject : s.object = .accepting)
      (hrecv : (s.channel k).recv = some (c, none)) :
      Move s (.accept k) { s.setChannel k c with object := .returned (receiverClosed k) }
  | selectAll (e : IoError) (hobject : s.object = .returned e) : Move s .selectAll { s with
      channel := fun k ↦ { s.channel k with rxOpen := false }
      mainRunning := false }

theorem step_move {s t : PbTcpListener} {e : PbTcpListenEvent} (h : s.step e = some t) :
    s.Move e t := by
  cases e with
  | bound ok =>
      cases hpc : s.pc <;> simp only [step, hpc, reduceCtorEq] at h
      cases ok with
      | true =>
          obtain rfl := Option.some.inj h
          exact .bound hpc
      | false =>
          obtain rfl := Option.some.inj h
          exact .bindFailed hpc
  | accepted incoming =>
      cases hpc : s.pc <;> simp only [step, hpc, reduceCtorEq] at h
      obtain rfl := Option.some.inj h
      simpa only [hpc] using Move.accepted (s := s) incoming hpc
  | acceptFailed =>
      cases hpc : s.pc <;> simp only [step, hpc, reduceCtorEq] at h
      obtain rfl := Option.some.inj h
      exact .acceptFailed hpc
  | typeRead i =>
      cases htask : s.tasks i <;> simp only [step, htask, reduceCtorEq] at h
      obtain rfl := Option.some.inj h
      exact .typeRead i _ htask
  | sent i =>
      cases htask : s.tasks i <;> simp only [step, htask, reduceCtorEq] at h
      obtain ⟨⟨c, ok⟩, hsend, rfl⟩ := Option.map_eq_some_iff.mp h
      exact .sent i _ _ c ok htask hsend
  | accept k =>
      cases hobject : s.object <;> simp only [step, hobject, reduceCtorEq] at h
      obtain ⟨⟨c, item⟩, hrecv, rfl⟩ := Option.map_eq_some_iff.mp h
      cases item with
      | some conn => exact .handed k c conn hobject hrecv
      | none => exact .closed k c hobject hrecv
  | selectAll =>
      cases hobject : s.object <;> simp only [step, hobject, reduceCtorEq] at h
      obtain rfl := Option.some.inj h
      simpa only [hobject] using Move.selectAll _ hobject

/-! ## Where the connections are -/

/-- The connections of one kind that have come through their channel, with those that are in it. -/
def passed (s : PbTcpListener) (k : ConnType) : List PbTcpConn :=
  (s.handed.filterMap fun p ↦ if p.1 = k then some p.2 else none) ++ (s.channel k).queue

/-- Nothing is made of a connection that ends at once or starts with another byte. -/
def Refused (incoming : Socket) : Prop :=
  ∀ k rest, incoming.flatten ≠ ConnType.byte k :: rest

/-- Where the task of connection `i` is, and what it has read. -/
def TaskAt (s : PbTcpListener) (i : ℕ) : ConnTask → Prop
  | .readType reader => i < s.count ∧ reader = s.incoming i
  | .send k reader => i < s.count ∧ (s.incoming i).flatten = k.byte :: reader.flatten
  | .ended => i < s.count → (∃ k, ∃ c ∈ s.passed k, c.id = i) ∨ Refused (s.incoming i)

theorem TaskAt.of_subset {s t : PbTcpListener} {i : ℕ} {task : ConnTask} (h : s.TaskAt i task)
    (hcount : i < t.count ↔ i < s.count) (hincoming : t.incoming i = s.incoming i)
    (hpassed : ∀ k, s.passed k ⊆ t.passed k) : t.TaskAt i task := by
  cases task with
  | readType reader => exact ⟨hcount.mpr h.1, h.2.trans hincoming.symm⟩
  | send k reader => exact ⟨hcount.mpr h.1, hincoming ▸ h.2⟩
  | ended =>
      intro hlt
      rw [hincoming]
      apply (h (hcount.mp hlt)).imp_left
      rintro ⟨k, c, hc, hid⟩
      exact ⟨k, c, hpassed k hc, hid⟩

structure Sorts (s : PbTcpListener) : Prop where
  running : s.pc ≠ .returned → s.object = .accepting ∧ s.mainRunning = true ∧
    ∀ k, (s.channel k).txOpen = true ∧ (s.channel k).rxOpen = true
  unused : s.pc ≠ .accepting → s.count = 0
  tasks : ∀ i, s.TaskAt i (s.tasks i)
  passed : ∀ k, ∀ c ∈ s.passed k, c.id < s.count ∧ s.tasks c.id = .ended ∧
    (s.incoming c.id).flatten = k.byte :: c.reader.flatten
  nodup : ∀ k, ((s.passed k).map PbTcpConn.id).Nodup

theorem Sorts.new : new.Sorts where
  running _ := ⟨rfl, rfl, fun _ ↦ ⟨rfl, rfl⟩⟩
  unused _ := rfl
  tasks i h := absurd h (Nat.not_lt_zero i)
  passed k c hc := by cases hc
  nodup k := .nil

variable {s t : PbTcpListener} {e : PbTcpListenEvent}

theorem Sorts.accepting (hs : s.Sorts) {i : ℕ} (hi : i < s.count) : s.pc = .accepting := by
  by_contra hpc
  have hcount := hs.unused hpc
  omega

/-- What a task makes of what its client sends. -/
theorem taskAt_afterType {i : ℕ} (hi : i < s.count) :
    s.TaskAt i (.afterType (s.incoming i)) := by
  unfold ConnTask.afterType
  rcases hread : readConnType.runOn (s.incoming i) with ⟨res, rest⟩
  cases res with
  | error e =>
      refine fun _ ↦ .inr fun k rest' hk ↦ ?_
      obtain ⟨t, hok, -⟩ := readConnType_cons hk
      cases (Prod.mk.inj (hread.symm.trans hok)).1
  | ok b =>
      have hbytes := readConnType_eq_ok hread
      cases hk : ConnType.ofByte b with
      | some k =>
          rw [ConnType.ofByte_eq_some.mp hk] at hbytes
          simpa [hk] using ⟨hi, hbytes⟩
      | none =>
          simp only [hk]
          refine fun _ ↦ .inr fun k rest' hk' ↦ ?_
          rw [hbytes] at hk'
          rw [ConnType.ofByte_eq_some.mpr (List.cons.inj hk').1] at hk
          cases hk

theorem passed_handed {k : ConnType} {c : Mpsc 8 ℕ PbTcpConn} {conn : PbTcpConn}
    (hrecv : (s.channel k).recv = some (c, some conn)) :
    passed { s.setChannel k c with handed := s.handed ++ [(k, conn)] } = s.passed := by
  funext k'
  by_cases hk : k' = k
  · subst hk
    simp [passed, setChannel, (Mpsc.recv_eq_some hrecv).1]
  · have hne : ¬k = k' := fun h ↦ hk h.symm
    simp [passed, setChannel, hk, hne]

theorem handed_request (s : PbTcpListener) (i : ℕ) (task : ConnTask) :
    (s.request i task).handed = s.handed := by
  cases task <;> rfl

theorem passed_request (s : PbTcpListener) (i : ℕ) (task : ConnTask) :
    (s.request i task).passed = s.passed := by
  funext k'
  cases task with
  | send k reader =>
      by_cases hk : k' = k
      · subst hk
        simp [passed, request, setChannel, Mpsc.request]
      · simp [passed, request, setChannel, hk]
  | readType reader | ended => rfl

theorem passed_sent {i : ℕ} {k : ConnType} {c : Mpsc 8 ℕ PbTcpConn} {conn : PbTcpConn}
    (hc : c.queue = (s.channel k).queue ++ [conn]) (k' : ConnType) :
    ((s.setChannel k c).setTask i .ended).passed k' =
      s.passed k' ++ if k' = k then [conn] else [] := by
  by_cases hk : k' = k
  · subst hk
    simp [passed, setChannel, setTask, hc]
  · simp [passed, setChannel, setTask, hk]

/-- A step that leaves the tasks and the connections where they are. -/
theorem Sorts.of_passed_eq (hs : s.Sorts) (hcount : t.count = s.count)
    (hincoming : t.incoming = s.incoming) (htasks : t.tasks = s.tasks)
    (hpassed : t.passed = s.passed)
    (hrunning : t.pc ≠ .returned → t.object = .accepting ∧ t.mainRunning = true ∧
      ∀ k, (t.channel k).txOpen = true ∧ (t.channel k).rxOpen = true)
    (hunused : t.pc ≠ .accepting → t.count = 0) : t.Sorts where
  running := hrunning
  unused := hunused
  tasks i := by
    rw [htasks]
    refine (hs.tasks i).of_subset (by rw [hcount]) (by rw [hincoming]) fun k ↦ ?_
    rw [hpassed]
    exact List.Subset.refl _
  passed k c hc := by
    rw [hcount, hincoming, htasks]
    rw [hpassed] at hc
    exact hs.passed k c hc
  nodup k := by
    rw [hpassed]
    exact hs.nodup k

theorem Sorts.accepted (hs : s.Sorts) (haccepting : s.pc = .accepting) (incoming : Socket) :
    Sorts { s with
      count := s.count + 1
      incoming := Function.update s.incoming s.count incoming
      tasks := Function.update s.tasks s.count (.readType incoming) } where
  running := hs.running
  unused h := absurd haccepting h
  tasks i := by
    by_cases hi : i = s.count
    · subst hi
      simp [TaskAt]
    · have hcount : i < s.count + 1 ↔ i < s.count := by omega
      simp only [Function.update_of_ne hi]
      exact (hs.tasks i).of_subset hcount (Function.update_of_ne hi _ _) fun k ↦
        List.Subset.refl _
  passed k c hc := by
    obtain ⟨hlt, hended, hbytes⟩ := hs.passed k c hc
    have hne : c.id ≠ s.count := Nat.ne_of_lt hlt
    simpa [hne, hended, hbytes] using Nat.lt_succ_of_lt hlt
  nodup := hs.nodup

theorem Sorts.typeRead {i : ℕ} {reader : Socket} (hs : s.Sorts)
    (htask : s.tasks i = .readType reader) : (s.setTask i (.afterType reader)).Sorts where
  running := hs.running
  unused := hs.unused
  tasks j := by
    by_cases hj : j = i
    · subst hj
      have hat := hs.tasks j
      rw [htask] at hat
      obtain ⟨hlt, rfl⟩ := hat
      simp only [setTask, Function.update_self]
      exact (taskAt_afterType hlt).of_subset Iff.rfl rfl fun k ↦ List.Subset.refl _
    · simp only [setTask, Function.update_of_ne hj]
      exact (hs.tasks j).of_subset Iff.rfl rfl fun k ↦ List.Subset.refl _
  passed k c hc := by
    obtain ⟨hlt, hended, hbytes⟩ := hs.passed k c hc
    have hne : c.id ≠ i := by
      rintro rfl
      rw [htask] at hended
      cases hended
    exact ⟨hlt, by simpa [setTask, hne] using hended, hbytes⟩
  nodup := hs.nodup

theorem Sorts.request (hs : s.Sorts) (i : ℕ) (task : ConnTask) : (s.request i task).Sorts := by
  have hpassed := passed_request s i task
  cases task with
  | send k reader =>
      refine hs.of_passed_eq rfl rfl rfl hpassed (fun hpc ↦ ?_) hs.unused
      obtain ⟨hobject, hmain, hopen⟩ := hs.running hpc
      refine ⟨hobject, hmain, fun k' ↦ ?_⟩
      by_cases hk : k' = k
      · subst hk
        simpa [PbTcpListener.request, setChannel, Mpsc.request] using hopen k'
      · simpa [PbTcpListener.request, setChannel, hk] using hopen k'
  | readType reader | ended => exact hs

theorem Sorts.sent {i : ℕ} {k : ConnType} {reader : Socket} {c : Mpsc 8 ℕ PbTcpConn} {ok : Bool}
    (hs : s.Sorts) (htask : s.tasks i = .send k reader)
    (hsend : (s.channel k).send i ⟨i, reader⟩ = some (c, ok)) :
    ((s.setChannel k c).setTask i .ended).Sorts := by
  have hat := hs.tasks i
  rw [htask] at hat
  obtain ⟨hlt, hsent⟩ := hat
  have hpc : s.pc ≠ .returned := by simp [hs.accepting hlt]
  obtain ⟨hobject, hmain, hopen⟩ := hs.running hpc
  obtain ⟨hc, htx, hrx⟩ := Mpsc.send_eq_some hsend (hopen k).2
  have hpassed := passed_sent (i := i) hc
  have hnew : ∀ k, ∀ d ∈ s.passed k, d.id ≠ i := by
    rintro k d hd rfl
    rw [(hs.passed k d hd).2.1] at htask
    cases htask
  refine ⟨fun _ ↦ ⟨hobject, hmain, fun k' ↦ ?_⟩, hs.unused, fun j ↦ ?_, fun k' d hd ↦ ?_,
    fun k' ↦ ?_⟩
  · by_cases hk : k' = k
    · subst hk
      simpa [setChannel, setTask, htx, hrx] using (hopen k').1
    · simpa [setChannel, setTask, hk] using hopen k'
  · by_cases hj : j = i
    · subst hj
      have hended : ((s.setChannel k c).setTask j .ended).tasks j = .ended := by simp [setTask]
      rw [hended]
      exact fun _ ↦ .inl ⟨k, ⟨j, reader⟩, by simp [hpassed], rfl⟩
    · have hsame : ((s.setChannel k c).setTask i .ended).tasks j = s.tasks j := by
        simp [setChannel, setTask, hj]
      rw [hsame]
      refine (hs.tasks j).of_subset Iff.rfl rfl fun k' ↦ ?_
      rw [hpassed]
      exact List.subset_append_left _ _
  · rw [hpassed] at hd
    rcases List.mem_append.mp hd with hd | hd
    · obtain ⟨hlt', hended, hbytes⟩ := hs.passed k' d hd
      refine ⟨hlt', ?_, hbytes⟩
      simpa [setChannel, setTask, hnew k' d hd] using hended
    · by_cases hk : k' = k
      · subst hk
        rw [if_pos rfl] at hd
        obtain rfl := List.mem_singleton.mp hd
        exact ⟨hlt, by simp [setTask], hsent⟩
      · simp [hk] at hd
  · rw [hpassed, List.map_append]
    refine List.nodup_append.mpr ⟨hs.nodup k', by split <;> simp, ?_⟩
    rintro j hj j' hj' rfl
    obtain ⟨d, hd, rfl⟩ := List.mem_map.mp hj
    split at hj'
    case isTrue =>
      obtain hid := List.mem_singleton.mp hj'
      exact hnew k' d hd hid
    case isFalse => cases hj'

theorem Sorts.step (hs : s.Sorts) (h : s.step e = some t) : t.Sorts := by
  cases step_move h with
  | bound hbinding =>
      exact hs.of_passed_eq rfl rfl rfl rfl (fun _ ↦ hs.running (by simp [hbinding]))
        fun h ↦ absurd rfl h
  | bindFailed hbinding =>
      exact hs.of_passed_eq rfl rfl rfl rfl (fun h ↦ absurd rfl h)
        fun _ ↦ hs.unused (by simp [hbinding])
  | accepted incoming haccepting => exact hs.accepted haccepting incoming
  | acceptFailed => exact hs
  | typeRead i reader htask => exact (hs.typeRead htask).request i _
  | sent i k reader c ok htask hsend => exact hs.sent htask hsend
  | handed k c conn hobject hrecv =>
      obtain ⟨hqueue, -, htx, hrx⟩ := Mpsc.recv_eq_some hrecv
      refine hs.of_passed_eq rfl rfl rfl (passed_handed hrecv) (fun hpc ↦ ?_) hs.unused
      obtain ⟨-, hmain, hopen⟩ := hs.running hpc
      refine ⟨hobject, hmain, fun k' ↦ ?_⟩
      by_cases hk : k' = k
      · subst hk
        simpa [setChannel, htx, hrx] using hopen k'
      · simpa [setChannel, hk] using hopen k'
  | closed k c hobject hrecv =>
      obtain ⟨rfl, hclosed⟩ := Mpsc.recv_eq_none hrecv
      have hreturned : s.pc = .returned := by
        by_contra hpc
        have hopen := ((hs.running hpc).2.2 k).1
        rw [hclosed] at hopen
        cases hopen
      have hsame : s.setChannel k (s.channel k) = s := by simp [setChannel]
      rw [hsame]
      exact hs.of_passed_eq rfl rfl rfl rfl (fun hpc ↦ absurd hreturned hpc) hs.unused
  | selectAll e hobject =>
      refine hs.of_passed_eq rfl rfl rfl rfl (fun hpc ↦ ?_) hs.unused
      have haccepting := (hs.running hpc).1
      rw [hobject] at haccepting
      cases haccepting

theorem sorts (hs : machine.Reachable s) : s.Sorts := by
  refine hs.invariant ?_ fun s e t h hstep ↦ h.step hstep
  rintro s rfl
  exact .new

/-! ## One place for each connection -/

inductive Place where
  | reading
  | sending (k : ConnType)
  | queued (k : ConnType)
  | handed (k : ConnType)
  | refused
  deriving DecidableEq

/-- Connection `i` is there. -/
def At (s : PbTcpListener) (i : ℕ) : Place → Prop
  | .reading => ∃ reader, s.tasks i = .readType reader
  | .sending k => ∃ reader, s.tasks i = .send k reader
  | .queued k => ∃ c ∈ (s.channel k).queue, c.id = i
  | .handed k => ∃ c, (k, c) ∈ s.handed ∧ c.id = i
  | .refused => s.tasks i = .ended ∧ Refused (s.incoming i)

theorem mem_passed_iff {k : ConnType} {c : PbTcpConn} :
    c ∈ s.passed k ↔ (k, c) ∈ s.handed ∨ c ∈ (s.channel k).queue := by
  rw [passed, List.mem_append, List.mem_filterMap]
  refine or_congr_left ⟨?_, fun h ↦ ⟨(k, c), h, by simp⟩⟩
  rintro ⟨p, hp, hc⟩
  split at hc
  case isTrue hk =>
    obtain rfl := Option.some.inj hc
    exact hk ▸ hp
  case isFalse => cases hc

theorem Sorts.exists_at (hs : s.Sorts) {i : ℕ} (hi : i < s.count) : ∃ p, s.At i p := by
  have htask := hs.tasks i
  cases hat : s.tasks i with
  | readType reader => exact ⟨.reading, reader, hat⟩
  | send k reader => exact ⟨.sending k, reader, hat⟩
  | ended =>
      rw [hat] at htask
      rcases htask hi with ⟨k, c, hc, hid⟩ | hrefused
      · rcases mem_passed_iff.mp hc with hc | hc
        · exact ⟨.handed k, c, hc, hid⟩
        · exact ⟨.queued k, c, hc, hid⟩
      · exact ⟨.refused, hat, hrefused⟩

/-- What a task has still to do, by the place of its connection. -/
def Place.task : Place → Option (Option ConnType)
  | .reading => some none
  | .sending k => some (some k)
  | .queued _ | .handed _ | .refused => none

def ConnTask.left : ConnTask → Option (Option ConnType)
  | .readType _ => some none
  | .send k _ => some (some k)
  | .ended => none

theorem Sorts.left_eq (hs : s.Sorts) {i : ℕ} {p : Place} (h : s.At i p) :
    ConnTask.left (s.tasks i) = p.task := by
  cases p with
  | reading =>
      obtain ⟨reader, htask⟩ := h
      rw [htask]
      rfl
  | sending k =>
      obtain ⟨reader, htask⟩ := h
      rw [htask]
      rfl
  | queued k =>
      obtain ⟨c, hc, rfl⟩ := h
      rw [(hs.passed k c (mem_passed_iff.mpr (.inr hc))).2.1]
      rfl
  | handed k =>
      obtain ⟨c, hc, rfl⟩ := h
      rw [(hs.passed k c (mem_passed_iff.mpr (.inl hc))).2.1]
      rfl
  | refused =>
      rw [h.1]
      rfl

theorem ConnType.byte_injective : Function.Injective ConnType.byte := by
  intro k k' h
  cases k <;> cases k' <;> first | rfl | cases h

theorem Sorts.passed_unique (hs : s.Sorts) {k k' : ConnType} {c c' : PbTcpConn}
    (hc : c ∈ s.passed k) (hc' : c' ∈ s.passed k') (hid : c.id = c'.id) : k = k' := by
  have hbytes := (hs.passed k c hc).2.2
  have hbytes' := (hs.passed k' c' hc').2.2
  rw [hid, hbytes'] at hbytes
  exact ConnType.byte_injective (List.cons.inj hbytes).1.symm

theorem Sorts.not_queued (hs : s.Sorts) {k : ConnType} {c c' : PbTcpConn}
    (hc : (k, c) ∈ s.handed) (hc' : c' ∈ (s.channel k).queue) : c.id ≠ c'.id := by
  have hnodup := hs.nodup k
  rw [PbTcpListener.passed, List.map_append] at hnodup
  refine (List.nodup_append.mp hnodup).2.2 _ (List.mem_map_of_mem ?_) _ (List.mem_map_of_mem hc')
  exact List.mem_filterMap.mpr ⟨(k, c), hc, by simp⟩

/-- A connection whose task has ended is in one place. -/
theorem Sorts.at_unique (hs : s.Sorts) {i : ℕ} {p q : Place} (hp : s.At i p) (hq : s.At i q) :
    p = q := by
  have hleft : p.task = q.task := (hs.left_eq hp).symm.trans (hs.left_eq hq)
  have hrefused {k : ConnType} {c : PbTcpConn} (hc : c ∈ s.passed k) :
      ¬Refused (s.incoming c.id) := fun h ↦ h k _ (hs.passed k c hc).2.2
  cases p <;> cases q <;> simp only [Place.task, Option.some.injEq, reduceCtorEq] at hleft
  case reading.reading => rfl
  case sending.sending => rw [hleft]
  case queued.queued k k' =>
    obtain ⟨c, hc, rfl⟩ := hp
    obtain ⟨c', hc', hid⟩ := hq
    rw [hs.passed_unique (mem_passed_iff.mpr (.inr hc)) (mem_passed_iff.mpr (.inr hc')) hid.symm]
  case queued.handed k k' =>
    obtain ⟨c, hc, rfl⟩ := hp
    obtain ⟨c', hc', hid⟩ := hq
    obtain rfl :=
      hs.passed_unique (mem_passed_iff.mpr (.inr hc)) (mem_passed_iff.mpr (.inl hc')) hid.symm
    exact absurd hid (hs.not_queued hc' hc)
  case queued.refused k =>
    obtain ⟨c, hc, rfl⟩ := hp
    exact absurd hq.2 (hrefused (mem_passed_iff.mpr (.inr hc)))
  case handed.queued k k' =>
    obtain ⟨c, hc, rfl⟩ := hp
    obtain ⟨c', hc', hid⟩ := hq
    obtain rfl :=
      hs.passed_unique (mem_passed_iff.mpr (.inl hc)) (mem_passed_iff.mpr (.inr hc')) hid.symm
    exact absurd hid.symm (hs.not_queued hc hc')
  case handed.handed k k' =>
    obtain ⟨c, hc, rfl⟩ := hp
    obtain ⟨c', hc', hid⟩ := hq
    rw [hs.passed_unique (mem_passed_iff.mpr (.inl hc)) (mem_passed_iff.mpr (.inl hc')) hid.symm]
  case handed.refused k =>
    obtain ⟨c, hc, rfl⟩ := hp
    exact absurd hq.2 (hrefused (mem_passed_iff.mpr (.inl hc)))
  case refused.queued k =>
    obtain ⟨c, hc, rfl⟩ := hq
    exact absurd hp.2 (hrefused (mem_passed_iff.mpr (.inr hc)))
  case refused.handed k =>
    obtain ⟨c, hc, rfl⟩ := hq
    exact absurd hp.2 (hrefused (mem_passed_iff.mpr (.inl hc)))
  case refused.refused => rfl

/-! ## The order in which they are handed out -/

theorem Sorts.prefix_step (hs : s.Sorts) (h : s.step e = some t) :
    s.handed <+: t.handed ∧ ∀ k, s.passed k <+: t.passed k := by
  cases step_move h with
  | handed k c conn hobject hrecv =>
      refine ⟨List.prefix_append _ _, fun k' ↦ ?_⟩
      rw [passed_handed hrecv]
  | sent i k reader c ok htask hsend =>
      have hat := hs.tasks i
      rw [htask] at hat
      have hpc : s.pc ≠ .returned := by simp [hs.accepting hat.1]
      obtain ⟨hc, -⟩ := Mpsc.send_eq_some hsend ((hs.running hpc).2.2 k).2
      refine ⟨List.prefix_refl _, fun k' ↦ ?_⟩
      rw [passed_sent hc]
      exact List.prefix_append _ _
  | typeRead i reader htask =>
      refine ⟨?_, fun k' ↦ ?_⟩
      · rw [handed_request]
        exact List.prefix_refl _
      · rw [passed_request]
        exact List.prefix_refl _
  | closed k c hobject hrecv =>
      obtain ⟨rfl, -⟩ := Mpsc.recv_eq_none hrecv
      refine ⟨List.prefix_refl _, fun k' ↦ ?_⟩
      simp [PbTcpListener.passed, setChannel]
  | _ => exact ⟨List.prefix_refl _, fun k' ↦ List.prefix_refl _⟩

theorem prefix_run (hs : machine.Reachable s) {es : List PbTcpListenEvent}
    (h : machine.run s es = some t) : s.handed <+: t.handed ∧ ∀ k, s.passed k <+: t.passed k := by
  induction es generalizing s with
  | nil =>
      obtain rfl : s = t := by simpa using h
      exact ⟨List.prefix_refl _, fun k ↦ List.prefix_refl _⟩
  | cons e es ih =>
      obtain ⟨u, hu, hrest⟩ := Machine.run_cons_some _ h
      obtain ⟨hhanded, hpassed⟩ := (sorts hs).prefix_step hu
      obtain ⟨hhanded', hpassed'⟩ := ih (hs.step hu) hrest
      exact ⟨hhanded.trans hhanded', fun k ↦ (hpassed k).trans (hpassed' k)⟩

/-- Once the address is bound: the object goes on, each connection that has come in is in one
place, those of one kind are handed out, once each and with what they have sent after the first
byte, in the order in which they have entered their channel, and no more than eight of them wait
in it. -/
theorem sorted (hs : machine.Reachable s) (haccepting : s.pc = .accepting) :
    (s.object = .accepting ∧ s.mainRunning = true) ∧
      (∀ i < s.count, ∃! p, s.At i p) ∧
      (∀ k, (s.channel k).queue.length ≤ 8 ∧ ((s.passed k).map PbTcpConn.id).Nodup ∧
        ∀ c ∈ s.passed k, (s.incoming c.id).flatten = k.byte :: c.reader.flatten) ∧
      ∀ es t, machine.run s es = some t →
        s.handed <+: t.handed ∧ ∀ k, s.passed k <+: t.passed k := by
  have hsorts := sorts hs
  obtain ⟨hobject, hmain, -⟩ := hsorts.running (by simp [haccepting])
  refine ⟨⟨hobject, hmain⟩, fun i hi ↦ ?_,
    fun k ↦ ⟨(s.channel k).length_le, hsorts.nodup k, fun c hc ↦ ?_⟩, fun es t h ↦ prefix_run hs h⟩
  · obtain ⟨p, hp⟩ := hsorts.exists_at hi
    exact ⟨p, hp, fun q hq ↦ hsorts.at_unique hq hp⟩
  · exact (hsorts.passed k c hc).2.2

/-- Of three connections the first one, for UDP, has been handed out, the second one is in its
channel, and the third one was refused. -/
def threeConns : List PbTcpListenEvent :=
  [.bound true, .accepted [[2, 7]], .accepted [[1], [5]], .accepted [[9]], .typeRead 1,
    .typeRead 0, .sent 1, .typeRead 2, .sent 0, .accept .udp]

theorem sorted_threeConns : ∃ s, machine.run new threeConns = some s ∧
    (s.handed.map fun p ↦ (p.1, p.2.id)) = [(.udp, 0)] ∧ ∀ i < 3, ∃! p, s.At i p := by
  have hrun : (machine.run new threeConns).map (fun s ↦
      (s.pc, s.count, s.handed.map fun p ↦ (p.1, p.2.id))) =
      some (.accepting, 3, [(.udp, 0)]) := by
    decide
  obtain ⟨s, hs, hfields⟩ := Option.map_eq_some_iff.mp hrun
  simp only [Prod.mk.injEq] at hfields
  obtain ⟨hpc, hcount, hhanded⟩ := hfields
  obtain ⟨-, hplaced, -⟩ := sorted ⟨_, _, rfl, hs⟩ hpc
  exact ⟨s, hs, hhanded, fun i hi ↦ hplaced i (hcount ▸ hi)⟩

/-! ## Every connection can be handed out -/

/-- In the lines of the channels are those whose tasks have a connection to send. -/
structure Lined (s : PbTcpListener) : Prop where
  nodup : ∀ k, (s.channel k).line.Nodup
  mem_iff : ∀ k i, i ∈ (s.channel k).line ↔ ∃ reader, s.tasks i = .send k reader

theorem Lined.of_line_eq (hs : s.Lined) (htasks : t.tasks = s.tasks)
    (hline : ∀ k, (t.channel k).line = (s.channel k).line) : t.Lined where
  nodup k := by
    rw [hline]
    exact hs.nodup k
  mem_iff k i := by
    rw [hline, htasks]
    exact hs.mem_iff k i

/-- A task that is not about a channel before its step nor after it. -/
theorem Lined.setTask (hs : s.Lined) {i : ℕ} {task : ConnTask}
    (hbefore : ∀ k reader, s.tasks i ≠ .send k reader)
    (hafter : ∀ k reader, task ≠ .send k reader) :
    (s.setTask i task).Lined where
  nodup := hs.nodup
  mem_iff k j := by
    rw [show ((s.setTask i task).channel k).line = (s.channel k).line from rfl, hs.mem_iff k j]
    by_cases hj : j = i
    · subst hj
      simp [PbTcpListener.setTask, hbefore, hafter]
    · simp [PbTcpListener.setTask, hj]

theorem Lined.typeRead (hs : s.Lined) {i : ℕ} {reader : Socket}
    (htask : s.tasks i = .readType reader) (task : ConnTask) :
    ((s.setTask i task).request i task).Lined := by
  have hbefore (k : ConnType) (reader' : Socket) : s.tasks i ≠ .send k reader' := by
    rw [htask]
    nofun
  cases task with
  | readType reader' => exact hs.setTask hbefore nofun
  | ended => exact hs.setTask hbefore nofun
  | send k rest =>
      have hnew (k' : ConnType) : i ∉ (s.channel k').line := by
        intro hi
        obtain ⟨reader', h⟩ := (hs.mem_iff k' i).mp hi
        exact hbefore k' reader' h
      have hline (k' : ConnType) : (((s.setTask i (.send k rest)).request i (.send k rest)).channel
          k').line = (s.channel k').line ++ if k' = k then [i] else [] := by
        by_cases hk : k' = k
        · subst hk
          simp [request, setChannel, PbTcpListener.setTask, Mpsc.request]
        · simp [request, setChannel, PbTcpListener.setTask, hk]
      constructor
      · intro k'
        rw [hline]
        refine List.nodup_append.mpr ⟨hs.nodup k', by split <;> simp, ?_⟩
        rintro j hj j' hj' rfl
        split at hj'
        · obtain rfl := List.mem_singleton.mp hj'
          exact hnew k' hj
        · cases hj'
      · intro k' j
        rw [hline, List.mem_append, hs.mem_iff k' j]
        by_cases hj : j = i
        · subst hj
          by_cases hk : k' = k
          · subst hk
            simp [request, setChannel, PbTcpListener.setTask]
          · have hk' : ¬k = k' := fun h ↦ hk h.symm
            simp [request, setChannel, PbTcpListener.setTask, hk, hk', htask]
        · have hnil : j ∉ (if k' = k then [i] else []) := by
            split <;> simp [hj]
          simp [request, setChannel, PbTcpListener.setTask, hj, hnil]

theorem Lined.sent (hs : s.Lined) {i : ℕ} {k : ConnType} {reader : Socket}
    {c : Mpsc 8 ℕ PbTcpConn} (htask : s.tasks i = .send k reader)
    (hc : c.line = (s.channel k).line.erase i) :
    ((s.setChannel k c).setTask i .ended).Lined := by
  have hline (k' : ConnType) : (((s.setChannel k c).setTask i .ended).channel k').line =
      if k' = k then (s.channel k').line.erase i else (s.channel k').line := by
    by_cases hk : k' = k
    · subst hk
      simp [setChannel, PbTcpListener.setTask, hc]
    · simp [setChannel, PbTcpListener.setTask, hk]
  constructor
  · intro k'
    rw [hline]
    split
    · exact (hs.nodup k').erase i
    · exact hs.nodup k'
  · intro k' j
    rw [hline]
    by_cases hj : j = i
    · subst hj
      have hended : ¬∃ reader, ((s.setChannel k c).setTask j .ended).tasks j = .send k' reader := by
        simp [PbTcpListener.setTask]
      refine iff_of_false ?_ hended
      split
      · exact (hs.nodup k').not_mem_erase
      · rename_i hk
        rw [hs.mem_iff, htask]
        rintro ⟨reader', h⟩
        exact hk (ConnTask.send.inj h).1.symm
    · have hsame : ((s.setChannel k c).setTask i .ended).tasks j = s.tasks j := by
        simp [PbTcpListener.setTask, setChannel, hj]
      rw [hsame, ← hs.mem_iff k' j]
      split
      · exact List.mem_erase_of_ne hj
      · exact Iff.rfl

theorem Lined.step (hs : s.Lined) (hsorts : s.Sorts) (h : s.step e = some t) : t.Lined := by
  cases step_move h with
  | bound | bindFailed | acceptFailed | selectAll => exact hs.of_line_eq rfl fun k ↦ rfl
  | accepted incoming haccepting =>
      have hnone (k : ConnType) (reader : Socket) : s.tasks s.count ≠ .send k reader := by
        intro htask
        have hat := hsorts.tasks s.count
        rw [htask] at hat
        exact Nat.lt_irrefl _ hat.1
      exact (hs.setTask hnone nofun : (s.setTask s.count (.readType incoming)).Lined).of_line_eq
        rfl fun k ↦ rfl
  | typeRead i reader htask => exact hs.typeRead htask _
  | sent i k reader c ok htask hsend => exact hs.sent htask (Mpsc.send_spec hsend).1
  | handed k c conn hobject hrecv =>
      refine hs.of_line_eq rfl fun k' ↦ ?_
      by_cases hk : k' = k
      · subst hk
        simpa [setChannel] using (Mpsc.recv_eq_some hrecv).2.1
      · simp [setChannel, hk]
  | closed k c hobject hrecv =>
      refine hs.of_line_eq rfl fun k' ↦ ?_
      by_cases hk : k' = k
      · subst hk
        simp [setChannel, (Mpsc.recv_eq_none hrecv).1]
      · simp [setChannel, hk]

theorem lined (hs : machine.Reachable s) : s.Lined := by
  refine hs.invariant_of (J := Sorts) (I := Lined) (fun s ↦ sorts) ?_
    fun s e t hsorts hs h ↦ hs.step hsorts h
  rintro s rfl
  exact ⟨fun k ↦ .nil, fun k i ↦ iff_of_false (by simp [new, Mpsc.new]) (by simp [new])⟩

/-- The connections before connection `i`, of kind `k`, in the line of the channel, or the ones that
would be if it asked now. -/
def ahead (k : ConnType) (i : ℕ) (s : PbTcpListener) : List ℕ :=
  match s.tasks i with
  | .readType _ => (s.channel k).line
  | .send _ _ => (s.channel k).ahead i
  | .ended => []

/-- The number of steps that connection `i`, of kind `k`, still needs at most. -/
def rank (k : ConnType) (i : ℕ) (s : PbTcpListener) : ℕ :=
  let ids := (s.channel k).queue.map PbTcpConn.id
  match s.tasks i with
  | .readType _ => 2 * (s.ahead k i).length + ids.length + 3
  | .send _ _ => 2 * (s.ahead k i).length + ids.length + 2
  | .ended => if i ∈ ids then ids.idxOf i + 1 else 0

theorem rank_le (k : ConnType) (i : ℕ) (s : PbTcpListener) :
    s.rank k i ≤ 2 * (s.ahead k i).length + 11 := by
  have hroom := (s.channel k).length_le
  have hindex := List.idxOf_le_length (a := i) (l := (s.channel k).queue.map PbTcpConn.id)
  rw [List.length_map] at hindex
  unfold rank
  cases s.tasks i with
  | readType reader | send k' reader =>
      simp only [List.length_map]
      omega
  | ended =>
      simp only
      split <;> omega

/-- The object takes the next connection of kind `k`. -/
theorem exists_accept {k : ConnType} {conn : PbTcpConn} {rest : List PbTcpConn}
    (hobject : s.object = .accepting) (hqueue : (s.channel k).queue = conn :: rest) :
    ∃ t, s.step (.accept k) = some t ∧ t.count = s.count ∧ t.incoming = s.incoming ∧
      t.tasks = s.tasks ∧ (t.channel k).queue = rest ∧ (t.channel k).line = (s.channel k).line := by
  obtain ⟨c, hrecv, hrest, hline⟩ := Mpsc.recv_of_cons hqueue
  refine ⟨{ s.setChannel k c with handed := s.handed ++ [(k, conn)] }, ?_, rfl, rfl, rfl,
    by simpa [setChannel] using hrest, by simpa [setChannel] using hline⟩
  simp [step, hobject, hrecv]

/-- The first one in line puts its connection into the channel, where there is room. -/
theorem exists_sent {j : ℕ} {k : ConnType} {reader : Socket} {line : List ℕ}
    (htask : s.tasks j = .send k reader) (hopen : (s.channel k).rxOpen = true)
    (hline : (s.channel k).line = j :: line) (hroom : (s.channel k).queue.length < 8) :
    ∃ t, s.step (.sent j) = some t ∧ t.count = s.count ∧ t.incoming = s.incoming ∧
      t.tasks = Function.update s.tasks j .ended ∧
      (t.channel k).queue = (s.channel k).queue ++ [⟨j, reader⟩] ∧ (t.channel k).line = line := by
  have hplaced : (s.channel k).Placed j := by
    rw [Mpsc.Placed, Mpsc.ahead_of_head hline]
    simpa using hroom
  obtain ⟨⟨c, ok⟩, hsend⟩ :=
    Option.isSome_iff_exists.mp (Mpsc.send_of_placed hplaced (⟨j, reader⟩ : PbTcpConn))
  have hqueue := (Mpsc.send_eq_some hsend hopen).1
  have herase := (Mpsc.send_spec hsend).1
  rw [hline, List.erase_cons_head] at herase
  refine ⟨(s.setChannel k c).setTask j .ended, by simp [step, htask, hsend], rfl, rfl, rfl,
    by simpa [setChannel, setTask] using hqueue, by simpa [setChannel, setTask] using herase⟩

theorem afterType_of_byte {incoming : Socket} {k : ConnType} {rest : Bytes}
    (h : incoming.flatten = k.byte :: rest) : ∃ reader, ConnTask.afterType incoming =
      .send k reader := by
  obtain ⟨reader, hread, -⟩ := readConnType_cons h
  exact ⟨reader, by simp [ConnTask.afterType, hread, ConnType.ofByte_eq_some.mpr rfl]⟩

/-- What takes connection `i` on, or the connections `js` that are ahead of it. -/
def Serves (i : ℕ) (js : List ℕ) (e : PbTcpListenEvent) : Prop :=
  e.Own i ∨ ∃ j ∈ js, e = .sent j

theorem exists_step {i : ℕ} {k : ConnType} {rest : Bytes} (hs : machine.Reachable s)
    (hi : i < s.count) (hbytes : (s.incoming i).flatten = k.byte :: rest)
    (hgoal : ¬s.At i (.handed k)) :
    ∃ e t, s.step e = some t ∧ Serves i (s.ahead k i) e ∧
      (t.count = s.count ∧ t.incoming = s.incoming ∧ t.ahead k i ⊆ s.ahead k i) ∧
      t.rank k i < s.rank k i := by
  have hsorts := sorts hs
  have hlined := lined hs
  have hpc : s.pc ≠ .returned := by simp [hsorts.accepting hi]
  obtain ⟨hobject, -, hopen⟩ := hsorts.running hpc
  have htask := hsorts.tasks i
  cases hat : s.tasks i with
  | readType reader =>
      rw [hat] at htask
      obtain ⟨-, rfl⟩ := htask
      obtain ⟨reader, hafter⟩ := afterType_of_byte hbytes
      have hnew : i ∉ (s.channel k).line := by
        rw [hlined.mem_iff, hat]
        rintro ⟨reader', ⟨⟩⟩
      let t := (s.setTask i (.send k reader)).request i (.send k reader)
      have hahead : t.ahead k i = (s.channel k).line := by
        have hrequest := Mpsc.ahead_request hnew
        simpa [t, ahead, request, setChannel, setTask] using hrequest
      have hahead' : s.ahead k i = (s.channel k).line := by simp [ahead, hat]
      refine ⟨.typeRead i, t, by simp [step, hat, hafter, t], .inl rfl,
        ⟨rfl, rfl, by rw [hahead, hahead']; exact List.Subset.refl _⟩, ?_⟩
      have hrank : t.rank k i =
          2 * (t.ahead k i).length + ((s.channel k).queue.map PbTcpConn.id).length + 2 := by
        simp [rank, t, request, setChannel, setTask, Mpsc.request]
      rw [hrank, hahead, rank, hat, hahead']
      exact Nat.lt_succ_self _
  | send k' reader =>
      rw [hat] at htask
      have hbyte := htask.2
      rw [hbytes] at hbyte
      obtain rfl := ConnType.byte_injective (List.cons.inj hbyte).1
      by_cases hroom : (s.channel k).queue.length < 8
      · have hmem : i ∈ (s.channel k).line := (hlined.mem_iff k i).mpr ⟨reader, hat⟩
        obtain ⟨j, line, hline⟩ := List.exists_cons_of_ne_nil (List.ne_nil_of_mem hmem)
        by_cases hj : j = i
        · subst hj
          obtain ⟨t, hstep, hcount, hincoming, htasks, hqueue, -⟩ :=
            exists_sent hat (hopen k).2 hline hroom
          have hended : t.tasks j = .ended := by simp [htasks]
          refine ⟨.sent j, t, hstep, .inl rfl, ⟨hcount, hincoming, by simp [ahead, hended]⟩, ?_⟩
          have hnew : j ∉ (s.channel k).queue.map PbTcpConn.id := by
            intro hmem
            obtain ⟨c, hc, rfl⟩ := List.mem_map.mp hmem
            have hended := (hsorts.passed k c (mem_passed_iff.mpr (.inr hc))).2.1
            rw [hat] at hended
            cases hended
          simp only [rank, hended, hat, hqueue, List.map_append, List.map_cons, List.map_nil,
            List.mem_append, List.mem_singleton, or_true, if_true,
            List.idxOf_append_of_notMem hnew, List.idxOf_cons_self]
          omega
        · obtain ⟨reader', hother⟩ := (hlined.mem_iff k j).mp (hline ▸ List.mem_cons_self)
          obtain ⟨t, hstep, hcount, hincoming, htasks, hqueue, hrest⟩ :=
            exists_sent hother (hopen k).2 hline hroom
          have hsame : t.tasks i = .send k reader := by
            rw [htasks, Function.update_of_ne (Ne.symm hj), hat]
          have hahead : s.ahead k i = j :: t.ahead k i := by
            simp only [ahead, hat, hsame]
            rw [Mpsc.ahead_eq_cons hline hj, Mpsc.ahead, hrest]
          refine ⟨.sent j, t, hstep, .inr ⟨j, by simp [hahead], rfl⟩,
            ⟨hcount, hincoming, by simp [hahead]⟩, ?_⟩
          simp only [rank, hat, hsame, hahead, hqueue, List.length_cons, List.length_map,
            List.length_append, List.length_nil]
          omega
      · have hne : (s.channel k).queue ≠ [] := by
          intro hempty
          simp [hempty] at hroom
        obtain ⟨conn, more, hqueue⟩ := List.exists_cons_of_ne_nil hne
        obtain ⟨t, hstep, hcount, hincoming, htasks, hrest, hline⟩ := exists_accept hobject hqueue
        have hahead : t.ahead k i = s.ahead k i := by
          simp [ahead, htasks, hat, Mpsc.ahead, hline]
        refine ⟨.accept k, t, hstep, .inl trivial,
          ⟨hcount, hincoming, by rw [hahead]; exact List.Subset.refl _⟩, ?_⟩
        simp [rank, hahead, htasks, hat, hrest, hqueue]
  | ended =>
      rw [hat] at htask
      have hrefused : ¬Refused (s.incoming i) := fun h ↦ h k rest hbytes
      obtain ⟨k', c, hc, rfl⟩ := (htask hi).resolve_right hrefused
      have hbyte := (hsorts.passed k' c hc).2.2
      rw [hbytes] at hbyte
      obtain rfl := ConnType.byte_injective (List.cons.inj hbyte).1
      have hmem : c ∈ (s.channel k).queue :=
        (mem_passed_iff.mp hc).resolve_left fun h ↦ hgoal ⟨c, h, rfl⟩
      obtain ⟨conn, more, hqueue⟩ := List.exists_cons_of_ne_nil (List.ne_nil_of_mem hmem)
      obtain ⟨t, hstep, hcount, hincoming, htasks, hrest, -⟩ := exists_accept hobject hqueue
      refine ⟨.accept k, t, hstep, .inl trivial,
        ⟨hcount, hincoming, by simp [ahead, htasks, hat]⟩, ?_⟩
      have hids : c.id ∈ (conn :: more).map PbTcpConn.id := hqueue ▸ List.mem_map_of_mem hmem
      simp only [rank, htasks, hat, hrest, hqueue, if_pos hids]
      by_cases hhead : c.id = conn.id
      · have hnodup : ((conn :: more).map PbTcpConn.id).Nodup := by
          have hall := hsorts.nodup k
          rw [passed, List.map_append, hqueue] at hall
          exact (List.nodup_append.mp hall).2.1
        rw [List.map_cons, List.nodup_cons] at hnodup
        rw [hhead, if_neg hnodup.1]
        omega
      · rw [List.map_cons, List.idxOf_cons_ne _ (Ne.symm hhead)]
        split <;> omega

/-- From every state a connection that starts with the byte of its kind can be handed out. Besides
its own task and the object it needs the tasks only that have asked for a place in its channel
before it: two steps for each of them, and eleven more. -/
theorem handed_out {i : ℕ} {k : ConnType} {rest : Bytes} (hs : machine.Reachable s)
    (hi : i < s.count) (hbytes : (s.incoming i).flatten = k.byte :: rest) :
    ∃ es t, machine.run s es = some t ∧
      (∀ e ∈ es, e.Own i ∨ ∃ j ∈ s.ahead k i, e = .sent j) ∧
      es.length ≤ 2 * (s.ahead k i).length + 11 ∧
      ∃ c, (k, c) ∈ t.handed ∧ c.id = i ∧ c.reader.flatten = rest := by
  have hprogress : ∀ u : PbTcpListener,
      (machine.Reachable u ∧ u.count = s.count ∧ u.incoming = s.incoming ∧
        u.ahead k i ⊆ s.ahead k i) →
      ¬u.At i (.handed k) → ∃ e t, machine.step u e = some t ∧ Serves i (s.ahead k i) e ∧
        (machine.Reachable t ∧ t.count = s.count ∧ t.incoming = s.incoming ∧
          t.ahead k i ⊆ s.ahead k i) ∧ t.rank k i < u.rank k i := by
    intro u hu hgoal
    obtain ⟨hreachable, hcount, hincoming, hahead⟩ := hu
    obtain ⟨e, t, hstep, hserves, ⟨hcount', hincoming', hahead'⟩, hrank⟩ :=
      exists_step hreachable (hcount ▸ hi) (hincoming ▸ hbytes) hgoal
    refine ⟨e, t, hstep, hserves.imp_right fun ⟨j, hj, he⟩ ↦ ⟨j, hahead hj, he⟩,
      ⟨hreachable.step hstep, hcount'.trans hcount, hincoming'.trans hincoming,
        List.Subset.trans hahead' hahead⟩, hrank⟩
  obtain ⟨es, t, hrun, hserves, hlength, ⟨ht, -, hincoming, -⟩, c, hc, hid⟩ :=
    Machine.exists_run_of_rank (rank k i) hprogress ⟨hs, rfl, rfl, List.Subset.refl _⟩
  refine ⟨es, t, hrun, hserves, hlength.trans (rank_le k i s), c, hc, hid, ?_⟩
  have hread := ((sorts ht).passed k c (mem_passed_iff.mpr (.inl hc))).2.2
  rw [hid, hincoming, hbytes] at hread
  exact (List.cons.inj hread).2.symm

/-- Two connections have asked for a place, and nothing is in their channel yet. -/
def twoInLine : List PbTcpListenEvent :=
  [.bound true, .accepted [[1], [4]], .accepted [[1], [5]], .typeRead 0, .typeRead 1]

theorem handed_out_twoInLine : ∃ s es t, machine.run new twoInLine = some s ∧
    s.ahead .stream 1 = [0] ∧ machine.run s es = some t ∧ es.length ≤ 13 ∧
      (∀ e ∈ es, e.Own 1 ∨ e = .sent 0) ∧
      ∃ c, (.stream, c) ∈ t.handed ∧ c.id = 1 ∧ c.reader.flatten = [5] := by
  have hrun : (machine.run new twoInLine).map (fun s ↦
      (s.count, s.incoming 1, s.ahead .stream 1)) = some (2, [[1], [5]], [0]) := by
    decide
  obtain ⟨s, hs, hfields⟩ := Option.map_eq_some_iff.mp hrun
  simp only [Prod.mk.injEq] at hfields
  obtain ⟨hcount, hincoming, hahead⟩ := hfields
  have hbytes : (s.incoming 1).flatten = ConnType.stream.byte :: [5] := by
    rw [hincoming]
    rfl
  obtain ⟨es, t, hes, hserves, hlength, hhanded⟩ := handed_out ⟨_, _, rfl, hs⟩ (by omega) hbytes
  rw [hahead] at hserves hlength
  refine ⟨s, es, t, hs, hahead, hes, hlength, fun e he ↦ ?_, hhanded⟩
  simpa using hserves e he

end PbTcpListener

end Rog
