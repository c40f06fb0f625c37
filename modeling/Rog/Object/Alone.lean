import Rog.Object.Interleaving
import Rog.Object.Reply

/-!
# Each task alone

Whatever way the tasks come between each other, each of them ends as `Object.task` says, with the
cache that the lookups before its own have left.
-/

namespace Rog

open Lib

/-- What a task has met, as an environment of its own. -/
def Lookup.env {C : Type} (connector : String → Bool) (look : Lookup C)
    (connected : Option (Io Unit)) : TaskEnv where
  route _ := look.clientName.getD ""
  connector := connector
  create _ := (look.created.map (Except.map fun _ ↦ ())).getD (.ok ())
  connect _ _ := connected.getD (.ok ())

def Lookup.cached {C : Type} (look : Lookup C) (clientName : String) : Bool :=
  (look.cache clientName).isSome

/-- The scope of the lock has been left with a connector. -/
def Lookup.Found {C : Type} (connector : String → Bool) (look : Lookup C) : Prop :=
  ∃ name, look.clientName = some name ∧ connector name = true ∧
    ((look.cache name).isSome ∨ ∃ c, look.created = some (.ok c))

namespace Object

variable {acc : RunAcceptor} {env : TaskEnv} {client stream : TcpRunStream} {addr : RunAddr}
  {payloadCache : Option Bytes} {cache : String → Bool}

theorem task_of_handshake_error {e : Fault}
    (h : acc.handshake.runOn client = (.error e, stream)) :
    task acc env ⟨client, cache, none⟩ = (.ended, ⟨stream, cache, none⟩) := by
  simp [task, TaskM.onStream, bind, StateT.bind, h, TaskM.pure_apply]

theorem task_of_udp (h : acc.handshake.runOn client = (.ok (addr, payloadCache), stream))
    (hudp : addr.udp = true) :
    task acc env ⟨client, cache, none⟩ = (.udp addr, ⟨stream, cache, none⟩) := by
  simp [task, TaskM.onStream, bind, StateT.bind, h, hudp, TaskM.pure_apply]

theorem task_of_tcp (h : acc.handshake.runOn client = (.ok (addr, payloadCache), stream))
    (hudp : addr.udp = false) :
    task acc env ⟨client, cache, none⟩ =
      serve acc env addr payloadCache ⟨stream, cache, none⟩ := by
  simp [task, TaskM.onStream, bind, StateT.bind, h, hudp]

theorem serve_unknown (h : env.connector (env.route addr) = false) :
    serve acc env addr payloadCache ⟨stream, cache, none⟩ = (.ended, ⟨stream, cache, none⟩) := by
  simp [serve, h, TaskM.pure_apply]

theorem serve_not_created (acc : RunAcceptor) (stream : TcpRunStream)
    (payloadCache : Option Bytes) (hname : env.connector (env.route addr) = true)
    (hcache : cache (env.route addr) = false) {e : IoError}
    (hcreate : env.create (env.route addr) = .error e) :
    serve acc env addr payloadCache ⟨stream, cache, none⟩ = (.ended, ⟨stream, cache, none⟩) := by
  have hscope : cachedConnector env (env.route addr) ⟨stream, cache, none⟩ =
      (false, ⟨stream, cache, none⟩) := by
    rw [cachedConnector, if_neg (by simp [hcache]), hcreate]
  simp [serve, hname, bind, StateT.bind, hscope, TaskM.pure_apply]

theorem serve_found (acc : RunAcceptor) (stream : TcpRunStream) (payloadCache : Option Bytes)
    (hname : env.connector (env.route addr) = true)
    (hfound : cache (env.route addr) = true ∨ env.create (env.route addr) = .ok ()) :
    ∃ cache', serve acc env addr payloadCache ⟨stream, cache, none⟩ =
      serveConnector acc env (env.route addr) addr payloadCache ⟨stream, cache', none⟩ := by
  obtain ⟨cache', hscope⟩ : ∃ cache', cachedConnector env (env.route addr) ⟨stream, cache, none⟩ =
      (true, ⟨stream, cache', none⟩) := by
    by_cases hcached : cache (env.route addr) = true
    · exact ⟨cache, if_pos hcached⟩
    · have hcreate := hfound.resolve_left hcached
      exact ⟨_, by rw [cachedConnector, if_neg hcached, hcreate]⟩
  exact ⟨cache', by simp [serve, hname, bind, StateT.bind, hscope]⟩

theorem serveConnector_refused {clientName : String} {e : IoError}
    (hconnect : env.connect clientName addr.endpoint = .error (.err e)) :
    serveConnector acc env clientName addr payloadCache ⟨stream, cache, none⟩ =
      (.ended, ⟨((acc.postHandshake true 0).runOn stream).2, cache, some (.error (.err e))⟩) := by
  simp [serveConnector, connect, TaskM.onStream, bind, StateT.bind, hconnect, TaskM.pure_apply]

theorem serveConnector_panicked {clientName : String}
    (hconnect : env.connect clientName addr.endpoint = .error .panic) :
    serveConnector acc env clientName addr payloadCache ⟨stream, cache, none⟩ =
      (.ended, ⟨stream, cache, some (.error .panic)⟩) := by
  simp [serveConnector, connect, bind, StateT.bind, hconnect, TaskM.pure_apply]

theorem serveConnector_confirmed {clientName : String}
    (hconnect : env.connect clientName addr.endpoint = .ok ()) {stream' : TcpRunStream}
    {r : Io Unit} (hpost : (acc.postHandshake false 0).runOn stream = (r, stream')) :
    serveConnector acc env clientName addr payloadCache ⟨stream, cache, none⟩ =
      (match r with
        | .ok () => .relay addr payloadCache
        | .error _ => .ended, ⟨stream', cache, some (.ok ())⟩) := by
  cases r <;> simp [serveConnector, connect, TaskM.onStream, bind, StateT.bind, hconnect, hpost,
    TaskM.pure_apply]

end Object

/-- The handshake of the client has succeeded, and nothing has happened to its stream since. -/
structure TcpJob.Shaken (acc : RunAcceptor) (j : TcpJob) (addr : RunAddr)
    (payloadCache : Option Bytes) : Prop where
  handshake : acc.handshake.runOn j.client = (.ok (addr, payloadCache), j.stream)
  tcp : addr.udp = false

/-- `task`, with the environment and the cache that the task has met. -/
def TcpJob.alone {C : Type} (acc : RunAcceptor) (connector : String → Bool) (look : Lookup C)
    (j : TcpJob) : TaskEnd × TaskState :=
  Object.task acc (look.env connector j.connected) ⟨j.client, look.cached, none⟩

/-- The task is where `task` would be. -/
def TcpJob.Agrees {C : Type} (acc : RunAcceptor) (connector : String → Bool) (look : Lookup C)
    (j : TcpJob) : Prop :=
  match j.pc with
  | .handshake => j.stream = j.client ∧ j.connected = none
  | .route addr payloadCache => j.Shaken acc addr payloadCache ∧ j.connected = none
  | .lookup addr payloadCache => j.Shaken acc addr payloadCache ∧ j.connected = none ∧
      ∃ name, look.clientName = some name ∧ connector name = true
  | .connect addr payloadCache => j.Shaken acc addr payloadCache ∧ j.connected = none ∧
      look.Found connector
  | .refuse => (∃ addr payloadCache, j.Shaken acc addr payloadCache) ∧
      (∃ e, j.connected = some (.error (.err e))) ∧ look.Found connector
  | .confirm addr payloadCache => j.Shaken acc addr payloadCache ∧
      j.connected = some (.ok ()) ∧ look.Found connector
  | .over r => ∃ cache, j.alone acc connector look = (r, ⟨j.stream, cache, j.connected⟩)

def Job.Agrees {C : Type} (acc : RunAcceptor) (connector : String → Bool) (look : Lookup C) :
    Job → Prop
  | .tcp j => j.Agrees acc connector look
  | .rawUdp _ => True

/-- With a connector `task` comes to `connect`. -/
theorem TcpJob.alone_of_found {C : Type} {acc : RunAcceptor} {connector : String → Bool}
    {look : Lookup C} {j : TcpJob} {addr : RunAddr} {payloadCache : Option Bytes}
    (hshaken : j.Shaken acc addr payloadCache) (hfound : look.Found connector) :
    ∃ name cache, j.alone acc connector look = Object.serveConnector acc
      (look.env connector j.connected) name addr payloadCache ⟨j.stream, cache, none⟩ := by
  obtain ⟨name, hname, hconnector, hfound⟩ := hfound
  have hroute : (look.env connector j.connected).route addr = name := by simp [Lookup.env, hname]
  have hcreated : look.cached name = true ∨
      (look.env connector j.connected).create name = .ok () := by
    refine hfound.imp_right fun ⟨c, hc⟩ ↦ ?_
    simp [Lookup.env, hc, Except.map]
  rw [← hroute] at hcreated
  have hknown : connector ((look.env connector j.connected).route addr) = true := by
    rw [hroute]
    exact hconnector
  obtain ⟨cache, hserve⟩ := Object.serve_found acc j.stream payloadCache hknown hcreated
  refine ⟨name, cache, ?_⟩
  rw [TcpJob.alone, Object.task_of_tcp hshaken.handshake hshaken.tcp, hserve, hroute]

namespace Job

variable {C : Type} {acc : RunAcceptor} {connector : String → Bool} {look : Lookup C}
  {job job' : Job}

theorem Agrees.advance (hs : job.Agrees acc connector look) (h : job.Advances acc job') :
    job'.Agrees acc connector look := by
  cases job with
  | rawUdp pc =>
      rcases h with h | ⟨r, h⟩ | ⟨r, h⟩ | h
      · cases h
      · cases pc <;> cases h
        cases r <;> trivial
      · cases h
      · cases h
  | tcp j =>
      obtain ⟨pc, client, stream, connected⟩ := j
      rcases h with h | ⟨r, h⟩ | ⟨r, h⟩ | h
      · cases pc <;> cases h
        obtain ⟨hstream, hconnected⟩ := hs
        dsimp only at hstream hconnected
        subst hstream hconnected
        rcases hshake : acc.handshake.runOn stream with ⟨_ | ⟨addr, payloadCache⟩, stream'⟩
        · exact ⟨_, Object.task_of_handshake_error hshake⟩
        · dsimp only
          split
          · rename_i hudp
            exact ⟨_, Object.task_of_udp hshake hudp⟩
          · rename_i hudp
            exact ⟨⟨hshake, by simpa using hudp⟩, rfl⟩
      · cases h
      · cases pc <;> cases h
        obtain ⟨hshaken, -, hfound⟩ := hs
        have hshake := hshaken.handshake
        rcases r with (e | _) | v
        · exact ⟨⟨_, _, hshake, hshaken.tcp⟩, ⟨e, rfl⟩, hfound⟩
        · let j' : TcpJob := ⟨.over .ended, client, stream, some (.error .panic)⟩
          obtain ⟨name, cache, halone⟩ :=
            TcpJob.alone_of_found (j := j') ⟨hshake, hshaken.tcp⟩ hfound
          exact ⟨cache, halone.trans (Object.serveConnector_panicked rfl)⟩
        · exact ⟨⟨hshake, hshaken.tcp⟩, rfl, hfound⟩
      · cases pc with
        | refuse =>
            obtain ⟨⟨addr, payloadCache, hshaken⟩, ⟨e, he⟩, hfound⟩ := hs
            dsimp only at he
            subst he
            cases h
            obtain ⟨name, cache, halone⟩ := TcpJob.alone_of_found hshaken hfound
            exact ⟨cache, halone.trans (Object.serveConnector_refused rfl)⟩
        | confirm addr payloadCache =>
            obtain ⟨hshaken, hconnected, hfound⟩ := hs
            dsimp only at hconnected
            subst hconnected
            obtain ⟨name, cache, halone⟩ := TcpJob.alone_of_found hshaken hfound
            rcases hpost : (acc.postHandshake false 0).runOn stream with ⟨r, stream'⟩
            have hover := halone.trans (Object.serveConnector_confirmed rfl hpost)
            cases r with
            | ok v =>
                simp only [postHandshake, hpost, Option.some.injEq] at h
                subst h
                exact ⟨cache, hover⟩
            | error e =>
                simp only [postHandshake, hpost, Option.some.injEq] at h
                subst h
                exact ⟨cache, hover⟩
        | _ => cases h

theorem Agrees.known (hs : job.Agrees acc connector look) (h : job.known = some job')
    {clientName : String} (hname : connector clientName = true) :
    job'.Agrees acc connector { look with clientName := some clientName } := by
  cases job with
  | rawUdp pc =>
      cases pc <;> cases h
      trivial
  | tcp j =>
      obtain ⟨pc, client, stream, connected⟩ := j
      cases pc <;> cases h
      exact ⟨⟨hs.1.handshake, hs.1.tcp⟩, hs.2, clientName, rfl, hname⟩

theorem Agrees.unknown (hs : job.Agrees acc connector look) {clientName : String}
    (h : job.unknown clientName = some job') (hname : connector clientName = false) :
    job'.Agrees acc connector { look with clientName := some clientName } := by
  cases job with
  | rawUdp pc =>
      cases pc <;> cases h
      trivial
  | tcp j =>
      obtain ⟨pc, client, stream, connected⟩ := j
      cases pc <;> cases h
      obtain ⟨hshaken, hconnected⟩ := hs
      dsimp only at hconnected
      subst hconnected
      refine ⟨look.cached, ?_⟩
      exact (Object.task_of_tcp hshaken.handshake hshaken.tcp).trans (Object.serve_unknown hname)

/-- In the scope of the lock only the name is known. -/
theorem Agrees.of_inside (hs : job.Agrees acc connector look) (hstage : job.stage = .inside)
    {look' : Lookup C} (hname : look'.clientName = look.clientName) :
    job.Agrees acc connector look' := by
  cases job with
  | rawUdp pc => trivial
  | tcp j =>
      obtain ⟨pc, client, stream, connected⟩ := j
      cases pc <;> cases hstage
      obtain ⟨hshaken, hconnected, name, hlook, hconnector⟩ := hs
      exact ⟨hshaken, hconnected, name, hname.trans hlook, hconnector⟩

/-- In the scope of the lock the task sees the cache, and calls `create` if it has to. -/
theorem Agrees.leaveScope (hs : job.Agrees acc connector look) (hstage : job.stage = .inside)
    {name : String} (hname : look.clientName = some name) (cache : String → Option C)
    (created : Option (Except IoError C)) {r : Except IoError C}
    (hhit : created = none → (cache name).isSome ∧ ∃ c, r = .ok c)
    (hmade : ∀ r', created = some r' → cache name = none ∧ r = r') :
    (job.leaveScope r).Agrees acc connector
      { look with connector := r.toOption, created := created, cache := cache } := by
  cases job with
  | rawUdp pc =>
      cases pc <;> cases hstage
      cases r <;> trivial
  | tcp j =>
      obtain ⟨pc, client, stream, connected⟩ := j
      cases pc <;> cases hstage
      rename_i addr payloadCache
      obtain ⟨hshaken, hconnected, name', hname', hconnector⟩ := hs
      obtain rfl := Option.some.inj (hname.symm.trans hname')
      dsimp only at hconnected
      subst hconnected
      cases r with
      | ok c =>
          refine ⟨⟨hshaken.handshake, hshaken.tcp⟩, rfl, name, hname, hconnector, ?_⟩
          cases hcreated : created with
          | none => exact .inl (hhit hcreated).1
          | some r' =>
              obtain ⟨-, rfl⟩ := hmade r' hcreated
              exact .inr ⟨c, rfl⟩
      | error e =>
          cases hcreated : created with
          | none =>
              obtain ⟨c, hc⟩ := (hhit hcreated).2
              cases hc
          | some r' =>
              obtain ⟨hnone, rfl⟩ := hmade r' hcreated
              let look' : Lookup C := { look with
                connector := none
                created := some (.error e)
                cache := cache }
              have hroute : (look'.env connector none).route addr = name := by
                simp [Lookup.env, look', hname]
              have hknown : connector ((look'.env connector none).route addr) = true := by
                rw [hroute]
                exact hconnector
              have huncached : look'.cached ((look'.env connector none).route addr) = false := by
                rw [hroute]
                simp [Lookup.cached, look', hnone]
              have hcreate : (look'.env connector none).create
                  ((look'.env connector none).route addr) = .error e := rfl
              have hserve :=
                Object.serve_not_created acc stream payloadCache hknown huncached hcreate
              exact ⟨look'.cached,
                (Object.task_of_tcp hshaken.handshake hshaken.tcp).trans hserve⟩

end Job

namespace Tasks

variable {C : Type} {acc : RunAcceptor} {connector : String → Bool} {s s' : Tasks C}
  {e : TaskEvent C} {i : ℕ} {t : Task C}

/-- Every task is where it would be alone. -/
def Agree (acc : RunAcceptor) (connector : String → Bool) (s : Tasks C) : Prop :=
  ∀ i t, s.tasks i = some t → t.job.Agrees acc connector t.look

theorem Agree.put (hs : s.Agree acc connector) (ht : t.job.Agrees acc connector t.look) :
    (s.put i t).Agree acc connector := by
  intro j u hu
  by_cases hji : j = i
  · subst hji
    obtain rfl := Option.some.inj ((tasks_put_self s j t).symm.trans hu)
    exact ht
  · exact hs j u ((tasks_put_ne s t hji).symm.trans hu)

theorem Agree.spawn (hs : s.Agree acc connector) {job : Job}
    (hjob : job.Agrees acc connector (Task.new (C := C) job).look) :
    (s.spawn job).Agree acc connector := by
  intro j u hu
  by_cases hj : j = s.accepted
  · subst hj
    obtain rfl : Task.new job = u := by simpa [Tasks.spawn] using hu
    exact hjob
  · have hold : (s.spawn job).tasks j = s.tasks j := by simp [Tasks.spawn, hj]
    exact hs j u (hold.symm.trans hu)

theorem Agree.locked (hs : s.Agree acc connector) (hlinked : s.Linked connector)
    (ht : s.tasks i = some t) {cache : MemoTable ℕ String C IoError}
    (h : s.cache.step (.enter i) = some cache) :
    ({ s.put i (t.locked s.cache.table (cache.phase i)) with cache := cache } : Tasks C).Agree
      acc connector := by
  have hjob := hs i t ht
  obtain ⟨k, hwaiting, -, ⟨v, hv, rfl⟩ | ⟨hnone, rfl⟩⟩ := MemoTable.enter_cases h
  all_goals
    have hmatches := hlinked.phase i t ht
    rw [hwaiting] at hmatches
    obtain ⟨hstage, hname, hconnector, hcreated⟩ := hmatches
  · let c : MemoCall ℕ String C IoError := ⟨i, k, none, .ok v⟩
    have hphase : (s.cache.finish s.cache.table c).phase i = .done (.ok v) :=
      MemoTable.phase_finish_self s.cache s.cache.table c
    rw [hphase]
    apply Agree.put hs
    refine hjob.leaveScope hstage hname s.cache.table t.look.created (fun _ ↦ ?_) fun r' hr' ↦ ?_
    · exact ⟨by simp [hv], v, rfl⟩
    · cases hcreated.symm.trans hr'
  · have hphase : (s.cache.setPhase i (.making k)).phase i = .making k :=
      MemoTable.phase_setPhase_self s.cache (.making k)
    rw [hphase]
    exact Agree.put hs (hjob.of_inside hstage rfl)

theorem Agree.created (hs : s.Agree acc connector) (hlinked : s.Linked connector)
    (ht : s.tasks i = some t) {r : Except IoError C} {cache : MemoTable ℕ String C IoError}
    (h : s.cache.step (.made i r) = some cache) :
    ({ s.put i (t.created r) with cache := cache } : Tasks C).Agree acc connector := by
  have hjob := hs i t ht
  obtain ⟨k, hmaking, rfl⟩ := MemoTable.made_cases h
  have hmatches := hlinked.phase i t ht
  rw [hmaking] at hmatches
  obtain ⟨hstage, hname, -, -, hcache⟩ := hmatches
  have hnone := (hlinked.served.making i k hmaking).2
  apply Agree.put hs
  refine hjob.leaveScope hstage hname t.look.cache (some r) (fun h ↦ ?_) fun r' hr' ↦ ?_
  · cases h
  · exact ⟨by rw [hcache, hnone], Option.some.inj hr'⟩

theorem Agree.step (hs : s.Agree acc connector) (hlinked : s.Linked connector)
    (h : s.step acc connector e = some s') : s'.Agree acc connector := by
  rcases step_cases h with ⟨job, hjob, rfl⟩ | ⟨i, t, job, ht, hadvance, rfl⟩ |
    ⟨i, t, job, clientName, -, ht, hname, hknown, rfl⟩ |
    ⟨i, t, job, clientName, -, ht, hname, hunknown, rfl⟩ | ⟨i, t, cache, ht, hcache, rfl⟩ |
    ⟨i, t, r, cache, -, ht, hcache, rfl⟩
  · apply hs.spawn
    rcases hjob with rfl | ⟨stream, rfl⟩
    · trivial
    · exact ⟨rfl, rfl⟩
  · exact hs.put ((hs i t ht).advance hadvance)
  · exact Agree.put hs ((hs i t ht).known hknown hname)
  · exact hs.put ((hs i t ht).unknown hunknown hname)
  · exact hs.locked hlinked ht hcache
  · exact hs.created hlinked ht hcache

theorem Agree.of_reachable (h : (machine acc connector).Reachable s) : s.Agree acc connector := by
  refine h.invariant_of (I := fun s ↦ s.Agree acc connector) (fun s ↦ Linked.of_reachable) ?_
    fun s e s' hlinked hs hstep ↦ hs.step hlinked hstep
  rintro s rfl i t h
  cases h

/-- A task for a stream ends as `task` does with what it has met, and the cache it has met is the
one that the lookups before its own have left, one after the other. -/
theorem task_alone (h : (machine acc connector).Reachable s) {j : TcpJob} {r : TaskEnd}
    (ht : s.tasks i = some t) (hjob : t.job = .tcp j) (hover : j.pc = .over r) :
    (∃ cache, Object.task acc (t.look.env connector j.connected) ⟨j.client, t.look.cached, none⟩ =
      (r, ⟨j.stream, cache, j.connected⟩)) ∧
    ∀ before c after, s.cache.calls = before ++ c :: after → c.task = i →
      t.look.clientName = some c.key ∧ t.look.created = c.made ∧
        t.look.connector = c.result.toOption ∧
        MemoTable.Replay (fun _ ↦ none) before t.look.cache := by
  refine ⟨?_, fun before c after hc hi ↦ ?_⟩
  · have hagrees := Agree.of_reachable h i t ht
    rw [hjob] at hagrees
    obtain ⟨pc, client, stream, connected⟩ := j
    dsimp only at hover
    subst hover
    exact hagrees
  · obtain ⟨u, hu, hrec⟩ := (Linked.of_reachable h).called before c after hc
    rw [hi] at hu
    obtain rfl := Option.some.inj (ht.symm.trans hu)
    exact ⟨hrec.clientName, hrec.created, hrec.connector, hrec.replay⟩

def twoHandshakes (client : TcpRunStream) : List (TaskEvent ℕ) :=
  [.accepted client, .accepted client, .handshaken 1, .handshaken 0]

/-- Two clients of one connector: the second one finds it in the cache, and its `connect` panics. -/
def sharedByTwo (client : TcpRunStream) : List (TaskEvent ℕ) :=
  twoHandshakes client ++ [.routed 0 "direct", .routed 1 "direct", .locked 0, .created 0 (.ok 7),
    .locked 1, .connected 1 (.error .panic)]

/-- The lookup of the first one. -/
def firstLookup : MemoCall ℕ String ℕ IoError := ⟨0, "direct", some (.ok 7), .ok 7⟩

theorem task_alone_sharedByTwo : ∃ (s : Tasks ℕ) (t : Task ℕ) (j : TcpJob),
    (machine SocksRunAcceptor.acceptor fun _ ↦ true).run new (sharedByTwo politeClient) = some s ∧
      s.tasks 1 = some t ∧ t.job = .tcp j ∧
      (∃ cache, Object.task SocksRunAcceptor.acceptor (t.look.env (fun _ ↦ true) j.connected)
        ⟨j.client, t.look.cached, none⟩ = (.ended, ⟨j.stream, cache, j.connected⟩)) ∧
      t.look.clientName = some "direct" ∧ t.look.created = none ∧ t.look.connector = some 7 ∧
      MemoTable.Replay (fun _ ↦ none) [firstLookup] t.look.cache := by
  obtain ⟨stream, h⟩ := exists_handshake_politeClient
  change SocksRunAcceptor.acceptor.handshake.runOn politeClient = _ at h
  generalize politeClient = client at h ⊢
  have hshaken : (Job.tcp ⟨.handshake, client, client, none⟩).handshaken
      SocksRunAcceptor.acceptor =
        some (.tcp ⟨.route ⟨"1.2.3.4", 80, false⟩ none, client, stream, none⟩) := by
    simp [Job.handshaken, h]
  obtain ⟨shaken, hdone⟩ : ∃ shaken : Task ℕ, shaken =
      .new (.tcp ⟨.route ⟨"1.2.3.4", 80, false⟩ none, client, stream, none⟩) := ⟨_, rfl⟩
  have hstart : (machine SocksRunAcceptor.acceptor fun _ ↦ true).run (new : Tasks ℕ)
      (twoHandshakes client) = some ((((new.spawn (.tcp ⟨.handshake, client, client, none⟩)).spawn
        (.tcp ⟨.handshake, client, client, none⟩)).put 1 shaken).put 0 shaken) := by
    simp [hdone, twoHandshakes, Machine.run_cons, machine, step, advance, spawn, new, Task.new,
      hshaken, put]
  have hrun : ((machine SocksRunAcceptor.acceptor fun _ ↦ true).run (new : Tasks ℕ)
      (sharedByTwo client)).bind (fun s ↦ (s.tasks 1).map fun t ↦ (t.job, s.cache.calls)) =
        some (.tcp ⟨.over .ended, client, stream, some (.error .panic)⟩,
          [firstLookup, ⟨1, "direct", none, .ok 7⟩]) := by
    rw [sharedByTwo, Machine.run_append, hstart, Option.bind_some, hdone]
    rfl
  obtain ⟨s, hs, ht⟩ := Option.bind_eq_some_iff.mp hrun
  obtain ⟨t, ht, heq⟩ := Option.map_eq_some_iff.mp ht
  obtain ⟨hjob, hcalls⟩ := Prod.mk.inj heq
  have hreach : (machine SocksRunAcceptor.acceptor fun _ ↦ true).Reachable s :=
    ⟨new, sharedByTwo client, rfl, hs⟩
  obtain ⟨halone, hmet⟩ := task_alone hreach ht hjob rfl
  obtain ⟨hname, hcreated, hconnector, hreplay⟩ :=
    hmet [firstLookup] _ [] hcalls rfl
  exact ⟨s, t, _, hs, ht, hjob, halone, hname, hcreated, hconnector, hreplay⟩

end Tasks

end Rog
