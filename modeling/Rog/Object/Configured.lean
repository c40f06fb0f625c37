import Rog.Object.Sharing
import Rog.Reverse.Call
import Rog.Router.RouterSet

/-!
# Connectors of a configuration

`ObjectConfig`, and the tasks of an object that has it. What a task goes on with is a connector of
the configuration, the one that is decided on for its address.
-/

namespace Rog

open Lib

/-- The fields of `config::Listener` that every listener has in use. -/
structure Listener where
  name : String
  router : String

structure Config where
  listener : List Listener
  router : List Router
  data : Option (List RouteData)
  connector : List Connector

/-- The entries of the data, each with the sources as they are at its turn. -/
def Config.loads (cfg : Config) (sources : ℕ → DataSources) : List DataLoad :=
  (cfg.data.getD []).zipIdx.map fun (rdCfg, i) ↦ ⟨rdCfg, sources i⟩

/-- The router that `main` makes for all objects. -/
def Config.defaultRouter (cfg : Config) (c : MatcherCrates) (sources : ℕ → DataSources) :
    DefaultRouter c :=
  .new c cfg.router (cfg.loads sources)

structure ObjectConfig where
  listener : Listener
  connector : String → Option Connector
  serverId : String

namespace ObjectConfig

def insertConnector (connector : String → Option Connector) (conn : Connector) :
    String → Option Connector :=
  Function.update connector conn.name (some conn)

/-- There is none where `unwrap` panics. -/
def build (name : String) (cfg : Config) (serverId : String) : Option ObjectConfig := do
  let listener ← cfg.listener.find? fun conf ↦ name = conf.name
  return ⟨listener, cfg.connector.foldl insertConnector fun _ ↦ none, serverId⟩

def hasConnector (cfg : ObjectConfig) (clientName : String) : Bool :=
  (cfg.connector clientName).isSome

end ObjectConfig

def Connector.entry (conn : Connector) : Option (String × Connector) := some (conn.name, conn)

/-- The first listener of this name. -/
def Config.ListenerFor (cfg : Config) (name : String) (l : Listener) : Prop :=
  ∃ before after, cfg.listener = before ++ l :: after ∧ l.name = name ∧
    ∀ conf ∈ before, conf.name ≠ name

namespace ObjectConfig

variable {cfg : Config} {objCfg : ObjectConfig} {name serverId : String}

theorem of_build (h : build name cfg serverId = some objCfg) :
    cfg.ListenerFor name objCfg.listener ∧
      objCfg.connector = tableOf Connector.entry cfg.connector := by
  obtain ⟨l, hl, hcfg⟩ := Option.bind_eq_some_iff.mp h
  obtain rfl := Option.some.inj hcfg
  obtain ⟨hname, before, after, hlist, hbefore⟩ := List.find?_eq_some_iff_append.mp hl
  refine ⟨⟨before, after, hlist, (of_decide_eq_true hname).symm, fun conf hconf heq ↦ ?_⟩, rfl⟩
  simpa [heq] using hbefore conf hconf

end ObjectConfig

/-! ## The address of a task -/

namespace Job

/-- The address that the router is asked for, where the task has it. -/
def dst : Job → Option RunAddr
  | .tcp j => match j.pc with
      | .route addr _ | .lookup addr _ | .connect addr _ | .confirm addr _ => some addr
      | .over (.relay addr _) => some addr
      | _ => none
  | .rawUdp pc => match pc with
      | .route p | .lookup p | .udpTunnel p => some ⟨p.metadata.dstAddr, p.metadata.dstPort, true⟩
      | _ => none

/-- The router has been asked. -/
def Routed (addr : RunAddr) (job : Job) : Prop := job.dst = some addr ∧ job.stage ≠ .before

variable {C : Type} {acc : RunAcceptor} {job job' : Job} {clientName : String} {addr : RunAddr}

theorem dst_known (h : job.known = some job') : job'.dst = job.dst := by
  cases job with
  | tcp j =>
      obtain ⟨pc, client, stream, connected⟩ := j
      cases pc <;> cases h
      rfl
  | rawUdp pc =>
      cases pc <;> cases h
      rfl

theorem dst_unknown (h : job.unknown clientName = some job') : job'.dst = none := by
  cases job with
  | tcp j =>
      obtain ⟨pc, client, stream, connected⟩ := j
      cases pc <;> cases h
      rfl
  | rawUdp pc =>
      cases pc <;> cases h
      rfl

theorem Routed.of_leaveScope {r : Except IoError C} (h : (job.leaveScope r).Routed addr) :
    job.Routed addr := by
  obtain ⟨hdst, hstage⟩ := h
  cases job with
  | tcp j =>
      obtain ⟨pc, client, stream, connected⟩ := j
      cases pc with
      | lookup a payloadCache =>
          cases r with
          | ok v => exact ⟨hdst, nofun⟩
          | error e => cases hdst
      | _ => exact ⟨hdst, hstage⟩
  | rawUdp pc =>
      cases pc with
      | lookup p =>
          cases r with
          | ok v => exact ⟨hdst, nofun⟩
          | error e => cases hdst
      | _ => exact ⟨hdst, hstage⟩

theorem Routed.of_advances (hadvance : job.Advances acc job') (h : job'.Routed addr) :
    job.Routed addr := by
  obtain ⟨hdst, hstage⟩ := h
  cases job with
  | tcp j =>
      obtain ⟨pc, client, stream, connected⟩ := j
      rcases hadvance with hjob | ⟨r, hjob⟩ | ⟨r, hjob⟩ | hjob
      · cases pc <;> cases hjob
        revert hdst hstage
        rcases acc.handshake.runOn stream with ⟨_ | ⟨a, payloadCache⟩, stream'⟩
        · rintro ⟨⟩
        · dsimp only
          split
          · rintro ⟨⟩
          · exact fun _ hstage ↦ absurd rfl hstage
      · cases hjob
      · cases pc <;> cases hjob
        rcases r with (e | _) | v
        · cases hdst
        · cases hdst
        · exact ⟨hdst, nofun⟩
      · cases pc <;> cases hjob
        · cases hdst
        · revert hdst
          rcases (acc.postHandshake false 0).runOn stream with ⟨_ | _, stream'⟩
          · rintro ⟨⟩
          · exact fun hdst ↦ ⟨hdst, nofun⟩
  | rawUdp pc =>
      rcases hadvance with hjob | ⟨r, hjob⟩ | ⟨r, hjob⟩ | hjob
      · cases hjob
      · cases pc <;> cases hjob
        cases r with
        | ok p => exact absurd rfl hstage
        | error e => cases hdst
      · cases hjob
      · cases hjob

end Job

namespace Tasks

variable {C : Type} {acc : RunAcceptor} {connector : String → Bool} {s s' : Tasks C}
  {e : TaskEvent C} {i : ℕ} {t : Task C}

/-- The router answers `route` for the addresses of the tasks, and what is created for a name is
`made` for it. -/
def Answers (route : ℕ → RunAddr → String) (made : String → C → Prop) (s : Tasks C) :
    TaskEvent C → Prop
  | .routed i clientName => ∀ t ∈ s.tasks i, ∀ addr ∈ t.job.dst, clientName = route i addr
  | .created i (.ok c) => ∀ t ∈ s.tasks i, ∀ clientName ∈ t.look.clientName, made clientName c
  | _ => True

structure Follows (route : ℕ → RunAddr → String) (made : String → C → Prop) (s : Tasks C) :
    Prop where
  name : ∀ i t addr, s.tasks i = some t → t.job.Routed addr →
    t.look.clientName = some (route i addr)
  table : ∀ clientName c, s.cache.table clientName = some c → made clientName c

variable {route : ℕ → RunAddr → String} {made : String → C → Prop} {es : List (TaskEvent C)}

theorem Follows.put (hs : s.Follows route made) {t' : Task C}
    (ht : ∀ addr, t'.job.Routed addr → t'.look.clientName = some (route i addr)) :
    (s.put i t').Follows route made := by
  refine ⟨fun j u addr hu hrouted ↦ ?_, hs.table⟩
  by_cases hji : j = i
  · subst hji
    rw [tasks_put_self] at hu
    obtain rfl := Option.some.inj hu
    exact ht addr hrouted
  · rw [tasks_put_ne s t' hji] at hu
    exact hs.name j u addr hu hrouted

theorem Follows.spawn (hs : s.Follows route made) {job : Job} (hjob : job.dst = none) :
    (s.spawn job).Follows route made := by
  refine ⟨fun j u addr hu hrouted ↦ ?_, hs.table⟩
  by_cases hj : j = s.accepted
  · have hself : (s.spawn job).tasks j = some (.new job) := by simp [Tasks.spawn, hj]
    obtain rfl := Option.some.inj (hself.symm.trans hu)
    cases hjob.symm.trans hrouted.1
  · have hother : (s.spawn job).tasks j = s.tasks j := by simp [Tasks.spawn, hj]
    exact hs.name j u addr (hother.symm.trans hu) hrouted

theorem Follows.locked (hs : s.Follows route made) (ht : s.tasks i = some t)
    (table : String → Option C) (phase : MemoPhase String C IoError) :
    (s.put i (t.locked table phase)).Follows route made := by
  refine hs.put fun addr hrouted ↦ ?_
  cases phase with
  | done r => exact hs.name i t addr ht hrouted.of_leaveScope
  | _ => exact hs.name i t addr ht hrouted

theorem Follows.step (hs : s.Follows route made) (hlinked : s.Linked connector)
    (he : s.Answers route made e) (h : s.step acc connector e = some s') :
    s'.Follows route made := by
  rcases step_cases h with ⟨job, hjob, rfl⟩ | ⟨i, t, job, ht, hadvance, rfl⟩ |
    ⟨i, t, job, clientName, rfl, ht, -, hknown, rfl⟩ |
    ⟨i, t, job, clientName, -, ht, -, hunknown, rfl⟩ | ⟨i, t, cache, ht, hcache, rfl⟩ |
    ⟨i, t, r, cache, rfl, ht, hcache, rfl⟩
  · apply hs.spawn
    rcases hjob with rfl | ⟨stream, rfl⟩ <;> rfl
  · exact hs.put fun addr hrouted ↦ hs.name i t addr ht (hrouted.of_advances hadvance)
  · have hput : (s.put i ⟨job, { t.look with clientName := some clientName }⟩).Follows
        route made := by
      refine hs.put fun addr hrouted ↦ congrArg some (he t ht addr ?_)
      exact (Job.dst_known hknown).symm.trans hrouted.1
    exact ⟨hput.name, hs.table⟩
  · refine hs.put fun addr hrouted ↦ ?_
    cases (Job.dst_unknown hunknown).symm.trans hrouted.1
  · refine ⟨(hs.locked ht _ _).name, fun clientName c hc ↦ hs.table clientName c ?_⟩
    obtain ⟨k, -, -, ⟨v, -, rfl⟩ | ⟨-, rfl⟩⟩ := MemoTable.enter_cases hcache
    · exact hc
    · exact hc
  · obtain ⟨k, hmaking, rfl⟩ := MemoTable.made_cases hcache
    have hput : (s.put i (t.created r)).Follows route made :=
      hs.put fun addr hrouted ↦ hs.name i t addr ht hrouted.of_leaveScope
    refine ⟨hput.name, fun clientName c hc ↦ ?_⟩
    have hmatches := hlinked.phase i t ht
    rw [hmaking] at hmatches
    obtain ⟨-, hname, -⟩ := hmatches
    cases r with
    | error e => exact hs.table clientName c hc
    | ok v =>
        change Function.update s.cache.table k (some v) clientName = some c at hc
        by_cases hkey : clientName = k
        · subst hkey
          rw [Function.update_self] at hc
          obtain rfl := Option.some.inj hc
          exact he t ht clientName hname
        · rw [Function.update_of_ne hkey] at hc
          exact hs.table clientName c hc

theorem Follows.new : (new : Tasks C).Follows route made where
  name i t addr ht := by cases ht
  table clientName c hc := by cases hc

theorem Follows.of_run (hes : (machine acc connector).Along (Answers route made) Tasks.new es)
    (h : (machine acc connector).run Tasks.new es = some s) :
    s.Linked connector ∧ s.Follows route made := by
  refine Machine.run_preserves (I := fun u ↦ u.Linked connector ∧ u.Follows route made) ?_ hes
    ⟨.new, .new⟩ h
  exact fun u e u' he hu hstep ↦ ⟨hu.1.step hstep, hu.2.step hu.1 he hstep⟩

end Tasks

/-! ## From the configuration to the connector -/

namespace ObjectConfig

/-- What the router answers for the address of a task, where the resolver answers the task like
this. -/
def route {mc : MatcherCrates} (objCfg : ObjectConfig) (router : DefaultRouter mc)
    (resolveIp : ℕ → ResolveIp) (i : ℕ) (addr : RunAddr) : String :=
  router.route (resolveIp i) objCfg.listener.router addr

/-- A connector for this name comes from the configuration of the name. -/
def Creates {C : Type} (objCfg : ObjectConfig) (creates : Connector → C → Prop)
    (clientName : String) (c : C) : Prop :=
  ∀ conn ∈ objCfg.connector clientName, creates conn c

end ObjectConfig

namespace Tasks

variable {C : Type} {acc : RunAcceptor} {s : Tasks C} {es : List (TaskEvent C)} {i : ℕ} {t : Task C}
  {cfg : Config} {objCfg : ObjectConfig} {name serverId : String} {mc : MatcherCrates}
  {sources : ℕ → DataSources} {resolveIp : ℕ → ResolveIp} {creates : Connector → C → Prop}

/-- In whatever way the tasks of an object come between each other, and whoever has created the
connector: a task goes on with one of the last connector configuration of the name that the last
router of the listener decides on for the address of the task. -/
theorem connectors_configured (hbuild : ObjectConfig.build name cfg serverId = some objCfg)
    (hes : (machine acc objCfg.hasConnector).Along (Answers
      (objCfg.route (cfg.defaultRouter mc sources) resolveIp) (objCfg.Creates creates)) new es)
    (hrun : (machine acc objCfg.hasConnector).run new es = some s) (ht : s.tasks i = some t)
    {c : C} (hc : t.look.connector = some c) {addr : RunAddr} (haddr : t.job.dst = some addr) :
    ∃ l tag conn, cfg.ListenerFor name l ∧
      Decides mc (cfg.loads sources) (resolveIp i) addr cfg.router l.router tag ∧
      LastEntry Connector.entry cfg.connector tag conn ∧ creates conn c ∧
      t.look.clientName = some tag ∧ s.cache.table tag = some c := by
  obtain ⟨hlinked, hfollows⟩ := Follows.of_run hes hrun
  obtain ⟨hlistener, hconnector⟩ := ObjectConfig.of_build hbuild
  obtain ⟨tag, hname, hknown, htable⟩ := hlinked.cached ht hc
  have hstage : t.job.stage ≠ .before := by
    intro hstage
    have hmatches := hlinked.phase i t ht
    rw [hmatches.idle_of_before hstage] at hmatches
    cases hmatches.2.1.symm.trans hc
  have hroute := hfollows.name i t addr ht ⟨haddr, hstage⟩
  obtain rfl := Option.some.inj (hname.symm.trans hroute)
  obtain ⟨conn, hconn⟩ := Option.isSome_iff_exists.mp hknown
  have hlast := hconn
  rw [hconnector, tableOf_eq_some_iff] at hlast
  exact ⟨objCfg.listener, _, conn, hlistener, DefaultRouter.route_eq_iff.mp rfl, hlast,
    hfollows.table _ c htable conn hconn, hname, htable⟩

def directTcp : Connector := ⟨none, "direct", none, "tcp", none⟩

/-- The router and the connector that the listener has are the second ones of their names. -/
def usedTwice : Config where
  listener := [⟨"in", "main"⟩]
  router := [⟨"main", "none", none⟩, ⟨"main", "direct", none⟩]
  data := none
  connector := [⟨some "10.0.0.1:80", "direct", some "old", "pb_tcp", none⟩, directTcp]

def usedTwiceObject : ObjectConfig where
  listener := ⟨"in", "main"⟩
  connector := usedTwice.connector.foldl ObjectConfig.insertConnector fun _ ↦ none
  serverId := ""

theorem connectors_configured_usedTwice : ∃ (s : Tasks ℕ) (t : Task ℕ) (l : Listener),
    (machine SocksRunAcceptor.acceptor usedTwiceObject.hasConnector).run new twoSockets = some s ∧
      s.tasks 1 = some t ∧ t.look.connector = some 7 ∧ usedTwice.ListenerFor "in" l ∧
      ∃ tag, LastEntry Connector.entry usedTwice.connector tag directTcp ∧
        t.look.clientName = some tag := by
  have hbuild : ObjectConfig.build "in" usedTwice "" = some usedTwiceObject := rfl
  have hcreates (clientName : String) :
      usedTwiceObject.Creates (fun conn n ↦ conn = directTcp ∧ n = 7) clientName 7 := by
    rintro conn hconn
    by_cases hname : clientName = "direct"
    · subst hname
      exact ⟨(Option.some.inj hconn).symm, rfl⟩
    · have hnone : usedTwiceObject.connector clientName = none := by
        simp [usedTwiceObject, usedTwice, directTcp, ObjectConfig.insertConnector, hname]
      rw [hnone] at hconn
      cases hconn
  let found : Option (Tasks ℕ × Task ℕ) :=
    ((machine SocksRunAcceptor.acceptor usedTwiceObject.hasConnector).run new twoSockets).bind
      fun s ↦ (s.tasks 1).bind fun t ↦
        if t.look.connector = some 7 ∧ t.job.dst = some ⟨"1.2.3.4", 53, true⟩ then some (s, t)
        else none
  have hfound : found.isSome := by decide
  obtain ⟨⟨s, t⟩, h⟩ := Option.isSome_iff_exists.mp hfound
  obtain ⟨s', hs, h⟩ := Option.bind_eq_some_iff.mp h
  obtain ⟨t', ht, h⟩ := Option.bind_eq_some_iff.mp h
  split at h
  · rename_i hlook
    cases h
    have hes : (machine SocksRunAcceptor.acceptor usedTwiceObject.hasConnector).Along (Answers
        (usedTwiceObject.route (usedTwice.defaultRouter .single fun _ ↦ loopbackFile)
          fun _ _ _ _ ↦ .ok [])
        (usedTwiceObject.Creates fun conn n ↦ conn = directTcp ∧ n = 7)) new
        twoSockets := by
      refine .of_forall ?_ new
      simp only [twoSockets, List.forall_mem_cons, Answers, implies_true, true_and,
        List.not_mem_nil, false_implies, and_true]
      refine ⟨fun _ _ _ _ _ ↦ rfl, fun _ _ _ _ _ ↦ rfl, ?_⟩
      exact fun _ _ _ clientName _ ↦ hcreates clientName
    obtain ⟨l, tag, conn, hlistener, -, hlast, ⟨rfl, -⟩, hname, -⟩ :=
      connectors_configured hbuild hes hs ht hlook.1 hlook.2
    exact ⟨s, t, l, hs, ht, hlook.1, hlistener, tag, hlast, hname⟩
  · cases h

end Tasks

end Rog
