import Rog.Object.Tasks

/-!
# Tasks side by side

The cache of the connectors is the only thing that the tasks of an object share. The phase in which
a task is with its lookup and the one that its job tells are the same at any time.
-/

namespace Rog

open Lib

/-- Where a task is with regard to the scope of the lock. -/
inductive Stage where
  | before
  | inside
  | after
  deriving DecidableEq

def Job.stage : Job → Stage
  | .tcp j => match j.pc with
      | .handshake | .route _ _ => .before
      | .lookup _ _ => .inside
      | .connect _ _ | .refuse | .confirm _ _ | .over _ => .after
  | .rawUdp pc => match pc with
      | .firstRead | .route _ => .before
      | .lookup _ => .inside
      | .udpTunnel _ | .left _ => .after

namespace Job

variable {C : Type} {acc : RunAcceptor} {job job' : Job} {clientName : String}

theorem stage_known (h : job.known = some job') : job.stage = .before ∧ job'.stage = .inside := by
  cases job with
  | tcp j =>
      obtain ⟨pc, client, stream, connected⟩ := j
      cases pc <;> cases h
      exact ⟨rfl, rfl⟩
  | rawUdp pc =>
      cases pc <;> cases h
      exact ⟨rfl, rfl⟩

theorem stage_unknown (h : job.unknown clientName = some job') :
    job.stage = .before ∧ job'.stage = .after := by
  cases job with
  | tcp j =>
      obtain ⟨pc, client, stream, connected⟩ := j
      cases pc <;> cases h
      exact ⟨rfl, rfl⟩
  | rawUdp pc =>
      cases pc <;> cases h
      exact ⟨rfl, rfl⟩

theorem stage_leaveScope (h : job.stage = .inside) (r : Except IoError C) :
    (job.leaveScope r).stage = .after := by
  cases job with
  | tcp j =>
      obtain ⟨pc, client, stream, connected⟩ := j
      cases pc <;> cases h
      cases r <;> rfl
  | rawUdp pc =>
      cases pc <;> cases h
      cases r <;> rfl

/-- A step of the task that is not about the cache. -/
def Advances (acc : RunAcceptor) (job job' : Job) : Prop :=
  job.handshaken acc = some job' ∨ (∃ r, job.firstRead r = some job') ∨
    (∃ r, job.connected r = some job') ∨ job.postHandshake acc = some job'

theorem Advances.stage (h : Advances acc job job') :
    job.stage ≠ .inside ∧ job'.stage ≠ .inside ∧ (job.stage = .after → job'.stage = .after) := by
  cases job with
  | tcp j =>
      obtain ⟨pc, client, stream, connected⟩ := j
      rcases h with h | ⟨r, h⟩ | ⟨r, h⟩ | h
      · cases pc <;> cases h
        rcases acc.handshake.runOn stream with ⟨_ | ⟨addr, payloadCache⟩, stream'⟩
        · exact ⟨nofun, nofun, nofun⟩
        · dsimp only
          split <;> exact ⟨nofun, nofun, nofun⟩
      · cases h
      · cases pc <;> cases h
        rcases r with (e | _) | v <;> exact ⟨nofun, nofun, fun _ ↦ rfl⟩
      · cases pc <;> cases h
        · exact ⟨nofun, nofun, fun _ ↦ rfl⟩
        · rcases (acc.postHandshake false 0).runOn stream with ⟨_ | _, stream'⟩ <;>
            exact ⟨nofun, nofun, fun _ ↦ rfl⟩
  | rawUdp pc =>
      rcases h with h | ⟨r, h⟩ | ⟨r, h⟩ | h
      · cases h
      · cases pc <;> cases h
        cases r <;> exact ⟨nofun, nofun, nofun⟩
      · cases h
      · cases h

end Job

namespace Tasks

variable {C : Type} {acc : RunAcceptor} {connector : String → Bool} {s s' : Tasks C}
  {e : TaskEvent C}

/-- What a step can be. -/
theorem step_cases (h : s.step acc connector e = some s') :
    (∃ job, (job = .rawUdp .firstRead ∨ ∃ stream, job = .tcp ⟨.handshake, stream, stream, none⟩) ∧
      s' = s.spawn job) ∨
    (∃ i t job, s.tasks i = some t ∧ t.job.Advances acc job ∧
      s' = s.put i { t with job := job }) ∨
    (∃ i t job clientName, e = .routed i clientName ∧ s.tasks i = some t ∧
      connector clientName = true ∧ t.job.known = some job ∧
      s' = { s.put i ⟨job, { t.look with clientName := some clientName }⟩ with
        cache := s.cache.ask i clientName }) ∨
    (∃ i t job clientName, e = .routed i clientName ∧ s.tasks i = some t ∧
      connector clientName = false ∧ t.job.unknown clientName = some job ∧
      s' = s.put i ⟨job, { t.look with clientName := some clientName }⟩) ∨
    (∃ i t cache, s.tasks i = some t ∧ s.cache.step (.enter i) = some cache ∧
      s' = { s.put i (t.locked s.cache.table (cache.phase i)) with cache := cache }) ∨
    ∃ i t r cache, e = .created i r ∧ s.tasks i = some t ∧
      s.cache.step (.made i r) = some cache ∧
      s' = { s.put i (t.created r) with cache := cache } := by
  have hadvance {i : ℕ} {f : Job → Option Job}
      (hf : ∀ job job', f job = some job' → job.Advances acc job')
      (h : s.advance i f = some s') : ∃ i t job, s.tasks i = some t ∧ t.job.Advances acc job ∧
        s' = s.put i { t with job := job } := by
    simp only [advance, bind, Option.bind_eq_some_iff] at h
    obtain ⟨t, ht, job, hjob, h⟩ := h
    exact ⟨i, t, job, ht, hf _ _ hjob, (Option.some.inj h).symm⟩
  cases e with
  | accepted stream => exact .inl ⟨_, .inr ⟨stream, rfl⟩, (Option.some.inj h).symm⟩
  | acceptedUdp => exact .inl ⟨_, .inl rfl, (Option.some.inj h).symm⟩
  | handshaken i => exact .inr (.inl (hadvance (fun _ _ h ↦ .inl h) h))
  | firstRead i r => exact .inr (.inl (hadvance (fun _ _ h ↦ .inr (.inl ⟨r, h⟩)) h))
  | connected i r => exact .inr (.inl (hadvance (fun _ _ h ↦ .inr (.inr (.inl ⟨r, h⟩))) h))
  | postHandshake i => exact .inr (.inl (hadvance (fun _ _ h ↦ .inr (.inr (.inr h))) h))
  | routed i clientName =>
      simp only [step, routed, bind, Option.bind_eq_some_iff] at h
      obtain ⟨t, ht, h⟩ := h
      cases hname : connector clientName with
      | true =>
          simp only [hname, if_true, Option.bind_eq_some_iff] at h
          obtain ⟨job, hjob, h⟩ := h
          exact .inr <| .inr <| .inl
            ⟨i, t, job, clientName, rfl, ht, hname, hjob, (Option.some.inj h).symm⟩
      | false =>
          simp only [hname, Bool.false_eq_true, if_false, Option.bind_eq_some_iff] at h
          obtain ⟨job, hjob, h⟩ := h
          exact .inr (.inr (.inr (.inl
            ⟨i, t, job, clientName, rfl, ht, hname, hjob, (Option.some.inj h).symm⟩)))
  | locked i =>
      simp only [step, locked, bind, Option.bind_eq_some_iff] at h
      obtain ⟨t, ht, cache, hcache, h⟩ := h
      exact .inr (.inr (.inr (.inr (.inl ⟨i, t, cache, ht, hcache, (Option.some.inj h).symm⟩))))
  | created i r =>
      simp only [step, created, bind, Option.bind_eq_some_iff] at h
      obtain ⟨t, ht, cache, hcache, h⟩ := h
      exact .inr (.inr (.inr (.inr (.inr
        ⟨i, t, r, cache, rfl, ht, hcache, (Option.some.inj h).symm⟩))))

end Tasks

namespace Task

variable {C : Type}

/-- The phase of a task in the table is the one that its job tells. -/
def Matches (table : String → Option C) (t : Task C) : MemoPhase String C IoError → Prop
  | .idle => t.job.stage ≠ .inside ∧ t.look.connector = none ∧ t.look.created = none
  | .waiting k => t.job.stage = .inside ∧ t.look.clientName = some k ∧ t.look.connector = none ∧
      t.look.created = none
  | .making k => t.job.stage = .inside ∧ t.look.clientName = some k ∧ t.look.connector = none ∧
      t.look.created = none ∧ t.look.cache = table
  | .done _ => t.job.stage = .after

/-- What a task has kept of a lookup. -/
structure Records (t : Task C) (before : List (MemoCall ℕ String C IoError))
    (c : MemoCall ℕ String C IoError) : Prop where
  clientName : t.look.clientName = some c.key
  connector : t.look.connector = c.result.toOption
  created : t.look.created = c.made
  replay : MemoTable.Replay (fun _ ↦ none) before t.look.cache

theorem Matches.advance {t : Task C} {acc : RunAcceptor} {job : Job}
    {table : String → Option C} {p : MemoPhase String C IoError} (h : t.Matches table p)
    (hadvance : t.job.Advances acc job) : Matches table { t with job := job } p := by
  obtain ⟨hbefore, hafter, hstays⟩ := hadvance.stage
  cases p with
  | idle => exact ⟨hafter, h.2⟩
  | waiting k => exact absurd h.1 hbefore
  | making k => exact absurd h.1 hbefore
  | done r => exact hstays h

theorem Matches.idle_of_before {t : Task C} {table : String → Option C}
    {p : MemoPhase String C IoError} (h : t.Matches table p) (hstage : t.job.stage = .before) :
    p = .idle := by
  cases p with
  | idle => rfl
  | waiting k => cases hstage.symm.trans h.1
  | making k => cases hstage.symm.trans h.1
  | done r => cases hstage.symm.trans h

end Task

namespace Tasks

variable {C : Type} {acc : RunAcceptor} {connector : String → Bool} {s s' : Tasks C}
  {e : TaskEvent C} {i : ℕ} {t : Task C}

/-- The tasks and the cache tell the same. -/
structure Linked (connector : String → Bool) (s : Tasks C) : Prop where
  cache : (MemoTable.machine fun _ ↦ none).Reachable s.cache
  fresh : ∀ i, s.tasks i = none → s.cache.phase i = .idle
  below : ∀ i t, s.tasks i = some t → i < s.accepted
  phase : ∀ i t, s.tasks i = some t → t.Matches s.cache.table (s.cache.phase i)
  called : ∀ before c after, s.cache.calls = before ++ c :: after →
    ∃ t, s.tasks c.task = some t ∧ t.Records before c
  configured : ∀ p ∈ s.cache.asked, connector p.2 = true

@[simp] theorem tasks_put_self (s : Tasks C) (i : ℕ) (t : Task C) :
    (s.put i t).tasks i = some t := by
  simp [put]

theorem tasks_put_ne (s : Tasks C) (t : Task C) {i j : ℕ} (h : j ≠ i) :
    (s.put i t).tasks j = s.tasks j := by
  simp [put, h]

/-- One task and the cache go on together. -/
theorem Linked.change (hs : s.Linked connector) (ht : s.tasks i = some t) {t' : Task C}
    {cache : MemoTable ℕ String C IoError}
    (hcache : (MemoTable.machine fun _ ↦ none).Reachable cache)
    (hphase : t'.Matches cache.table (cache.phase i))
    (hother : ∀ j, j ≠ i → cache.phase j = s.cache.phase j ∧
      ((∃ k, s.cache.phase j = .making k) → cache.table = s.cache.table))
    (hcalls : cache.calls = s.cache.calls ∧ (∀ before c, c ∈ s.cache.calls → c.task = i →
        t.Records before c → t'.Records before c) ∨
      ∃ c, c.task = i ∧ cache.calls = s.cache.calls ++ [c] ∧ t'.Records s.cache.calls c ∧
        ∀ d ∈ s.cache.calls, d.task ≠ i)
    (hasked : ∀ p ∈ cache.asked, connector p.2 = true) :
    ({ s.put i t' with cache := cache } : Tasks C).Linked connector := by
  have hself : (s.put i t').tasks i = some t' := tasks_put_self s i t'
  refine ⟨hcache, fun j hj ↦ ?_, fun j u hu ↦ ?_, fun j u hu ↦ ?_, fun before c after hc ↦ ?_,
    hasked⟩
  · by_cases hji : j = i
    · subst hji
      cases hself.symm.trans hj
    · exact (hother j hji).1.trans (hs.fresh j ((tasks_put_ne s t' hji).symm.trans hj))
  · by_cases hji : j = i
    · exact hji ▸ hs.below i t ht
    · exact hs.below j u ((tasks_put_ne s t' hji).symm.trans hu)
  · by_cases hji : j = i
    · subst hji
      obtain rfl := Option.some.inj (hself.symm.trans hu)
      exact hphase
    · have hmatches := hs.phase j u ((tasks_put_ne s t' hji).symm.trans hu)
      obtain ⟨hsame, htable⟩ := hother j hji
      change u.Matches cache.table (cache.phase j)
      rw [hsame]
      cases hp : s.cache.phase j with
      | making k =>
          rw [htable ⟨k, hp⟩, ← hp]
          exact hmatches
      | _ => rwa [hp] at hmatches
  · have hold {d : MemoCall ℕ String C IoError} {pre : List (MemoCall ℕ String C IoError)}
        {u : Task C} (hd : d.task ≠ i) (hu : s.tasks d.task = some u) (hrec : u.Records pre d) :
        ∃ u, (s.put i t').tasks d.task = some u ∧ u.Records pre d :=
      ⟨u, (tasks_put_ne s t' hd).trans hu, hrec⟩
    change cache.calls = before ++ c :: after at hc
    rcases hcalls with ⟨hsame, hrecords⟩ | ⟨d, rfl, hsnoc, hrec, hfirst⟩
    · obtain ⟨u, hu, hrec⟩ := hs.called before c after (hsame ▸ hc)
      by_cases hji : c.task = i
      · rw [hji] at hu ⊢
        obtain rfl := Option.some.inj (ht.symm.trans hu)
        exact ⟨t', hself, hrecords before c (by simp [← hsame, hc]) hji hrec⟩
      · exact hold hji hu hrec
    · rw [hsnoc] at hc
      rcases List.eq_nil_or_concat after with rfl | ⟨after, last, rfl⟩
      · obtain ⟨rfl, hlast⟩ := List.append_inj' hc rfl
        obtain rfl := List.singleton_inj.mp hlast
        exact ⟨t', hself, hrec⟩
      · rw [List.concat_eq_append, ← List.cons_append, ← List.append_assoc] at hc
        obtain ⟨hc, -⟩ := List.append_inj' hc rfl
        obtain ⟨u, hu, hrec⟩ := hs.called before c after hc
        exact hold (hfirst c (by simp [hc])) hu hrec

/-- A task is replaced by one that tells the same to the cache. -/
theorem Linked.put (hs : s.Linked connector) (ht : s.tasks i = some t) {t' : Task C}
    (hphase : t'.Matches s.cache.table (s.cache.phase i))
    (hrecords : ∀ before c, c ∈ s.cache.calls → c.task = i → t.Records before c →
      t'.Records before c) :
    (s.put i t').Linked connector :=
  hs.change ht hs.cache hphase (fun _ _ ↦ ⟨rfl, fun _ ↦ rfl⟩) (.inl ⟨rfl, hrecords⟩) hs.configured

theorem Linked.spawn (hs : s.Linked connector) {job : Job} (hstage : job.stage = .before) :
    (s.spawn job).Linked connector := by
  have hfree : s.tasks s.accepted = none := by
    cases h : s.tasks s.accepted with
    | none => rfl
    | some t => exact absurd (hs.below _ t h) (lt_irrefl _)
  have hne : ∀ {j u}, s.tasks j = some u → j ≠ s.accepted := by
    rintro j u hu rfl
    cases hfree.symm.trans hu
  have hother : ∀ {j}, j ≠ s.accepted → (s.spawn job).tasks j = s.tasks j := fun hj ↦ by
    simp [Tasks.spawn, hj]
  have hself : (s.spawn job).tasks s.accepted = some (.new job) := by simp [Tasks.spawn]
  refine ⟨hs.cache, fun j hj ↦ ?_, fun j u hu ↦ ?_, fun j u hu ↦ ?_, fun before c after hc ↦ ?_,
    hs.configured⟩
  · by_cases h : j = s.accepted
    · rw [h, hself] at hj
      cases hj
    · exact hs.fresh j ((hother h).symm.trans hj)
  · by_cases h : j = s.accepted
    · exact h ▸ Nat.lt_succ_self _
    · exact (hs.below j u ((hother h).symm.trans hu)).trans (Nat.lt_succ_self _)
  · by_cases h : j = s.accepted
    · subst h
      obtain rfl := Option.some.inj (hself.symm.trans hu)
      have hidle : (s.spawn job).cache.phase s.accepted = .idle := hs.fresh _ hfree
      rw [hidle]
      exact ⟨by rw [Task.new, hstage]; nofun, rfl, rfl⟩
    · exact hs.phase j u ((hother h).symm.trans hu)
  · obtain ⟨u, hu, hrec⟩ := hs.called before c after hc
    exact ⟨u, (hother (hne hu)).trans hu, hrec⟩

theorem Linked.served (hs : s.Linked connector) : s.cache.Served fun _ ↦ none :=
  .of_reachable hs.cache

theorem Linked.cache_step (hs : s.Linked connector) {e : MemoEvent ℕ String C IoError}
    {cache : MemoTable ℕ String C IoError} (h : s.cache.step e = some cache) :
    (MemoTable.machine fun _ ↦ none).Reachable cache := by
  have hstep : (MemoTable.machine fun _ ↦ none).step s.cache e = some cache := h
  exact hs.cache.step hstep

/-- A task whose lookup is not over has not been called. -/
theorem Linked.not_called (hs : s.Linked connector) (h : ∀ r, s.cache.phase i ≠ .done r) :
    ∀ d ∈ s.cache.calls, d.task ≠ i := by
  rintro d hd rfl
  exact h _ (hs.served.called d hd)

theorem Linked.ask (hs : s.Linked connector) (ht : s.tasks i = some t) {job : Job}
    (hknown : t.job.known = some job) {clientName : String} (hname : connector clientName = true) :
    ({ s.put i ⟨job, { t.look with clientName := some clientName }⟩ with
      cache := s.cache.ask i clientName } : Tasks C).Linked connector := by
  obtain ⟨hbefore, hinside⟩ := Job.stage_known hknown
  have hmatches := hs.phase i t ht
  have hidle := hmatches.idle_of_before hbefore
  rw [hidle] at hmatches
  have hstep : s.cache.step (.ask i clientName) = some (s.cache.ask i clientName) := by
    simp [MemoTable.step, hidle]
  have hnot := hs.not_called (i := i) (by rw [hidle]; rintro r ⟨⟩)
  refine hs.change ht (hs.cache_step hstep) ?_ (fun j hj ↦ ?_)
    (.inl ⟨rfl, fun _ c hc hi ↦ absurd hi (hnot c hc)⟩) fun p hp ↦ ?_
  · rw [MemoTable.phase_ask_self]
    exact ⟨hinside, rfl, hmatches.2⟩
  · exact ⟨MemoTable.phase_ask_ne s.cache clientName hj, fun _ ↦ rfl⟩
  · rcases List.mem_append.mp hp with hp | hp
    · exact hs.configured p hp
    · obtain rfl := List.mem_singleton.mp hp
      exact hname

theorem Linked.unknown (hs : s.Linked connector) (ht : s.tasks i = some t) {job : Job}
    {clientName : String} (hunknown : t.job.unknown clientName = some job) :
    (s.put i ⟨job, { t.look with clientName := some clientName }⟩).Linked connector := by
  obtain ⟨hbefore, hafter⟩ := Job.stage_unknown hunknown
  have hmatches := hs.phase i t ht
  have hidle := hmatches.idle_of_before hbefore
  rw [hidle] at hmatches
  have hnot := hs.not_called (i := i) (by rw [hidle]; rintro r ⟨⟩)
  refine hs.put ht ?_ fun _ c hc hi ↦ absurd hi (hnot c hc)
  rw [hidle]
  exact ⟨by rw [hafter]; rintro ⟨⟩, hmatches.2⟩

theorem Linked.locked (hs : s.Linked connector) (ht : s.tasks i = some t)
    {cache : MemoTable ℕ String C IoError} (h : s.cache.step (.enter i) = some cache) :
    ({ s.put i (t.locked s.cache.table (cache.phase i)) with cache := cache } : Tasks C).Linked
      connector := by
  have hreach := hs.cache_step h
  obtain ⟨k, hwaiting, hhead, ⟨v, hv, rfl⟩ | ⟨hnone, rfl⟩⟩ := MemoTable.enter_cases h
  all_goals
    have hmatches := hs.phase i t ht
    rw [hwaiting] at hmatches
    obtain ⟨hstage, hname, hconnector, hcreated⟩ := hmatches
    have hnot := hs.not_called (i := i) (by rw [hwaiting]; rintro r ⟨⟩)
  · let c : MemoCall ℕ String C IoError := ⟨i, k, none, .ok v⟩
    have hphase : (s.cache.finish s.cache.table c).phase i = .done (.ok v) :=
      MemoTable.phase_finish_self s.cache s.cache.table c
    rw [hphase]
    refine hs.change ht hreach ?_ (fun j hj ↦ ?_) (.inr ⟨c, rfl, rfl, ?_, hnot⟩) hs.configured
    · rw [hphase]
      exact Job.stage_leaveScope hstage _
    · exact ⟨MemoTable.phase_finish_ne s.cache s.cache.table c hj, fun _ ↦ rfl⟩
    · exact ⟨hname, rfl, hcreated, hs.served.replay⟩
  · have hphase : (s.cache.setPhase i (.making k)).phase i = .making k :=
      MemoTable.phase_setPhase_self s.cache (.making k)
    rw [hphase]
    refine hs.change ht hreach ?_ (fun j hj ↦ ?_)
      (.inl ⟨rfl, fun _ c hc hi ↦ absurd hi (hnot c hc)⟩) hs.configured
    · rw [hphase]
      exact ⟨hstage, hname, hconnector, hcreated, rfl⟩
    · exact ⟨MemoTable.phase_setPhase_ne s.cache (.making k) hj, fun _ ↦ rfl⟩

theorem Linked.created (hs : s.Linked connector) (ht : s.tasks i = some t) {r : Except IoError C}
    {cache : MemoTable ℕ String C IoError} (h : s.cache.step (.made i r) = some cache) :
    ({ s.put i (t.created r) with cache := cache } : Tasks C).Linked connector := by
  have hreach := hs.cache_step h
  obtain ⟨k, hmaking, rfl⟩ := MemoTable.made_cases h
  have hmatches := hs.phase i t ht
  rw [hmaking] at hmatches
  obtain ⟨hstage, hname, -, -, hcache⟩ := hmatches
  have hnot := hs.not_called (i := i) (by rw [hmaking]; rintro r ⟨⟩)
  let c : MemoCall ℕ String C IoError := ⟨i, k, some r, r⟩
  refine hs.change ht hreach ?_ (fun j hj ↦ ?_) (.inr ⟨c, rfl, rfl, ?_, hnot⟩) hs.configured
  · have hphase : (s.cache.finish (s.cache.insert k r) c).phase i = .done r :=
      MemoTable.phase_finish_self s.cache (s.cache.insert k r) c
    rw [hphase]
    exact Job.stage_leaveScope hstage r
  · refine ⟨MemoTable.phase_finish_ne s.cache (s.cache.insert k r) c hj, fun ⟨k', hk'⟩ ↦ ?_⟩
    exact absurd (hs.served.eq_of_making hk' hmaking) hj
  · refine ⟨hname, rfl, rfl, ?_⟩
    change MemoTable.Replay _ s.cache.calls t.look.cache
    rw [hcache]
    exact hs.served.replay

theorem Linked.step (hs : s.Linked connector) (h : s.step acc connector e = some s') :
    s'.Linked connector := by
  rcases step_cases h with ⟨job, hjob, rfl⟩ | ⟨i, t, job, ht, hadvance, rfl⟩ |
    ⟨i, t, job, clientName, -, ht, hname, hknown, rfl⟩ |
    ⟨i, t, job, clientName, -, ht, -, hunknown, rfl⟩ | ⟨i, t, cache, ht, hcache, rfl⟩ |
    ⟨i, t, r, cache, -, ht, hcache, rfl⟩
  · apply hs.spawn
    rcases hjob with rfl | ⟨stream, rfl⟩ <;> rfl
  · exact hs.put ht ((hs.phase i t ht).advance hadvance) fun _ _ _ _ hrec ↦
      ⟨hrec.clientName, hrec.connector, hrec.created, hrec.replay⟩
  · exact hs.ask ht hknown hname
  · exact hs.unknown ht hunknown
  · exact hs.locked ht hcache
  · exact hs.created ht hcache

theorem Linked.new : (new : Tasks C).Linked connector where
  cache := .of_init rfl
  fresh _ _ := rfl
  below i t h := by cases h
  phase i t h := by cases h
  called before c after h := absurd h (by simp [Tasks.new, MemoTable.new])
  configured p h := by cases h

theorem Linked.of_reachable (h : (machine acc connector).Reachable s) : s.Linked connector := by
  refine h.invariant (I := fun s ↦ s.Linked connector) ?_ fun s e s' hs hstep ↦ hs.step hstep
  rintro s rfl
  exact .new

end Tasks

end Rog
