import Rog.Object.Interleaving

/-!
# Shared connectors

A connector is created once for its name and shared by all tasks that the router sends to it. The
price is that the lookups of all names go through one lock.
-/

namespace Rog

open Lib

namespace Tasks

variable {C : Type} {acc : RunAcceptor} {connector : String → Bool} {s s' : Tasks C}
  {e : TaskEvent C} {i : ℕ} {t : Task C}

/-- A task that has a connector, or has created one, has had its lookup. -/
theorem Linked.exists_call (hs : s.Linked connector) (ht : s.tasks i = some t)
    (h : t.look.connector ≠ none ∨ t.look.created ≠ none) :
    ∃ before c after, s.cache.calls = before ++ c :: after ∧ c.task = i ∧ t.Records before c := by
  have hmatches := hs.phase i t ht
  cases hp : s.cache.phase i with
  | done r =>
      obtain ⟨c, hc, hi, -⟩ := hs.served.done i r hp
      obtain ⟨before, after, hcalls⟩ := List.append_of_mem hc
      obtain ⟨u, hu, hrec⟩ := hs.called before c after hcalls
      rw [hi] at hu
      obtain rfl := Option.some.inj (ht.symm.trans hu)
      exact ⟨before, c, after, hcalls, hi, hrec⟩
  | idle =>
      rw [hp] at hmatches
      exact absurd h (by simp [hmatches.2.1, hmatches.2.2])
  | waiting k =>
      rw [hp] at hmatches
      exact absurd h (by simp [hmatches.2.2.1, hmatches.2.2.2])
  | making k =>
      rw [hp] at hmatches
      exact absurd h (by simp [hmatches.2.2.1, hmatches.2.2.2.1])

/-- The connector of a task is the one in the cache for its name. -/
theorem Linked.cached (hs : s.Linked connector) (ht : s.tasks i = some t) {c : C}
    (hc : t.look.connector = some c) : ∃ name, t.look.clientName = some name ∧
      connector name = true ∧ s.cache.table name = some c := by
  obtain ⟨before, call, after, hcalls, -, hrec⟩ := hs.exists_call ht (.inl (by simp [hc]))
  have hmem : call ∈ s.cache.calls := by simp [hcalls]
  have hresult : call.result = .ok c := by
    have h := hrec.connector.symm.trans hc
    cases hr : call.result with
    | ok d =>
        rw [hr] at h
        exact congrArg Except.ok (Option.some.inj h)
    | error e => simp [hr, Except.toOption] at h
  refine ⟨call.key, hrec.clientName, ?_, hs.served.replay.mem_table hmem hresult⟩
  have hasked : (call.task, call.key) ∈ s.cache.asked := by
    rw [hs.served.asked]
    exact List.mem_append_left _ (List.mem_map.mpr ⟨call, hmem, rfl⟩)
  exact hs.configured _ hasked

/-- The task that has created the connector for a name is the only one that has. -/
theorem Linked.created_once (hs : s.Linked connector) {j : ℕ} {u : Task C}
    (ht : s.tasks i = some t) (hu : s.tasks j = some u)
    (hname : t.look.clientName = u.look.clientName) {c d : C}
    (hc : t.look.created = some (.ok c)) (hd : u.look.created = some (.ok d)) : i = j := by
  obtain ⟨before, ci, after, hci, rfl, hti⟩ := hs.exists_call ht (.inr (by simp [hc]))
  obtain ⟨before', cj, after', hcj, rfl, huj⟩ := hs.exists_call hu (.inr (by simp [hd]))
  have hmadei := hti.created.symm.trans hc
  have hmadej := huj.created.symm.trans hd
  have hkey : ci.key = cj.key :=
    Option.some.inj (hti.clientName.symm.trans (hname.trans huj.clientName))
  have hmemi : ci ∈ s.cache.calls := by simp [hci]
  have hmemj : cj ∈ s.cache.calls := by simp [hcj]
  have hoki := (hs.served.replay.made_eq hmemi hmadei).1
  have hokj := (hs.served.replay.made_eq hmemj hmadej).1
  have hshared := hs.served.replay.shared
  rw [hci] at hshared hmemj
  obtain ⟨-, hafter, hbefore⟩ := List.pairwise_append.mp hshared
  rcases List.mem_append.mp hmemj with hj | hj
  · have hnone := (hbefore cj hj ci List.mem_cons_self hkey.symm d hokj).1
    cases hnone.symm.trans hmadei
  · rcases List.mem_cons.mp hj with rfl | hj
    · rfl
    · have hnone := ((List.pairwise_cons.mp hafter).1 cj hj hkey c hoki).1
      cases hnone.symm.trans hmadej

/-- What a step does to the cache. -/
theorem Linked.cache_cases (hs : s.Linked connector) (h : s.step acc connector e = some s') :
    s'.cache = s.cache ∨ ∃ m, s.cache.step m = some s'.cache ∧
      ∀ i r, m = .made i r → e = .created i r := by
  rcases step_cases h with ⟨job, -, rfl⟩ | ⟨i, t, job, -, -, rfl⟩ |
    ⟨i, t, job, clientName, -, ht, -, hknown, rfl⟩ | ⟨i, t, job, clientName, -, -, -, -, rfl⟩ |
    ⟨i, t, cache, -, hcache, rfl⟩ | ⟨i, t, r, cache, rfl, -, hcache, rfl⟩
  · exact .inl rfl
  · exact .inl rfl
  · have hidle := (hs.phase i t ht).idle_of_before (Job.stage_known hknown).1
    refine .inr ⟨.ask i clientName, ?_, by rintro j r ⟨⟩⟩
    simp [MemoTable.step, hidle]
  · exact .inl rfl
  · exact .inr ⟨.enter i, hcache, by rintro j r ⟨⟩⟩
  · exact .inr ⟨.made i r, hcache, by rintro j r ⟨⟩; rfl⟩

/-- What is in the cache stays. -/
theorem Linked.table_step (hs : s.Linked connector) (h : s.step acc connector e = some s')
    {name : String} {c : C} (hc : s.cache.table name = some c) : s'.cache.table name = some c := by
  rcases hs.cache_cases h with hsame | ⟨m, hm, -⟩
  · rwa [hsame]
  · exact hs.served.table_step hm hc

/-- There is one connector for each name, in whatever way the tasks come between each other: it is
created once, never replaced, and used by all tasks that look that name up. -/
theorem connectors_shared (h : (machine acc connector).Reachable s) :
    (∀ i t c, s.tasks i = some t → t.look.connector = some c → ∃ name,
      t.look.clientName = some name ∧ connector name = true ∧ s.cache.table name = some c) ∧
    (∀ i j t u, s.tasks i = some t → s.tasks j = some u →
      t.look.clientName = u.look.clientName →
      (∃ c, t.look.created = some (.ok c)) → (∃ d, u.look.created = some (.ok d)) → i = j) ∧
    ∀ es s', (machine acc connector).run s es = some s' →
      ∀ name c, s.cache.table name = some c → s'.cache.table name = some c := by
  have hs := Linked.of_reachable h
  refine ⟨fun i t c ht hc ↦ hs.cached ht hc, ?_, fun es s' hrun name c hc ↦ ?_⟩
  · rintro i j t u ht hu hname ⟨c, hc⟩ ⟨d, hd⟩
    exact hs.created_once ht hu hname hc hd
  · have hall : (machine acc connector).Along (fun _ _ ↦ True) s es :=
      .of_forall (fun _ _ _ ↦ trivial) s
    have hkept : s'.Linked connector ∧ s'.cache.table name = some c := by
      refine Machine.run_preserves (I := fun u ↦ u.Linked connector ∧ u.cache.table name = some c)
        (fun u e u' _ hu hstep ↦ ?_) hall ⟨hs, hc⟩ hrun
      exact ⟨hu.1.step hstep, hu.1.table_step hstep hu.2⟩
    exact hkept.2

/-- Two sockets of one name. -/
def twoSockets : List (TaskEvent ℕ) :=
  [.acceptedUdp, .acceptedUdp, .firstRead 0 (.ok ⟨⟨"1.2.3.4", 53, "10.0.0.1", 5000⟩, [1]⟩),
    .firstRead 1 (.ok ⟨⟨"1.2.3.4", 53, "10.0.0.1", 5001⟩, [2]⟩), .routed 0 "direct",
    .routed 1 "direct", .locked 0, .created 0 (.ok 7), .locked 1]

theorem connectors_shared_twoSockets : ∃ (s : Tasks ℕ) (t u : Task ℕ),
    (machine SocksRunAcceptor.acceptor fun _ ↦ true).run new twoSockets = some s ∧
      s.tasks 0 = some t ∧ s.tasks 1 = some u ∧ u.look.connector = some 7 ∧
      s.cache.table "direct" = some 7 := by
  let found : Option (Tasks ℕ × Task ℕ × Task ℕ) :=
    ((machine SocksRunAcceptor.acceptor fun _ ↦ true).run new twoSockets).bind fun s ↦
      (s.tasks 0).bind fun t ↦ (s.tasks 1).bind fun u ↦
        if u.look.connector = some 7 ∧ u.look.clientName = some "direct" then some (s, t, u)
        else none
  have hfound : found.isSome := by decide
  obtain ⟨⟨s, t, u⟩, h⟩ := Option.isSome_iff_exists.mp hfound
  obtain ⟨s', hs, h⟩ := Option.bind_eq_some_iff.mp h
  obtain ⟨t', ht, h⟩ := Option.bind_eq_some_iff.mp h
  obtain ⟨u', hu, h⟩ := Option.bind_eq_some_iff.mp h
  split at h
  · rename_i hlook
    cases h
    have hreach : (machine SocksRunAcceptor.acceptor fun _ ↦ true).Reachable s :=
      ⟨new, twoSockets, rfl, hs⟩
    obtain ⟨name, hname, -, htable⟩ := (connectors_shared hreach).1 1 u 7 hu hlook.1
    obtain rfl := Option.some.inj (hname.symm.trans hlook.2)
    exact ⟨s, t, u, hs, ht, hu, hlook.1, htable⟩
  · cases h

/-! ## The lock -/

/-- The step of the task that is this step of the cache. -/
def ofMemo : MemoEvent ℕ String C IoError → TaskEvent C
  | .ask i name => .routed i name
  | .enter i => .locked i
  | .made i r => .created i r

theorem Linked.exists_task (hs : s.Linked connector) (h : s.cache.phase i ≠ .idle) :
    ∃ t, s.tasks i = some t := by
  cases ht : s.tasks i with
  | some t => exact ⟨t, rfl⟩
  | none => exact absurd (hs.fresh i ht) h

variable (acc) in
theorem Linked.step_of_cache (hs : s.Linked connector) {e : MemoEvent ℕ String C IoError}
    (he : ∀ i name, e ≠ .ask i name) {cache : MemoTable ℕ String C IoError}
    (h : s.cache.step e = some cache) :
    ∃ s', s.step acc connector (ofMemo e) = some s' ∧ s'.cache = cache := by
  cases e with
  | ask i name => exact absurd rfl (he i name)
  | enter i =>
      obtain ⟨k, hwaiting, -⟩ := MemoTable.enter_cases h
      obtain ⟨t, ht⟩ := hs.exists_task (i := i) (by rw [hwaiting]; rintro ⟨⟩)
      exact ⟨{ s.put i (t.locked s.cache.table (cache.phase i)) with cache := cache },
        by simp [Tasks.step, ofMemo, Tasks.locked, ht, h], rfl⟩
  | made i r =>
      obtain ⟨k, hmaking, -⟩ := MemoTable.made_cases h
      obtain ⟨t, ht⟩ := hs.exists_task (i := i) (by rw [hmaking]; rintro ⟨⟩)
      exact ⟨{ s.put i (t.created r) with cache := cache },
        by simp [Tasks.step, ofMemo, Tasks.created, ht, h], rfl⟩

variable (acc) in
theorem Linked.run_of_cache (hs : s.Linked connector) {es : List (MemoEvent ℕ String C IoError)}
    (hes : ∀ e ∈ es, ∀ i name, e ≠ .ask i name) {cache : MemoTable ℕ String C IoError}
    (h : (MemoTable.machine fun _ ↦ none).run s.cache es = some cache) :
    ∃ s', (machine acc connector).run s (es.map ofMemo) = some s' ∧ s'.cache = cache := by
  induction es generalizing s with
  | nil => exact ⟨s, rfl, Option.some.inj h⟩
  | cons e es ih =>
      obtain ⟨u, hu, hrest⟩ := Machine.run_cons_some _ h
      obtain ⟨v, hv, rfl⟩ := hs.step_of_cache acc (hes e (by simp)) hu
      obtain ⟨s', hrun, hcache⟩ := ih (hs.step hv)
        (fun e he ↦ hes e (List.mem_cons_of_mem _ he)) hrest
      refine ⟨s', ?_, hcache⟩
      rw [List.map_cons, Machine.run_cons]
      exact Option.bind_eq_some_iff.mpr ⟨v, hv, hrun⟩

/-- While a connector is being created no lookup is over, of whatever name. -/
theorem Linked.blocked_step (hs : s.Linked connector) {name : String}
    (hmaking : s.cache.phase i = .making name) (he : ∀ r, e ≠ .created i r)
    (h : s.step acc connector e = some s') :
    s'.cache.phase i = .making name ∧ s'.cache.calls = s.cache.calls := by
  rcases hs.cache_cases h with hsame | ⟨m, hm, hmade⟩
  · rw [hsame]
    exact ⟨hmaking, rfl⟩
  · rcases hs.served.blocked hmaking hm with ⟨r, rfl⟩ | ⟨hphase, -, hcalls⟩
    · exact absurd (hmade i r rfl) (he r)
    · exact ⟨hphase, hcalls⟩

/-- The lookups are over in the order in which the tasks come to the lock, whatever their names
are. A task is not overtaken, and it waits for the lookups before its own only: two steps of each
of their tasks are enough. While one task creates a connector, nobody else gets one. -/
theorem lookups_in_order (h : (machine acc connector).Reachable s) :
    s.cache.asked = s.cache.calls.map (fun c ↦ (c.task, c.key)) ++ s.cache.queue ∧
    (∀ before i name after, s.cache.queue = before ++ (i, name) :: after →
      ∀ outcome : ℕ → Except IoError C, ∃ es s', (machine acc connector).run s es = some s' ∧
        (∀ e ∈ es, ∃ j ∈ before.map Prod.fst ++ [i],
          e = .locked j ∨ e = .created j (outcome j)) ∧
        es.length ≤ 2 * (before.length + 1) ∧ s'.cache.queue = after ∧
        ∃ r, s'.cache.phase i = .done r) ∧
    ∀ i name, s.cache.phase i = .making name → ∀ es s',
      (∀ e ∈ es, ∀ r, e ≠ .created i r) → (machine acc connector).run s es = some s' →
        s'.cache.calls = s.cache.calls := by
  have hs := Linked.of_reachable h
  refine ⟨hs.served.asked, fun before i name after hq outcome ↦ ?_,
    fun i name hmaking es s' hes hrun ↦ ?_⟩
  · obtain ⟨es, cache, hrun, hown, hlength, hafter, hdone⟩ := hs.served.serve hq outcome
    have hes : ∀ e ∈ es, ∀ j name, e ≠ .ask j name := by
      rintro e he j name rfl
      obtain ⟨u, -, h | h⟩ := hown _ he <;> cases h
    obtain ⟨s', hrun', rfl⟩ := hs.run_of_cache acc hes hrun
    refine ⟨es.map ofMemo, s', hrun', fun e he ↦ ?_, by simpa using hlength, hafter, hdone⟩
    obtain ⟨m, hm, rfl⟩ := List.mem_map.mp he
    obtain ⟨j, hj, rfl | rfl⟩ := hown m hm
    · exact ⟨j, hj, .inl rfl⟩
    · exact ⟨j, hj, .inr rfl⟩
  · have hall : (machine acc connector).Along (fun _ e ↦ ∀ r, e ≠ .created i r) s es :=
      .of_forall (fun e he _ ↦ hes e he) s
    have hkept : s'.Linked connector ∧ s'.cache.phase i = .making name ∧
        s'.cache.calls = s.cache.calls := by
      refine Machine.run_preserves (I := fun u ↦ u.Linked connector ∧
        u.cache.phase i = .making name ∧ u.cache.calls = s.cache.calls)
        (fun u e u' he hu hstep ↦ ?_) hall ⟨hs, hmaking, rfl⟩ hrun
      obtain ⟨hlinked, hphase, hcalls⟩ := hu
      obtain ⟨hphase', hcalls'⟩ := hlinked.blocked_step hphase he hstep
      exact ⟨hlinked.step hstep, hphase', hcalls'.trans hcalls⟩
    exact hkept.2.2

theorem lookups_in_order_twoSockets : ∃ s : Tasks ℕ,
    (machine SocksRunAcceptor.acceptor fun _ ↦ true).run new (twoSockets.take 7) = some s ∧
      s.cache.queue = [(0, "direct"), (1, "direct")] ∧
      ∃ es s', (machine SocksRunAcceptor.acceptor fun _ ↦ true).run s es = some s' ∧
        es.length ≤ 4 ∧ ∃ r, s'.cache.phase 1 = .done r := by
  let found : Option (Tasks ℕ) :=
    ((machine SocksRunAcceptor.acceptor fun _ ↦ true).run new (twoSockets.take 7)).bind fun s ↦
      if s.cache.queue = [(0, "direct"), (1, "direct")] then some s else none
  have hfound : found.isSome := by decide
  obtain ⟨s, h⟩ := Option.isSome_iff_exists.mp hfound
  obtain ⟨s', hs, h⟩ := Option.bind_eq_some_iff.mp h
  split at h
  · rename_i hq
    cases h
    have hreach : (machine SocksRunAcceptor.acceptor fun _ ↦ true).Reachable s :=
      ⟨new, twoSockets.take 7, rfl, hs⟩
    obtain ⟨es, u, hrun, -, hlength, -, hdone⟩ :=
      (lookups_in_order hreach).2.1 [(0, "direct")] 1 "direct" [] hq fun _ ↦ .ok 7
    exact ⟨s, hs, hq, es, u, hrun, hlength, hdone⟩
  · cases h

end Tasks

end Rog
