import Rog.Router.Resolver

/-!
# Answers for other queries

An entry is found under the address and the configuration, joined to one string. Two queries can
be joined to the same one.
-/

namespace Rog

open Lib

namespace ResolverEvent

/-- The event is no call, or one of these. -/
def Asks (queries : Set Query) : ResolverEvent → Prop
  | .resolveIp q _ => q ∈ queries
  | _ => True

end ResolverEvent

namespace Resolver

/-- Every answer came from upstream, for the query that it was given to. -/
def Faithful (s : Resolver) : Prop :=
  ∀ q result, (q, result) ∈ s.answers → (q.upstream, result) ∈ s.obtained

/-- The cache holds results of these queries, each under its own key. -/
structure Stored (queries : Set Query) (s : Resolver) : Prop where
  waiting : ∀ q ∈ s.waiting, q ∈ queries
  cache : ∀ key cached, s.cache key = some cached →
    ∃ q ∈ queries, q.cacheKey = key ∧ (q.upstream, cached.answer) ∈ s.obtained
  faithful : s.Faithful

variable {queries : Set Query} {s t : Resolver} {e : ResolverEvent}

theorem stored_new : new.Stored queries where
  waiting _ h := absurd h List.not_mem_nil
  cache _ _ h := absurd h (Option.some_ne_none _).symm
  faithful _ _ h := absurd h List.not_mem_nil

theorem Stored.step (hinj : Set.InjOn Query.cacheKey queries) (hs : s.Stored queries)
    (hasks : e.Asks queries) (h : s.step e = some t) : t.Stored queries := by
  cases e with
  | resolveIp q now =>
      obtain rfl := Option.some.inj h
      cases hget : s.cache.get q.cacheKey now with
      | some result =>
          refine ⟨hs.waiting, hs.cache, fun q' result' hmem ↦ ?_⟩
          rcases List.mem_append.mp hmem with hmem | hmem
          · exact hs.faithful q' result' hmem
          · obtain ⟨rfl, rfl⟩ := Prod.mk.inj (List.mem_singleton.mp hmem)
            obtain ⟨cached, hcached, -, rfl⟩ := ResolveCache.of_get_eq_some hget
            obtain ⟨p, hp, hkey, hobtained⟩ := hs.cache _ cached hcached
            rwa [← hinj hp hasks hkey]
      | none =>
          refine ⟨fun q' hmem ↦ ?_, hs.cache, hs.faithful⟩
          rcases List.mem_append.mp hmem with hmem | hmem
          · exact hs.waiting q' hmem
          · rw [List.mem_singleton.mp hmem]
            exact hasks
  | result i result now =>
      obtain ⟨q, hq, rfl⟩ := Option.map_eq_some_iff.mp h
      refine ⟨fun q' hmem ↦ hs.waiting q' (List.mem_of_mem_eraseIdx hmem), ?_, ?_⟩
      · intro key cached hcached
        change s.cache.insert q.cacheKey _ key = some cached at hcached
        by_cases hkey : key = q.cacheKey
        · rw [hkey, ResolveCache.insert_self] at hcached
          obtain rfl := Option.some.inj hcached
          refine ⟨q, hs.waiting q (List.mem_of_getElem? hq), hkey.symm, ?_⟩
          rw [ResolveResult.answer_new]
          exact List.mem_append_right _ (List.mem_singleton_self _)
        · rw [ResolveCache.insert_of_ne _ hkey] at hcached
          obtain ⟨p, hp, hpkey, hobtained⟩ := hs.cache key cached hcached
          exact ⟨p, hp, hpkey, List.mem_append_left _ hobtained⟩
      · intro q' result' hmem
        rcases List.mem_append.mp hmem with hmem | hmem
        · exact List.mem_append_left _ (hs.faithful q' result' hmem)
        · obtain ⟨rfl, rfl⟩ := Prod.mk.inj (List.mem_singleton.mp hmem)
          exact List.mem_append_right _ (List.mem_singleton_self _)
  | cleanupCache now =>
      obtain rfl := Option.some.inj h
      exact ⟨hs.waiting, fun key cached hcached ↦
        hs.cache key cached (ResolveCache.of_cleanupCache hcached), hs.faithful⟩

theorem stored_of_run (hinj : Set.InjOn Query.cacheKey queries) {es : List ResolverEvent}
    (hasks : ∀ e ∈ es, e.Asks queries) (h : machine.run new es = some t) : t.Stored queries := by
  have hasks : machine.Along (fun _ e ↦ e.Asks queries) new es :=
    .of_forall (fun e he _ ↦ hasks e he) new
  exact Machine.run_preserves (I := Stored queries)
    (fun _ _ _ ha hs hstep ↦ Stored.step hinj hs ha hstep) hasks
    stored_new h

/-- What the second of two queries is answered right after the first. -/
theorem run_pair {q q' : Query} (hkey : q.cacheKey = q'.cacheKey) :
    machine.run new [.resolveIp q 0, .result 0 (.ok []) 0, .resolveIp q' 0] = some
      { cache := (ResolveCache.insert (fun _ ↦ none) q.cacheKey (.new (.ok []) 0))
        waiting := []
        obtained := [(q.upstream, .ok [])]
        answers := [(q, .ok []), (q', .ok [])] } := by
  have hget : ((ResolveCache.insert (fun _ ↦ none) q.cacheKey (.new (.ok []) 0))).get
      q'.cacheKey 0 = some (.ok []) := by
    rw [← hkey, ResolveCache.get, ResolveCache.insert_self]
    rfl
  have hmiss : ResolveCache.get (fun _ ↦ none) q.cacheKey 0 = none := rfl
  simp [Machine.run, machine, step, new, hmiss, hget]

/-- No two of the queries are joined to the same key. -/
theorem answers_own_iff (queries : Set Query) :
    (∀ es t, (∀ e ∈ es, e.Asks queries) → machine.run new es = some t → t.Faithful) ↔
      Set.InjOn Query.cacheKey queries := by
  constructor
  · intro h q hq q' hq' hkey
    have hfaithful : Faithful _ := h _ _ (by simp [ResolverEvent.Asks, hq, hq']) (run_pair hkey)
    have hmem := hfaithful q' (.ok []) (by simp)
    simp only [List.mem_singleton, Prod.mk.injEq, and_true] at hmem
    exact Query.upstream_injective hmem.symm
  · exact fun hinj es t hasks hrun ↦ (stored_of_run hinj hasks hrun).faithful

/-- A server whose path ends like the name of another, and a name that has the rest of it. -/
theorem joined_query_answered : ¬∀ es t, machine.run new es = some t → t.Faithful := by
  intro h
  let q : Query := ⟨"example.com-https://1.1.1.1/dns", "8.8.8.8:53"⟩
  let q' : Query := ⟨"example.com", "https://1.1.1.1/dns-8.8.8.8:53"⟩
  have hkey : q.cacheKey = q'.cacheKey := by decide
  have hfaithful : Faithful _ := h _ _ (run_pair hkey)
  have hmem := hfaithful q' (.ok []) (by simp)
  simp only [List.mem_singleton, Prod.mk.injEq, and_true] at hmem
  have heq := congrArg Query.addr (Query.upstream_injective hmem)
  exact absurd heq (by decide)

end Resolver

end Rog
