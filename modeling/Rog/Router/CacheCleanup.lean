import Rog.Lib.Erasure
import Rog.Router.Resolver

/-!
# Old entries

An entry of the cache is looked at by its expiry, once when it is asked for and once when the
cache is cleaned up. The cleanup takes away only what no later call would be given.
-/

namespace Rog

open Lib

namespace ResolverEvent

/-- What the clock showed. -/
def now : ResolverEvent → ℕ
  | .resolveIp _ now | .result _ _ now | .cleanupCache now => now

def IsCleanup : ResolverEvent → Prop
  | .cleanupCache _ => True
  | _ => False

end ResolverEvent

/-- The clock does not go back. A call reads it under the lock of the cache, after the events
before it; the others read it before they take the lock, and may get there in another order. -/
def MonotoneClock (es : List ResolverEvent) : Prop :=
  es.Pairwise fun e f ↦ ∀ q t, f = .resolveIp q t → e.now ≤ t

/-- What is seen of an event from outside. -/
inductive ResolverOutcome where
  /-- A call is answered from the cache. -/
  | served (q : Query) (answer : ResolveAnswer)
  /-- A call goes upstream. -/
  | asked (upstream : Upstream)
  /-- A call that has been upstream is answered. -/
  | returned (q : Query) (answer : ResolveAnswer)

namespace ResolveResult

theorem expiry_new_ok (ips : List IpAddr) (now : ℕ) :
    (new (.ok ips) now).expiry = now + cacheExpiration := by
  simp only [new, getCacheExpiration, Bool.false_eq_true, if_false]

theorem expiry_new_error (e : String) (now : ℕ) :
    (new (.error e) now).expiry = now + negativeCacheExpiration := by
  simp only [new, getCacheExpiration, if_true]

end ResolveResult

namespace ResolveCache

variable {cache cache' : ResolveCache} {key : String} {c t : ℕ}

/-- An entry that the cleanup at `c` takes away is not given from then on. -/
theorem get_cleanupCache (h : c ≤ t) : (cache.cleanupCache c).get key t = cache.get key t := by
  unfold get cleanupCache
  cases hcached : cache key with
  | none => rfl
  | some cached =>
      by_cases hlive : c < cached.expiry
      · simp [Option.filter, hlive]
      · have hdead : ¬t < cached.expiry := by omega
        simp [Option.filter, hlive, hdead]

theorem get_insert_congr (h : cache.get key t = cache'.get key t) (key' : String)
    (res : ResolveResult) :
    (cache.insert key' res).get key t = (cache'.insert key' res).get key t := by
  by_cases hkey : key = key'
  · simp [get, hkey]
  · unfold get at h ⊢
    rw [insert_of_ne _ hkey, insert_of_ne _ hkey]
    exact h

end ResolveCache

namespace Resolver

variable {es : List ResolverEvent} {s t : Resolver}

def outcome (s : Resolver) : ResolverEvent → Option ResolverOutcome
  | .resolveIp q now => some <|
      match s.cache.get q.cacheKey now with
      | some answer => .served q answer
      | none => .asked q.upstream
  | .result i result _ => s.waiting[i]?.map fun q ↦ .returned q result
  | .cleanupCache _ => none

/-! ## Freshness -/

/-- The answer that is given for this key at `now` was stored by one of these events, not longer
ago than its kind of answer is kept. -/
def StoredBy (es : List ResolverEvent) (key : String) (now : ℕ) (answer : ResolveAnswer) : Prop :=
  ∃ before i t₀ after u q, es = before ++ .result i answer t₀ :: after ∧
    machine.run new before = some u ∧ u.waiting[i]? = some q ∧ q.cacheKey = key ∧ t₀ ≤ now ∧
      (∀ ips, answer = .ok ips → now < t₀ + cacheExpiration) ∧
      ∀ e, answer = .error e → now < t₀ + negativeCacheExpiration

/-- What the entry of a key is, in terms of the events so far. -/
def EntryFrom (es : List ResolverEvent) (key : String) (cached : ResolveResult) : Prop :=
  ∃ before i result t₀ after u q, es = before ++ .result i result t₀ :: after ∧
    machine.run new before = some u ∧ u.waiting[i]? = some q ∧ q.cacheKey = key ∧
      cached = .new result t₀

theorem EntryFrom.append {key : String} {cached : ResolveResult} (h : EntryFrom es key cached)
    (e : ResolverEvent) : EntryFrom (es ++ [e]) key cached := by
  obtain ⟨before, i, result, t₀, after, u, q, rfl, hrun, hwaiting, hkey, hcached⟩ := h
  exact ⟨before, i, result, t₀, after ++ [e], u, q, by simp, hrun, hwaiting, hkey, hcached⟩

theorem entryFrom_of_run (hrun : machine.run new es = some s) (key : String)
    (cached : ResolveResult) (hcached : s.cache key = some cached) : EntryFrom es key cached := by
  induction es using List.reverseRecOn generalizing s with
  | nil =>
      obtain rfl := Option.some.inj hrun
      cases hcached
  | append_singleton es e ih =>
      obtain ⟨u, hu, hlast⟩ := (Machine.run_append_eq_some _).mp hrun
      obtain ⟨v, hstep, hnil⟩ := Machine.run_cons_some _ hlast
      obtain rfl : v = s := by simpa using hnil
      cases e with
      | resolveIp q now =>
          obtain rfl := Option.some.inj hstep
          have hcache : u.cache key = some cached := by
            revert hcached
            cases u.cache.get q.cacheKey now <;> exact id
          exact (ih hu hcache).append _
      | result i result now =>
          obtain ⟨q, hq, rfl⟩ := Option.map_eq_some_iff.mp hstep
          change u.cache.insert q.cacheKey _ key = some cached at hcached
          by_cases hkey : key = q.cacheKey
          · rw [hkey, ResolveCache.insert_self] at hcached
            exact ⟨es, i, result, now, [], u, q, rfl, hu, hq, hkey.symm,
              (Option.some.inj hcached).symm⟩
          · rw [ResolveCache.insert_of_ne _ hkey] at hcached
            exact (ih hu hcached).append _
      | cleanupCache now =>
          obtain rfl := Option.some.inj hstep
          exact (ih hu (ResolveCache.of_cleanupCache hcached)).append _

theorem storedBy_of_get {key : String} {now : ℕ} {answer : ResolveAnswer}
    (hrun : machine.run new es = some s) (hnow : ∀ e ∈ es, e.now ≤ now)
    (h : s.cache.get key now = some answer) : StoredBy es key now answer := by
  obtain ⟨cached, hcached, hlive, rfl⟩ := ResolveCache.of_get_eq_some h
  obtain ⟨before, i, result, t₀, after, u, q, rfl, hu, hq, hkey, rfl⟩ :=
    entryFrom_of_run hrun key cached hcached
  refine ⟨before, i, t₀, after, u, q, by rw [ResolveResult.answer_new], hu, hq, hkey, ?_, ?_, ?_⟩
  · exact hnow _ (List.mem_append_right _ List.mem_cons_self)
  · intro ips hips
    rw [ResolveResult.answer_new] at hips
    rwa [hips, ResolveResult.expiry_new_ok] at hlive
  · intro e he
    rw [ResolveResult.answer_new] at he
    rwa [he, ResolveResult.expiry_new_error] at hlive

/-! ## Runs without cleanups -/

/-- The caches answer the calls to come alike, and nothing else is different. -/
structure AgreeFor (es : List ResolverEvent) (s s' : Resolver) : Prop where
  clock : MonotoneClock es
  get : ∀ q t, .resolveIp q t ∈ es → ∀ key, s'.cache.get key t = s.cache.get key t
  waiting : s'.waiting = s.waiting
  obtained : s'.obtained = s.obtained
  answers : s'.answers = s.answers

theorem AgreeFor.keep (e : ResolverEvent) (es : List ResolverEvent) (s s' t : Resolver)
    (h : AgreeFor (e :: es) s s') (hstep : machine.step s e = some t) :
    ∃ t', machine.step s' e = some t' ∧ s'.outcome e = s.outcome e ∧ AgreeFor es t t' := by
  have hclock := (List.pairwise_cons.mp h.clock).2
  have hget (q : Query) (now : ℕ) (hmem : .resolveIp q now ∈ es) (key : String) :=
    h.get q now (List.mem_cons_of_mem e hmem) key
  cases e with
  | resolveIp q now =>
      obtain rfl := Option.some.inj hstep
      have hsame := h.get q now List.mem_cons_self q.cacheKey
      refine ⟨_, rfl, ?_, ?_⟩
      · simp only [outcome, hsame]
      · rw [hsame]
        cases s.cache.get q.cacheKey now with
        | some answer =>
            refine ⟨hclock, hget, h.waiting, h.obtained, ?_⟩
            exact congrArg (· ++ [(q, answer)]) h.answers
        | none =>
            refine ⟨hclock, hget, ?_, h.obtained, h.answers⟩
            exact congrArg (· ++ [q]) h.waiting
  | result i result now =>
      obtain ⟨q, hq, rfl⟩ := Option.map_eq_some_iff.mp hstep
      have hq' : s'.waiting[i]? = some q := by rw [h.waiting, hq]
      refine ⟨_, Option.map_eq_some_iff.mpr ⟨q, hq', rfl⟩, ?_, hclock, ?_, ?_, ?_, ?_⟩
      · simp only [outcome, hq, hq']
      · exact fun p t hmem key ↦ ResolveCache.get_insert_congr (hget p t hmem key) _ _
      · exact congrArg (·.eraseIdx i) h.waiting
      · exact congrArg (· ++ [(q.upstream, result)]) h.obtained
      · exact congrArg (· ++ [(q, result)]) h.answers
  | cleanupCache now =>
      obtain rfl := Option.some.inj hstep
      have hlater := (List.pairwise_cons.mp h.clock).1
      refine ⟨_, rfl, rfl, hclock, ?_, h.waiting, h.obtained, h.answers⟩
      intro q t hmem key
      have hle : now ≤ t := hlater _ hmem q t rfl
      exact (ResolveCache.get_cleanupCache hle).trans
        ((hget q t hmem key).trans (ResolveCache.get_cleanupCache hle).symm)

theorem AgreeFor.drop (e : ResolverEvent) (es : List ResolverEvent) (s s' t : Resolver)
    (hcleanup : e.IsCleanup) (h : AgreeFor (e :: es) s s') (hstep : machine.step s e = some t) :
    s.outcome e = none ∧ AgreeFor es t s' := by
  cases e with
  | resolveIp q now | result i result now => exact hcleanup.elim
  | cleanupCache now =>
      obtain rfl := Option.some.inj hstep
      obtain ⟨hlater, hclock⟩ := List.pairwise_cons.mp h.clock
      refine ⟨rfl, hclock, ?_, h.waiting, h.obtained, h.answers⟩
      intro q t hmem key
      have hle : now ≤ t := hlater _ hmem q t rfl
      exact (h.get q t (List.mem_cons_of_mem _ hmem) key).trans
        (ResolveCache.get_cleanupCache hle).symm

/-- An answer out of the cache is one that was stored for the key and has not expired, and a run
does not depend on its cleanups. -/
theorem cache_fresh_and_cleanup_unseen (hclock : MonotoneClock es)
    (hrun : machine.run new es = some s) :
    (∀ before q now after u answer, es = before ++ .resolveIp q now :: after →
      machine.run new before = some u →
        u.outcome (.resolveIp q now) = some (.served q answer) →
          StoredBy before q.cacheKey now answer) ∧
    ∀ es', Erases ResolverEvent.IsCleanup es es' → ∃ s', machine.run new es' = some s' ∧
      machine.trace outcome new es' = machine.trace outcome new es ∧
        s'.waiting = s.waiting ∧ s'.obtained = s.obtained ∧ s'.answers = s.answers := by
  constructor
  · rintro before q now after u answer rfl hu houtcome
    have hnow : ∀ e ∈ before, e.now ≤ now := fun e he ↦
      (List.pairwise_append.mp hclock).2.2 e he _ List.mem_cons_self q now rfl
    refine storedBy_of_get hu hnow ?_
    simp only [outcome, Option.some.injEq] at houtcome
    cases hget : u.cache.get q.cacheKey now with
    | some cached =>
        rw [hget] at houtcome
        obtain rfl : cached = answer := by simpa using houtcome
        rfl
    | none =>
        rw [hget] at houtcome
        cases houtcome
  · intro es' herases
    have hagree : AgreeFor es new new := ⟨hclock, fun _ _ _ _ ↦ rfl, rfl, rfl, rfl⟩
    obtain ⟨s', hrun', htrace, ht⟩ :=
      Machine.run_erases AgreeFor.keep AgreeFor.drop herases hagree hrun
    exact ⟨s', hrun', htrace, ht.waiting, ht.obtained, ht.answers⟩

def localQuery : Query := ⟨"example.com", ""⟩

/-- A refusal is stored, given a second before its expiry, and gone at its expiry. -/
def beforeCleanup : List ResolverEvent :=
  [.resolveIp localQuery 0, .result 0 (.error "no record") 0]

def cleanedUp : List ResolverEvent :=
  beforeCleanup ++ .resolveIp localQuery (secs 59) ::
    [.cleanupCache (secs 60), .resolveIp localQuery (secs 60)]

theorem cache_fresh_and_cleanup_unseen_atExpiry :
    ∃ s s', machine.run new cleanedUp = some s ∧
      machine.run new (beforeCleanup ++ [.resolveIp localQuery (secs 59),
        .resolveIp localQuery (secs 60)]) = some s' ∧
      s.waiting.length = 1 ∧ s'.waiting = s.waiting ∧
      StoredBy beforeCleanup localQuery.cacheKey (secs 59) (.error "no record") := by
  have hclock : MonotoneClock cleanedUp := by
    simp [MonotoneClock, cleanedUp, beforeCleanup, ResolverEvent.now, secs]
  have hrun : ((machine.run new cleanedUp).map fun s ↦ s.waiting.length) = some 1 := by
    decide
  obtain ⟨s, hs, hwaiting⟩ := Option.map_eq_some_iff.mp hrun
  obtain ⟨hfresh, hsame⟩ := cache_fresh_and_cleanup_unseen hclock hs
  obtain ⟨s', hs', -, hwaiting', -, -⟩ := hsame _
    (.keep _ (.keep _ (.keep _ (.drop trivial (.keep _ .nil)))))
  obtain ⟨u, hu, hcache⟩ : ∃ u, machine.run new beforeCleanup = some u ∧
      u.cache = ResolveCache.insert (fun _ ↦ none) localQuery.cacheKey
        (.new (.error "no record") 0) := ⟨_, rfl, rfl⟩
  have hget : u.cache.get localQuery.cacheKey (secs 59) = some (.error "no record") := by
    rw [hcache, ResolveCache.get, ResolveCache.insert_self]
    simp [ResolveResult.expiry_new_error, negativeCacheExpiration, secs]
  have hserved : u.outcome (.resolveIp localQuery (secs 59)) =
      some (.served localQuery (.error "no record")) := by
    simp only [outcome, hget]
  exact ⟨s, s', hs, hs', hwaiting, hwaiting', hfresh _ _ _ _ u _ rfl hu hserved⟩

end Resolver

end Rog
