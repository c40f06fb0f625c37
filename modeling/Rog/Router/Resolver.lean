import Mathlib.Data.Set.Function
import Mathlib.Logic.Function.Basic
import Rog.Lib.Machine
import Rog.Lib.Search
import Rog.Util.IpText

/-!
# The resolver

`router/resolver.rs`. A call of `resolve_ip` looks into the cache, and if that has no answer
goes upstream; other calls and the cleanup can run until its result is there. An `Instant` is
given in nanoseconds.
-/

namespace Rog

open Lib

structure Query where
  addr : String
  dnsConfig : String

abbrev ResolveAnswer := Except String (List IpAddr)

/-- The servers that a name is looked up at. -/
inductive Upstream where
  | defaultDns (addr : String)
  | doh (addr dnsAddr : String)
  | specificDns (addr dnsAddr : String)

namespace Query

def cacheKey (q : Query) : String := q.addr ++ "-" ++ q.dnsConfig

def upstream (q : Query) : Upstream :=
  if q.dnsConfig = "" then .defaultDns q.addr
  else if "doh://".toList.isPrefixOf q.dnsConfig.toList ∨
      "https://".toList.isPrefixOf q.dnsConfig.toList then
    .doh q.addr q.dnsConfig
  else .specificDns q.addr q.dnsConfig

/-- What is asked upstream tells the arguments. -/
theorem upstream_injective : Function.Injective upstream := by
  rintro ⟨addr, dnsConfig⟩ ⟨addr', dnsConfig'⟩ h
  simp only [upstream] at h
  split_ifs at h with h₁ h₂ h₃ h₄ <;> cases h
  · rw [h₁, h₂]
  · rfl
  · rfl

/-- The key tells the arguments if the configurations are without the character that joins them. -/
theorem eq_of_cacheKey_eq {q q' : Query} (hq : '-' ∉ q.dnsConfig.toList)
    (hq' : '-' ∉ q'.dnsConfig.toList) (h : q.cacheKey = q'.cacheKey) : q = q' := by
  have hcut (p : Query) (hp : '-' ∉ p.dnsConfig.toList) :
      cut ['-'] p.cacheKey.toList.reverse =
        some (p.dnsConfig.toList.reverse, p.addr.toList.reverse) := by
    have hne : ∀ x ∈ p.dnsConfig.toList.reverse, x ≠ '-' := by
      rintro x hx rfl
      exact hp (List.mem_reverse.mp hx)
    have hjoin : p.cacheKey.toList.reverse =
        p.dnsConfig.toList.reverse ++ '-' :: p.addr.toList.reverse := by
      simp [cacheKey]
    have hhead : cut ['-'] ('-' :: p.addr.toList.reverse) = some ([], p.addr.toList.reverse) :=
      cut_of_isPrefix ⟨p.addr.toList.reverse, rfl⟩
    rw [hjoin, cut_append_of_ne [] hne, hhead]
    simp
  have hsome := hcut q hq
  rw [h, hcut q' hq'] at hsome
  simp only [Option.some.injEq, Prod.mk.injEq, List.reverse_inj, String.toList_inj] at hsome
  exact congrArg₂ mk hsome.2.symm hsome.1.symm

end Query

/-! ## The cache -/

def secs (n : ℕ) : ℕ := n * 10 ^ 9

def cacheExpiration : ℕ := secs (3 * 60)

def negativeCacheExpiration : ℕ := secs 60

def getCacheExpiration (isError : Bool) : ℕ :=
  if isError then negativeCacheExpiration else cacheExpiration

structure ResolveResult where
  ips : List IpAddr
  expiry : ℕ
  err : Option String

namespace ResolveResult

def new (result : ResolveAnswer) (now : ℕ) : ResolveResult where
  ips := match result with
    | .ok ips => ips
    | .error _ => []
  expiry := now + getCacheExpiration (match result with
    | .ok _ => false
    | .error _ => true)
  err := match result with
    | .ok _ => none
    | .error e => some e

def answer (cached : ResolveResult) : ResolveAnswer :=
  match cached.err with
  | some e => .error e
  | none => .ok cached.ips

@[simp] theorem answer_new (result : ResolveAnswer) (now : ℕ) :
    (new result now).answer = result := by
  cases result <;> rfl

end ResolveResult

abbrev ResolveCache := String → Option ResolveResult

namespace ResolveCache

def get (cache : ResolveCache) (cacheKey : String) (now : ℕ) : Option ResolveAnswer :=
  match cache cacheKey with
  | some cached => if now < cached.expiry then some cached.answer else none
  | none => none

def insert (cache : ResolveCache) (cacheKey : String) (res : ResolveResult) : ResolveCache :=
  Function.update cache cacheKey (some res)

def cleanupCache (cache : ResolveCache) (now : ℕ) : ResolveCache := fun key ↦
  (cache key).filter fun res ↦ now < res.expiry

@[simp] theorem insert_self (cache : ResolveCache) (key : String) (res : ResolveResult) :
    cache.insert key res key = some res :=
  Function.update_self ..

theorem insert_of_ne (cache : ResolveCache) {key key' : String} (h : key ≠ key')
    (res : ResolveResult) : cache.insert key' res key = cache key :=
  Function.update_of_ne h ..

theorem of_get_eq_some {cache : ResolveCache} {key : String} {now : ℕ} {result : ResolveAnswer}
    (h : cache.get key now = some result) :
    ∃ cached, cache key = some cached ∧ now < cached.expiry ∧ cached.answer = result := by
  unfold get at h
  split at h
  · rename_i cached hcached
    by_cases hnow : now < cached.expiry
    · rw [if_pos hnow] at h
      exact ⟨cached, hcached, hnow, Option.some.inj h⟩
    · rw [if_neg hnow] at h
      cases h
  · cases h

theorem of_cleanupCache {cache : ResolveCache} {key : String} {now : ℕ} {cached : ResolveResult}
    (h : cache.cleanupCache now key = some cached) : cache key = some cached :=
  (Option.filter_eq_some_iff.mp h).1

end ResolveCache

/-! ## Calls -/

/-- The cache and the calls that are upstream, with what came from there and what was returned. -/
structure Resolver where
  cache : ResolveCache
  waiting : List Query
  obtained : List (Upstream × ResolveAnswer)
  answers : List (Query × ResolveAnswer)

inductive ResolverEvent where
  /-- A call that looks into the cache at `now`. -/
  | resolveIp (q : Query) (now : ℕ)
  /-- The result for a waiting call, that is stored at `now`. -/
  | result (i : ℕ) (result : ResolveAnswer) (now : ℕ)
  | cleanupCache (now : ℕ)

namespace Resolver

def new : Resolver := ⟨fun _ ↦ none, [], [], []⟩

def step (s : Resolver) : ResolverEvent → Option Resolver
  | .resolveIp q now => some <|
      match s.cache.get q.cacheKey now with
      | some cached => { s with answers := s.answers ++ [(q, cached)] }
      | none => { s with waiting := s.waiting ++ [q] }
  | .result i result now => s.waiting[i]?.map fun q ↦
      { cache := s.cache.insert q.cacheKey (.new result now)
        waiting := s.waiting.eraseIdx i
        obtained := s.obtained ++ [(q.upstream, result)]
        answers := s.answers ++ [(q, result)] }
  | .cleanupCache now => some { s with cache := s.cache.cleanupCache now }

def machine : Machine Resolver ResolverEvent where
  init s := s = new
  step := step

end Resolver

end Rog
