import Rog.Router.Matcher
import Rog.Util.Address

/-!
# The router

`DefaultBaseRouter`. The resolver is given by what its calls return, one after the other.
-/

namespace Rog

/-- What the calls of `resolve_ip` return, for an address and the configuration of a DNS. -/
abbrev ResolveIp := ℕ → String → String → Except String (List IpAddr)

structure RouteRule where
  name : String
  select : String
  exclude : List String
  domainToIp : Option Bool
  dns : Option String

structure CompiledRouteRule (c : MatcherCrates) where
  name : String
  select : String
  domainToIp : Bool
  dns : Option String
  exclude : ExcludeMatcher c

namespace CompiledRouteRule

variable {c : MatcherCrates}

def new (c : MatcherCrates) (rule : RouteRule) : CompiledRouteRule c where
  name := rule.name
  select := rule.select
  domainToIp := rule.domainToIp.getD false
  dns := rule.dns
  exclude := .new c rule.exclude

def pushIp (hosts : List String) (ip : IpAddr) : List String :=
  if hosts.contains ip.toString then hosts else hosts ++ [ip.toString]

/-- `hosts`: the address, and its IP addresses if the rule asks for them. -/
def hosts (rule : CompiledRouteRule c) (resolveIp : String → String → Except String (List IpAddr))
    (addr : String) : List String :=
  if rule.domainToIp then
    match resolveIp addr (rule.dns.getD "") with
    | .ok ips => ips.foldl pushIp [addr]
    | .error _ => [addr]
  else [addr]

/-- The loop over the hosts; `data` is what the map has for the rule. -/
def takes (rule : CompiledRouteRule c) (data : Option Matcher) : List String → Bool
  | [] => false
  | host :: hosts =>
      match data with
      | some matchHost =>
          if rule.exclude.isMatch host then rule.takes data hosts
          else if matchHost host then true
          else rule.takes data hosts
      | none => rule.takes data hosts

end CompiledRouteRule

structure DefaultBaseRouter (c : MatcherCrates) where
  defaultTag : String
  rules : List (CompiledRouteRule c)
  dataMap : String → Option Matcher

namespace DefaultBaseRouter

variable {c : MatcherCrates}

def new (c : MatcherCrates) (defaultTag : String) (rules : List RouteRule)
    (dataMap : String → Option Matcher) : DefaultBaseRouter c where
  defaultTag := defaultTag
  rules := rules.map (.new c)
  dataMap := dataMap

/-- The loop over the rules, after `calls` calls of the resolver. -/
def routeFrom (router : DefaultBaseRouter c) (resolveIp : ResolveIp) (addr : RunAddr) (calls : ℕ) :
    List (CompiledRouteRule c) → String × String
  | [] => ("default", router.defaultTag)
  | rule :: rules =>
      if rule.takes (router.dataMap rule.name) (rule.hosts (resolveIp calls) addr.addr) then
        (rule.name, rule.select)
      else router.routeFrom resolveIp addr (if rule.domainToIp then calls + 1 else calls) rules

def route (router : DefaultBaseRouter c) (resolveIp : ResolveIp) (addr : RunAddr) :
    String × String :=
  router.routeFrom resolveIp addr 0 router.rules

/-- Routing looks at nothing of an address but its text. -/
theorem route_congr (router : DefaultBaseRouter c) (resolveIp : ResolveIp) {a b : RunAddr}
    (h : a.addr = b.addr) : router.route resolveIp a = router.route resolveIp b := by
  suffices hfrom : ∀ rules calls, router.routeFrom resolveIp a calls rules =
      router.routeFrom resolveIp b calls rules from hfrom router.rules 0
  intro rules
  induction rules with
  | nil => exact fun calls ↦ rfl
  | cons rule rules ih =>
      intro calls
      rw [routeFrom, routeFrom, h, ih]

/-- A router with one rule, for one host. -/
def single (host : String) : DefaultBaseRouter .single :=
  new .single "other" [⟨"host", "host", [], none, none⟩] fun _ ↦ some fun h ↦ h = host

theorem route_single (host : String) (resolveIp : ResolveIp) (a : RunAddr) :
    (single host).route resolveIp a =
      if a.addr = host then ("host", "host") else ("default", "other") := by
  simp [route, single, new, routeFrom, CompiledRouteRule.new, CompiledRouteRule.hosts,
    CompiledRouteRule.takes, ExcludeMatcher.isMatch, ExcludeMatcher.new]

end DefaultBaseRouter

/-- Every router with every resolver returns the same for both addresses. -/
def RunAddr.SameRoute (a b : RunAddr) : Prop :=
  ∀ (c : MatcherCrates) (router : DefaultBaseRouter c) (resolveIp : ResolveIp),
    router.route resolveIp a = router.route resolveIp b

/-- Addresses with different texts are told apart by a router. -/
theorem RunAddr.sameRoute_iff {a b : RunAddr} : a.SameRoute b ↔ a.addr = b.addr := by
  constructor
  · intro h
    have hroute := h .single (.single a.addr) fun _ _ _ ↦ .ok []
    rw [DefaultBaseRouter.route_single, DefaultBaseRouter.route_single, if_pos rfl] at hroute
    by_contra hne
    rw [if_neg fun heq ↦ hne heq.symm] at hroute
    exact absurd hroute (by decide)
  · exact fun h c router resolveIp ↦ router.route_congr resolveIp h

end Rog
