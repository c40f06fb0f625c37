import Rog.Lib.LastEntry
import Rog.Router.FirstMatch
import Rog.Router.RouteData

/-!
# The routers of a configuration

`DefaultRouter`, which all listeners share. Where a configuration uses a name twice, the router of
that name is the last one, and its data is that of the last entry that could be loaded.
-/

namespace Rog

open Lib

/-- `config::Router`. -/
structure Router where
  name : String
  default : String
  routeRules : Option (List RouteRule)

namespace Router

def rules (r : Router) : List RouteRule := r.routeRules.getD []

/-- The router that the loop makes of it. -/
def base (c : MatcherCrates) (dataMap : String → Option Matcher) (r : Router) :
    DefaultBaseRouter c :=
  .new c r.default r.rules dataMap

end Router

structure DefaultRouter (c : MatcherCrates) where
  routerMap : String → Option (DefaultBaseRouter c)
  dataMap : String → Option Matcher

namespace DefaultRouter

variable {c : MatcherCrates}

/-- The body of the loop over the routers. -/
def insertRouter (c : MatcherCrates) (dataMap : String → Option Matcher)
    (routerMap : String → Option (DefaultBaseRouter c)) (r : Router) :
    String → Option (DefaultBaseRouter c) :=
  Function.update routerMap r.name (some (r.base c dataMap))

def new (c : MatcherCrates) (cfg : List Router) (dataCfg : List DataLoad) : DefaultRouter c :=
  let dataMap := loadRouteData c dataCfg
  ⟨cfg.foldl (insertRouter c dataMap) fun _ ↦ none, dataMap⟩

def route (router : DefaultRouter c) (resolveIp : ResolveIp) (rName : String) (addr : RunAddr) :
    String :=
  match router.routerMap rName with
  | some router => (router.route resolveIp addr).2
  | none => "default"

end DefaultRouter

/-! ## What a configuration says -/

def Router.entry (r : Router) : Option (String × Router) := some (r.name, r)

/-- What the loop over the data puts into the map. -/
def DataLoad.entry (c : MatcherCrates) (load : DataLoad) : Option (String × Matcher) :=
  load.lines.bind fun p ↦
    (getMatcherFactoryFn c p.1).map fun factory ↦ (load.rdCfg.name, factory p.2)

section

variable (c : MatcherCrates) (dataCfg : List DataLoad) (resolveIp : ResolveIp) (addr : RunAddr)

/-- The rule at index `i` takes a host that is in the data of its name and not excluded. -/
def TakesAt (rules : List RouteRule) (i : ℕ) : Prop :=
  ∃ rule matchHost host, rules[i]? = some rule ∧
    LastEntry (DataLoad.entry c) dataCfg rule.name matchHost ∧
    rule.Candidate (answerAt resolveIp rules i) addr.addr host ∧ ¬rule.Excludes c host ∧
    matchHost host

inductive Decides (cfg : List Router) (rName : String) : String → Prop where
  | unknown (h : ∀ r ∈ cfg, r.name ≠ rName) : Decides cfg rName "default"
  | rule {r : Router} {i : ℕ} {rule : RouteRule} (last : LastEntry Router.entry cfg rName r)
      (get : r.rules[i]? = some rule) (takes : TakesAt c dataCfg resolveIp addr r.rules i)
      (first : ∀ j < i, ¬TakesAt c dataCfg resolveIp addr r.rules j) :
      Decides cfg rName rule.select
  | fallback {r : Router} (last : LastEntry Router.entry cfg rName r)
      (none : ∀ i, ¬TakesAt c dataCfg resolveIp addr r.rules i) :
      Decides cfg rName r.default

end

variable {c : MatcherCrates} {cfg cfg' : List Router} {dataCfg dataCfg' : List DataLoad}
  {resolveIp : ResolveIp} {rName tag : String} {addr : RunAddr}

theorem insertRouteData_eq_enter (dataMap : String → Option Matcher) (load : DataLoad) :
    insertRouteData c dataMap load = enter (DataLoad.entry c) dataMap load := by
  unfold insertRouteData enter DataLoad.entry
  cases load.lines with
  | none => rfl
  | some p => cases hfactory : getMatcherFactoryFn c p.1 <;> simp [hfactory]

theorem loadRouteData_eq_tableOf :
    loadRouteData c dataCfg = tableOf (DataLoad.entry c) dataCfg :=
  congrArg (fun f ↦ dataCfg.foldl f fun _ ↦ none)
    (funext fun dataMap ↦ funext fun load ↦ insertRouteData_eq_enter dataMap load)

theorem takesAt_iff {rules : List RouteRule} {i : ℕ} :
    TakesAt c dataCfg resolveIp addr rules i ↔
      MatchesAt c (loadRouteData c dataCfg) resolveIp addr rules i := by
  simp only [TakesAt, MatchesAt, RouteRule.Matches, loadRouteData_eq_tableOf, tableOf_eq_some_iff]
  constructor
  · rintro ⟨rule, matchHost, host, hget, hlast, hhost⟩
    exact ⟨rule, hget, matchHost, hlast, host, hhost⟩
  · rintro ⟨rule, hget, matchHost, hlast, host, hhost⟩
    exact ⟨rule, matchHost, host, hget, hlast, hhost⟩

namespace DefaultRouter

theorem routerMap_new : (new c cfg dataCfg).routerMap rName =
    (tableOf Router.entry cfg rName).map (Router.base c (loadRouteData c dataCfg)) := by
  have hentry (r : Router) : some (r.name, r.base c (loadRouteData c dataCfg)) =
      r.entry.map (Prod.map id (Router.base c (loadRouteData c dataCfg))) := rfl
  exact tableOf_map _ hentry

theorem route_of_unknown (h : ∀ r ∈ cfg, r.name ≠ rName) :
    (new c cfg dataCfg).route resolveIp rName addr = "default" := by
  have hnone : tableOf Router.entry cfg rName = none :=
    tableOf_eq_none_iff.mpr fun r hr b hb ↦ h r hr (Prod.mk.inj (Option.some.inj hb)).1
  rw [route, routerMap_new, hnone]
  rfl

theorem route_of_last {r : Router} (h : LastEntry Router.entry cfg rName r) :
    (new c cfg dataCfg).route resolveIp rName addr =
      ((r.base c (loadRouteData c dataCfg)).route resolveIp addr).2 := by
  rw [route, routerMap_new, tableOf_eq_some_iff.mpr h]
  rfl

theorem route_of_decides (h : Decides c dataCfg resolveIp addr cfg rName tag) :
    (new c cfg dataCfg).route resolveIp rName addr = tag := by
  cases h with
  | unknown h => exact route_of_unknown h
  | rule last get takes first =>
      have hfirst := And.intro (takesAt_iff.mp takes)
        fun j hj ↦ mt takesAt_iff.mpr (first j hj)
      rw [route_of_last last, Router.base, DefaultBaseRouter.route_first get hfirst]
  | fallback last none =>
      rw [route_of_last last, Router.base,
        DefaultBaseRouter.route_none fun i ↦ mt takesAt_iff.mpr (none i)]

theorem exists_decides : ∃ tag, Decides c dataCfg resolveIp addr cfg rName tag := by
  cases hlast : tableOf Router.entry cfg rName with
  | none =>
      exact ⟨"default", .unknown fun r hr hname ↦
        tableOf_eq_none_iff.mp hlast r hr r (congrArg (fun k ↦ some (k, r)) hname)⟩
  | some r =>
      have hlast := tableOf_eq_some_iff.mp hlast
      by_cases htakes : ∃ i, MatchesAt c (loadRouteData c dataCfg) resolveIp addr r.rules i
      · obtain ⟨i, rule, hget, hmatches, hfirst⟩ := exists_firstMatch htakes
        exact ⟨rule.select, .rule hlast hget (takesAt_iff.mpr hmatches)
          fun j hj ↦ mt takesAt_iff.mp (hfirst j hj)⟩
      · exact ⟨r.default, .fallback hlast fun i ↦ mt takesAt_iff.mp (not_exists.mp htakes i)⟩

/-- The name that is routed to is the one that the configuration decides on. -/
theorem route_eq_iff : (new c cfg dataCfg).route resolveIp rName addr = tag ↔
    Decides c dataCfg resolveIp addr cfg rName tag := by
  constructor
  · rintro rfl
    obtain ⟨tag, htag⟩ : ∃ tag, Decides c dataCfg resolveIp addr cfg rName tag :=
      exists_decides
    rwa [route_of_decides htag]
  · exact route_of_decides

theorem lastEntry_router_congr (h : cfg'.filter (·.name = rName) = cfg.filter (·.name = rName))
    {r : Router} : LastEntry Router.entry cfg' rName r ↔ LastEntry Router.entry cfg rName r := by
  have hname (r b : Router) (hentry : r.entry = some (rName, b)) : decide (r.name = rName) = true :=
    decide_eq_true (Prod.mk.inj (Option.some.inj hentry)).1
  rw [← tableOf_eq_some_iff, ← tableOf_filter hname, h, tableOf_filter hname, tableOf_eq_some_iff]

theorem lastEntry_data_congr {name : String} {matchHost : Matcher}
    (h : dataCfg'.filter (·.rdCfg.name = name) = dataCfg.filter (·.rdCfg.name = name)) :
    LastEntry (DataLoad.entry c) dataCfg' name matchHost ↔
      LastEntry (DataLoad.entry c) dataCfg name matchHost := by
  have hname (load : DataLoad) (b : Matcher) (hentry : load.entry c = some (name, b)) :
      decide (load.rdCfg.name = name) = true := by
    obtain ⟨p, -, hp⟩ := Option.bind_eq_some_iff.mp hentry
    obtain ⟨factory, -, hfactory⟩ := Option.map_eq_some_iff.mp hp
    exact decide_eq_true (Prod.mk.inj hfactory).1
  rw [← tableOf_eq_some_iff, ← tableOf_filter hname, h, tableOf_filter hname, tableOf_eq_some_iff]

theorem takesAt_congr {rules : List RouteRule} (h : ∀ rule ∈ rules,
      dataCfg'.filter (·.rdCfg.name = rule.name) = dataCfg.filter (·.rdCfg.name = rule.name))
    (i : ℕ) :
    TakesAt c dataCfg' resolveIp addr rules i ↔
      TakesAt c dataCfg resolveIp addr rules i := by
  refine exists_congr fun rule ↦ exists_congr fun matchHost ↦ exists_congr fun host ↦
    and_congr_right fun hget ↦ and_congr_left' ?_
  exact lastEntry_data_congr (h rule (List.mem_of_getElem? hget))

/-- What is routed to by the name of a router depends on the routers of this name, and on the data
that the rules of the last one name. All the rest of the configuration can change. -/
theorem route_unchanged (hcfg : cfg'.filter (·.name = rName) = cfg.filter (·.name = rName))
    (hdata : ∀ r, LastEntry Router.entry cfg rName r → ∀ rule ∈ r.rules,
      dataCfg'.filter (·.rdCfg.name = rule.name) = dataCfg.filter (·.rdCfg.name = rule.name)) :
    (new c cfg' dataCfg').route resolveIp rName addr =
      (new c cfg dataCfg).route resolveIp rName addr := by
  have hdecides : Decides c dataCfg resolveIp addr cfg rName
      ((new c cfg dataCfg).route resolveIp rName addr) := route_eq_iff.mp rfl
  apply route_of_decides
  generalize (new c cfg dataCfg).route resolveIp rName addr = tag at hdecides
  cases hdecides with
  | unknown h =>
      refine .unknown fun r hr hname ↦ ?_
      have hmem : r ∈ cfg'.filter (·.name = rName) :=
        List.mem_filter.mpr ⟨hr, decide_eq_true hname⟩
      rw [hcfg] at hmem
      exact h r (List.mem_of_mem_filter hmem) hname
  | rule last get takes first =>
      have hsame := @takesAt_congr c dataCfg dataCfg' resolveIp addr _ (hdata _ last)
      exact .rule ((lastEntry_router_congr hcfg).mpr last) get ((hsame _).mpr takes)
        fun j hj ↦ mt (hsame j).mp (first j hj)
  | fallback last none =>
      have hsame := @takesAt_congr c dataCfg dataCfg' resolveIp addr _ (hdata _ last)
      exact .fallback ((lastEntry_router_congr hcfg).mpr last) fun i ↦ mt (hsame i).mp (none i)

/-- A router that takes the addresses of a list. -/
def listed : Router := ⟨"main", "none", some [⟨"hosts", "direct", [], none, none⟩]⟩

/-- Another router is put after it, and another list before its own. -/
theorem route_unchanged_added :
    (new .single [listed, ⟨"other", "direct", none⟩]
      [⟨⟨"ads", none, "regex", some "ads"⟩, loopbackFile⟩,
        ⟨⟨"hosts", none, "cidr", some "::1"⟩, loopbackFile⟩]).route
        (fun _ _ _ ↦ .ok []) "main" ⟨"::1", 80, false⟩ =
    (new .single [listed] [⟨⟨"hosts", none, "cidr", some "::1"⟩, loopbackFile⟩]).route
      (fun _ _ _ ↦ .ok []) "main" ⟨"::1", 80, false⟩ := by
  refine route_unchanged rfl fun r hlast rule hrule ↦ ?_
  obtain ⟨before, x, after, hlist, hx, -⟩ := hlast
  obtain ⟨-, rfl⟩ := Prod.mk.inj (Option.some.inj hx)
  have hmem : x ∈ [listed] := by simp [hlist]
  obtain rfl := List.mem_singleton.mp hmem
  obtain rfl := List.mem_singleton.mp hrule
  rfl

end DefaultRouter

end Rog
