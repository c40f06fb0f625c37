import Rog.Router.DefaultRouter

/-!
# First match

The rule that a router returns from is the first one that takes a host. What a rule takes is
stated of its configuration, and depends on the answer of the resolver only through the set of
addresses in it.
-/

namespace Rog

variable {c : MatcherCrates}

/-! ## Excluded hosts -/

/-- One entry of an `exclude` list is for this host. -/
def ExcludedBy (c : MatcherCrates) (host exclude : String) : Prop :=
  if '/' ∈ exclude.toList then
    ∃ network ip, c.parseIpNet exclude = some network ∧ IpAddr.parse host = some ip ∧
      c.netContains network ip
  else
    match IpAddr.parse exclude with
    | some ip => IpAddr.parse host = some ip
    | none => ∃ re, c.newRegex exclude = some re ∧ c.regexIsMatch re host

theorem ExcludeMatcher.isMatch_new (excludes : List String) (host : String) :
    (new c excludes).isMatch host ↔ ∃ exclude ∈ excludes, ExcludedBy c host exclude := by
  have hany : (new c excludes).isMatch host ↔ ∃ rule : ExcludeRule c,
      rule ∈ excludes.filterMap newRule ∧ isMatch ⟨[rule]⟩ host := by
    simp only [isMatch, new, List.any_eq_true, List.any_cons, List.any_nil, Bool.or_false]
  have hrule (exclude : String) :
      (∃ rule : ExcludeRule c, newRule exclude = some rule ∧ isMatch ⟨[rule]⟩ host) ↔
        ExcludedBy c host exclude := by
    unfold newRule ExcludedBy
    by_cases hslash : '/' ∈ exclude.toList
    · have hcontains : exclude.toList.contains '/' = true := List.contains_iff_mem.mpr hslash
      rw [if_pos hslash, if_pos hcontains]
      cases c.parseIpNet exclude <;> simp [isMatch, Option.any_eq_true]
    · have hcontains : ¬exclude.toList.contains '/' = true :=
        fun h ↦ hslash (List.contains_iff_mem.mp h)
      rw [if_neg hslash, if_neg hcontains]
      cases IpAddr.parse exclude with
      | some ip => simp [isMatch]
      | none => cases c.newRegex exclude <;> simp [isMatch]
  simp only [hany, List.mem_filterMap]
  constructor
  · rintro ⟨rule, ⟨exclude, hmem, hnew⟩, hmatch⟩
    exact ⟨exclude, hmem, (hrule exclude).mp ⟨rule, hnew, hmatch⟩⟩
  · rintro ⟨exclude, hmem, h⟩
    obtain ⟨rule, hnew, hmatch⟩ := (hrule exclude).mpr h
    exact ⟨rule, ⟨exclude, hmem, hnew⟩, hmatch⟩

/-! ## Rules -/

namespace RouteRule

def Excludes (c : MatcherCrates) (rule : RouteRule) (host : String) : Prop :=
  ∃ exclude ∈ rule.exclude, ExcludedBy c host exclude

/-- `domain_to_ip`, with its default. -/
def resolves (rule : RouteRule) : Bool := rule.domainToIp.getD false

/-- A host that the rule looks at when the resolver answers like this. -/
def Candidate (rule : RouteRule) (answer : String → String → Except String (List IpAddr))
    (addr host : String) : Prop :=
  host = addr ∨ rule.resolves ∧
    ∃ ips, answer addr (rule.dns.getD "") = .ok ips ∧ ∃ ip ∈ ips, host = ip.toString

/-- The rule takes a host: there is data for it, and a candidate that is not excluded is in it. -/
def Matches (c : MatcherCrates) (dataMap : String → Option Matcher) (rule : RouteRule)
    (answer : String → String → Except String (List IpAddr)) (addr : String) : Prop :=
  ∃ matchHost, dataMap rule.name = some matchHost ∧
    ∃ host, rule.Candidate answer addr host ∧ ¬rule.Excludes c host ∧ matchHost host

end RouteRule

namespace CompiledRouteRule

theorem takes_none (rule : CompiledRouteRule c) (hosts : List String) :
    rule.takes none hosts = false := by
  induction hosts with
  | nil => rfl
  | cons host hosts ih => exact ih

theorem takes_some_iff (rule : CompiledRouteRule c) (matchHost : Matcher) (hosts : List String) :
    rule.takes (some matchHost) hosts ↔
      ∃ host ∈ hosts, ¬rule.exclude.isMatch host ∧ matchHost host := by
  induction hosts with
  | nil => simp [takes]
  | cons host hosts ih =>
      rw [List.exists_mem_cons_iff, ← ih, takes]
      by_cases hexclude : rule.exclude.isMatch host
      · simp [hexclude]
      · by_cases hmatch : matchHost host
        · simp [hexclude, hmatch]
        · simp [hexclude, hmatch]

theorem mem_foldl_pushIp {host : String} {hosts : List String} {ips : List IpAddr} :
    host ∈ ips.foldl pushIp hosts ↔ host ∈ hosts ∨ ∃ ip ∈ ips, host = ip.toString := by
  induction ips generalizing hosts with
  | nil => simp
  | cons ip ips ih =>
      have hpush : host ∈ pushIp hosts ip ↔ host ∈ hosts ∨ host = ip.toString := by
        unfold pushIp
        by_cases hmem : hosts.contains ip.toString
        · rw [if_pos hmem]
          refine ⟨.inl, fun h ↦ h.elim id fun heq ↦ ?_⟩
          rw [heq]
          exact List.contains_iff_mem.mp hmem
        · rw [if_neg hmem]
          simp
      rw [List.foldl_cons, ih, hpush, List.exists_mem_cons_iff, or_assoc]

theorem mem_hosts {rule : RouteRule} {addr host : String}
    {answer : String → String → Except String (List IpAddr)} :
    host ∈ (new c rule).hosts answer addr ↔ rule.Candidate answer addr host := by
  unfold hosts RouteRule.Candidate
  by_cases hresolves : rule.resolves
  · have hdomain : (new c rule).domainToIp = true := hresolves
    rw [if_pos hdomain]
    cases hanswer : answer addr ((new c rule).dns.getD "") with
    | ok ips =>
        have hok : answer addr (rule.dns.getD "") = .ok ips := hanswer
        simp [mem_foldl_pushIp, hresolves, hok]
    | error e =>
        have herror : answer addr (rule.dns.getD "") = .error e := hanswer
        simp [herror]
  · have hdomain : ¬(new c rule).domainToIp = true := hresolves
    rw [if_neg hdomain]
    simp [hresolves]

theorem takes_iff {dataMap : String → Option Matcher} {rule : RouteRule} {addr : String}
    {answer : String → String → Except String (List IpAddr)} :
    (new c rule).takes (dataMap rule.name) ((new c rule).hosts answer addr) ↔
      rule.Matches c dataMap answer addr := by
  unfold RouteRule.Matches
  cases dataMap rule.name with
  | none => simp [takes_none]
  | some matchHost =>
      have hexclude (host : String) : (new c rule).exclude.isMatch host ↔ rule.Excludes c host :=
        ExcludeMatcher.isMatch_new rule.exclude host
      rw [takes_some_iff]
      simp only [mem_hosts, hexclude, Option.some.injEq, exists_eq_left']

end CompiledRouteRule

/-! ## Routers -/

/-- The resolver as the rule at index `i` asks it: before that, only the rules that resolve have
called it. -/
def answerAt (resolveIp : ResolveIp) (rules : List RouteRule) (i : ℕ) :
    String → String → Except String (List IpAddr) :=
  resolveIp ((rules.take i).countP RouteRule.resolves)

def MatchesAt (c : MatcherCrates) (dataMap : String → Option Matcher) (resolveIp : ResolveIp)
    (addr : RunAddr) (rules : List RouteRule) (i : ℕ) : Prop :=
  ∃ rule, rules[i]? = some rule ∧ rule.Matches c dataMap (answerAt resolveIp rules i) addr.addr

/-- The rule at index `i` is the first that takes a host. -/
def FirstMatch (c : MatcherCrates) (dataMap : String → Option Matcher) (resolveIp : ResolveIp)
    (addr : RunAddr) (rules : List RouteRule) (i : ℕ) : Prop :=
  MatchesAt c dataMap resolveIp addr rules i ∧
    ∀ j < i, ¬MatchesAt c dataMap resolveIp addr rules j

section Route

variable {dataMap : String → Option Matcher} {resolveIp : ResolveIp} {addr : RunAddr}
  {defaultTag : String} {rules : List RouteRule}

theorem matchesAt_zero {rule : RouteRule} :
    MatchesAt c dataMap resolveIp addr (rule :: rules) 0 ↔
      rule.Matches c dataMap (resolveIp 0) addr.addr := by
  simp [MatchesAt, answerAt]

/-- What the later rules see of the resolver once the first rule has asked it. -/
def ResolveIp.after (resolveIp : ResolveIp) (rule : RouteRule) : ResolveIp := fun n ↦
  resolveIp (n + if rule.resolves then 1 else 0)

theorem matchesAt_succ {rule : RouteRule} {i : ℕ} :
    MatchesAt c dataMap resolveIp addr (rule :: rules) (i + 1) ↔
      MatchesAt c dataMap (resolveIp.after rule) addr rules i := by
  simp only [MatchesAt, answerAt, ResolveIp.after, List.getElem?_cons_succ, List.take_succ_cons,
    List.countP_cons]

theorem firstMatch_cons {rule : RouteRule} {i : ℕ} :
    FirstMatch c dataMap resolveIp addr (rule :: rules) i ↔
      rule.Matches c dataMap (resolveIp 0) addr.addr ∧ i = 0 ∨
        ¬rule.Matches c dataMap (resolveIp 0) addr.addr ∧
          ∃ j, i = j + 1 ∧ FirstMatch c dataMap (resolveIp.after rule) addr rules j := by
  constructor
  · intro hfirst
    cases i with
    | zero => exact .inl ⟨matchesAt_zero.mp hfirst.1, rfl⟩
    | succ i =>
        refine .inr ⟨fun h ↦ hfirst.2 0 (Nat.succ_pos i) (matchesAt_zero.mpr h), i, rfl,
          matchesAt_succ.mp hfirst.1, fun j hj h ↦ ?_⟩
        exact hfirst.2 (j + 1) (Nat.succ_lt_succ hj) (matchesAt_succ.mpr h)
  · rintro (⟨hmatch, rfl⟩ | ⟨hmatch, i, rfl, hfirst⟩)
    · exact ⟨matchesAt_zero.mpr hmatch, fun j hj ↦ absurd hj (Nat.not_lt_zero j)⟩
    · refine ⟨matchesAt_succ.mpr hfirst.1, fun j hj h ↦ ?_⟩
      cases j with
      | zero => exact hmatch (matchesAt_zero.mp h)
      | succ j => exact hfirst.2 j (Nat.lt_of_succ_lt_succ hj) (matchesAt_succ.mp h)

theorem after_shift (resolveIp : ResolveIp) (calls : ℕ) (rule : RouteRule) :
    ResolveIp.after (fun n ↦ resolveIp (calls + n)) rule =
      fun n ↦ resolveIp ((if rule.resolves then calls + 1 else calls) + n) := by
  funext n
  have hcalls : calls + (n + if rule.resolves then 1 else 0) =
      (if rule.resolves then calls + 1 else calls) + n := by
    split <;> omega
  exact congrArg resolveIp hcalls

theorem zero_shift (resolveIp : ResolveIp) : (fun n ↦ resolveIp (0 + n)) = resolveIp :=
  funext fun n ↦ congrArg resolveIp (Nat.zero_add n)

namespace DefaultBaseRouter

/-- The index of the rule that `routeFrom` returns from. -/
def chosenFrom (router : DefaultBaseRouter c) (resolveIp : ResolveIp) (addr : RunAddr) (calls : ℕ) :
    List (CompiledRouteRule c) → Option ℕ
  | [] => none
  | rule :: rules =>
      if rule.takes (router.dataMap rule.name) (rule.hosts (resolveIp calls) addr.addr) then some 0
      else (router.chosenFrom resolveIp addr (if rule.domainToIp then calls + 1 else calls) rules).map
        (· + 1)

def chosen (router : DefaultBaseRouter c) (resolveIp : ResolveIp) (addr : RunAddr) : Option ℕ :=
  router.chosenFrom resolveIp addr 0 router.rules

theorem routeFrom_of_some {router : DefaultBaseRouter c} {compiled : List (CompiledRouteRule c)}
    {calls i : ℕ} (h : router.chosenFrom resolveIp addr calls compiled = some i) :
    ∃ rule, compiled[i]? = some rule ∧
      router.routeFrom resolveIp addr calls compiled = (rule.name, rule.select) := by
  induction compiled generalizing calls i with
  | nil => cases h
  | cons rule compiled ih =>
      rw [chosenFrom] at h
      rw [routeFrom]
      split at h
      · rename_i htakes
        obtain rfl := Option.some.inj h
        exact ⟨rule, rfl, if_pos htakes⟩
      · rename_i htakes
        obtain ⟨j, hj, rfl⟩ := Option.map_eq_some_iff.mp h
        obtain ⟨other, hother, hroute⟩ := ih hj
        exact ⟨other, hother, (if_neg htakes).trans hroute⟩

theorem routeFrom_of_none {router : DefaultBaseRouter c} {compiled : List (CompiledRouteRule c)}
    {calls : ℕ} (h : router.chosenFrom resolveIp addr calls compiled = none) :
    router.routeFrom resolveIp addr calls compiled = ("default", router.defaultTag) := by
  induction compiled generalizing calls with
  | nil => rfl
  | cons rule compiled ih =>
      rw [chosenFrom] at h
      rw [routeFrom]
      split at h
      · cases h
      · rename_i htakes
        exact (if_neg htakes).trans (ih (Option.map_eq_none_iff.mp h))

theorem chosenFrom_eq_some_iff {router : DefaultBaseRouter c} (hrouter : router.dataMap = dataMap)
    {calls i : ℕ} : router.chosenFrom resolveIp addr calls (rules.map (.new c)) = some i ↔
      FirstMatch c dataMap (fun n ↦ resolveIp (calls + n)) addr rules i := by
  induction rules generalizing calls i with
  | nil => simp [chosenFrom, FirstMatch, MatchesAt]
  | cons rule rules ih =>
      have htakes : (CompiledRouteRule.new c rule).takes
          (router.dataMap (CompiledRouteRule.new c rule).name)
          ((CompiledRouteRule.new c rule).hosts (resolveIp calls) addr.addr) ↔
            rule.Matches c dataMap (resolveIp calls) addr.addr := by
        rw [hrouter]
        exact CompiledRouteRule.takes_iff
      rw [List.map_cons, chosenFrom, firstMatch_cons, after_shift]
      by_cases hmatch : rule.Matches c dataMap (resolveIp calls) addr.addr
      · rw [if_pos (htakes.mpr hmatch)]
        constructor
        · exact fun h ↦ .inl ⟨hmatch, (Option.some.inj h).symm⟩
        · rintro (⟨-, rfl⟩ | ⟨hnot, -⟩)
          · rfl
          · exact absurd hmatch hnot
      · rw [if_neg fun h ↦ hmatch (htakes.mp h), Option.map_eq_some_iff]
        simp only [hmatch, Nat.add_zero, false_and, not_false_eq_true, true_and, false_or]
        exact exists_congr fun j ↦ (and_congr ih eq_comm).trans and_comm

theorem chosen_eq_some_iff {i : ℕ} :
    (new c defaultTag rules dataMap).chosen resolveIp addr = some i ↔
      FirstMatch c dataMap resolveIp addr rules i := by
  have hrouter : (new c defaultTag rules dataMap).dataMap = dataMap := rfl
  have hchosen := @chosenFrom_eq_some_iff c dataMap resolveIp addr rules _ hrouter 0 i
  rwa [zero_shift] at hchosen

theorem route_first {i : ℕ} {rule : RouteRule} (hi : rules[i]? = some rule)
    (hfirst : FirstMatch c dataMap resolveIp addr rules i) :
    (new c defaultTag rules dataMap).route resolveIp addr = (rule.name, rule.select) := by
  have hchosen := (@chosen_eq_some_iff c dataMap resolveIp addr defaultTag rules i).mpr hfirst
  obtain ⟨compiled, hcompiled, hroute⟩ := routeFrom_of_some hchosen
  have hget : (rules.map (CompiledRouteRule.new c))[i]? = some compiled := hcompiled
  rw [List.getElem?_map, hi] at hget
  obtain rfl := Option.some.inj hget
  exact hroute

theorem route_none (hnone : ∀ i, ¬MatchesAt c dataMap resolveIp addr rules i) :
    (new c defaultTag rules dataMap).route resolveIp addr = ("default", defaultTag) := by
  refine routeFrom_of_none (Option.eq_none_iff_forall_ne_some.mpr fun i hi ↦ ?_)
  exact hnone i (chosen_eq_some_iff.mp hi).1

end DefaultBaseRouter

theorem exists_firstMatch (h : ∃ i, MatchesAt c dataMap resolveIp addr rules i) :
    ∃ i rule, rules[i]? = some rule ∧ FirstMatch c dataMap resolveIp addr rules i := by
  classical
  obtain ⟨rule, hrule, -⟩ := Nat.find_spec h
  exact ⟨Nat.find h, rule, hrule, Nat.find_spec h, fun j hj ↦ Nat.find_min h hj⟩

/-! ## Answers in any order -/

def SameAnswer : Except String (List IpAddr) → Except String (List IpAddr) → Prop
  | .ok ips, .ok ips' => ∀ ip, ip ∈ ips ↔ ip ∈ ips'
  | .error _, .error _ => True
  | _, _ => False

def ResolveIp.Same (resolveIp resolveIp' : ResolveIp) : Prop :=
  ∀ n addr dns, SameAnswer (resolveIp n addr dns) (resolveIp' n addr dns)

theorem RouteRule.candidate_congr {answer answer' : String → String → Except String (List IpAddr)}
    (h : ∀ addr dns, SameAnswer (answer addr dns) (answer' addr dns)) {rule : RouteRule}
    {text host : String} : rule.Candidate answer text host ↔ rule.Candidate answer' text host := by
  have hanswer := h text (rule.dns.getD "")
  unfold Candidate
  cases hips : answer text (rule.dns.getD "") with
  | ok ips =>
      cases hips' : answer' text (rule.dns.getD "") with
      | ok ips' =>
          rw [hips, hips'] at hanswer
          have hmem (ip : IpAddr) : ip ∈ ips ↔ ip ∈ ips' := hanswer ip
          simp only [Except.ok.injEq, exists_eq_left', hmem]
      | error e => rw [hips, hips'] at hanswer; exact hanswer.elim
  | error e =>
      cases hips' : answer' text (rule.dns.getD "") with
      | ok ips' => rw [hips, hips'] at hanswer; exact hanswer.elim
      | error e' => simp

theorem matchesAt_same {resolveIp' : ResolveIp} (h : resolveIp.Same resolveIp') {i : ℕ} :
    MatchesAt c dataMap resolveIp addr rules i ↔ MatchesAt c dataMap resolveIp' addr rules i := by
  unfold MatchesAt RouteRule.Matches answerAt
  simp only [RouteRule.candidate_congr (h _)]

/-! ## Later rules -/

theorem matchesAt_take {rules' : List RouteRule} {i n : ℕ} (h : rules'.take n = rules.take n)
    (hi : i < n) :
    MatchesAt c dataMap resolveIp addr rules' i ↔ MatchesAt c dataMap resolveIp addr rules i := by
  have hget : rules'[i]? = rules[i]? := by
    rw [← List.getElem?_take_of_lt hi, h, List.getElem?_take_of_lt hi]
  have htake : rules'.take i = rules.take i := by
    have hmin : min i n = i := Nat.min_eq_left hi.le
    rw [← hmin, ← List.take_take, h, List.take_take]
  simp only [MatchesAt, answerAt, hget, htake]

theorem FirstMatch.take {rules' : List RouteRule} {i : ℕ}
    (hfirst : FirstMatch c dataMap resolveIp addr rules i)
    (h : rules'.take (i + 1) = rules.take (i + 1)) :
    FirstMatch c dataMap resolveIp addr rules' i :=
  ⟨(matchesAt_take h (Nat.lt_succ_self i)).mpr hfirst.1, fun j hj hmatch ↦
    hfirst.2 j hj ((matchesAt_take h (Nat.lt_succ_of_lt hj)).mp hmatch)⟩

end Route

open DefaultBaseRouter in
/-- A router returns from its first rule that takes a host, or by default; the order of the
resolved addresses and the rules behind the first match make no difference. -/
theorem route_is_first_match (c : MatcherCrates) (defaultTag : String) (rules : List RouteRule)
    (dataMap : String → Option Matcher) (resolveIp : ResolveIp) (addr : RunAddr) :
    (∀ i rule, rules[i]? = some rule → FirstMatch c dataMap resolveIp addr rules i →
      (new c defaultTag rules dataMap).route resolveIp addr = (rule.name, rule.select)) ∧
    ((∀ i, ¬MatchesAt c dataMap resolveIp addr rules i) →
      (new c defaultTag rules dataMap).route resolveIp addr = ("default", defaultTag)) ∧
    (∀ resolveIp', resolveIp.Same resolveIp' →
      (new c defaultTag rules dataMap).route resolveIp' addr =
        (new c defaultTag rules dataMap).route resolveIp addr) ∧
    (∀ i rules', FirstMatch c dataMap resolveIp addr rules i →
      rules'.take (i + 1) = rules.take (i + 1) →
        (new c defaultTag rules' dataMap).route resolveIp addr =
          (new c defaultTag rules dataMap).route resolveIp addr) := by
  refine ⟨fun i rule ↦ route_first, route_none, fun resolveIp' hsame ↦ ?_,
    fun i rules' hfirst htake ↦ ?_⟩
  · by_cases hmatch : ∃ i, MatchesAt c dataMap resolveIp addr rules i
    · obtain ⟨i, rule, hi, hfirst⟩ := exists_firstMatch hmatch
      have hfirst' : FirstMatch c dataMap resolveIp' addr rules i :=
        ⟨(matchesAt_same hsame).mp hfirst.1,
          fun j hj h ↦ hfirst.2 j hj ((matchesAt_same hsame).mpr h)⟩
      rw [route_first hi hfirst, route_first hi hfirst']
    · have hnone : ∀ i, ¬MatchesAt c dataMap resolveIp addr rules i := not_exists.mp hmatch
      have hnone' : ∀ i, ¬MatchesAt c dataMap resolveIp' addr rules i := fun i h ↦
        hnone i ((matchesAt_same hsame).mpr h)
      rw [route_none hnone, route_none hnone']
  · obtain ⟨rule, hi, -⟩ := hfirst.1
    have hi' : rules'[i]? = some rule := by
      rw [← List.getElem?_take_of_lt (Nat.lt_succ_self i), htake,
        List.getElem?_take_of_lt (Nat.lt_succ_self i), hi]
    rw [route_first hi hfirst, route_first hi' (hfirst.take htake)]

end Rog
