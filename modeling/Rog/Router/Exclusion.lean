import Rog.Router.FirstMatch

/-!
# Excluded addresses

An `exclude` list is looked at once for each host, so a rule that excludes the requested address
can still return through one of its IP addresses.
-/

namespace Rog

variable {c : MatcherCrates}

namespace RouteRule

/-- The rule takes an IP address that the resolver gave for the requested address. -/
def Leaks (c : MatcherCrates) (dataMap : String → Option Matcher) (rule : RouteRule)
    (answer : String → String → Except String (List IpAddr)) (addr : String) : Prop :=
  rule.resolves ∧ ∃ matchHost, dataMap rule.name = some matchHost ∧
    ∃ ips, answer addr (rule.dns.getD "") = .ok ips ∧
      ∃ ip ∈ ips, ¬rule.Excludes c ip.toString ∧ matchHost ip.toString

variable {dataMap : String → Option Matcher} {rule : RouteRule} {addr : String}
  {answer : String → String → Except String (List IpAddr)}

theorem matches_iff_leaks (h : rule.Excludes c addr) :
    rule.Matches c dataMap answer addr ↔ rule.Leaks c dataMap answer addr := by
  constructor
  · rintro ⟨matchHost, hdata, host, hcandidate, hexcludes, hmatch⟩
    rcases hcandidate with rfl | ⟨hresolves, ips, hips, ip, hip, rfl⟩
    · exact absurd h hexcludes
    · exact ⟨hresolves, matchHost, hdata, ips, hips, ip, hip, hexcludes, hmatch⟩
  · rintro ⟨hresolves, matchHost, hdata, ips, hips, ip, hip, hexcludes, hmatch⟩
    exact ⟨matchHost, hdata, ip.toString, .inr ⟨hresolves, ips, hips, ip, hip, rfl⟩, hexcludes,
      hmatch⟩

end RouteRule

/-- The router does not return from a rule that excludes the requested address. -/
def ExclusionWins (c : MatcherCrates) (defaultTag : String) (rules : List RouteRule)
    (dataMap : String → Option Matcher) (resolveIp : ResolveIp) (addr : RunAddr) : Prop :=
  ∀ i rule, rules[i]? = some rule → rule.Excludes c addr.addr →
    (DefaultBaseRouter.new c defaultTag rules dataMap).chosen resolveIp addr ≠ some i

/-- No rule that excludes the requested address takes one of its IP addresses, unless a rule
before it takes a host. -/
theorem exclusion_wins_iff (c : MatcherCrates) (defaultTag : String) (rules : List RouteRule)
    (dataMap : String → Option Matcher) (resolveIp : ResolveIp) (addr : RunAddr) :
    ExclusionWins c defaultTag rules dataMap resolveIp addr ↔
      ∀ i rule, rules[i]? = some rule → rule.Excludes c addr.addr →
        rule.Leaks c dataMap (answerAt resolveIp rules i) addr.addr →
          ∃ j < i, MatchesAt c dataMap resolveIp addr rules j := by
  refine forall₂_congr fun i rule ↦ forall₂_congr fun hi hexcludes ↦ ?_
  have hmatches : MatchesAt c dataMap resolveIp addr rules i ↔
      rule.Leaks c dataMap (answerAt resolveIp rules i) addr.addr := by
    rw [← RouteRule.matches_iff_leaks hexcludes]
    simp only [MatchesAt, hi, Option.some.injEq, exists_eq_left']
  rw [Ne, DefaultBaseRouter.chosen_eq_some_iff, FirstMatch, hmatches]
  constructor
  · intro hnot hleaks
    by_contra hearlier
    exact hnot ⟨hleaks, fun j hj hmatch ↦ hearlier ⟨j, hj, hmatch⟩⟩
  · rintro h ⟨hleaks, hfirst⟩
    obtain ⟨j, hj, hmatch⟩ := h hleaks
    exact hfirst j hj hmatch

def excludingRule : RouteRule := ⟨"ips", "proxy", ["example.com"], some true, none⟩

theorem excluded_name_routed : ¬∀ c defaultTag rules dataMap resolveIp addr,
    ExclusionWins c defaultTag rules dataMap resolveIp addr := by
  intro h
  refine h .single "direct" [excludingRule]
    (fun _ ↦ some (cidrMatcherFactory .single ["1.2.3.4"]).matchHost)
    (fun _ _ _ ↦ .ok [.v4 ⟨1, 2, 3, 4⟩]) ⟨"example.com", 80, false⟩ 0 excludingRule rfl ?_ ?_
  · exact (ExcludeMatcher.isMatch_new _ _).mp (by decide)
  · decide

end Rog
