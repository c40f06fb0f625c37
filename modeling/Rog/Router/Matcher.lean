import Rog.Util.IpParse
import Rog.Util.Text

/-!
# Matchers of hosts

`router/matcher`. Networks and regular expressions are those of other crates, which are
parameters.
-/

namespace Rog

/-- What the matchers take from the crates `ipnetwork`, `ipnet` and `regex`. -/
structure MatcherCrates where
  IpNetwork : Type
  parseIpNetwork : String → Option IpNetwork
  networkContains : IpNetwork → IpAddr → Bool
  IpNet : Type
  parseIpNet : String → Option IpNet
  netContains : IpNet → IpAddr → Bool
  Regex : Type
  newRegex : String → Option Regex
  regexIsMatch : Regex → String → Bool

/-- Crates for which every network is a single address and every expression a plain host. -/
def MatcherCrates.single : MatcherCrates where
  IpNetwork := IpAddr
  parseIpNetwork := IpAddr.parse
  networkContains network ip := network = ip
  IpNet := IpAddr
  parseIpNet := IpAddr.parse
  netContains net ip := net = ip
  Regex := String
  newRegex := some
  regexIsMatch regex host := regex = host

/-- `match_host` of a `dyn Matcher`. -/
abbrev Matcher := String → Bool

variable {c : MatcherCrates}

/-! ## Lines of addresses -/

structure CidrLine (c : MatcherCrates) where
  cidr : Option c.IpNetwork
  host : Option String

def CidrLine.matchLine (item : CidrLine c) (line : String) : Bool :=
  match item.cidr, IpAddr.parse line with
  | some cidr, some ip => c.networkContains cidr ip
  | _, _ => item.host = some line

def CidrLine.new (trimmedLine : String) : CidrLine c :=
  match c.parseIpNetwork trimmedLine with
  | some cidr => ⟨some cidr, none⟩
  | none => ⟨none, some trimmedLine⟩

structure CIDRMatcher (c : MatcherCrates) where
  lines : List (CidrLine c)

def CIDRMatcher.matchHost (m : CIDRMatcher c) : Matcher := fun host ↦
  m.lines.any fun item ↦ item.matchLine host

/-- `cidr_matcher_factory`. -/
def cidrMatcherFactory (c : MatcherCrates) (lines : List String) : CIDRMatcher c where
  lines := ((lines.map trim).filter fun trimmedLine ↦ trimmedLine ≠ "").map .new

/-! ## Lines of expressions -/

structure RegexLine (c : MatcherCrates) where
  regex : Option c.Regex
  cidr : Option c.IpNetwork
  host : Option String

def parseRegexLine (line : String) : RegexLine c :=
  match c.parseIpNetwork line with
  | some cidr => { cidr := some cidr, regex := none, host := none }
  | none =>
      match c.newRegex line with
      | some re => { regex := some re, cidr := none, host := none }
      | none => { host := some line, cidr := none, regex := none }

/-- An expression is not tried on an IP address. -/
def RegexLine.matchLine (item : RegexLine c) (host : String) : Bool :=
  match IpAddr.parse host with
  | some ip =>
      match item.cidr with
      | some cidr => c.networkContains cidr ip
      | none => item.host = some host
  | none =>
      match item.regex with
      | some re => c.regexIsMatch re host
      | none => item.host = some host

structure RegexMatcher (c : MatcherCrates) where
  lines : List (RegexLine c)

def RegexMatcher.matchHost (m : RegexMatcher c) : Matcher := fun host ↦
  m.lines.any fun item ↦ item.matchLine host

/-- `regex_matcher_factory`. -/
def regexMatcherFactory (c : MatcherCrates) (lines : List String) : RegexMatcher c where
  lines := ((lines.map trim).filter fun trimmedLine ↦ trimmedLine ≠ "").map parseRegexLine

theorem regexMatcherFactory_matchHost_iff {lines : List String} {host : String} :
    (regexMatcherFactory c lines).matchHost host ↔
      ∃ line ∈ lines, trim line ≠ "" ∧ (parseRegexLine (trim line) : RegexLine c).matchLine host := by
  simp [RegexMatcher.matchHost, regexMatcherFactory]

theorem cidrMatcherFactory_matchHost_iff {lines : List String} {host : String} :
    (cidrMatcherFactory c lines).matchHost host ↔
      ∃ line ∈ lines, trim line ≠ "" ∧ (CidrLine.new (trim line) : CidrLine c).matchLine host := by
  simp [CIDRMatcher.matchHost, cidrMatcherFactory]

/-! ## Excluded hosts -/

inductive ExcludeRule (c : MatcherCrates) where
  | ip (ruleIp : IpAddr)
  | cidr (network : c.IpNet)
  | regex (re : c.Regex)

structure ExcludeMatcher (c : MatcherCrates) where
  rules : List (ExcludeRule c)

namespace ExcludeMatcher

def newRule (exclude : String) : Option (ExcludeRule c) :=
  if exclude.toList.contains '/' then (c.parseIpNet exclude).map .cidr
  else
    match IpAddr.parse exclude with
    | some ip => some (.ip ip)
    | none => (c.newRegex exclude).map .regex

def new (c : MatcherCrates) (excludes : List String) : ExcludeMatcher c where
  rules := excludes.filterMap newRule

def isMatch (m : ExcludeMatcher c) (host : String) : Bool :=
  let ip := IpAddr.parse host
  m.rules.any fun
    | .ip ruleIp => ip = some ruleIp
    | .cidr network => ip.any fun ip ↦ c.netContains network ip
    | .regex re => c.regexIsMatch re host

end ExcludeMatcher

end Rog
