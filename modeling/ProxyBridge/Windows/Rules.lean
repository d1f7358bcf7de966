import Mathlib.Data.List.Find
import ProxyBridge.Windows.DnsCache
import ProxyBridge.Windows.RuleMatchers

/-! The rule list of `pb_rules.c` and the loop that selects a rule. The IPv4 and the IPv6 loop
differ in the host matcher and in the DNS cache they ask, which a `RuleQuery` holds. -/
namespace ProxyBridge.Windows
open CStrings

structure ProcessRule where
  ruleId : UInt32
  processName : List UInt8
  targetHosts : List UInt8
  targetPorts : List UInt8
  targetDomains : List UInt8
  protocol : RuleProtocol
  action : RuleAction
  proxyConfigId : UInt32
  enabled : Bool
  deriving DecidableEq

namespace ProcessRule
variable (rule : ProcessRule)

/-- `rule_has_domain_filter`. -/
def hasDomainFilter : Bool := !rule.targetDomains.isEmpty && rule.targetDomains != wildcard

/-- `match_domain_filter`. -/
def matchDomainFilter (malloc : Nat → Bool) (domain : Option (List UInt8)) : Bool :=
  if !rule.hasDomainFilter then true
  else
    match domain with
    | none | some [] => false
    | some domain => matchDomainList malloc rule.targetDomains (some domain)

def isWildcardProcess : Bool := rule.processName == wildcard || rule.processName == lit ['A', 'N', 'Y']

def verdict : RuleAction × UInt32 := (rule.action, rule.proxyConfigId)

end ProcessRule

/-- The rule list and the globals next to it that the rule loop reads. -/
structure Policy where
  rules : List ProcessRule
  hasDomainRules : Bool
  proxyUdpDnsEnabled : Bool

/-- What the rest of the program and the system contribute to a match. -/
structure RuleEnv where
  malloc : Nat → Bool
  inetPton : List UInt8 → Option Ip6
  now : UInt64
  dnsCache : DnsCache UInt32
  dnsCacheV6 : DnsCache Ip6

/-- A flow as the rule loop sees it. -/
structure RuleQuery where
  malloc : Nat → Bool
  matchHosts : List UInt8 → Bool
  processName : List UInt8
  destPort : UInt16
  isUdp : Bool
  dstDomain : Option (List UInt8)
  proxyUdpDnsEnabled : Bool

/-- An iteration of the rule loop returns a verdict or goes on with the catch-all saved by then. -/
inductive Turn where
  | found (verdict : RuleAction × UInt32)
  | next (wildcardRule : Option ProcessRule)

/-- The verdict after the loop: that of the saved catch-all, or DIRECT. -/
def fallback (wildcardRule : Option ProcessRule) : RuleAction × UInt32 :=
  match wildcardRule with
  | some rule => rule.verdict
  | none => (.direct, 0)

namespace RuleQuery
variable (q : RuleQuery)

def isProxyUdpDns (rule : ProcessRule) : Bool := q.isUdp && q.destPort == 53 && rule.action == .proxy

def filtersMatch (rule : ProcessRule) : Bool :=
  q.matchHosts rule.targetHosts && matchPortList q.malloc rule.targetPorts q.destPort &&
    rule.matchDomainFilter q.malloc q.dstDomain

/-- One iteration of the loop of `match_rule_inner` and `match_rule_v6_inner`, with the catch-all
saved so far. -/
def turn (rule : ProcessRule) (wildcardRule : Option ProcessRule) : Turn :=
  if !rule.enabled then .next wildcardRule
  else if q.isProxyUdpDns rule && !q.proxyUdpDnsEnabled then .next wildcardRule
  else if !q.isProxyUdpDns rule && rule.protocol != .both &&
      ((rule.protocol == .tcp && q.isUdp) || (rule.protocol == .udp && !q.isUdp)) then
    .next wildcardRule
  else if rule.isWildcardProcess then
    let hasIpFilter := rule.targetHosts != wildcard
    let hasPortFilter := rule.targetPorts != wildcard
    if hasIpFilter || hasPortFilter || rule.hasDomainFilter then
      if q.filtersMatch rule then .found rule.verdict else .next wildcardRule
    else .next (wildcardRule.or (some rule))
  else if matchProcessList q.malloc rule.processName q.processName && q.filtersMatch rule then .found rule.verdict
  else .next wildcardRule

def loop : List ProcessRule → Option ProcessRule → RuleAction × UInt32
  | [], wildcardRule => fallback wildcardRule
  | rule :: rest, wildcardRule =>
    match q.turn rule wildcardRule with
    | .found verdict => verdict
    | .next wildcardRule => loop rest wildcardRule

end RuleQuery

/-- Where no rule is enabled, every flow is DIRECT. -/
theorem RuleQuery.loop_disabled (q : RuleQuery) {rules : List ProcessRule}
    (h : ∀ rule ∈ rules, rule.enabled = false) : q.loop rules none = (.direct, 0) := by
  induction rules with
  | nil => rfl
  | cons rule rest ih =>
    have hturn : q.turn rule none = .next none := by simp [turn, h rule (.head _)]
    rw [loop, hturn]
    exact ih (fun r hr => h r (.tail _ hr))

section Matching
variable (env : RuleEnv) (p : Policy) (processName : List UInt8) (destPort : UInt16) (isUdp : Bool)

/-- A query for an IPv4 destination whose hostname is `domain`. -/
def queryV4 (destIp : UInt32) (domain : Option (List UInt8)) : RuleQuery where
  malloc := env.malloc
  matchHosts hosts := matchIpList env.malloc hosts destIp
  processName := processName
  destPort := destPort
  isUdp := isUdp
  dstDomain := domain
  proxyUdpDnsEnabled := p.proxyUdpDnsEnabled

def queryV6 (destIp6 : Ip6) (domain : Option (List UInt8)) : RuleQuery where
  malloc := env.malloc
  matchHosts hosts := matchIpListV6 env.malloc env.inetPton hosts destIp6
  processName := processName
  destPort := destPort
  isUdp := isUdp
  dstDomain := domain
  proxyUdpDnsEnabled := p.proxyUdpDnsEnabled

/-- The hostname of a destination is looked up only while there are domain rules. -/
def dstDomain (destIp : UInt32) : Option (List UInt8) :=
  if p.hasDomainRules then dnsCacheLookup env.dnsCache env.now destIp else none

def dstDomainV6 (destIp6 : Ip6) : Option (List UInt8) :=
  if p.hasDomainRules then dnsCacheLookupV6 env.dnsCacheV6 env.now destIp6 else none

def matchRule (destIp : UInt32) : RuleAction × UInt32 :=
  (queryV4 env p processName destPort isUdp destIp (dstDomain env p destIp)).loop p.rules none

def matchRuleV6 (destIp6 : Ip6) : RuleAction × UInt32 :=
  (queryV6 env p processName destPort isUdp destIp6 (dstDomainV6 env p destIp6)).loop p.rules none

end Matching

/-- The two flags that `update_has_active_rules` computes from the rule list. -/
def recomputeFlags : List ProcessRule → Bool → Bool × Bool
  | [], hasActive => (hasActive, false)
  | rule :: rest, hasActive =>
    if rule.enabled then
      if rule.hasDomainFilter then (true, true) else recomputeFlags rest true
    else recomputeFlags rest hasActive

theorem recomputeFlags_eq (rules : List ProcessRule) (hasActive : Bool) :
    recomputeFlags rules hasActive =
      (hasActive || rules.any (·.enabled), rules.any (fun rule => rule.enabled && rule.hasDomainFilter)) := by
  induction rules generalizing hasActive with
  | nil => simp [recomputeFlags]
  | cons rule rest ih =>
    simp only [recomputeFlags, List.any_cons]
    split
    · rename_i he
      split
      · rename_i hd
        simp [he, hd]
      · rename_i hd
        simp [ih, he, hd]
    · rename_i he
      simp [ih, he]

/-! The verdict that the rules declare, without the loop. -/
namespace RuleQuery
variable (q : RuleQuery)

def protocolCompatible (rule : ProcessRule) : Bool :=
  match rule.protocol with
  | .both => true
  | .tcp => !q.isUdp
  | .udp => q.isUdp

/-- Enabled, not a PROXY rule for UDP port 53 while these are switched off, and for this protocol
unless it is a PROXY rule for UDP port 53. -/
def eligible (rule : ProcessRule) : Bool :=
  rule.enabled && !(q.isProxyUdpDns rule && !q.proxyUdpDnsEnabled) &&
    (q.protocolCompatible rule || q.isProxyUdpDns rule)

def catchAll (rule : ProcessRule) : Bool :=
  rule.isWildcardProcess && rule.targetHosts == wildcard && rule.targetPorts == wildcard &&
    !rule.hasDomainFilter

def processMatches (rule : ProcessRule) : Bool :=
  rule.isWildcardProcess || matchProcessList q.malloc rule.processName q.processName

/-- Eligible, not a catch-all, and all four filters match. -/
def specific (rule : ProcessRule) : Bool :=
  q.eligible rule && !catchAll rule && q.processMatches rule && q.filtersMatch rule

/-- The first specific match, or else the first eligible catch-all, or else DIRECT. -/
def declaredVerdict (rules : List ProcessRule) : RuleAction × UInt32 :=
  match rules.find? q.specific with
  | some rule => rule.verdict
  | none =>
    match rules.find? (fun rule => q.eligible rule && catchAll rule) with
    | some rule => rule.verdict
    | none => (.direct, 0)

/-- One turn returns a specific match and otherwise saves the first catch-all. -/
private theorem turn_eq (rule : ProcessRule) (saved : Option ProcessRule) :
    q.turn rule saved =
      if q.specific rule then .found rule.verdict
      else .next (if q.eligible rule && catchAll rule then saved.or (some rule) else saved) := by
  have hprotocol : (!q.isProxyUdpDns rule && rule.protocol != .both &&
      ((rule.protocol == .tcp && q.isUdp) || (rule.protocol == .udp && !q.isUdp))) =
      !(q.protocolCompatible rule || q.isProxyUdpDns rule) := by
    unfold protocolCompatible
    cases rule.protocol <;> cases q.isUdp <;> simp
  have hskip : q.eligible rule = false → Turn.next saved =
      if q.specific rule then .found rule.verdict
      else .next (if q.eligible rule && catchAll rule then saved.or (some rule) else saved) := by
    intro hn
    simp [specific, hn]
  simp only [turn, hprotocol]
  split
  · rename_i he
    exact hskip (by simp [eligible, Bool.not_eq_true' _ ▸ he])
  split
  · rename_i hdns
    exact hskip (by simp [eligible, hdns])
  split
  · rename_i hp
    exact hskip (by simp [eligible, Bool.not_eq_true' _ ▸ hp])
  rename_i he hdns hp
  simp only [Bool.not_eq_true, Bool.not_eq_false'] at he hdns hp
  have heligible : q.eligible rule = true := by simp [eligible, he, hdns, hp]
  split
  · rename_i hw
    have hfilter : (rule.targetHosts != wildcard || rule.targetPorts != wildcard || rule.hasDomainFilter) =
        !catchAll rule := by
      simp [catchAll, hw, bne]
    rw [hfilter]
    cases hc : catchAll rule with
    | true => simp [specific, heligible, hc]
    | false => simp [specific, heligible, hc, processMatches, hw]
  · rename_i hw
    have hc : catchAll rule = false := by simp [catchAll, hw]
    simp [specific, heligible, hc, processMatches, hw]

/-- The loop finds what the rules declare, where a catch-all saved earlier comes first. -/
theorem loop_eq (rules : List ProcessRule) (saved : Option ProcessRule) :
    q.loop rules saved =
      match rules.find? q.specific with
      | some rule => rule.verdict
      | none => fallback (saved.or (rules.find? (fun rule => q.eligible rule && catchAll rule))) := by
  induction rules generalizing saved with
  | nil => cases saved <;> rfl
  | cons rule rest ih =>
    rw [loop, turn_eq, List.find?_cons, List.find?_cons]
    cases hs : q.specific rule with
    | true => rfl
    | false =>
      simp only [Bool.false_eq_true, if_false, ih]
      cases hc : (q.eligible rule && catchAll rule) with
      | true => cases saved <;> simp
      | false => cases saved <;> simp

theorem loop_none (rules : List ProcessRule) : q.loop rules none = q.declaredVerdict rules := by
  rw [loop_eq, Option.none_or]
  rfl

/-- Without an enabled domain rule the hostname of the destination does not matter. -/
theorem declaredVerdict_domain {rules : List ProcessRule}
    (h : rules.any (fun rule => rule.enabled && rule.hasDomainFilter) = false) (d : Option (List UInt8)) :
    RuleQuery.declaredVerdict { q with dstDomain := d } rules = q.declaredVerdict rules := by
  have hspecific : ∀ rule ∈ rules, RuleQuery.specific { q with dstDomain := d } rule = q.specific rule := by
    intro rule hr
    have hn := List.any_eq_false.mp h rule hr
    have hfilters : rule.enabled = true →
        RuleQuery.filtersMatch { q with dstDomain := d } rule = q.filtersMatch rule := by
      intro he
      simp only [he, Bool.true_and, Bool.not_eq_true] at hn
      simp [filtersMatch, ProcessRule.matchDomainFilter, hn]
    cases he : rule.enabled with
    | false => simp [specific, eligible, he]
    | true =>
      unfold specific
      rw [hfilters he]
      rfl
  unfold declaredVerdict
  rw [List.find?_congr hspecific]
  rfl

end RuleQuery

section Current
variable (env : RuleEnv) (p : Policy) (processName : List UInt8) (destPort : UInt16) (isUdp : Bool)

/-- While the flag is that of the list, the filters see the hostname that the DNS cache has. -/
theorem matchRule_current (hd : p.hasDomainRules = p.rules.any (fun rule => rule.enabled && rule.hasDomainFilter))
    (ip : UInt32) :
    matchRule env p processName destPort isUdp ip =
      (queryV4 env p processName destPort isUdp ip (dnsCacheLookup env.dnsCache env.now ip)).declaredVerdict
        p.rules := by
  rw [matchRule, RuleQuery.loop_none]
  cases hf : p.hasDomainRules with
  | true => simp [dstDomain, hf]
  | false =>
    have hnone : dstDomain env p ip = none := by simp [dstDomain, hf]
    rw [hnone]
    exact RuleQuery.declaredVerdict_domain (queryV4 env p processName destPort isUdp ip _) (hd.symm.trans hf) none

theorem matchRuleV6_current (hd : p.hasDomainRules = p.rules.any (fun rule => rule.enabled && rule.hasDomainFilter))
    (ip6 : Ip6) :
    matchRuleV6 env p processName destPort isUdp ip6 =
      (queryV6 env p processName destPort isUdp ip6 (dnsCacheLookupV6 env.dnsCacheV6 env.now ip6)).declaredVerdict
        p.rules := by
  rw [matchRuleV6, RuleQuery.loop_none]
  cases hf : p.hasDomainRules with
  | true => simp [dstDomainV6, hf]
  | false =>
    have hnone : dstDomainV6 env p ip6 = none := by simp [dstDomainV6, hf]
    rw [hnone]
    exact RuleQuery.declaredVerdict_domain (queryV6 env p processName destPort isUdp ip6 _) (hd.symm.trans hf) none

end Current

/-- For either family the rule that is selected is the first specific match of the list, or else
the first eligible catch-all, or else the flow is DIRECT. Once the flags are those of the list, the
filters see the hostname that the DNS cache has. -/
theorem match_rule_selects_declared_verdict (env : RuleEnv) (p : Policy) (processName : List UInt8)
    (destPort : UInt16) (isUdp : Bool) :
    let q4 := queryV4 env p processName destPort isUdp
    let q6 := queryV6 env p processName destPort isUdp
    let current : Policy := { p with hasDomainRules := (recomputeFlags p.rules false).2 }
    (∀ ip, matchRule env p processName destPort isUdp ip =
      (q4 ip (dstDomain env p ip)).declaredVerdict p.rules) ∧
    (∀ ip6, matchRuleV6 env p processName destPort isUdp ip6 =
      (q6 ip6 (dstDomainV6 env p ip6)).declaredVerdict p.rules) ∧
    (∀ ip, matchRule env current processName destPort isUdp ip =
      (q4 ip (dnsCacheLookup env.dnsCache env.now ip)).declaredVerdict p.rules) ∧
    (∀ ip6, matchRuleV6 env current processName destPort isUdp ip6 =
      (q6 ip6 (dnsCacheLookupV6 env.dnsCacheV6 env.now ip6)).declaredVerdict p.rules) := by
  have hflag : (recomputeFlags p.rules false).2 =
      p.rules.any (fun rule => rule.enabled && rule.hasDomainFilter) := by
    rw [recomputeFlags_eq]
  refine ⟨fun ip => RuleQuery.loop_none _ _, fun ip6 => RuleQuery.loop_none _ _, fun ip => ?_, fun ip6 => ?_⟩
  · exact matchRule_current env { p with hasDomainRules := (recomputeFlags p.rules false).2 } processName destPort
      isUdp hflag ip
  · exact matchRuleV6_current env { p with hasDomainRules := (recomputeFlags p.rules false).2 } processName destPort
      isUdp hflag ip6

end ProxyBridge.Windows
