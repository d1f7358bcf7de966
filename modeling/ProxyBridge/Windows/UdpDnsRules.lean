import ProxyBridge.Windows.Rules

/-! What `g_proxy_udp_dns_enabled` does to rule matching: switched off it keeps UDP port 53 away from
the PROXY rules, switched on it lets TCP-only PROXY rules take it, and nothing else sees it. -/
namespace ProxyBridge.Windows

/-- The rule with protocol BOTH in the place of a TCP-only PROXY rule. -/
def ProcessRule.widenProxy (rule : ProcessRule) : ProcessRule :=
  if rule.protocol == .tcp && rule.action == .proxy then { rule with protocol := .both } else rule

namespace RuleQuery

/-- The verdict depends on the list only through eligibility, the filters and the verdicts of its rules. -/
theorem declaredVerdict_map {q q' : RuleQuery} (f : ProcessRule → ProcessRule) (rules : List ProcessRule)
    (heligible : ∀ rule, q'.eligible (f rule) = q.eligible rule)
    (hcatchAll : ∀ rule, catchAll (f rule) = catchAll rule)
    (hprocess : ∀ rule, q'.processMatches (f rule) = q.processMatches rule)
    (hfilters : ∀ rule, q'.filtersMatch (f rule) = q.filtersMatch rule)
    (hverdict : ∀ rule, (f rule).verdict = rule.verdict) :
    q'.declaredVerdict (rules.map f) = q.declaredVerdict rules := by
  have hspecific : q'.specific ∘ f = q.specific := by
    funext rule
    simp only [Function.comp_apply, specific, heligible, hcatchAll, hprocess, hfilters]
  have hsaved : (fun rule => q'.eligible rule && catchAll rule) ∘ f =
      fun rule => q.eligible rule && catchAll rule := by
    funext rule
    simp only [Function.comp_apply, heligible, hcatchAll]
  unfold declaredVerdict
  rw [List.find?_map, List.find?_map, hspecific, hsaved]
  cases rules.find? q.specific with
  | some rule => exact hverdict rule
  | none =>
    cases rules.find? (fun rule => q.eligible rule && catchAll rule) with
    | some rule => exact hverdict rule
    | none => rfl

/-- A verdict other than the default comes from an eligible rule of the list. -/
theorem declaredVerdict_mem (q : RuleQuery) (rules : List ProcessRule) :
    q.declaredVerdict rules = (.direct, 0) ∨
      ∃ rule ∈ rules, q.eligible rule = true ∧ q.declaredVerdict rules = rule.verdict := by
  unfold declaredVerdict
  cases hs : rules.find? q.specific with
  | some rule =>
    have hspecific := List.find?_some hs
    simp only [specific, Bool.and_eq_true] at hspecific
    exact .inr ⟨rule, List.mem_of_find?_eq_some hs, hspecific.1.1.1, rfl⟩
  | none =>
    cases hc : rules.find? (fun rule => q.eligible rule && catchAll rule) with
    | none => exact .inl rfl
    | some rule =>
      have hsaved := List.find?_some hc
      simp only [Bool.and_eq_true] at hsaved
      exact .inr ⟨rule, List.mem_of_find?_eq_some hc, hsaved.1, rfl⟩

/-- Switched off, no PROXY rule is eligible for UDP port 53. -/
private theorem loop_ne_proxy {q : RuleQuery} (hu : q.isUdp = true) (hp : q.destPort = 53)
    (hoff : q.proxyUdpDnsEnabled = false) (rules : List ProcessRule) : (q.loop rules none).1 ≠ .proxy := by
  rw [loop_none]
  obtain hd | ⟨rule, _, he, hd⟩ := q.declaredVerdict_mem rules
  · simp [hd]
  · rw [hd]
    intro ha
    have ha' : rule.action = .proxy := ha
    simp [eligible, isProxyUdpDns, hu, hp, hoff, ha'] at he

/-- Away from UDP port 53 no rule looks at the switch. -/
private theorem loop_switch {q : RuleQuery} (h : (q.isUdp && q.destPort == 53) = false) (on : Bool)
    (rules : List ProcessRule) :
    RuleQuery.loop { q with proxyUdpDnsEnabled := on } rules none = q.loop rules none := by
  rw [loop_none, loop_none]
  have heligible : ∀ rule, RuleQuery.eligible { q with proxyUdpDnsEnabled := on } rule = q.eligible rule := by
    intro rule
    have hdns : q.isProxyUdpDns rule = false := by simp [isProxyUdpDns, h]
    have hdns' : RuleQuery.isProxyUdpDns { q with proxyUdpDnsEnabled := on } rule = false := hdns
    simp only [eligible, hdns, hdns', Bool.false_and]
    rfl
  have hmap := declaredVerdict_map id rules heligible (fun _ => rfl) (fun _ => rfl) (fun _ => rfl) (fun _ => rfl)
  rwa [List.map_id] at hmap

/-- Switched on, a TCP-only PROXY rule is as good as one for both protocols. -/
private theorem loop_widenProxy {q : RuleQuery} (hu : q.isUdp = true) (hp : q.destPort = 53)
    (hon : q.proxyUdpDnsEnabled = true) (rules : List ProcessRule) :
    q.loop (rules.map ProcessRule.widenProxy) none = q.loop rules none := by
  rw [loop_none, loop_none]
  apply declaredVerdict_map
  · intro rule
    unfold ProcessRule.widenProxy
    split
    · rename_i hw
      simp only [Bool.and_eq_true, beq_iff_eq] at hw
      simp [eligible, isProxyUdpDns, protocolCompatible, hu, hp, hon, hw.2]
    · rfl
  · intro rule
    unfold ProcessRule.widenProxy
    split <;> rfl
  · intro rule
    unfold ProcessRule.widenProxy
    split <;> rfl
  · intro rule
    unfold ProcessRule.widenProxy
    split <;> rfl
  · intro rule
    unfold ProcessRule.widenProxy
    split <;> rfl

end RuleQuery

section Switch
variable (env : RuleEnv) (p : Policy) (processName : List UInt8)

/-- For either family: switched off, UDP port 53 is never PROXY; any other packet gets the same verdict
either way; and switched on, UDP port 53 gets the verdict of the list with its TCP-only PROXY rules
widened to both protocols. -/
theorem proxy_udp_dns_switch :
    ((∀ ip, (matchRule env { p with proxyUdpDnsEnabled := false } processName 53 true ip).1 ≠ .proxy) ∧
      ∀ ip6, (matchRuleV6 env { p with proxyUdpDnsEnabled := false } processName 53 true ip6).1 ≠ .proxy) ∧
    (∀ destPort isUdp, ¬ (isUdp = true ∧ destPort = 53) →
      (∀ ip, matchRule env { p with proxyUdpDnsEnabled := true } processName destPort isUdp ip =
        matchRule env { p with proxyUdpDnsEnabled := false } processName destPort isUdp ip) ∧
      ∀ ip6, matchRuleV6 env { p with proxyUdpDnsEnabled := true } processName destPort isUdp ip6 =
        matchRuleV6 env { p with proxyUdpDnsEnabled := false } processName destPort isUdp ip6) ∧
    (∀ ip, matchRule env { p with proxyUdpDnsEnabled := true } processName 53 true ip =
      matchRule env { p with rules := p.rules.map ProcessRule.widenProxy, proxyUdpDnsEnabled := true }
        processName 53 true ip) ∧
    ∀ ip6, matchRuleV6 env { p with proxyUdpDnsEnabled := true } processName 53 true ip6 =
      matchRuleV6 env { p with rules := p.rules.map ProcessRule.widenProxy, proxyUdpDnsEnabled := true }
        processName 53 true ip6 := by
  refine ⟨⟨?_, ?_⟩, ?_, ?_, ?_⟩
  · intro ip
    exact RuleQuery.loop_ne_proxy rfl rfl rfl p.rules
  · intro ip6
    exact RuleQuery.loop_ne_proxy rfl rfl rfl p.rules
  · intro destPort isUdp hn
    have hn' : (isUdp && destPort == 53) = false := by simpa using hn
    constructor
    · intro ip
      let off : Policy := { p with proxyUdpDnsEnabled := false }
      exact RuleQuery.loop_switch (q := queryV4 env off processName destPort isUdp ip (dstDomain env off ip))
        hn' true p.rules
    · intro ip6
      let off : Policy := { p with proxyUdpDnsEnabled := false }
      exact RuleQuery.loop_switch (q := queryV6 env off processName destPort isUdp ip6 (dstDomainV6 env off ip6))
        hn' true p.rules
  · intro ip
    exact (RuleQuery.loop_widenProxy rfl rfl rfl p.rules).symm
  · intro ip6
    exact (RuleQuery.loop_widenProxy rfl rfl rfl p.rules).symm

end Switch

/-- A catch-all that proxies both protocols, asked for UDP port 443 with the switch on and off. -/
theorem proxy_udp_dns_switch_catch_all :
    let env : RuleEnv := ⟨fun _ => true, fun _ => none, 0, fun _ => [], fun _ => []⟩
    let rule : ProcessRule := ⟨1, wildcard, wildcard, wildcard, wildcard, .both, .proxy, 7, true⟩
    ¬ (true = true ∧ (443 : UInt16) = 53) ∧
    matchRule env ⟨[rule], false, false⟩ wildcard 443 true 0 = (.proxy, 7) ∧
    matchRule env ⟨[rule], false, true⟩ wildcard 443 true 0 =
      matchRule env ⟨[rule], false, false⟩ wildcard 443 true 0 := by
  intro env rule
  have hport : ¬ (true = true ∧ (443 : UInt16) = 53) := by decide
  exact ⟨hport, by decide, ((proxy_udp_dns_switch env ⟨[rule], false, false⟩ wildcard).2.1 443 true hport).1 0⟩

end ProxyBridge.Windows
