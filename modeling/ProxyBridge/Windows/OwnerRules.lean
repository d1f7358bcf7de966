import ProxyBridge.Windows.Packet
import ProxyBridge.Windows.Rules

/-! The decision of `check_process_rule` and `check_process_rule_v6`: the owner of a flow, the rule
for it, and whether the configuration that a PROXY rule names can carry the flow. -/
namespace ProxyBridge.Windows
open CStrings

structure OwnerSettings where
  loopbackBypassEnabled : Bool
  failClosedOnUnknownOwner : Bool
  currentProcessId : UInt32

/-- The answers of the owner lookup and of `get_process_name_from_pid`; the identifier is zero for
an owner that stayed unknown. -/
structure Owner where
  pid : UInt32
  processName : Option (List UInt8)

def isLoopbackV4 (ip : UInt32) : Bool := firstOctet ip == 127

/-- A PROXY verdict stands if the configuration it is looked up to can carry the flow. -/
def confirmProxy (configs : List ProxyConfig) (pid proxyConfigId : UInt32) (isUdp : Bool) : Verdict :=
  match findProxyConfig configs proxyConfigId with
  | none => ⟨.block, pid, 0⟩
  | some cfg =>
    if cfg.host.isEmpty || cfg.port == 0 then ⟨.block, pid, 0⟩
    else if isUdp && cfg.type == .http then ⟨.block, pid, 0⟩
    else ⟨.proxy, pid, proxyConfigId⟩

/-- What both functions do once the loopback bypass is out of the way. -/
def judgeOwner (configs : List ProxyConfig) (g : OwnerSettings) (o : Owner) (isUdp : Bool)
    (matchRule : List UInt8 → RuleAction × UInt32) : Verdict :=
  let unknown : RuleAction := if g.failClosedOnUnknownOwner then .block else .direct
  if o.pid == 0 then ⟨unknown, 0, 0⟩
  else if o.pid == g.currentProcessId then ⟨.direct, o.pid, 0⟩
  else
    match o.processName with
    | none => ⟨unknown, o.pid, 0⟩
    | some processName =>
      let v := matchRule processName
      if v.1 = .proxy then confirmProxy configs o.pid v.2 isUdp else ⟨v.1, o.pid, v.2⟩

section Check
variable (env : RuleEnv) (p : Policy) (configs : List ProxyConfig) (g : OwnerSettings) (o : Owner)
  (destPort : UInt16) (isUdp : Bool)

def checkProcessRule (srcIp destIp : UInt32) : Verdict :=
  if g.loopbackBypassEnabled && isLoopbackV4 srcIp && isLoopbackV4 destIp then ⟨.direct, 0, 0⟩
  else judgeOwner configs g o isUdp (fun name => matchRule env p name destPort isUdp destIp)

def checkProcessRuleV6 (srcIp6 destIp6 : Ip6) : Verdict :=
  if g.loopbackBypassEnabled && isLoopback6 srcIp6 && isLoopback6 destIp6 then ⟨.direct, 0, 0⟩
  else judgeOwner configs g o isUdp (fun name => matchRuleV6 env p name destPort isUdp destIp6)

end Check

/-- The configuration that a rule names: the one with its identifier, and for 0 the first. -/
def namedConfig (configs : List ProxyConfig) (c : UInt32) : Option ProxyConfig :=
  (configs.find? (fun cfg => cfg.configId == c)).or (if c = 0 then configs.head? else none)

def ProxyConfig.Carries (cfg : ProxyConfig) (isUdp : Bool) : Prop :=
  cfg.host ≠ [] ∧ cfg.port ≠ 0 ∧ ¬ (isUdp = true ∧ cfg.type = .http)

/-- PROXY through the named configuration where it can carry the flow, and BLOCK otherwise. -/
structure FailsClosed (configs : List ProxyConfig) (isUdp : Bool) (c : UInt32) (v : Verdict) : Prop where
  proxied_iff : v.action = .proxy ↔ ∃ cfg, namedConfig configs c = some cfg ∧ cfg.Carries isUdp
  proxied_id : v.action = .proxy → v.proxyConfigId = c
  proxied_config : v.action = .proxy → findProxyConfig configs v.proxyConfigId = namedConfig configs c
  blocked : v.action ≠ .proxy → v.action = .block

/-- The rule names a configuration, or the first one could not carry the flow in its place. -/
def NoSubstitute (configs : List ProxyConfig) (isUdp : Bool) (c : UInt32) : Prop :=
  namedConfig configs c ≠ none ∨ ∀ cfg ∈ configs.head?, ¬ cfg.Carries isUdp

theorem findProxyConfig_eq (configs : List ProxyConfig) (c : UInt32) :
    findProxyConfig configs c = (namedConfig configs c).or configs.head? := by
  unfold findProxyConfig namedConfig
  cases configs.find? (fun cfg => cfg.configId == c) with
  | some cfg => rfl
  | none =>
    by_cases hc : c = 0
    · cases configs.head? <;> simp [hc]
    · simp [hc]

/-- The configuration that is looked up decides between PROXY under the rule's own identifier and
BLOCK. -/
private theorem confirmProxy_cases (configs : List ProxyConfig) (pid c : UInt32) (isUdp : Bool) :
    ((∃ cfg, findProxyConfig configs c = some cfg ∧ cfg.Carries isUdp) ∧
      confirmProxy configs pid c isUdp = ⟨.proxy, pid, c⟩) ∨
    ((∀ cfg, findProxyConfig configs c = some cfg → ¬ cfg.Carries isUdp) ∧
      confirmProxy configs pid c isUdp = ⟨.block, pid, 0⟩) := by
  unfold confirmProxy
  cases hf : findProxyConfig configs c with
  | none => exact .inr ⟨fun cfg h => (nomatch h), rfl⟩
  | some cfg =>
    by_cases hcarries : cfg.Carries isUdp
    · obtain ⟨hhost, hport, htype⟩ := hcarries
      refine .inl ⟨⟨cfg, rfl, hhost, hport, htype⟩, ?_⟩
      simp only [List.isEmpty_iff, hhost, hport, Bool.or_eq_true, beq_iff_eq, Bool.and_eq_true, htype, or_self,
        if_false]
    · refine .inr ⟨fun d hd => Option.some.inj hd ▸ hcarries, ?_⟩
      simp only [ProxyConfig.Carries] at hcarries
      by_cases hhost : cfg.host = []
      · simp [hhost]
      by_cases hport : cfg.port = 0
      · simp [hport]
      have htype : isUdp = true ∧ cfg.type = .http := by
        by_contra h
        exact hcarries ⟨hhost, hport, h⟩
      simp [htype.1, htype.2]

theorem failsClosed_iff (configs : List ProxyConfig) (pid c : UInt32) (isUdp : Bool) :
    FailsClosed configs isUdp c (confirmProxy configs pid c isUdp) ↔ NoSubstitute configs isUdp c := by
  have hfind := findProxyConfig_eq configs c
  cases hn : namedConfig configs c with
  | some cfg =>
    rw [hn, Option.some_or] at hfind
    refine ⟨fun _ => .inl (by simp [hn]), fun _ => ?_⟩
    rcases confirmProxy_cases configs pid c isUdp with ⟨⟨d, hd, hcarries⟩, hv⟩ | ⟨hnone, hv⟩
    · obtain rfl := Option.some.inj (hfind.symm.trans hd)
      rw [hv]
      exact ⟨iff_of_true rfl ⟨cfg, hn, hcarries⟩, fun _ => rfl, fun _ => hfind.trans hn.symm,
        fun h => (h rfl).elim⟩
    · rw [hv]
      refine ⟨iff_of_false (fun h => (nomatch h)) ?_, fun h => (nomatch h), fun h => (nomatch h), fun _ => rfl⟩
      intro ⟨d, hd, hcarries⟩
      obtain rfl := Option.some.inj (hn.symm.trans hd)
      exact hnone cfg hfind hcarries
  | none =>
    rw [hn, Option.none_or] at hfind
    have hclosed : ¬ ∃ cfg, namedConfig configs c = some cfg ∧ cfg.Carries isUdp := by
      rw [hn]
      exact fun ⟨_, h, _⟩ => (nomatch h)
    rcases confirmProxy_cases configs pid c isUdp with ⟨⟨d, hd, hcarries⟩, hv⟩ | ⟨hnone, hv⟩
    · rw [hv]
      refine iff_of_false (fun h => hclosed (h.proxied_iff.mp rfl)) ?_
      rintro (h | h)
      · exact h hn
      · exact h d (hfind.symm.trans hd) hcarries
    · rw [hv]
      refine iff_of_true ⟨iff_of_false (fun h => (nomatch h)) hclosed, fun h => (nomatch h), fun h => (nomatch h),
        fun _ => rfl⟩ (.inr ?_)
      intro cfg hcfg
      exact hnone cfg (hfind.trans hcfg)

/-- For a flow of another process whose rule is PROXY, either family accepts or blocks it as the
named configuration demands exactly when no other configuration can stand in for a missing one. -/
theorem proxy_rule_fails_closed_iff_no_substitute (env : RuleEnv) (p : Policy) (configs : List ProxyConfig)
    (g : OwnerSettings) (o : Owner) (destPort : UInt16) (isUdp : Bool) (name : List UInt8) (c : UInt32)
    (hpid : o.pid ≠ 0) (hself : o.pid ≠ g.currentProcessId) (hname : o.processName = some name) :
    (∀ srcIp destIp, (g.loopbackBypassEnabled && isLoopbackV4 srcIp && isLoopbackV4 destIp) = false →
      matchRule env p name destPort isUdp destIp = (.proxy, c) →
      (FailsClosed configs isUdp c (checkProcessRule env p configs g o destPort isUdp srcIp destIp) ↔
        NoSubstitute configs isUdp c)) ∧
    (∀ srcIp6 destIp6, (g.loopbackBypassEnabled && isLoopback6 srcIp6 && isLoopback6 destIp6) = false →
      matchRuleV6 env p name destPort isUdp destIp6 = (.proxy, c) →
      (FailsClosed configs isUdp c (checkProcessRuleV6 env p configs g o destPort isUdp srcIp6 destIp6) ↔
        NoSubstitute configs isUdp c)) := by
  have hjudge : ∀ m : List UInt8 → RuleAction × UInt32, m name = (.proxy, c) →
      judgeOwner configs g o isUdp m = confirmProxy configs o.pid c isUdp := by
    intro m hm
    simp [judgeOwner, hpid, hself, hname, hm]
  refine ⟨fun srcIp destIp hl hm => ?_, fun srcIp6 destIp6 hl hm => ?_⟩
  · rw [checkProcessRule, hl, if_neg Bool.false_ne_true, hjudge _ hm]
    exact failsClosed_iff configs o.pid c isUdp
  · rw [checkProcessRuleV6, hl, if_neg Bool.false_ne_true, hjudge _ hm]
    exact failsClosed_iff configs o.pid c isUdp

/-- A catch-all PROXY rule for the second of two configurations. -/
def catchAllPolicy : Policy where
  rules := [⟨1, wildcard, wildcard, wildcard, wildcard, .both, .proxy, 2, true⟩]
  hasDomainRules := false
  proxyUdpDnsEnabled := false

def emptyRuleEnv : RuleEnv where
  malloc _ := true
  inetPton _ := none
  now := 0
  dnsCache _ := []
  dnsCacheV6 _ := []

/-- A SOCKS5 configuration on 127.0.0.1:1080. -/
def localSocks5 (id : UInt32) : ProxyConfig where
  configId := id
  type := .socks5
  host := lit ['1', '2', '7', '.', '0', '.', '0', '.', '1']
  port := 1080
  resolvedIp := 0x0100007F
  udpConnected := false
  udpRelayIp := 0
  udpRelayPort := 0

/-- A TCP flow of another process to 1.1.1.1:443. -/
def checkedFlow (configs : List ProxyConfig) : Verdict :=
  checkProcessRule emptyRuleEnv catchAllPolicy configs ⟨false, true, 1⟩ ⟨7, some (lit ['a'])⟩ 443 false
    0x0A00A8C0 0x01010101

theorem proxy_rule_fails_closed_iff_no_substitute_named :
    (checkedFlow [localSocks5 1, localSocks5 2]).action = .proxy ∧
      FailsClosed [localSocks5 1, localSocks5 2] false 2 (checkedFlow [localSocks5 1, localSocks5 2]) :=
  ⟨by decide, ((proxy_rule_fails_closed_iff_no_substitute emptyRuleEnv catchAllPolicy
    [localSocks5 1, localSocks5 2] ⟨false, true, 1⟩ ⟨7, some (lit ['a'])⟩ 443 false (lit ['a']) 2 (by decide)
    (by decide) rfl).1 0x0A00A8C0 0x01010101 (by decide) (by decide)).mpr (.inl (by decide))⟩

/-- The configuration that the rule names has been deleted, and the flow is accepted for the one
that is left. -/
theorem deleted_config_accepted_for_first :
    namedConfig [localSocks5 1] 2 = none ∧ (checkedFlow [localSocks5 1]).action = .proxy ∧
      findProxyConfig [localSocks5 1] (checkedFlow [localSocks5 1]).proxyConfigId = some (localSocks5 1) ∧
      ¬ FailsClosed [localSocks5 1] false 2 (checkedFlow [localSocks5 1]) := by
  refine ⟨by decide, by decide, by decide, fun h => ?_⟩
  obtain ⟨cfg, hcfg, _⟩ := h.proxied_iff.mp (by decide)
  have hnone : namedConfig [localSocks5 1] 2 = none := by decide
  rw [hnone] at hcfg
  cases hcfg

end ProxyBridge.Windows
