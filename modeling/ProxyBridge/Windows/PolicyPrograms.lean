import ProxyBridge.Library.ReadPrograms
import ProxyBridge.Windows.OwnerRules
import ProxyBridge.Windows.UdpPackets

/-! What the packet thread reads of the policy to judge a UDP datagram, in the order in which it
reads it. The rules are read once, under their lock; the toggles and the configuration store have
no lock and may change between two reads. -/
namespace ProxyBridge.Windows
open ReadPrograms

inductive Toggle where
  | localhostViaProxy
  | loopbackBypassEnabled
  | proxyUdpDnsEnabled
  | failClosedOnUnknownOwner
  deriving DecidableEq

/-- Everything that the policy calls of the API change. -/
structure PolicyState where
  rules : List ProcessRule
  hasActiveRules : Bool
  hasDomainRules : Bool
  toggles : Toggle → Bool
  configs : List ProxyConfig

/-- The parts of the policy that a verdict is computed from. -/
inductive PolicyItem where
  | toggle (t : Toggle)
  | hasDomainRules
  | rules
  | configs
  deriving DecidableEq

abbrev PolicyItem.Value : PolicyItem → Type
  | .toggle _ | .hasDomainRules => Bool
  | .rules => List ProcessRule
  | .configs => List ProxyConfig

namespace PolicyState
variable (st : PolicyState)

def get : ∀ i : PolicyItem, i.Value
  | .toggle t => st.toggles t
  | .hasDomainRules => st.hasDomainRules
  | .rules => st.rules
  | .configs => st.configs

@[simp] theorem get_toggle (t : Toggle) : st.get (.toggle t) = st.toggles t := rfl

def policy : Policy := ⟨st.rules, st.hasDomainRules, st.toggles .proxyUdpDnsEnabled⟩

def ownerSettings (currentProcessId : UInt32) : OwnerSettings :=
  ⟨st.toggles .loopbackBypassEnabled, st.toggles .failClosedOnUnknownOwner, currentProcessId⟩

/-- The settings of the packet thread under this policy. -/
def settings (localRelayPort : UInt16) (connectionCallback : Bool) : Settings :=
  ⟨localRelayPort, st.hasActiveRules, connectionCallback, st.toggles .localhostViaProxy, st.configs⟩

end PolicyState

abbrev PolicyProgram (α : Type) := Program PolicyItem.Value α

/-- The rule loop. Every enabled PROXY rule reads the DNS toggle anew for a datagram to port 53. -/
def RuleQuery.loopProgram (q : RuleQuery) :
    List ProcessRule → Option ProcessRule → PolicyProgram (RuleAction × UInt32)
  | [], wildcardRule => .pure (fallback wildcardRule)
  | rule :: rest, wildcardRule =>
    let turn (proxyUdpDnsEnabled : Bool) : PolicyProgram (RuleAction × UInt32) :=
      match RuleQuery.turn { q with proxyUdpDnsEnabled := proxyUdpDnsEnabled } rule wildcardRule with
      | .found verdict => .pure verdict
      | .next wildcardRule => loopProgram q rest wildcardRule
    if rule.enabled && q.isProxyUdpDns rule then .read (.toggle .proxyUdpDnsEnabled) turn
    else turn q.proxyUdpDnsEnabled

/-- The rest of what a judgement depends on: the ends of the flow, its owner, and the query that
the owner's name makes of it with or without domain rules. -/
structure FlowContext where
  loopback : Bool
  owner : Owner
  currentProcessId : UInt32
  query : List UInt8 → Bool → RuleQuery

/-- `check_process_rule` and `check_process_rule_v6` as they read the policy. -/
def FlowContext.checkProgram (c : FlowContext) : PolicyProgram Verdict :=
  let unknown : PolicyProgram Verdict := .read (.toggle .failClosedOnUnknownOwner) (fun failClosed =>
    .pure ⟨if failClosed then .block else .direct, c.owner.pid, 0⟩)
  .read (.toggle .loopbackBypassEnabled) (fun bypass =>
    if bypass && c.loopback then .pure ⟨.direct, 0, 0⟩
    else if c.owner.pid == 0 then unknown
    else if c.owner.pid == c.currentProcessId then .pure ⟨.direct, c.owner.pid, 0⟩
    else
      match c.owner.processName with
      | none => unknown
      | some name =>
        .read .hasDomainRules (fun hasDomainRules => .read .rules (fun rules =>
          ((c.query name hasDomainRules).loopProgram rules none).bind (fun v =>
            if v.1 = .proxy then .read .configs (fun configs => .pure (confirmProxy configs c.owner.pid v.2 true))
            else .pure ⟨v.1, c.owner.pid, v.2⟩))))

/-- What becomes of a datagram that was judged; a verdict for no process is not remembered. -/
inductive UdpDecision where
  | drop
  | direct (pid : UInt32)
  | proxy (proxyConfigId : UInt32)
  deriving DecidableEq

/-- The decision that `judge` carries out. -/
def UdpFamily.decision {α : Type} (F : UdpFamily α) (g : Settings) (v : Verdict) (p : Packet α) : UdpDecision :=
  match F.finalAction g ⟨0, 0, none, v⟩ p with
  | .block => .drop
  | .proxy => if F.carries g v.proxyConfigId then .proxy v.proxyConfigId else .drop
  | .direct => .direct v.pid

/-- The whole effect of judging a datagram is that of the decision. -/
theorem UdpFamily.judge_eq {α : Type} (F : UdpFamily α) (g : Settings) (r : Readings) (s : Core) (p : Packet α) :
    F.judge g r s p =
      match F.decision g r.verdict p with
      | .drop => (.drop, s)
      | .direct pid => (.pass, if pid != 0 then
          { s with
            udpDirect := udpDirectRemember s.udpDirect r.now (F.toAddr p.srcAddr) p.srcPort (F.toAddr p.dstAddr)
              p.dstPort r.generation }
        else s)
      | .proxy id => (.proxied (F.toRelay p), { s with
          tables := (F.add s.tables r.generation r.now r.alloc p.srcPort p.srcAddr p.dstAddr p.dstPort
            id).udpFlowStamp p.srcPort F.isIpv6 r.generation }) := by
  have haction : F.finalAction g ⟨0, 0, none, r.verdict⟩ p = F.finalAction g r p := rfl
  simp only [judge, decision, haction]
  cases F.finalAction g r p with
  | block => rfl
  | direct => rfl
  | proxy => cases F.carries g r.verdict.proxyConfigId <;> rfl

def decisionProgramV4 (p : Packet UInt32) (v : Verdict) : PolicyProgram UdpDecision :=
  match v.action with
  | .block => .pure .drop
  | .direct => .pure (.direct v.pid)
  | .proxy =>
    .read (.toggle .localhostViaProxy) (fun viaProxy =>
      if (!viaProxy && firstOctet p.dstAddr == 127) || isBroadcastOrMulticast p.dstAddr ||
          (p.dstPort == 67 || p.dstPort == 68) then .pure (.direct v.pid)
      else .pure (.proxy v.proxyConfigId))

/-- The IPv6 branch looks the configuration up once more. -/
def decisionProgramV6 (p : Packet Ip6) (v : Verdict) : PolicyProgram UdpDecision :=
  match v.action with
  | .block => .pure .drop
  | .direct => .pure (.direct v.pid)
  | .proxy =>
    .read (.toggle .localhostViaProxy) (fun viaProxy =>
      if (!viaProxy && isLoopback6 p.dstAddr) || (p.dstPort == 546 || p.dstPort == 547) then .pure (.direct v.pid)
      else .read .configs (fun configs =>
        if (findProxyConfig configs v.proxyConfigId).any (fun c => c.type == .socks5) then
          .pure (.proxy v.proxyConfigId)
        else .pure .drop))

/-- A datagram of either family. -/
inductive UdpPacket where
  | v4 (packet : Packet UInt32)
  | v6 (packet : Packet Ip6)

/-- The judgement of a datagram whose owner lookup gave `owner`. -/
def UdpPacket.program (env : RuleEnv) (owner : Owner) (currentProcessId : UInt32) :
    UdpPacket → PolicyProgram UdpDecision
  | .v4 p =>
    (FlowContext.checkProgram
      ⟨isLoopbackV4 p.srcAddr && isLoopbackV4 p.dstAddr, owner, currentProcessId, fun name hasDomainRules =>
        queryV4 env ⟨[], false, false⟩ name p.dstPort true p.dstAddr
          (if hasDomainRules then dnsCacheLookup env.dnsCache env.now p.dstAddr else none)⟩).bind
      (decisionProgramV4 p)
  | .v6 p =>
    (FlowContext.checkProgram
      ⟨isLoopback6 p.srcAddr && isLoopback6 p.dstAddr, owner, currentProcessId, fun name hasDomainRules =>
        queryV6 env ⟨[], false, false⟩ name p.dstPort true p.dstAddr
          (if hasDomainRules then dnsCacheLookupV6 env.dnsCacheV6 env.now p.dstAddr else none)⟩).bind
      (decisionProgramV6 p)

/-! Read without interruption, these are the decisions of the packet model. -/

/-- The DNS toggle decides nothing in a turn that does not read it. -/
private theorem turn_congr (q : RuleQuery) {rule : ProcessRule} (h : (rule.enabled && q.isProxyUdpDns rule) = false)
    (saved : Option ProcessRule) (on : Bool) :
    RuleQuery.turn { q with proxyUdpDnsEnabled := on } rule saved = q.turn rule saved := by
  cases he : rule.enabled with
  | false => simp [RuleQuery.turn, he]
  | true =>
    have hdns : q.isProxyUdpDns rule = false := by simpa [he] using h
    have hdns' : RuleQuery.isProxyUdpDns { q with proxyUdpDnsEnabled := on } rule = false := hdns
    simp only [RuleQuery.turn, hdns, hdns']
    rfl

theorem run_loopProgram (st : PolicyState) (q : RuleQuery) (rules : List ProcessRule)
    (saved : Option ProcessRule) :
    (q.loopProgram rules saved).run st.get =
      RuleQuery.loop { q with proxyUdpDnsEnabled := st.toggles .proxyUdpDnsEnabled } rules saved := by
  induction rules generalizing saved with
  | nil => rfl
  | cons rule rest ih =>
    have hturn : ∀ turn : Turn, (match turn with
        | .found verdict => (Program.pure verdict : PolicyProgram (RuleAction × UInt32))
        | .next wildcardRule => q.loopProgram rest wildcardRule).run st.get =
        match turn with
        | .found verdict => verdict
        | .next wildcardRule =>
          RuleQuery.loop { q with proxyUdpDnsEnabled := st.toggles .proxyUdpDnsEnabled } rest wildcardRule := by
      intro turn
      cases turn with
      | found verdict => rfl
      | next wildcardRule => exact ih wildcardRule
    simp only [RuleQuery.loopProgram, RuleQuery.loop]
    split
    · exact hturn _
    · rename_i h
      have h := Bool.eq_false_of_not_eq_true h
      have hself : q.turn rule saved =
          RuleQuery.turn { q with proxyUdpDnsEnabled := st.toggles .proxyUdpDnsEnabled } rule saved :=
        (turn_congr q h saved _).symm
      rw [hself]
      exact hturn _

theorem run_checkProgram (st : PolicyState) (c : FlowContext) :
    c.checkProgram.run st.get =
      if st.toggles .loopbackBypassEnabled && c.loopback then ⟨.direct, 0, 0⟩
      else judgeOwner st.configs (st.ownerSettings c.currentProcessId) c.owner true (fun name =>
        RuleQuery.loop { c.query name st.hasDomainRules with
          proxyUdpDnsEnabled := st.toggles .proxyUdpDnsEnabled } st.rules none) := by
  unfold FlowContext.checkProgram
  rw [Program.run_read, Program.run_ite, PolicyState.get_toggle]
  by_cases hbypass : (st.toggles .loopbackBypassEnabled && c.loopback) = true
  · rw [if_pos hbypass, if_pos hbypass]
    rfl
  rw [if_neg hbypass, if_neg hbypass, Program.run_ite, judgeOwner]
  by_cases hpid : (c.owner.pid == 0) = true
  · rw [if_pos hpid, if_pos hpid, beq_iff_eq.mp hpid]
    rfl
  rw [if_neg hpid, if_neg hpid, Program.run_ite]
  by_cases hself : (c.owner.pid == c.currentProcessId) = true
  · rw [if_pos hself]
    exact (if_pos hself).symm
  rw [if_neg hself]
  refine Eq.trans ?_ (if_neg hself).symm
  cases hname : c.owner.processName with
  | none => rfl
  | some name =>
    simp only [Program.run_read, Program.run_bind, run_loopProgram]
    rw [Program.run_ite]
    rfl

private theorem run_decisionProgramV4 (st : PolicyState) (p : Packet UInt32) (v : Verdict) (relayPort : UInt16)
    (callback : Bool) :
    (decisionProgramV4 p v).run st.get = udpV4.decision (st.settings relayPort callback) v p := by
  unfold decisionProgramV4 UdpFamily.decision UdpFamily.finalAction
  cases hv : v.action with
  | block => simp
  | direct => simp
  | proxy =>
    rw [Program.run_read, Program.run_ite, PolicyState.get_toggle]
    simp only [udpV4, PolicyState.settings, true_and, if_true]
    split <;> rfl

private theorem run_decisionProgramV6 (st : PolicyState) (p : Packet Ip6) (v : Verdict) (relayPort : UInt16)
    (callback : Bool) :
    (decisionProgramV6 p v).run st.get = udpV6.decision (st.settings relayPort callback) v p := by
  unfold decisionProgramV6 UdpFamily.decision UdpFamily.finalAction
  cases hv : v.action with
  | block => simp
  | direct => simp
  | proxy =>
    rw [Program.run_read, Program.run_ite, PolicyState.get_toggle, Program.run_read, Program.run_ite]
    simp only [udpV6, PolicyState.settings, true_and]
    split <;> rfl

/-- A judgement that nothing interrupts is `check_process_rule` followed by the decision of the
packet model, under the one policy that is there. -/
theorem run_program (st : PolicyState) (env : RuleEnv) (owner : Owner) (self : UInt32) (relayPort : UInt16)
    (callback : Bool) :
    (∀ p, (UdpPacket.program env owner self (.v4 p)).run st.get =
      udpV4.decision (st.settings relayPort callback) (checkProcessRule env st.policy st.configs
        (st.ownerSettings self) owner p.dstPort true p.srcAddr p.dstAddr) p) ∧
    (∀ p, (UdpPacket.program env owner self (.v6 p)).run st.get =
      udpV6.decision (st.settings relayPort callback) (checkProcessRuleV6 env st.policy st.configs
        (st.ownerSettings self) owner p.dstPort true p.srcAddr p.dstAddr) p) := by
  refine ⟨fun p => ?_, fun p => ?_⟩
  · rw [UdpPacket.program, Program.run_bind, run_decisionProgramV4 st p _ relayPort callback, run_checkProgram]
    simp only [checkProcessRule, matchRule, dstDomain, Bool.and_assoc]
    rfl
  · rw [UdpPacket.program, Program.run_bind, run_decisionProgramV6 st p _ relayPort callback, run_checkProgram]
    simp only [checkProcessRuleV6, matchRuleV6, dstDomainV6, Bool.and_assoc]
    rfl

end ProxyBridge.Windows
