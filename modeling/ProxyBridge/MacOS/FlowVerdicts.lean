import ProxyBridge.MacOS.FlowRouting

/-! Which policy a new flow follows while messages come in. With a configuration of the policy it is one that
was in force while the flow was handled, whatever the rules say; without one it is the rules and the stored
configurations that the handler finds, each as it was in force at some moment. -/
namespace ProxyBridge.MacOS
open Histories ReadPrograms

section Rules
variable (R : SwiftRuntime) (q : RuleSearch)

/-- The rules that the search looks at. -/
structure RuleSearch.Eligible (rule : StoredRule) : Prop where
  enabled : rule.enabled = true
  compatible : rule.ruleProtocol = .both ∨ rule.ruleProtocol = q.connectionProtocol

/-- A rule for the process of the flow, or one for all processes with a filter that matches its target. A search
without a target skips the filters of the first kind and all rules of the second. -/
inductive RuleSearch.Specific (rule : StoredRule) : Prop where
  | process (he : q.Eligible rule) (hw : rule.isWildcardProcess = false)
      (hp : rule.matchesProcess R.unicode q.bundleId.toList (q.processName.map String.toList) = true)
      (ht : q.checkIpPort = true → q.matchesTarget R rule = true)
  | filter (he : q.Eligible rule) (hw : rule.isWildcardProcess = true) (hf : rule.hasFilter = true)
      (hc : q.checkIpPort = true) (ht : q.matchesTarget R rule = true)

/-- A rule for everything. -/
structure RuleSearch.ForAll (rule : StoredRule) : Prop where
  eligible : q.Eligible rule
  wildcard : rule.isWildcardProcess = true
  unfiltered : rule.hasFilter = false

/-- The first specific rule, or else the first rule for everything. -/
inductive RuleSearch.Chooses (rules : List StoredRule) (rule : StoredRule) : Prop where
  | specific {before after : List StoredRule} (hsplit : rules = before ++ rule :: after) (h : q.Specific R rule)
      (hfirst : ∀ r ∈ before, ¬q.Specific R r)
  | fallback {before after : List StoredRule} (hsplit : rules = before ++ rule :: after)
      (hnone : ∀ r ∈ rules, ¬q.Specific R r) (h : q.ForAll rule) (hfirst : ∀ r ∈ before, ¬q.ForAll r)

private def isEligible (rule : StoredRule) : Bool :=
  rule.enabled && (rule.ruleProtocol == .both || rule.ruleProtocol == q.connectionProtocol)

private def isSpecific (rule : StoredRule) : Bool :=
  isEligible q rule && if rule.isWildcardProcess then rule.hasFilter && q.checkIpPort && q.matchesTarget R rule
    else rule.matchesProcess R.unicode q.bundleId.toList (q.processName.map String.toList) &&
      (!q.checkIpPort || q.matchesTarget R rule)

private def isForAll (rule : StoredRule) : Bool := isEligible q rule && rule.isWildcardProcess && !rule.hasFilter

private theorem isEligible_iff (rule : StoredRule) : isEligible q rule = true ↔ q.Eligible rule := by
  rw [isEligible, Bool.and_eq_true, Bool.or_eq_true, beq_iff_eq, beq_iff_eq]
  exact ⟨fun ⟨h, h'⟩ => ⟨h, h'⟩, fun ⟨h, h'⟩ => ⟨h, h'⟩⟩

private theorem isSpecific_iff (rule : StoredRule) : isSpecific R q rule = true ↔ q.Specific R rule := by
  rw [isSpecific, Bool.and_eq_true, isEligible_iff]
  cases hw : rule.isWildcardProcess with
  | true =>
    simp only [if_true, Bool.and_eq_true]
    constructor
    · exact fun ⟨he, ⟨hf, hc⟩, ht⟩ => .filter he hw hf hc ht
    · intro h
      cases h with
      | process he hw' hp ht => cases hw.symm.trans hw'
      | filter he hw' hf hc ht => exact ⟨he, ⟨hf, hc⟩, ht⟩
  | false =>
    simp only [Bool.false_eq_true, if_false, Bool.and_eq_true, Bool.or_eq_true, Bool.not_eq_true']
    constructor
    · rintro ⟨he, hp, hc⟩
      refine .process he hw hp (fun hcheck => ?_)
      rcases hc with hc | hc
      · cases hcheck.symm.trans hc
      · exact hc
    · intro h
      cases h with
      | process he hw' hp ht =>
        refine ⟨he, hp, ?_⟩
        cases hc : q.checkIpPort with
        | true => exact .inr (ht hc)
        | false => exact .inl rfl
      | filter he hw' hf hc ht => cases hw.symm.trans hw'

private theorem isForAll_iff (rule : StoredRule) : isForAll q rule = true ↔ q.ForAll rule := by
  rw [isForAll, Bool.and_eq_true, Bool.and_eq_true, isEligible_iff, Bool.not_eq_true']
  exact ⟨fun ⟨⟨h, h'⟩, h''⟩ => ⟨h, h', h''⟩, fun ⟨h, h', h''⟩ => ⟨⟨h, h'⟩, h''⟩⟩

/-- One turn of the loop. -/
private theorem loop_cons (rule : StoredRule) (rest : List StoredRule) (wildcardRule : Option StoredRule) :
    q.loop R (rule :: rest) wildcardRule =
      if isSpecific R q rule then some rule
      else q.loop R rest (if isForAll q rule && wildcardRule.isNone then some rule else wildcardRule) := by
  rw [RuleSearch.loop, isSpecific, isForAll, isEligible]
  cases rule.enabled with
  | false => simp
  | true =>
    cases hp : rule.ruleProtocol == .both || rule.ruleProtocol == q.connectionProtocol with
    | false =>
      have hskip : (rule.ruleProtocol != .both && rule.ruleProtocol != q.connectionProtocol) = true := by
        rw [bne, bne, ← Bool.not_or, hp]
        rfl
      simp [hskip]
    | true =>
      have hgo : (rule.ruleProtocol != .both && rule.ruleProtocol != q.connectionProtocol) = false := by
        rw [bne, bne, ← Bool.not_or, hp]
        rfl
      cases rule.isWildcardProcess <;> cases rule.hasFilter <;> cases q.checkIpPort <;>
        cases q.matchesTarget R rule <;>
        cases rule.matchesProcess R.unicode q.bundleId.toList (q.processName.map String.toList) <;>
        simp [hgo]

/-- The loop returns the first specific rule, or the first rule for everything from where it began. -/
private theorem loop_eq (rules : List StoredRule) (wildcardRule : Option StoredRule) :
    q.loop R rules wildcardRule = (rules.find? (isSpecific R q)).or (wildcardRule.or (rules.find? (isForAll q))) := by
  induction rules generalizing wildcardRule with
  | nil => simp [RuleSearch.loop]
  | cons rule rest ih =>
    rw [loop_cons, ih, List.find?_cons, List.find?_cons]
    cases hs : isSpecific R q rule with
    | true => rfl
    | false =>
      cases isForAll q rule <;> cases wildcardRule <;> rfl

private theorem find?_eq_some {p : StoredRule → Bool} {P : StoredRule → Prop} (hp : ∀ r, p r = true ↔ P r)
    {rules : List StoredRule} {rule : StoredRule} : rules.find? p = some rule ↔
      ∃ before after, rules = before ++ rule :: after ∧ P rule ∧ ∀ r ∈ before, ¬P r := by
  rw [List.find?_eq_some_iff_append, hp]
  constructor
  · rintro ⟨h, before, after, hsplit, hno⟩
    refine ⟨before, after, hsplit, h, fun r hr hc => ?_⟩
    have hfalse := hno r hr
    rw [(hp r).mpr hc] at hfalse
    cases hfalse
  · rintro ⟨before, after, hsplit, h, hno⟩
    refine ⟨h, before, after, hsplit, fun r hr => ?_⟩
    rw [Bool.not_eq_true']
    exact Bool.eq_false_iff.mpr (fun hc => hno r hr ((hp r).mp hc))

theorem findMatchingRule_eq_some {rules : List StoredRule} {rule : StoredRule} :
    findMatchingRule R q rules = some rule ↔ q.Chooses R rules rule := by
  rw [findMatchingRule, loop_eq, Option.none_or, Option.or_eq_some_iff, find?_eq_some (isSpecific_iff R q),
    find?_eq_some (isForAll_iff q), List.find?_eq_none]
  constructor
  · rintro (⟨before, after, hsplit, h, hno⟩ | ⟨hnone, before, after, hsplit, h, hno⟩)
    · exact .specific hsplit h hno
    · exact .fallback hsplit (fun r hr hc => hnone r hr ((isSpecific_iff R q r).mpr hc)) h hno
  · rintro (⟨hsplit, h, hno⟩ | ⟨hsplit, hnone, h, hno⟩)
    · exact .inl ⟨_, _, hsplit, h, hno⟩
    · exact .inr ⟨fun r hr hc => hnone r hr ((isSpecific_iff R q r).mp hc), _, _, hsplit, h, hno⟩

theorem findMatchingRule_eq_none {rules : List StoredRule} :
    findMatchingRule R q rules = none ↔ ∀ r ∈ rules, ¬q.Specific R r ∧ ¬q.ForAll r := by
  rw [findMatchingRule, loop_eq, Option.none_or, Option.or_eq_none_iff, List.find?_eq_none, List.find?_eq_none]
  constructor
  · rintro ⟨hs, hf⟩ r hr
    exact ⟨fun hc => hs r hr ((isSpecific_iff R q r).mpr hc), fun hc => hf r hr ((isForAll_iff q r).mpr hc)⟩
  · intro h
    exact ⟨fun r hr hc => (h r hr).1 ((isSpecific_iff R q r).mp hc),
      fun r hr hc => (h r hr).2 ((isForAll_iff q r).mp hc)⟩

end Rules

/-- What becomes of a flow: the system has it, both of its sides are closed, or a proxy is asked for it. -/
inductive FlowFate where
  | untouched
  | closed
  | proxied (config : StoredProxyConfig)

def FlowFate.taken : FlowFate → Bool
  | .untouched => false
  | .closed | .proxied _ => true

def FlowFate.ofDecision : KokoroBoxDecision → FlowFate
  | .direct => .untouched
  | .block => .closed
  | .proxy config => .proxied config

namespace NewFlow

def app : NewFlow → AppFlow
  | .tcp f => f.toAppFlow
  | .udp f => f

def connectionProtocol : NewFlow → RuleProtocol
  | .tcp _ => .tcp
  | .udp _ => .udp

def line : NewFlow → String → ConnectionLine
  | .tcp f => f.line
  | .udp f => f.line

def search : NewFlow → RuleSearch
  | .tcp f => f.search
  | .udp f => f.search

/-- What is done to a flow for a fate. -/
def deeds (flow : NewFlow) : FlowFate → List FlowDeed
  | .untouched => []
  | .closed => [.closeRead, .closeWrite]
  | .proxied config =>
    match flow with
    | .tcp f => [.proxyTCPFlow f.destination f.portNum config]
    | .udp f => [.proxyUDPFlow f.displayName config.host config.port config.username config.password]

section Runtime
variable (R : SwiftRuntime)

/-- The proxies that a flow can use. -/
def usable (flow : NewFlow) (config : StoredProxyConfig) : Bool :=
  match flow with
  | .tcp _ => true
  | .udp _ => AppFlow.isSocks5 R config

/-- A flow that no configuration of the policy is asked about. -/
def exempt : NewFlow → Bool
  | .tcp f => f.own R || isDirectNetworkTarget R.mapping (R.unicode.key f.destination)
  | .udp _ => false

end Runtime
end NewFlow

def FlowFate.label (R : SwiftRuntime) : FlowFate → String
  | .untouched => "Direct"
  | .closed => "BLOCK"
  | .proxied config => proxyLabel R config

section Histories
variable {R : SwiftRuntime} (h : ProviderHistory R.unicode R.lowercased)

/-- What the handlers read at each moment. -/
def answers (n : Nat) (i : ProviderItem) : i.Value := (h.state n).get i

/-- The handler has done to the flow what the fate asks and nothing else. It has said so in one line of the log
where the log was on; only the handler of UDP flows and exempt flows may leave the line out. -/
structure Handled.Settles (r : Handled) (t t' : Nat) (flow : NewFlow) (fate : FlowFate) : Prop where
  taken : r.taken = fate.taken
  deeds :
    (r.deeds = flow.deeds fate ∧ (flow.connectionProtocol = .udp ∨ flow.exempt R = true ∨
      ∃ s, t ≤ s ∧ s ≤ t' ∧ (h.state s).policy.trafficLoggingEnabled = false)) ∨
    (r.deeds = .log (flow.line (fate.label R)) :: flow.deeds fate ∧
      ∃ s, t ≤ s ∧ s ≤ t' ∧ (h.state s).policy.trafficLoggingEnabled = true)

/-- The fates that rules and stored configurations give, found in this order between two moments. -/
inductive ByRules (t t' : Nat) (flow : NewFlow) : FlowFate → Prop where
  /-- With nothing stored that the flow could use, no rule is looked for, also none that blocks. -/
  | noProxy {s : Nat} (hs : t ≤ s) (hs' : s ≤ t')
      (hnone : ∀ key config, (h.state s).storedProxyConfigs.lookup key = some config → flow.usable R config = false) :
      ByRules t t' flow .untouched
  | noRule {s : Nat} (hs : t ≤ s) (hs' : s ≤ t')
      (hnone : ∀ r ∈ (h.state s).rules, ¬flow.search.Specific R r ∧ ¬flow.search.ForAll r) :
      ByRules t t' flow .untouched
  | direct {s : Nat} {rule : StoredRule} (hs : t ≤ s) (hs' : s ≤ t')
      (hrule : flow.search.Chooses R (h.state s).rules rule) (ha : R.same rule.action "DIRECT" = true) :
      ByRules t t' flow .untouched
  | block {s : Nat} {rule : StoredRule} (hs : t ≤ s) (hs' : s ≤ t')
      (hrule : flow.search.Chooses R (h.state s).rules rule) (ha : R.same rule.action "BLOCK" = true) :
      ByRules t t' flow .closed
  | missing {s s₂ : Nat} {rule : StoredRule} (hs : t ≤ s) (hs₂ : s ≤ s₂) (hs' : s₂ ≤ t')
      (hrule : flow.search.Chooses R (h.state s).rules rule) (hd : R.same rule.action "DIRECT" = false)
      (hb : R.same rule.action "BLOCK" = false)
      (hnone : ∀ config, (h.state s₂).storedProxyConfigs.lookup (R.unicode.key rule.action) = some config →
        flow.usable R config = false) : ByRules t t' flow .untouched
  | proxy {s s₂ : Nat} {rule : StoredRule} {config : StoredProxyConfig} (hs : t ≤ s) (hs₂ : s ≤ s₂) (hs' : s₂ ≤ t')
      (hrule : flow.search.Chooses R (h.state s).rules rule) (hd : R.same rule.action "DIRECT" = false)
      (hb : R.same rule.action "BLOCK" = false)
      (hconfig : (h.state s₂).storedProxyConfigs.lookup (R.unicode.key rule.action) = some config)
      (husable : flow.usable R config = true) : ByRules t t' flow (.proxied config)

/-- Why a flow that is handled between two moments has its fate. -/
inductive Follows (t t' : Nat) (flow : NewFlow) : FlowFate → Prop where
  /-- The own traffic; that over UDP is exempt only without a configuration of the policy. -/
  | own {s : Nat} (hs : t ≤ s) (hs' : s ≤ t') (hown : flow.app.own R = true)
      (hudp : flow.connectionProtocol = .udp → (h.state s).policy.configuration = none) : Follows t t' flow .untouched
  /-- The configuration of the policy is not asked. -/
  | exempt {s : Nat} {c : KokoroBoxConfiguration} (hs : t ≤ s) (hs' : s ≤ t')
      (hc : (h.state s).policy.configuration = some c) (he : flow.exempt R = true) : Follows t t' flow .untouched
  | governed {s : Nat} {c : KokoroBoxConfiguration} {d : KokoroBoxDecision} (hs : t ≤ s) (hs' : s ≤ t')
      (hc : (h.state s).policy.configuration = some c) (he : flow.exempt R = false)
      (hd : c.Answers R.text flow.app.processPath flow.app.processName flow.connectionProtocol d) :
      Follows t t' flow (.ofDecision d)
  /-- `stopProxy` takes the configuration of the policy away while the flow is handled. -/
  | withdrawn {s : Nat} {a : ProviderAction} (hs : t ≤ s) (hs' : s < t') (ha : h.action s = some a)
      (hw : a.withdraws = true) : Follows t t' flow .untouched
  | ruled {s : Nat} {fate : FlowFate} (hs : t ≤ s) (hs' : s ≤ t') (hc : (h.state s).policy.configuration = none)
      (hown : flow.app.own R = false) (hrules : ByRules h s t' flow fate) : Follows t t' flow fate

/-- A configuration that is in force was valid when it came. -/
theorem configuration_valid {n : Nat} {c : KokoroBoxConfiguration} (hc : (h.state n).policy.configuration = some c) :
    validatedKokoroBoxConfiguration R.lowercased (some c) = some c := by
  refine h.invariant (fun s => ∀ c, s.policy.configuration = some c →
    validatedKokoroBoxConfiguration R.lowercased (some c) = some c) (fun c hc => by cases hc) ?_ n c hc
  intro s a s' ih hs c hc
  have hpolicy := (Provider.step_effects hs).policy
  rw [hc] at hpolicy
  generalize hold : s.policy.configuration = old at hpolicy
  cases hpolicy with
  | keep => exact ih c hold
  | install hvalid => exact hvalid

/-- Only `stopProxy` takes it away. -/
theorem configuration_stays {s n : Nat} (hle : s ≤ n) (hc : (h.state s).policy.configuration.isSome = true)
    (hw : h.Without (·.withdraws = true) s n) : (h.state n).policy.configuration.isSome = true := by
  induction hle with
  | refl => exact hc
  | @step n hle ih =>
    have hbefore := ih (hw.mono (Nat.le_refl s) (Nat.le_succ n))
    cases ha : h.action n with
    | none =>
      rw [h.state_succ_of_none ha]
      exact hbefore
    | some a =>
      have hpolicy := (Provider.step_effects (h.step_of_some ha)).policy
      have hno := hw n hle (Nat.lt_succ_self n) a ha
      generalize (h.state (n + 1)).policy.configuration = new at hpolicy
      cases hpolicy with
      | keep => exact hbefore
      | install => rfl
      | withdraw hwithdraws => exact absurd hwithdraws hno

private theorem exists_withdrawal {s n : Nat} (hle : s ≤ n) (hc : (h.state s).policy.configuration.isSome = true)
    (hn : (h.state n).policy.configuration = none) :
    ∃ j, s ≤ j ∧ j < n ∧ ∃ a, h.action j = some a ∧ a.withdraws = true := by
  by_contra hno
  have hw : h.Without (·.withdraws = true) s n := fun j hj hj' a ha hwa => hno ⟨j, hj, hj', a, ha, hwa⟩
  have hstays := configuration_stays h hle hc hw
  rw [hn] at hstays
  cases hstays

section Handlers
variable {h} {t t' : Nat} {r : Handled} {flow : NewFlow} {fate : FlowFate}

theorem Handled.Settles.earlier {s : Nat} (hle : t ≤ s) (hr : r.Settles h s t' flow fate) :
    r.Settles h t t' flow fate := by
  refine ⟨hr.taken, ?_⟩
  rcases hr.deeds with ⟨hd, hquiet⟩ | ⟨hd, s', hs, hs', hon⟩
  · refine .inl ⟨hd, ?_⟩
    rcases hquiet with hudp | hexempt | ⟨s', hs, hs', hoff⟩
    · exact .inl hudp
    · exact .inr (.inl hexempt)
    · exact .inr (.inr ⟨s', Nat.le_trans hle hs, hs', hoff⟩)
  · exact .inr ⟨hd, s', Nat.le_trans hle hs, hs', hon⟩

theorem Follows.earlier {s : Nat} (hle : t ≤ s) (hf : Follows h s t' flow fate) : Follows h t t' flow fate := by
  cases hf with
  | own hs hs' hown hudp => exact .own (Nat.le_trans hle hs) hs' hown hudp
  | exempt hs hs' hc he => exact .exempt (Nat.le_trans hle hs) hs' hc he
  | governed hs hs' hc he hd => exact .governed (Nat.le_trans hle hs) hs' hc he hd
  | withdrawn hs hs' ha hw => exact .withdrawn (Nat.le_trans hle hs) hs' ha hw
  | ruled hs hs' hc hown hrules => exact .ruled (Nat.le_trans hle hs) hs' hc hown hrules

private theorem settles_of_log
    (hr : (logAndAnswer (flow.line (fate.label R)) (flow.deeds fate) fate.taken).Along (answers h) t t' r) :
    r.Settles h t t' flow fate := by
  obtain ⟨s, log, hs, hlog, hanswer⟩ := hr.of_bind
  obtain ⟨s', hs', hlog⟩ := hlog.of_read
  obtain rfl := hanswer.pure_eq
  obtain rfl := hlog.pure_eq
  have hle : s' ≤ t' := Nat.le_trans hlog.le hanswer.le
  refine ⟨rfl, ?_⟩
  cases hon : (h.state s').policy.trafficLoggingEnabled with
  | true =>
    refine .inr ⟨?_, s', hs', hle, hon⟩
    change (if (h.state s').policy.trafficLoggingEnabled = true then _ else _) ++ _ = _
    rw [if_pos hon]
    rfl
  | false =>
    refine .inl ⟨?_, .inr (.inr ⟨s', hs', hle, hon⟩)⟩
    change (if (h.state s').policy.trafficLoggingEnabled = true then _ else _) ++ _ = _
    rw [if_neg (by rw [hon]; exact Bool.false_ne_true)]
    rfl

/-- An answer without a line of the log. -/
private theorem settles_of_pure (hquiet : flow.connectionProtocol = .udp ∨ flow.exempt R = true)
    (hr : (Program.pure ⟨flow.deeds fate, fate.taken⟩ : ProviderProgram Handled).Along (answers h) t t' r) :
    r.Settles h t t' flow fate := by
  obtain rfl := hr.pure_eq
  exact ⟨rfl, .inl ⟨rfl, hquiet.elim .inl (fun he => .inr (.inl he))⟩⟩

private theorem answers_proxy {c : KokoroBoxConfiguration} {f : AppFlow} {p : RuleProtocol} {config : StoredProxyConfig}
    (hd : c.Answers R.text f.processPath f.processName p (.proxy config)) :
    config = ⟨"socks5", "127.0.0.1", 7891, none, none⟩ := by
  cases hd with
  | ruled h hchosen hasks =>
    cases hasks
    rfl

/-- The decision is made by the configuration of one moment, if there still is one. -/
private theorem decide_cases {f : AppFlow} {p : RuleProtocol} {k : Option KokoroBoxDecision → ProviderProgram Handled}
    (hr : ((f.decide R p).bind k).Along (answers h) t t' r) :
    ∃ s, t ≤ s ∧ s ≤ t' ∧
      ((h.state s).policy.configuration = none ∧ (k none).Along (answers h) s t' r ∨
        ∃ c d, (h.state s).policy.configuration = some c ∧ c.Answers R.text f.processPath f.processName p d ∧
          (k (some d)).Along (answers h) s t' r) := by
  obtain ⟨s', decision, hs', hread, hrest⟩ := hr.of_bind
  obtain ⟨s, hs, hdecide⟩ := hread.of_read
  obtain rfl := hdecide.pure_eq
  refine ⟨s, hs, Nat.le_trans hdecide.le hrest.le, ?_⟩
  have hrest := hrest.earlier hdecide.le
  change (k (kokoroBoxDecision R.text R.sorting (h.state s).policy.configuration f.processPath f.processName p)).Along
    (answers h) s t' r at hrest
  cases hc : (h.state s).policy.configuration with
  | none =>
    rw [hc] at hrest
    exact .inl ⟨rfl, hrest⟩
  | some c =>
    rw [hc] at hrest
    have hvalid : validatedKokoroBoxConfiguration R.text.lowercased (some c) = some c := configuration_valid h hc
    obtain ⟨d, hd, hanswers⟩ := kokoroBoxDecision_answers R.sorting hvalid f.processPath f.processName p
    rw [hd] at hrest
    exact .inr ⟨c, d, rfl, hanswers, hrest⟩

section Tcp
variable {f : TCPFlow}

private theorem tcp_decided {d : KokoroBoxDecision}
    (hr : (match some d with
      | none | some .direct => logAndAnswer (f.line "Direct") [] false
      | some .block => logAndAnswer (f.line "BLOCK") [.closeRead, .closeWrite] true
      | some (.proxy configuration) => f.proxied R configuration).Along (answers h) t t' r) :
    r.Settles h t t' (.tcp f) (.ofDecision d) := by
  cases d with
  | direct => exact settles_of_log hr
  | block => exact settles_of_log hr
  | proxy config => exact settles_of_log hr

private theorem tcp_governed {s : Nat} (hs : s ≤ t) (hc : (h.state s).policy.configuration.isSome = true)
    (hown : f.own R = false) (hr : (f.handleKokoroBox R).Along (answers h) t t' r) :
    ∃ fate, r.Settles h t t' (.tcp f) fate ∧ Follows h s t' (.tcp f) fate := by
  unfold TCPFlow.handleKokoroBox at hr
  split at hr
  · rename_i htarget
    obtain ⟨c, hc⟩ := Option.isSome_iff_exists.mp hc
    have hexempt : (NewFlow.tcp f).exempt R = true := by
      rw [NewFlow.exempt, htarget, Bool.or_true]
    exact ⟨.untouched, settles_of_pure (.inr hexempt) hr,
      .exempt (Nat.le_refl s) (Nat.le_trans hs hr.le) hc hexempt⟩
  · rename_i htarget
    obtain ⟨s₂, hs₂, hs', ⟨hnone, hr⟩ | ⟨c, d, hsome, hd, hr⟩⟩ := decide_cases hr
    · obtain ⟨j, hj, hj', a, ha, hw⟩ := exists_withdrawal h (Nat.le_trans hs hs₂) hc hnone
      exact ⟨.untouched, (settles_of_log hr).earlier hs₂, .withdrawn hj (Nat.lt_of_lt_of_le hj' hs') ha hw⟩
    · refine ⟨.ofDecision d, (tcp_decided hr).earlier hs₂, .governed (Nat.le_trans hs hs₂) hs' hsome ?_ hd⟩
      rw [NewFlow.exempt, hown, Bool.false_or]
      exact Bool.eq_false_iff.mpr htarget

private theorem no_entry_of_isEmpty {stored : StoredProxyConfigs} (he : stored.entries.isEmpty = true)
    (key : StringKey) (config : StoredProxyConfig) : stored.lookup key ≠ some config := by
  rw [AList.lookup, List.isEmpty_iff.mp he]
  exact fun hc => nomatch hc

private theorem tcp_ruled (hr : (f.handleRules R).Along (answers h) t t' r) :
    ∃ fate, r.Settles h t t' (.tcp f) fate ∧ ByRules h t t' (.tcp f) fate := by
  unfold TCPFlow.handleRules at hr
  obtain ⟨s₁, hs₁, hr⟩ := hr.of_read
  split at hr
  · rename_i hempty
    refine ⟨.untouched, (settles_of_log hr).earlier hs₁, .noProxy hs₁ hr.le (fun key config hconfig => ?_)⟩
    exact absurd hconfig (no_entry_of_isEmpty hempty key config)
  obtain ⟨s, hs, hr⟩ := hr.of_read
  have hts := Nat.le_trans hs₁ hs
  split at hr
  · rename_i hnone
    have hno := (findMatchingRule_eq_none R f.search).mp hnone
    exact ⟨.untouched, (settles_of_log hr).earlier hts, .noRule hts hr.le hno⟩
  rename_i rule hrule
  have hchosen := (findMatchingRule_eq_some R f.search).mp hrule
  split at hr
  · rename_i ha
    exact ⟨.untouched, (settles_of_log hr).earlier hts, .direct hts hr.le hchosen ha⟩
  rename_i hd
  split at hr
  · rename_i ha
    exact ⟨.closed, (settles_of_log hr).earlier hts, .block hts hr.le hchosen ha⟩
  rename_i hb
  obtain ⟨s₂, hs₂, hr⟩ := hr.of_read
  have hts₂ := Nat.le_trans hts hs₂
  split at hr
  · rename_i hmissing
    refine ⟨.untouched, (settles_of_log hr).earlier hts₂, .missing hts hs₂ hr.le hchosen (Bool.eq_false_iff.mpr hd)
      (Bool.eq_false_iff.mpr hb) (fun config hconfig => ?_)⟩
    cases hmissing.symm.trans hconfig
  · rename_i config hconfig
    exact ⟨.proxied config, (settles_of_log hr).earlier hts₂,
      .proxy hts hs₂ hr.le hchosen (Bool.eq_false_iff.mpr hd) (Bool.eq_false_iff.mpr hb) hconfig rfl⟩

theorem tcp_follows (hr : (handleTCPFlow R f).Along (answers h) t t' r) :
    ∃ fate, r.Settles h t t' (.tcp f) fate ∧ Follows h t t' (.tcp f) fate := by
  unfold handleTCPFlow at hr
  split at hr
  · rename_i hown
    have hexempt : (NewFlow.tcp f).exempt R = true := by
      rw [NewFlow.exempt, hown, Bool.true_or]
    exact ⟨.untouched, settles_of_pure (.inr hexempt) hr, .own (Nat.le_refl t) hr.le hown (fun hudp => nomatch hudp)⟩
  rename_i hown
  have hother := Bool.eq_false_iff.mpr hown
  obtain ⟨s, hs, hr⟩ := hr.of_read
  split at hr
  · rename_i hc
    obtain ⟨fate, hsettles, hfollows⟩ := tcp_governed (Nat.le_refl s) hc hother hr
    exact ⟨fate, hsettles.earlier hs, hfollows.earlier hs⟩
  · rename_i hc
    obtain ⟨fate, hsettles, hrules⟩ := tcp_ruled hr
    exact ⟨fate, hsettles.earlier hs, .ruled hs hr.le (Option.not_isSome_iff_eq_none.mp hc) hother hrules⟩

end Tcp

section Udp
variable {f : AppFlow}

private theorem udp_governed {s : Nat} (hs : s ≤ t) (hc : (h.state s).policy.configuration.isSome = true)
    (hr : (f.handleKokoroBox R).Along (answers h) t t' r) :
    ∃ fate, r.Settles h t t' (.udp f) fate ∧ Follows h s t' (.udp f) fate := by
  obtain ⟨s₂, hs₂, hs', ⟨hnone, hr⟩ | ⟨c, d, hsome, hd, hr⟩⟩ := decide_cases hr
  · obtain ⟨j, hj, hj', a, ha, hw⟩ := exists_withdrawal h (Nat.le_trans hs hs₂) hc hnone
    exact ⟨.untouched, (settles_of_log hr).earlier hs₂, .withdrawn hj (Nat.lt_of_lt_of_le hj' hs') ha hw⟩
  · have hsettles : r.Settles h s₂ t' (.udp f) (.ofDecision d) := by
      cases d with
      | direct => exact settles_of_log hr
      | block => exact settles_of_log hr
      | proxy config =>
        obtain rfl := answers_proxy hd
        exact settles_of_pure (.inl rfl) hr
    exact ⟨.ofDecision d, hsettles.earlier hs₂, .governed (Nat.le_trans hs hs₂) hs' hsome rfl hd⟩

private theorem not_socks5_of_any {stored : StoredProxyConfigs}
    (hnone : (!stored.entries.any fun e => AppFlow.isSocks5 R e.2) = true) {key : StringKey}
    {config : StoredProxyConfig} (hconfig : stored.lookup key = some config) : AppFlow.isSocks5 R config = false := by
  cases hs : AppFlow.isSocks5 R config with
  | false => rfl
  | true =>
    have hany : (stored.entries.any fun e => AppFlow.isSocks5 R e.2) = true :=
      List.any_eq_true.mpr ⟨⟨key, config⟩, AList.mem_lookup_iff.mp hconfig, hs⟩
    rw [hany] at hnone
    cases hnone

private theorem udp_ruled (hr : (f.handleRules R).Along (answers h) t t' r) :
    ∃ fate, r.Settles h t t' (.udp f) fate ∧ ByRules h t t' (.udp f) fate := by
  unfold AppFlow.handleRules at hr
  obtain ⟨s₁, hs₁, hr⟩ := hr.of_read
  split at hr
  · rename_i hnone
    refine ⟨.untouched, (settles_of_pure (.inl rfl) hr).earlier hs₁, .noProxy hs₁ hr.le (fun key config hconfig => ?_)⟩
    exact not_socks5_of_any hnone hconfig
  obtain ⟨s, hs, hr⟩ := hr.of_read
  have hts := Nat.le_trans hs₁ hs
  split at hr
  · rename_i hnone
    have hno := (findMatchingRule_eq_none R f.search).mp hnone
    exact ⟨.untouched, (settles_of_log hr).earlier hts, .noRule hts hr.le hno⟩
  rename_i rule hrule
  have hchosen := (findMatchingRule_eq_some R f.search).mp hrule
  split at hr
  · rename_i ha
    exact ⟨.untouched, (settles_of_log hr).earlier hts, .direct hts hr.le hchosen ha⟩
  rename_i hd
  split at hr
  · rename_i ha
    exact ⟨.closed, (settles_of_log hr).earlier hts, .block hts hr.le hchosen ha⟩
  rename_i hb
  obtain ⟨s₂, hs₂, hr⟩ := hr.of_read
  have hts₂ := Nat.le_trans hts hs₂
  split at hr
  · rename_i hmissing
    refine ⟨.untouched, (settles_of_pure (.inl rfl) hr).earlier hts₂,
      .missing hts hs₂ hr.le hchosen (Bool.eq_false_iff.mpr hd) (Bool.eq_false_iff.mpr hb) (fun config hconfig => ?_)⟩
    cases hmissing.symm.trans hconfig
  · rename_i config hconfig
    split at hr
    · rename_i husable
      exact ⟨.proxied config, (settles_of_pure (.inl rfl) hr).earlier hts₂,
        .proxy hts hs₂ hr.le hchosen (Bool.eq_false_iff.mpr hd) (Bool.eq_false_iff.mpr hb) hconfig husable⟩
    · rename_i husable
      refine ⟨.untouched, (settles_of_pure (.inl rfl) hr).earlier hts₂,
        .missing hts hs₂ hr.le hchosen (Bool.eq_false_iff.mpr hd) (Bool.eq_false_iff.mpr hb)
          (fun config' hconfig' => ?_)⟩
      obtain rfl := Option.some.inj (hconfig.symm.trans hconfig')
      exact Bool.eq_false_iff.mpr husable

theorem udp_follows (hr : (handleUDPFlow R f).Along (answers h) t t' r) :
    ∃ fate, r.Settles h t t' (.udp f) fate ∧ Follows h t t' (.udp f) fate := by
  obtain ⟨s, hs, hr⟩ := hr.of_read
  split at hr
  · rename_i hc
    obtain ⟨fate, hsettles, hfollows⟩ := udp_governed (Nat.le_refl s) hc hr
    exact ⟨fate, hsettles.earlier hs, hfollows.earlier hs⟩
  rename_i hc
  have hnone := Option.not_isSome_iff_eq_none.mp hc
  split at hr
  · rename_i hown
    exact ⟨.untouched, (settles_of_pure (.inl rfl) hr).earlier hs, .own hs hr.le hown (fun _ => hnone)⟩
  · rename_i hown
    obtain ⟨fate, hsettles, hrules⟩ := udp_ruled hr
    exact ⟨fate, hsettles.earlier hs, .ruled hs hr.le hnone (Bool.eq_false_iff.mpr hown) hrules⟩

end Udp

/-- Whatever messages come in while a flow is handled, the flow has one fate, the handler does what that asks and
tells the system so, and the line of the log says the same. The own traffic and exempt flows are left alone. The fate
of any other flow is what one configuration of the policy answers that was in force meanwhile; or it was taken away
meanwhile and the flow is left alone; or there was none, and the fate is what the rules of a later moment choose, with
the proxy that is stored at one still later, or the flow is left alone as nothing that it could use was stored. -/
theorem new_flows_follow_policy (hr : (handleNewFlow R (some flow)).Along (answers h) t t' r) :
    ∃ fate, r.Settles h t t' flow fate ∧ Follows h t t' flow fate := by
  cases flow with
  | tcp f => exact tcp_follows hr
  | udp f => exact udp_follows hr

/-- While a configuration of the policy is in force no flow goes by the rules and stored configurations: it is
exempt, or has what one valid configuration answers. A rule that asks for the local proxy without one blocks, and
no flow is sent to another proxy. -/
theorem governed_flows_keep_to_policy (hr : (handleNewFlow R (some flow)).Along (answers h) t t' r)
    (hc : (h.state t).policy.configuration.isSome = true) (hw : h.Without (·.withdraws = true) t t') :
    ∃ s c fate, t ≤ s ∧ s ≤ t' ∧ (h.state s).policy.configuration = some c ∧
      validatedKokoroBoxConfiguration R.lowercased (some c) = some c ∧ r.Settles h t t' flow fate ∧
      (flow.exempt R = true → fate = .untouched) ∧
      (flow.exempt R = false → ∃ d, fate = .ofDecision d ∧
        c.Answers R.text flow.app.processPath flow.app.processName flow.connectionProtocol d) ∧
      ∀ config, fate = .proxied config → config = ⟨"socks5", "127.0.0.1", 7891, none, none⟩ := by
  have hgoverned : ∀ s, t ≤ s → s ≤ t' → ∃ c, (h.state s).policy.configuration = some c := fun s hs hs' =>
    Option.isSome_iff_exists.mp (configuration_stays h hs hc (hw.mono (Nat.le_refl t) hs'))
  obtain ⟨fate, hsettles, hfollows⟩ := new_flows_follow_policy hr
  cases hfollows with
  | @own s hs hs' hown hudp =>
    obtain ⟨c, hsome⟩ := hgoverned s hs hs'
    have hexempt : flow.exempt R = true := by
      cases flow with
      | tcp f =>
        have hown : f.own R = true := hown
        rw [NewFlow.exempt, hown, Bool.true_or]
      | udp f => cases hsome.symm.trans (hudp rfl)
    exact ⟨s, c, .untouched, hs, hs', hsome, configuration_valid h hsome, hsettles, fun _ => rfl,
      fun he => absurd (hexempt.symm.trans he) Bool.noConfusion, fun _ he => nomatch he⟩
  | @exempt s c hs hs' hsome he =>
    exact ⟨s, c, .untouched, hs, hs', hsome, configuration_valid h hsome, hsettles, fun _ => rfl,
      fun he' => absurd (he.symm.trans he') Bool.noConfusion, fun _ he => nomatch he⟩
  | @governed s c d hs hs' hsome he hd =>
    refine ⟨s, c, .ofDecision d, hs, hs', hsome, configuration_valid h hsome, hsettles,
      fun he' => absurd (he.symm.trans he') Bool.noConfusion, fun _ => ⟨d, rfl, hd⟩, fun config hproxied => ?_⟩
    cases d with
    | direct => cases hproxied
    | block => cases hproxied
    | proxy config' =>
      obtain rfl := FlowFate.proxied.inj hproxied
      exact answers_proxy hd
  | withdrawn hs hs' ha hwithdraws => exact absurd hwithdraws (hw _ hs hs' _ ha)
  | @ruled s fate hs hs' hnone hown hrules =>
    obtain ⟨c, hsome⟩ := hgoverned s hs hs'
    cases hsome.symm.trans hnone

end Handlers
end Histories

/-- Texts of plain characters. -/
def plainRuntime : SwiftRuntime where
  unicode := asciiData
  mapping := asciiMapping
  parsers := ⟨fun _ => none, fun _ => none, fun _ => none⟩
  sorting := byPriority
  uppercased := String.map Char.toUpper

def governedProvider : Provider :=
  { Provider.init with
    policy := SharedPolicy.init.installKokoroBoxConfiguration plainRuntime.lowercased (some twoRules) }

/-- A message brings a configuration, and that is all. -/
def governedHistory : ProviderHistory plainRuntime.unicode plainRuntime.lowercased :=
  History.single (a := .message (.replaceKokoroBoxConfiguration (some twoRules))) (s := governedProvider) (by
    have hvalid : (validatedKokoroBoxConfiguration plainRuntime.lowercased (some twoRules)).isSome = true := by
      decide +kernel
    rw [Provider.step, Provider.handleAppMessage, if_pos hvalid]
    rfl)

def blockedFlow : TCPFlow := ⟨⟨"org.app", none⟩, .host "example.org" "443"⟩

/-- The flow is handled at one moment. -/
def blockedResult : Handled := (handleTCPFlow plainRuntime blockedFlow).run (answers governedHistory 1)

theorem new_flows_follow_policy_blocked :
    blockedResult.deeds = [.closeRead, .closeWrite] ∧
    ∃ fate, blockedResult.Settles governedHistory 1 1 (.tcp blockedFlow) fate ∧
      Follows governedHistory 1 1 (.tcp blockedFlow) fate :=
  ⟨by decide +kernel,
    new_flows_follow_policy (Program.along_run (answers governedHistory) 1 (handleTCPFlow plainRuntime blockedFlow))⟩

theorem governed_flows_keep_to_policy_blocked :
    (NewFlow.tcp blockedFlow).exempt plainRuntime = false ∧
    ∃ s c fate, 1 ≤ s ∧ s ≤ 1 ∧ (governedHistory.state s).policy.configuration = some c ∧
      blockedResult.Settles governedHistory 1 1 (.tcp blockedFlow) fate ∧
      ∃ d, fate = .ofDecision d ∧ c.Answers plainRuntime.text "org.app" none .tcp d := by
  have hexempt : (NewFlow.tcp blockedFlow).exempt plainRuntime = false := by decide +kernel
  have hr : (handleNewFlow plainRuntime (some (.tcp blockedFlow))).Along (answers governedHistory) 1 1 blockedResult :=
    Program.along_run (answers governedHistory) 1 (handleTCPFlow plainRuntime blockedFlow)
  obtain ⟨s, c, fate, hs, hs', hc, -, hsettles, -, hd, -⟩ := governed_flows_keep_to_policy hr rfl
    (fun j hj hj' => absurd hj' (Nat.not_lt.mpr hj))
  exact ⟨hexempt, s, c, fate, hs, hs', hc, hsettles, hd hexempt⟩

end ProxyBridge.MacOS
