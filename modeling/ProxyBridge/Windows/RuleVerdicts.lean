import ProxyBridge.Windows.RuleOrder

/-! The verdicts over a list that the rule API changes: the flags that the packet path reads in the
place of the list, and the rules that `ProxyBridge_EditRule` and `ProxyBridge_AddRule` store. -/
namespace ProxyBridge.Windows
open CStrings

namespace RuleTable

/-- The two flags are what a scan of the list finds. -/
structure FlagsCurrent (s : RuleTable) : Prop where
  active : s.hasActiveRules = s.rules.any (·.enabled)
  domain : s.hasDomainRules = s.rules.any (fun rule => rule.enabled && rule.hasDomainFilter)

private theorem updateHasActiveRules_current (s : RuleTable) : s.updateHasActiveRules.FlagsCurrent := by
  have hflags := recomputeFlags_eq s.rules false
  rw [Bool.false_or] at hflags
  exact ⟨congrArg Prod.fst hflags, congrArg Prod.snd hflags⟩

private theorem any_perm {α : Type} {l m : List α} (h : l.Perm m) (p : α → Bool) : l.any p = m.any p := by
  rw [Bool.eq_iff_iff, List.any_eq_true, List.any_eq_true]
  exact exists_congr (fun a => and_congr_left' h.mem_iff)

/-- The chain is intact and the flags are those of the list. -/
private structure Settled (s : RuleTable) : Prop where
  linked : s.Linked
  flags : s.FlagsCurrent

private theorem Settled.call {s s' : RuleTable} (h : s.Settled) {c : RuleCall} (hfresh : c.Fresh s)
    (hcall : s.call c = some s') : s'.Settled := by
  rcases call_cases h.linked hfresh hcall with ⟨n, rfl, _⟩ | ⟨hl, hperm, hactive, hdomain, _⟩ | ⟨t, rfl, hl, _⟩ |
    ⟨t, rule, rfl, hl, _⟩
  · exact ⟨h.linked, h.flags.active, h.flags.domain⟩
  · refine ⟨hl, ?_, ?_⟩
    · rw [hactive, h.flags.active, any_perm hperm]
    · rw [hdomain, h.flags.domain, any_perm hperm]
  · exact ⟨hl, t.updateHasActiveRules_current⟩
  · exact ⟨hl, t.updateHasActiveRules_current⟩

end RuleTable

private structure RuleHistory.Settled (h : RuleHistory) : Prop where
  table : h.table.Settled

private theorem RuleHistory.Reached.settled {h : RuleHistory} (hr : Reached h) : h.Settled := by
  have hinit : RuleHistory.initial.Settled := ⟨RuleTable.initial_linked, rfl, rfl⟩
  refine hr.invariant hinit (fun h c h' hh hfresh hstep => ?_)
  obtain ⟨s', hcall, rfl⟩ := Option.map_eq_some_iff.mp hstep
  exact ⟨hh.table.call hfresh hcall⟩

/-- After any completed calls the flags say whether a rule is enabled and whether an enabled rule has
a domain filter, so reading the DNS cache only for domain rules changes no verdict, and without an
active rule every flow is DIRECT. -/
theorem rule_flags_follow_list (h : RuleHistory) (hr : RuleHistory.Reached h) :
    (h.table.hasActiveRules = true ↔ ∃ rule ∈ h.table.rules, rule.enabled = true) ∧
    (h.table.hasDomainRules = true ↔
      ∃ rule ∈ h.table.rules, rule.enabled = true ∧ rule.hasDomainFilter = true) ∧
    ∀ env proxyUdpDnsEnabled processName destPort isUdp,
      let policy := h.table.policy proxyUdpDnsEnabled
      let consulting : Policy := { policy with hasDomainRules := true }
      (∀ ip, matchRule env policy processName destPort isUdp ip =
        matchRule env consulting processName destPort isUdp ip) ∧
      (∀ ip6, matchRuleV6 env policy processName destPort isUdp ip6 =
        matchRuleV6 env consulting processName destPort isUdp ip6) ∧
      (h.table.hasActiveRules = false →
        (∀ ip, matchRule env policy processName destPort isUdp ip = (.direct, 0)) ∧
        ∀ ip6, matchRuleV6 env policy processName destPort isUdp ip6 = (.direct, 0)) := by
  have hflags := hr.settled.table.flags
  refine ⟨?_, ?_, fun env dns processName destPort isUdp => ⟨fun ip => ?_, fun ip6 => ?_, fun hnone => ?_⟩⟩
  · rw [hflags.active, List.any_eq_true]
  · rw [hflags.domain, List.any_eq_true]
    simp only [Bool.and_eq_true]
  · rw [matchRule_current env _ processName destPort isUdp hflags.domain, matchRule, RuleQuery.loop_none]
    rfl
  · rw [matchRuleV6_current env _ processName destPort isUdp hflags.domain, matchRuleV6, RuleQuery.loop_none]
    rfl
  · have hdisabled : ∀ rule ∈ h.table.rules, rule.enabled = false := by
      rw [hflags.active] at hnone
      intro rule hrule
      simpa using List.any_eq_false.mp hnone rule hrule
    exact ⟨fun ip => RuleQuery.loop_disabled _ hdisabled, fun ip6 => RuleQuery.loop_disabled _ hdisabled⟩

/-- With one enabled catch-all the flag for active rules is set. -/
theorem rule_flags_follow_list_catch_all : ∃ h, RuleHistory.Reached h ∧ h.table.hasActiveRules = true ∧
    ∃ rule ∈ h.table.rules, rule.enabled = true := by
  obtain ⟨h, hcall, hr⟩ := catchAllCall_reached
  have hactive : h.table.hasActiveRules = true := by
    obtain rfl := Option.some.inj hcall
    decide
  exact ⟨h, hr, hactive, (rule_flags_follow_list h hr).1.mp hactive⟩

/-- The policy with this list, once the flags have been brought up to date. -/
def Policy.current (rules : List ProcessRule) (proxyUdpDnsEnabled : Bool) : Policy :=
  ⟨rules, (recomputeFlags rules false).2, proxyUdpDnsEnabled⟩

/-- Parameters that `ProxyBridge_AddRule` stores as a catch-all, with hosts or ports that
`ProxyBridge_EditRule` stores as an empty list. -/
structure RuleParams.EmptyCatchAll (params : RuleParams) : Prop where
  process : params.processName = some wildcard ∨ params.processName = some (lit ['A', 'N', 'Y'])
  hosts : params.targetHosts = some [] ∨ params.targetHosts = some wildcard
  ports : params.targetPorts = some [] ∨ params.targetPorts = some wildcard
  domains : params.targetDomains = none ∨ params.targetDomains = some [] ∨ params.targetDomains = some wildcard
  empty : params.targetHosts = some [] ∨ params.targetPorts = some []

section Editing
variable {params : RuleParams} {processName targetHosts targetPorts : List UInt8}

/-- A list splits at its first rule with an identifier in one way. -/
private theorem first_split {pre pre' post post' : List ProcessRule} {rule rule' : ProcessRule}
    (h : pre ++ rule :: post = pre' ++ rule' :: post') (hid : rule.ruleId = rule'.ruleId)
    (hpre : ∀ r ∈ pre, r.ruleId ≠ rule.ruleId) (hpre' : ∀ r ∈ pre', r.ruleId ≠ rule.ruleId) :
    pre = pre' ∧ rule = rule' ∧ post = post' := by
  have htake : ∀ (l : List ProcessRule) (r : ProcessRule) (m : List ProcessRule), r.ruleId = rule.ruleId →
      (∀ x ∈ l, x.ruleId ≠ rule.ruleId) → (l ++ r :: m).takeWhile (·.ruleId != rule.ruleId) = l := by
    intro l r m hr hl
    rw [List.takeWhile_append_of_pos (fun x hx => by simpa using hl x hx)]
    simp [hr]
  have heq : pre = pre' := by
    rw [← htake pre rule post rfl hpre, h, htake pre' rule' post' hid.symm hpre']
  subst heq
  obtain ⟨rfl, rfl⟩ := List.cons.inj (List.append_cancel_left h)
  exact ⟨rfl, rfl, rfl⟩

/-- Editing replaces the first rule with the identifier and brings the flags up to date. -/
private theorem editRule_policy {s : RuleTable} (hs : s.Linked) (hname : params.processName = some processName)
    (hhosts : params.targetHosts = some targetHosts) (hports : params.targetPorts = some targetPorts)
    {pre post : List ProcessRule} {rule : ProcessRule} (hrules : s.rules = pre ++ rule :: post)
    (hz : rule.ruleId ≠ 0) (hpre : ∀ r ∈ pre, r.ruleId ≠ rule.ruleId) (dns : Bool) :
    (s.editRule rule.ruleId params true true true).2 = true ∧
    (s.editRule rule.ruleId params true true true).1.policy dns =
      .current (pre ++ params.edited processName targetHosts targetPorts rule :: post) dns := by
  have hedit : s.editRule rule.ruleId params true true true =
      s.updateRule rule.ruleId (params.edited processName targetHosts targetPorts) := by
    simp [RuleTable.editRule, hname, hhosts, hports, hz]
  rw [hedit]
  rcases RuleTable.updateRule_cases hs rule.ruleId (params.edited processName targetHosts targetPorts) with
    ⟨_, hall⟩ | ⟨pre', rule', post', s', hrules', hid, hpre', heq, _, hnew, _⟩
  · exact absurd rfl (hall rule (by rw [hrules]; simp))
  · obtain ⟨rfl, rfl, rfl⟩ := first_split (hrules.symm.trans hrules') hid.symm hpre hpre'
    rw [heq]
    refine ⟨rfl, ?_⟩
    rw [← hnew]
    rfl

private theorem take_eq_short {l w : List UInt8} {n : Nat} (hw : w.length < n) : l.take n = w ↔ l = w := by
  constructor
  · intro h
    have hlen := congrArg List.length h
    rw [List.length_take] at hlen
    rw [← h, List.take_of_length_le (by omega)]
  · rintro rfl
    exact List.take_of_length_le (by omega)

/-- A list is stored up to the length that the matchers look at. -/
private theorem storedList_cons (c : UInt8) (l : List UInt8) :
    storedList (some (c :: l)) = (c :: l).take maxListSize := by
  simp only [storedList, strncpyTruncate, Nat.add_sub_cancel]
  rcases Nat.le_total (c :: l).length maxListSize with h | h
  · rw [Nat.min_eq_left h, List.take_length, List.take_of_length_le h]
  · rw [Nat.min_eq_right h]

private theorem listCopy_take (malloc : Nat → Bool) (l : List UInt8) :
    listCopy malloc (l.take maxListSize) = listCopy malloc l := by
  have hlen : min (l.take maxListSize).length maxListSize = min l.length maxListSize := by
    rw [List.length_take]
    omega
  have hshort : strncpyTruncate 256 (l.take maxListSize) = strncpyTruncate 256 l := by
    simp only [strncpyTruncate, List.take_take]
    congr 1
  have hlong : strncpyTruncate (min l.length maxListSize + 1) (l.take maxListSize) =
      strncpyTruncate (min l.length maxListSize + 1) l := by
    simp only [strncpyTruncate, List.take_take, Nat.add_sub_cancel]
    congr 1
    omega
  simp only [listCopy, hlen, hshort, hlong]

private theorem storedList_isEmpty (l : List UInt8) : (storedList (some l)).isEmpty = false := by
  cases l with
  | nil => rfl
  | cons c l =>
    rw [storedList_cons]
    rfl

private theorem storedList_eq_wildcard (l : List UInt8) :
    (storedList (some l) == wildcard) = (l.isEmpty || l == wildcard) := by
  cases l with
  | nil => rfl
  | cons c l =>
    rw [storedList_cons, Bool.eq_iff_iff, beq_iff_eq, take_eq_short (by decide)]
    simp

/-- A token list matches as it is stored. -/
private theorem parseTokenList_stored (malloc : Nat → Bool) (l delimiters : List UInt8) (f : List UInt8 → Bool) :
    parseTokenList malloc (storedList (some l)) delimiters f = parseTokenList malloc l delimiters f := by
  have hw := storedList_eq_wildcard l
  cases l with
  | nil => rfl
  | cons c l =>
    simp only [parseTokenList, storedList_isEmpty, hw, List.isEmpty_cons, Bool.false_or]
    rw [storedList_cons, listCopy_take]

private theorem matchDomainFilter_stored (malloc : Nat → Bool) (domains : Option (List UInt8))
    (domain : Option (List UInt8)) (rule rule' : ProcessRule) (h : rule.targetDomains = storedList domains)
    (h' : rule'.targetDomains = domainsIn domains) :
    rule.hasDomainFilter = rule'.hasDomainFilter ∧
    rule.matchDomainFilter malloc domain = rule'.matchDomainFilter malloc domain := by
  rcases domains with _ | _ | ⟨c, l⟩
  · have he : rule.targetDomains = rule'.targetDomains := h.trans h'.symm
    simp [ProcessRule.hasDomainFilter, ProcessRule.matchDomainFilter, he]
  · have he : rule.targetDomains = rule'.targetDomains := h.trans h'.symm
    simp [ProcessRule.hasDomainFilter, ProcessRule.matchDomainFilter, he]
  · have h'' : rule'.targetDomains = c :: l := h'
    have hw : ((c :: l).take maxListSize == wildcard) = (c :: l == wildcard) := by
      rw [Bool.eq_iff_iff, beq_iff_eq, beq_iff_eq, take_eq_short (by decide)]
    have hfilter : rule.hasDomainFilter = rule'.hasDomainFilter := by
      simp only [ProcessRule.hasDomainFilter, h, h'', storedList_isEmpty, List.isEmpty_cons, bne]
      rw [storedList_cons, hw]
    refine ⟨hfilter, ?_⟩
    have hlist : ∀ d, matchDomainList malloc ((c :: l).take maxListSize) (some d) =
        matchDomainList malloc (c :: l) (some d) := by
      intro d
      have hempty : ((c :: l).take maxListSize).isEmpty = false := rfl
      simp only [matchDomainList, hw, hempty, List.isEmpty_cons, listCopy_take]
    rw [storedList_cons] at h
    rcases domain with _ | _ | ⟨d, ds⟩
    · simp only [ProcessRule.matchDomainFilter, hfilter]
    · simp only [ProcessRule.matchDomainFilter, hfilter]
    · simp only [ProcessRule.matchDomainFilter, hfilter, h, h'', hlist]

/-- Replacing a rule by one that counts the same in every respect. -/
private theorem declaredVerdict_replace (q : RuleQuery) (pre post : List ProcessRule) {x y : ProcessRule}
    (hs : q.specific x = q.specific y)
    (hc : (q.eligible x && RuleQuery.catchAll x) = (q.eligible y && RuleQuery.catchAll y))
    (hv : x.verdict = y.verdict) : q.declaredVerdict (pre ++ x :: post) = q.declaredVerdict (pre ++ y :: post) := by
  simp only [RuleQuery.declaredVerdict, List.find?_append, List.find?_cons, hs, hc]
  cases pre.find? q.specific with
  | some rule => rfl
  | none =>
    cases q.specific y with
    | true => simpa using hv
    | false =>
      cases pre.find? (fun rule => q.eligible rule && RuleQuery.catchAll rule) with
      | some rule => rfl
      | none =>
        cases (q.eligible y && RuleQuery.catchAll y) with
        | true =>
          cases post.find? q.specific with
          | some rule => rfl
          | none => simpa using hv
        | false => rfl

variable (hname : params.processName = some processName) (hhosts : params.targetHosts = some targetHosts)
  (hports : params.targetPorts = some targetPorts)

include hhosts hports in
/-- Both calls store rules that count the same, except for catch-alls. -/
private theorem specific_stored {q : RuleQuery} (hq : ∀ l, q.matchHosts (storedList (some l)) = q.matchHosts l)
    {rule : ProcessRule} (he : rule.enabled = true) (ruleId : UInt32)
    (hc : RuleQuery.catchAll (params.edited processName targetHosts targetPorts rule) =
      RuleQuery.catchAll (params.built processName ruleId)) :
    q.eligible (params.edited processName targetHosts targetPorts rule) =
      q.eligible (params.built processName ruleId) ∧
    q.specific (params.edited processName targetHosts targetPorts rule) =
      q.specific (params.built processName ruleId) := by
  have heligible : q.eligible (params.edited processName targetHosts targetPorts rule) =
      q.eligible (params.built processName ruleId) := by
    simp only [RuleQuery.eligible, RuleParams.edited, RuleParams.built, he]
    rfl
  have hdomain := (matchDomainFilter_stored q.malloc params.targetDomains q.dstDomain
    (params.built processName ruleId) (params.edited processName targetHosts targetPorts rule) rfl rfl).2
  have hfilters : q.filtersMatch (params.edited processName targetHosts targetPorts rule) =
      q.filtersMatch (params.built processName ruleId) := by
    simp only [RuleQuery.filtersMatch, hdomain]
    simp only [RuleParams.edited, RuleParams.built, hhosts, hports, hq, matchPortList, parseTokenList_stored]
  refine ⟨heligible, ?_⟩
  simp only [RuleQuery.specific, heligible, hc, hfilters]
  rfl

include hname hhosts hports in
private theorem emptyCatchAll_of_stored (rule : ProcessRule)
    (hp : (params.edited processName targetHosts targetPorts rule).isWildcardProcess = true)
    (hh : targetHosts = [] ∨ targetHosts = wildcard) (ht : targetPorts = [] ∨ targetPorts = wildcard)
    (hd : (params.edited processName targetHosts targetPorts rule).hasDomainFilter = false)
    (hempty : targetHosts = [] ∨ targetPorts = []) : params.EmptyCatchAll where
  process := by
    simp only [ProcessRule.isWildcardProcess, RuleParams.edited, strncpyTruncate, Bool.or_eq_true, beq_iff_eq] at hp
    rw [take_eq_short (by decide), take_eq_short (by decide)] at hp
    rw [hname, Option.some.injEq, Option.some.injEq]
    exact hp
  hosts := by
    rw [hhosts, Option.some.injEq, Option.some.injEq]
    exact hh
  ports := by
    rw [hports, Option.some.injEq, Option.some.injEq]
    exact ht
  domains := by
    rcases hdomains : params.targetDomains with _ | _ | ⟨c, l⟩
    · exact .inl rfl
    · exact .inr (.inl rfl)
    · refine .inr (.inr ?_)
      simpa [ProcessRule.hasDomainFilter, RuleParams.edited, domainsIn, hdomains] using hd
  empty := by
    rw [hhosts, hports, Option.some.injEq, Option.some.injEq]
    exact hempty

include hname hhosts hports in
/-- What is stored is a catch-all after one call and not after the other only for the parameters above. -/
private theorem catchAll_stored (rule : ProcessRule) (ruleId : UInt32) (hn : ¬ params.EmptyCatchAll) :
    RuleQuery.catchAll (params.edited processName targetHosts targetPorts rule) =
      RuleQuery.catchAll (params.built processName ruleId) := by
  have hdomain := (matchDomainFilter_stored (fun _ => true) params.targetDomains none
    (params.built processName ruleId) (params.edited processName targetHosts targetPorts rule) rfl rfl).1
  rw [Bool.eq_iff_iff]
  simp only [RuleQuery.catchAll, hdomain]
  simp only [RuleParams.edited, RuleParams.built, hhosts, hports, storedList_eq_wildcard, Bool.and_eq_true,
    Bool.or_eq_true, beq_iff_eq, List.isEmpty_iff]
  constructor
  · rintro ⟨⟨⟨hp, hh⟩, ht⟩, hd⟩
    exact ⟨⟨⟨hp, .inr hh⟩, .inr ht⟩, hd⟩
  · rintro ⟨⟨⟨hp, hh⟩, ht⟩, hd⟩
    have hn' : ¬ (targetHosts = [] ∨ targetPorts = []) := fun hempty =>
      hn (emptyCatchAll_of_stored hname hhosts hports rule hp hh ht ((Bool.not_eq_true' _).mp hd) hempty)
    obtain ⟨hnh, hnt⟩ := not_or.mp hn'
    exact ⟨⟨⟨hp, hh.resolve_left hnh⟩, ht.resolve_left hnt⟩, hd⟩

end Editing

/-- Every packet gets the verdict after the edit that it gets from the list with the rule that
`ProxyBridge_AddRule` would build in the same place, under whatever identifier. -/
def EditsLikeAdd (s : RuleTable) (params : RuleParams) (processName : List UInt8) (pre : List ProcessRule)
    (rule : ProcessRule) (post : List ProcessRule) : Prop :=
  (s.editRule rule.ruleId params true true true).2 = true ∧
  ∀ env proxyUdpDnsEnabled process destPort isUdp ruleId,
    let edited := (s.editRule rule.ruleId params true true true).1.policy proxyUdpDnsEnabled
    let added := Policy.current (pre ++ params.built processName ruleId :: post) proxyUdpDnsEnabled
    (∀ ip, matchRule env edited process destPort isUdp ip = matchRule env added process destPort isUdp ip) ∧
    ∀ ip6, matchRuleV6 env edited process destPort isUdp ip6 = matchRuleV6 env added process destPort isUdp ip6

private theorem current_domain (rules : List ProcessRule) (dns : Bool) :
    (Policy.current rules dns).hasDomainRules =
      (Policy.current rules dns).rules.any (fun rule => rule.enabled && rule.hasDomainFilter) := by
  simp only [Policy.current, recomputeFlags_eq]

private theorem editsLikeAdd_of_not {params : RuleParams} {processName targetHosts targetPorts : List UInt8}
    (hname : params.processName = some processName) (hhosts : params.targetHosts = some targetHosts)
    (hports : params.targetPorts = some targetPorts) (hn : ¬ params.EmptyCatchAll) {s : RuleTable} (hs : s.Linked)
    {pre post : List ProcessRule} {rule : ProcessRule} (hrules : s.rules = pre ++ rule :: post)
    (he : rule.enabled = true) (hz : rule.ruleId ≠ 0) (hpre : ∀ r ∈ pre, r.ruleId ≠ rule.ruleId) :
    EditsLikeAdd s params processName pre rule post := by
  refine ⟨(editRule_policy hs hname hhosts hports hrules hz hpre false).1, ?_⟩
  intro env dns process destPort isUdp ruleId edited added
  have hedited : edited = .current (pre ++ params.edited processName targetHosts targetPorts rule :: post) dns :=
    (editRule_policy hs hname hhosts hports hrules hz hpre dns).2
  have hcatch := catchAll_stored hname hhosts hports rule ruleId hn
  have hverdict : ∀ q : RuleQuery, (∀ l, q.matchHosts (storedList (some l)) = q.matchHosts l) →
      q.declaredVerdict (pre ++ params.edited processName targetHosts targetPorts rule :: post) =
        q.declaredVerdict (pre ++ params.built processName ruleId :: post) := by
    intro q hq
    obtain ⟨heligible, hspecific⟩ := specific_stored hhosts hports hq he ruleId hcatch
    exact declaredVerdict_replace q pre post hspecific (by rw [heligible, hcatch]) rfl
  rw [hedited]
  constructor
  · intro ip
    rw [matchRule_current _ _ _ _ _ (current_domain _ _), matchRule_current _ _ _ _ _ (current_domain _ _)]
    exact hverdict _ (fun l => parseTokenList_stored env.malloc l (lit [';']) (matchIpPattern · ip))
  · intro ip6
    rw [matchRuleV6_current _ _ _ _ _ (current_domain _ _), matchRuleV6_current _ _ _ _ _ (current_domain _ _)]
    exact hverdict _ (fun l => parseTokenList_stored env.malloc l (lit [';']) (matchIpPatternV6 env.inetPton · ip6))

/-- A rule for every process on port 80. -/
private def portRule (action : RuleAction) : ProcessRule :=
  ⟨2, wildcard, wildcard, lit ['8', '0'], wildcard, .both, action, 0, true⟩

private def plainEnv : RuleEnv := ⟨fun _ => true, fun _ => none, 0, fun _ => [], fun _ => []⟩

private theorem portRule_specific (dns isUdp : Bool) (action : RuleAction) (rules : List ProcessRule) :
    (queryV4 plainEnv (.current rules dns) wildcard 80 isUdp 0 none).specific (portRule action) = true := by
  cases dns <;> cases isUdp <;> cases action <;> rfl

private theorem unrestricted_matches {l : List UInt8} (h : l = [] ∨ l = wildcard) (malloc : Nat → Bool)
    (delimiters : List UInt8) (f : List UInt8 → Bool) : parseTokenList malloc l delimiters f = true := by
  rcases h with rfl | rfl
  · rfl
  · simp [parseTokenList]

private theorem declaredVerdict_first {q : RuleQuery} {x : ProcessRule} (hx : q.specific x = true)
    (l : List ProcessRule) : q.declaredVerdict (x :: l) = x.verdict := by
  simp [RuleQuery.declaredVerdict, hx]

private theorem declaredVerdict_second {q : RuleQuery} {x y : ProcessRule} (hx : q.specific x = false)
    (hy : q.specific y = true) (l : List ProcessRule) : q.declaredVerdict (x :: y :: l) = y.verdict := by
  simp [RuleQuery.declaredVerdict, hx, hy]

section EmptyLists
variable {params : RuleParams} {processName targetHosts targetPorts : List UInt8}
  (hname : params.processName = some processName) (hhosts : params.targetHosts = some targetHosts)
  (hports : params.targetPorts = some targetPorts) (h : params.EmptyCatchAll)
include hname hhosts hports h

/-- The edited rule is a specific match for any flow of its protocol, the added one a catch-all. -/
private theorem emptyCatchAll_stored (rule : ProcessRule) (he : rule.enabled = true) (ruleId : UInt32) (dns : Bool)
    (rules : List ProcessRule) :
    (queryV4 plainEnv (.current rules dns) wildcard 80 (params.protocol == .udp) 0 none).specific
      (params.edited processName targetHosts targetPorts rule) = true ∧
    RuleQuery.catchAll (params.built processName ruleId) = true := by
  have hprocess : (strncpyTruncate maxProcessName processName == wildcard ||
      strncpyTruncate maxProcessName processName == lit ['A', 'N', 'Y']) = true := by
    rcases h.process with hp | hp
    · obtain rfl : processName = wildcard := Option.some.inj (hname.symm.trans hp)
      rfl
    · obtain rfl : processName = lit ['A', 'N', 'Y'] := Option.some.inj (hname.symm.trans hp)
      rfl
  have hdomains : domainsIn params.targetDomains = wildcard ∧ storedList params.targetDomains = wildcard := by
    rcases h.domains with hd | hd | hd
    · simp [hd, domainsIn, storedList]
    · simp [hd, domainsIn, storedList]
    · rw [hd]
      exact ⟨rfl, rfl⟩
  have hh : targetHosts = [] ∨ targetHosts = wildcard := by simpa [hhosts] using h.hosts
  have ht : targetPorts = [] ∨ targetPorts = wildcard := by simpa [hports] using h.ports
  have hempty : targetHosts = [] ∨ targetPorts = [] := by simpa [hhosts, hports] using h.empty
  constructor
  · have hcatch : RuleQuery.catchAll (params.edited processName targetHosts targetPorts rule) = false := by
      rcases hempty with rfl | rfl
      · simp [RuleQuery.catchAll, RuleParams.edited, wildcard, lit]
      · simp [RuleQuery.catchAll, RuleParams.edited, wildcard, lit]
    have heligible : RuleQuery.eligible
        (queryV4 plainEnv (.current rules dns) wildcard 80 (params.protocol == .udp) 0 none)
        (params.edited processName targetHosts targetPorts rule) = true := by
      simp only [RuleQuery.eligible, RuleQuery.isProxyUdpDns, RuleQuery.protocolCompatible, queryV4,
        RuleParams.edited, he]
      cases params.protocol <;> rfl
    have hfilters : RuleQuery.filtersMatch
        (queryV4 plainEnv (.current rules dns) wildcard 80 (params.protocol == .udp) 0 none)
        (params.edited processName targetHosts targetPorts rule) = true := by
      simp only [RuleQuery.filtersMatch, queryV4, RuleParams.edited, matchIpList, matchPortList,
        unrestricted_matches hh, unrestricted_matches ht, ProcessRule.matchDomainFilter,
        ProcessRule.hasDomainFilter, hdomains.1]
      rfl
    have hwildcard : (params.edited processName targetHosts targetPorts rule).isWildcardProcess = true := hprocess
    simp only [RuleQuery.specific, heligible, hcatch, hfilters, RuleQuery.processMatches, hwildcard]
    rfl
  · simp only [RuleQuery.catchAll, ProcessRule.isWildcardProcess, ProcessRule.hasDomainFilter, RuleParams.built,
      hprocess, hhosts, hports, storedList_eq_wildcard, hdomains.2]
    rcases hh with rfl | rfl
    · rcases ht with rfl | rfl <;> rfl
    · rcases ht with rfl | rfl <;> rfl

/-- A rule for port 80 behind the rule tells the two apart. -/
private theorem not_editsLikeAdd : ∃ (s : RuleTable) (pre : List ProcessRule) (rule : ProcessRule)
    (post : List ProcessRule), s.Linked ∧ s.rules = pre ++ rule :: post ∧ rule.enabled = true ∧ rule.ruleId ≠ 0 ∧
    (∀ r ∈ pre, r.ruleId ≠ rule.ruleId) ∧ ¬ EditsLikeAdd s params processName pre rule post := by
  let rule : ProcessRule := ⟨1, wildcard, wildcard, wildcard, wildcard, .both, .direct, 0, true⟩
  obtain ⟨other, hother⟩ : ∃ other : RuleAction, other ≠ params.action := by
    cases params.action with
    | block => exact ⟨.direct, by decide⟩
    | direct => exact ⟨.block, by decide⟩
    | proxy => exact ⟨.block, by decide⟩
  obtain ⟨nodes, hinitial⟩ := RuleTable.initial_linked
  obtain ⟨hfirst, hrules⟩ := hinitial.append (a := 0) (Finset.notMem_empty 0) rule
  obtain ⟨hsecond, hrules'⟩ := hfirst.append (a := 1) (by simp [RuleTable.append, RuleTable.initial]) (portRule other)
  set s := (RuleTable.initial.append 0 rule).append 1 (portRule other)
  have hs : s.rules = [] ++ rule :: [portRule other] := by
    rw [hrules', hrules]
    rfl
  refine ⟨s, [], rule, [portRule other], ⟨_, hsecond⟩, hs, rfl, by decide, by simp, ?_⟩
  intro hagrees
  have hpolicy := (editRule_policy ⟨_, hsecond⟩ hname hhosts hports hs (by decide) (by simp) false).2
  have hv4 := (hagrees.2 plainEnv false wildcard 80 (params.protocol == .udp) 1).1 0
  have hnone : dnsCacheLookup plainEnv.dnsCache plainEnv.now 0 = none := rfl
  rw [hpolicy, matchRule_current _ _ _ _ _ (current_domain _ _), matchRule_current _ _ _ _ _ (current_domain _ _),
    hnone] at hv4
  have hcatch := (emptyCatchAll_stored hname hhosts hports h rule rfl 1 false []).2
  have hadded : ∀ q : RuleQuery, q.specific (params.built processName 1) = false := by
    intro q
    simp [RuleQuery.specific, hcatch]
  have hleft := declaredVerdict_first (emptyCatchAll_stored hname hhosts hports h rule rfl 1 false
    [params.edited processName targetHosts targetPorts rule, portRule other]).1 [portRule other]
  have hright := declaredVerdict_second (hadded _) (portRule_specific false (params.protocol == .udp) other
    [params.built processName 1, portRule other]) []
  exact hother (congrArg Prod.fst (hleft.symm.trans (hv4.trans hright))).symm

end EmptyLists

/-- For parameters that both calls accept, editing an enabled rule of any list gives every packet the
verdict that the rule of `ProxyBridge_AddRule` would give, unless these are the parameters of a
catch-all with an empty list of hosts or ports. -/
theorem edit_agrees_with_add_iff (params : RuleParams) (processName targetHosts targetPorts : List UInt8)
    (hname : params.processName = some processName) (hhosts : params.targetHosts = some targetHosts)
    (hports : params.targetPorts = some targetPorts) :
    (∀ s : RuleTable, s.Linked → ∀ pre rule post, s.rules = pre ++ rule :: post → rule.enabled = true →
      rule.ruleId ≠ 0 → (∀ r ∈ pre, r.ruleId ≠ rule.ruleId) → EditsLikeAdd s params processName pre rule post) ↔
    ¬ params.EmptyCatchAll := by
  constructor
  · intro hall hbad
    obtain ⟨s, pre, rule, post, hs, hrules, he, hz, hpre, hn⟩ := not_editsLikeAdd hname hhosts hports hbad
    exact hn (hall s hs pre rule post hrules he hz hpre)
  · intro hn s hs pre rule post hrules he hz hpre
    exact editsLikeAdd_of_not hname hhosts hports hn hs hrules he hz hpre

/-- A rule for one process may be edited to have empty lists. -/
theorem edit_agrees_with_add_iff_process : ∃ (s : RuleTable) (rule : ProcessRule), s.rules = [rule] ∧
    EditsLikeAdd s ⟨some (lit ['a']), some [], some [], none, .tcp, .block, 0⟩ (lit ['a']) [] rule [] := by
  let rule : ProcessRule := ⟨1, wildcard, wildcard, wildcard, wildcard, .both, .direct, 0, true⟩
  let params : RuleParams := ⟨some (lit ['a']), some [], some [], none, .tcp, .block, 0⟩
  have hn : ¬ params.EmptyCatchAll := by
    intro h
    exact absurd h.process (by decide)
  obtain ⟨nodes, hinitial⟩ := RuleTable.initial_linked
  obtain ⟨hs, hrules⟩ := hinitial.append (a := 0) (Finset.notMem_empty 0) rule
  exact ⟨RuleTable.initial.append 0 rule, rule, hrules,
    (edit_agrees_with_add_iff params (lit ['a']) [] [] rfl rfl rfl).mpr hn _ ⟨_, hs⟩ [] rule [] hrules rfl (by decide)
      (by simp)⟩

/-- A catch-all that is stored again with an empty list of hosts overtakes the rule behind it. -/
theorem edit_with_empty_hosts_overtakes :
    let params : RuleParams := ⟨some wildcard, some [], some wildcard, some [], .both, .proxy, 1⟩
    let portEighty : RuleParams := ⟨some wildcard, none, some (lit ['8', '0']), none, .both, .block, 0⟩
    ∃ h, RuleHistory.Reached h ∧
      h.table.rules = [params.built wildcard 1, portEighty.built wildcard 2] ∧
      ∀ env,
        matchRule env ((h.table.editRule 1 params true true true).1.policy false) wildcard 80 false 0 = (.proxy, 1) ∧
        matchRule env (.current [params.built wildcard 1, portEighty.built wildcard 2] false) wildcard 80 false 0 =
          (.block, 0) := by
  intro params portEighty
  obtain ⟨first, hfirst, hreached⟩ := catchAllCall_reached
  have hfresh : (RuleCall.addRule portEighty ⟨some 1, true, true, true⟩).Fresh first.table := by
    obtain rfl := Option.some.inj hfirst
    intro a ha
    obtain rfl := Option.some.inj ha
    decide
  obtain ⟨second, hsecond⟩ : ∃ h, first.call (.addRule portEighty ⟨some 1, true, true, true⟩) = some h := ⟨_, rfl⟩
  refine ⟨second, hreached.next hfresh hsecond, ?_, fun env => ⟨?_, ?_⟩⟩
  · obtain rfl := Option.some.inj hfirst
    obtain rfl := Option.some.inj hsecond
    decide
  · obtain rfl := Option.some.inj hfirst
    obtain rfl := Option.some.inj hsecond
    rfl
  · rfl

end ProxyBridge.Windows
