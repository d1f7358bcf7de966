import Mathlib.Data.List.Sort
import ProxyBridge.Library.FirstMatch
import ProxyBridge.MacOS.GlobMatch
import ProxyBridge.MacOS.SharedPolicy

/-! What the KokoroBox configuration decides about a flow, and that it rests on the checks that the
configuration passed: no two rules have one priority. -/
namespace ProxyBridge.MacOS
open FirstMatch

/-- The strings of the system: their lower case and their characters, one of which is the star. -/
structure SwiftText (χ : Type) where
  lowercased : String → String
  characters : String → List χ
  star : χ

structure StoredProxyConfig where
  type : String
  host : String
  port : Int
  username : Option String
  password : Option String
  deriving DecidableEq, Repr

inductive KokoroBoxDecision where
  | direct
  | block
  | proxy (config : StoredProxyConfig)
  deriving DecidableEq, Repr

def directSigningIdentifierPatterns : List String :=
  ["com.amamiyakokoro.app", "com.amamiyakokoro.app.*", "kokorobox-app-routing-bridge", "mihomo", "mihomo-alpha"]

section Decision
variable {χ : Type} [DecidableEq χ] (T : SwiftText χ) (S : Sorting KokoroBoxRule.priority)

/-- `globMatch`, on the characters of the lowered strings. -/
def SwiftText.globMatch (pattern value : String) : Bool :=
  AppProxyProvider.globMatch T.star (T.characters (T.lowercased pattern)) (T.characters (T.lowercased value)) id ==
    some true

/-- The test of one rule against a flow. -/
def KokoroBoxRule.matchesFlow (rule : KokoroBoxRule) (signingIdentifier : String) (processName : Option String)
    (connectionProtocol : RuleProtocol) : Bool :=
  if rule.ruleProtocol == .both || rule.ruleProtocol == connectionProtocol then
    match rule.identifierKind.getD .signingIdentifier with
    | .signingIdentifier => T.globMatch rule.signingIdentifier signingIdentifier
    | .processName =>
      match processName with
      | none => false
      | some processName => T.globMatch rule.signingIdentifier processName
  else false

/-- Strings stand for their canonical forms, as in the checks of the configuration. -/
def kokoroBoxDecision (configuration : Option KokoroBoxConfiguration) (signingIdentifier : String)
    (processName : Option String) (connectionProtocol : RuleProtocol) : Option KokoroBoxDecision :=
  match configuration with
  | none => none
  | some configuration =>
    if directSigningIdentifierPatterns.any (T.globMatch · signingIdentifier) then some .direct
    else
      let rule := (S.sorted (configuration.rules.filter (·.enabled))).find?
        (·.matchesFlow T signingIdentifier processName connectionProtocol)
      match rule with
      | none => some .direct
      | some rule =>
        if rule.action == "DIRECT" then some .direct
        else if rule.action == "BLOCK" then some .block
        else if !configuration.proxyAvailable then some .block
        else some (.proxy ⟨"socks5", configuration.proxyHost, configuration.proxyPort, none, none⟩)

end Decision

/-- What a rule that is chosen means: PROXY goes to the local proxy while that is available. -/
inductive KokoroBoxRule.Asks (proxyAvailable : Bool) (rule : KokoroBoxRule) : KokoroBoxDecision → Prop where
  | direct : rule.action = "DIRECT" → Asks proxyAvailable rule .direct
  | block : rule.action = "BLOCK" → Asks proxyAvailable rule .block
  | proxy : rule.action = "PROXY" → proxyAvailable = true →
      Asks proxyAvailable rule (.proxy ⟨"socks5", "127.0.0.1", 7891, none, none⟩)
  | unavailable : rule.action = "PROXY" → proxyAvailable = false → Asks proxyAvailable rule .block

section Flows
variable {χ : Type} [DecidableEq χ] (T : SwiftText χ)

/-- Whether the name that a rule is for matches its pattern. -/
def KokoroBoxRule.Names (rule : KokoroBoxRule) (signingIdentifier : String) (processName : Option String) : Prop :=
  match rule.identifierKind with
  | some .processName => ∃ name, processName = some name ∧ T.globMatch rule.signingIdentifier name = true
  | _ => T.globMatch rule.signingIdentifier signingIdentifier = true

/-- The rules that apply to a flow. -/
structure KokoroBoxRule.Applies (rule : KokoroBoxRule) (signingIdentifier : String) (processName : Option String)
    (connectionProtocol : RuleProtocol) : Prop where
  enabled : rule.enabled = true
  compatible : rule.ruleProtocol = .both ∨ rule.ruleProtocol = connectionProtocol
  names : rule.Names T signingIdentifier processName

/-- The rule of the smallest priority among those that apply to a flow. -/
structure KokoroBoxConfiguration.Chooses (c : KokoroBoxConfiguration) (signingIdentifier : String)
    (processName : Option String) (connectionProtocol : RuleProtocol) (rule : KokoroBoxRule) : Prop where
  mem : rule ∈ c.rules
  applies : rule.Applies T signingIdentifier processName connectionProtocol
  least : ∀ other ∈ c.rules, other.Applies T signingIdentifier processName connectionProtocol →
    other = rule ∨ rule.priority < other.priority

/-- What a configuration that is accepted answers, and why. -/
inductive KokoroBoxConfiguration.Answers (c : KokoroBoxConfiguration) (signingIdentifier : String)
    (processName : Option String) (connectionProtocol : RuleProtocol) : KokoroBoxDecision → Prop where
  | exempt (h : directSigningIdentifierPatterns.any (T.globMatch · signingIdentifier) = true) :
      Answers c signingIdentifier processName connectionProtocol .direct
  | unruled (h : directSigningIdentifierPatterns.any (T.globMatch · signingIdentifier) = false)
      (hnone : ∀ rule ∈ c.rules, ¬rule.Applies T signingIdentifier processName connectionProtocol) :
      Answers c signingIdentifier processName connectionProtocol .direct
  | ruled (h : directSigningIdentifierPatterns.any (T.globMatch · signingIdentifier) = false) {rule : KokoroBoxRule}
      (hchosen : c.Chooses T signingIdentifier processName connectionProtocol rule) {d : KokoroBoxDecision}
      (hasks : rule.Asks c.proxyAvailable d) : Answers c signingIdentifier processName connectionProtocol d

end Flows

section Validation
variable (lowercased : String → String)

/-- The identifier that the validation compares. -/
private def comparedIdentifier (rule : KokoroBoxRule) : String :=
  (rule.identifierKind.getD .signingIdentifier).rawValue ++ ":" ++ lowercased rule.signingIdentifier

/-- What the validation asks of a rule by itself. -/
private def ruleByItself (rule : KokoroBoxRule) : Bool :=
  validRuleIdentifier rule.signingIdentifier (rule.identifierKind.getD .signingIdentifier) &&
    ["PROXY", "DIRECT", "BLOCK"].contains rule.action && decide (0 < rule.priority) && decide (rule.priority ≤ 256)

private theorem validRules_iff (priorities : List Int) (identifiers : List String) (rules : List KokoroBoxRule) :
    validRules lowercased priorities identifiers rules = true ↔
      (∀ rule ∈ rules, ruleByItself rule = true) ∧
      ((rules.map (·.priority)).Nodup ∧ ∀ rule ∈ rules, rule.priority ∉ priorities) ∧
      (rules.map (comparedIdentifier lowercased)).Nodup ∧
        ∀ rule ∈ rules, comparedIdentifier lowercased rule ∉ identifiers := by
  induction rules generalizing priorities identifiers with
  | nil => simp [validRules]
  | cons rule rules ih =>
    have hstep : validRules lowercased priorities identifiers (rule :: rules) =
        (ruleByItself rule && !priorities.contains rule.priority &&
          !identifiers.contains (comparedIdentifier lowercased rule) &&
          validRules lowercased (rule.priority :: priorities) (comparedIdentifier lowercased rule :: identifiers)
            rules) := rfl
    rw [hstep]
    simp only [Bool.and_eq_true, Bool.not_eq_true', List.contains_eq_mem, decide_eq_false_iff_not, ih,
      List.forall_mem_cons, List.map_cons, List.nodup_cons]
    simp only [List.mem_map, List.mem_cons, not_or, not_exists, not_and]
    constructor
    · rintro ⟨⟨⟨hrule, hp⟩, hi⟩, hrules, ⟨hpn, hpf⟩, hin, hif⟩
      exact ⟨⟨hrule, hrules⟩, ⟨⟨fun r hr => (hpf r hr).1, hpn⟩, hp, fun r hr => (hpf r hr).2⟩,
        ⟨fun r hr => (hif r hr).1, hin⟩, hi, fun r hr => (hif r hr).2⟩
    · rintro ⟨⟨hrule, hrules⟩, ⟨⟨hpd, hpn⟩, hp, hpf⟩, ⟨hid, hin⟩, hi, hif⟩
      exact ⟨⟨⟨hrule, hp⟩, hi⟩, hrules, ⟨hpn, fun r hr => ⟨hpd r hr, hpf r hr⟩⟩, hin,
        fun r hr => ⟨hid r hr, hif r hr⟩⟩

/-- The order of the rules makes no difference to their validity. -/
private theorem validRules_perm {rules rules' : List KokoroBoxRule} (h : rules.Perm rules') :
    validRules lowercased [] [] rules = validRules lowercased [] [] rules' := by
  rw [Bool.eq_iff_iff, validRules_iff, validRules_iff, (h.map _).nodup_iff, (h.map _).nodup_iff]
  simp only [h.mem_iff]

/-- What is known of a configuration that is accepted. -/
private theorem accepted {c : KokoroBoxConfiguration}
    (h : validatedKokoroBoxConfiguration lowercased (some c) = some c) :
    c.proxyHost = "127.0.0.1" ∧ c.proxyPort = 7891 ∧ validRules lowercased [] [] c.rules = true := by
  have hall := (Option.filter_eq_some_iff.mp h).2
  simp only [Bool.and_eq_true, beq_iff_eq] at hall
  exact ⟨hall.1.1.1.1.1.2, hall.1.1.1.1.2, hall.2⟩

end Validation

section Choice
variable {χ : Type} [DecidableEq χ] (T : SwiftText χ) (S : Sorting KokoroBoxRule.priority)

/-- The matcher ends, and for a name without stars it decides the glob pattern. -/
theorem SwiftText.globMatch_iff {pattern value : String} (hvalue : T.star ∉ T.characters (T.lowercased value)) :
    T.globMatch pattern value = true ↔
      GlobPatterns.Matches (GlobPatterns.itemsOf T.star (· == ·) (T.characters (T.lowercased pattern)))
        (T.characters (T.lowercased value)) := by
  obtain ⟨b, hb, hiff⟩ :=
    globLoop_start T.star (T.characters (T.lowercased pattern)) (T.characters (T.lowercased value))
  have hrun : AppProxyProvider.globMatch T.star (T.characters (T.lowercased pattern))
      (T.characters (T.lowercased value)) id = some b := hb
  have hglob : b = true ↔ T.globMatch pattern value = true := by
    rw [globMatch, hrun]
    simp
  rw [← hglob, hiff]
  exact ⟨StarForStar.matches, starForStar_of_no_star hvalue⟩

private theorem matchesFlow_iff (rule : KokoroBoxRule) (signingIdentifier : String) (processName : Option String)
    (connectionProtocol : RuleProtocol) :
    rule.Applies T signingIdentifier processName connectionProtocol ↔
      rule.enabled = true ∧ rule.matchesFlow T signingIdentifier processName connectionProtocol = true := by
  have hnames : rule.Names T signingIdentifier processName ↔
      (match rule.identifierKind.getD .signingIdentifier with
        | .signingIdentifier => T.globMatch rule.signingIdentifier signingIdentifier
        | .processName =>
          match processName with
          | none => false
          | some processName => T.globMatch rule.signingIdentifier processName) = true := by
    rw [KokoroBoxRule.Names]
    cases hk : rule.identifierKind with
    | none => rfl
    | some kind =>
      cases kind with
      | signingIdentifier => rfl
      | processName =>
        cases processName with
        | none => simp
        | some name => simp
  unfold KokoroBoxRule.matchesFlow
  constructor
  · rintro ⟨henabled, hcompatible, hn⟩
    refine ⟨henabled, ?_⟩
    rw [if_pos (by simpa using hcompatible)]
    exact hnames.mp hn
  · rintro ⟨henabled, hmatch⟩
    split at hmatch
    · rename_i hcompatible
      exact ⟨henabled, by simpa using hcompatible, hnames.mpr hmatch⟩
    · cases hmatch

variable {T} {c : KokoroBoxConfiguration}

/-- The rule that the sorting puts first is the one that the configuration chooses. -/
private theorem find_eq_some_iff (hn : (c.rules.map (·.priority)).Nodup) (signingIdentifier : String)
    (processName : Option String) (connectionProtocol : RuleProtocol) (rule : KokoroBoxRule) :
    (S.sorted (c.rules.filter (·.enabled))).find?
        (·.matchesFlow T signingIdentifier processName connectionProtocol) = some rule ↔
      c.Chooses T signingIdentifier processName connectionProtocol rule := by
  have hfiltered : ((c.rules.filter (·.enabled)).map KokoroBoxRule.priority).Nodup :=
    hn.sublist (List.filter_sublist.map _)
  rw [S.find?_sorted_eq_some_iff hfiltered]
  constructor
  · rintro ⟨hmem, hholds, hleast⟩
    obtain ⟨hin, henabled⟩ := List.mem_filter.mp hmem
    refine ⟨hin, (matchesFlow_iff T rule _ _ _).mpr ⟨henabled, hholds⟩, ?_⟩
    intro other hother happlies
    obtain ⟨he, hm⟩ := (matchesFlow_iff T other _ _ _).mp happlies
    exact hleast other (List.mem_filter.mpr ⟨hother, he⟩) hm
  · rintro ⟨hmem, happlies, hleast⟩
    obtain ⟨he, hm⟩ := (matchesFlow_iff T rule _ _ _).mp happlies
    refine ⟨List.mem_filter.mpr ⟨hmem, he⟩, hm, ?_⟩
    intro other hother hmatch
    obtain ⟨hin, henabled⟩ := List.mem_filter.mp hother
    exact hleast other hin ((matchesFlow_iff T other _ _ _).mpr ⟨henabled, hmatch⟩)

private theorem find_eq_none_iff (signingIdentifier : String) (processName : Option String)
    (connectionProtocol : RuleProtocol) :
    (S.sorted (c.rules.filter (·.enabled))).find?
        (·.matchesFlow T signingIdentifier processName connectionProtocol) = none ↔
      ∀ rule ∈ c.rules, ¬rule.Applies T signingIdentifier processName connectionProtocol := by
  rw [S.find?_sorted_eq_none_iff]
  constructor
  · intro h rule hrule happlies
    obtain ⟨he, hm⟩ := (matchesFlow_iff T rule _ _ _).mp happlies
    exact h rule (List.mem_filter.mpr ⟨hrule, he⟩) hm
  · intro h rule hrule hmatch
    obtain ⟨hin, henabled⟩ := List.mem_filter.mp hrule
    exact h rule hin ((matchesFlow_iff T rule _ _ _).mpr ⟨henabled, hmatch⟩)

private theorem chooses_unique {signingIdentifier : String} {processName : Option String}
    {connectionProtocol : RuleProtocol} {rule other : KokoroBoxRule}
    (h : c.Chooses T signingIdentifier processName connectionProtocol rule)
    (h' : c.Chooses T signingIdentifier processName connectionProtocol other) : other = rule := by
  rcases h.least other h'.mem h'.applies with heq | hlt
  · exact heq
  · rcases h'.least rule h.mem h.applies with heq | hlt'
    · exact heq.symm
    · omega

/-- The answer to a rule that is chosen, in a configuration that is accepted. -/
private theorem asks_of_accepted {rule : KokoroBoxRule} (hvalid : ruleByItself rule = true)
    (hhost : c.proxyHost = "127.0.0.1") (hport : c.proxyPort = 7891) :
    ∃ d, (if rule.action == "DIRECT" then some KokoroBoxDecision.direct
        else if rule.action == "BLOCK" then some .block
        else if !c.proxyAvailable then some .block
        else some (.proxy ⟨"socks5", c.proxyHost, c.proxyPort, none, none⟩)) = some d ∧
      rule.Asks c.proxyAvailable d := by
  simp only [ruleByItself, Bool.and_eq_true] at hvalid
  have haction := List.contains_iff_mem.mp hvalid.1.1.2
  simp only [List.mem_cons, List.not_mem_nil, or_false] at haction
  rcases haction with h | h | h
  · rw [if_neg (by rw [h]; decide), if_neg (by rw [h]; decide), hhost, hport]
    cases hp : c.proxyAvailable with
    | true => exact ⟨_, rfl, .proxy h rfl⟩
    | false => exact ⟨_, rfl, .unavailable h rfl⟩
  · rw [if_pos (by rw [h]; decide)]
    exact ⟨_, rfl, .direct h⟩
  · rw [if_neg (by rw [h]; decide), if_pos (by rw [h]; decide)]
    exact ⟨_, rfl, .block h⟩

theorem kokoroBoxDecision_answers (hc : validatedKokoroBoxConfiguration T.lowercased (some c) = some c)
    (signingIdentifier : String) (processName : Option String) (connectionProtocol : RuleProtocol) :
    ∃ d, kokoroBoxDecision T S (some c) signingIdentifier processName connectionProtocol = some d ∧
      c.Answers T signingIdentifier processName connectionProtocol d := by
  obtain ⟨hhost, hport, hrules⟩ := accepted T.lowercased hc
  obtain ⟨hall, ⟨hn, -⟩, -⟩ := (validRules_iff T.lowercased [] [] c.rules).mp hrules
  cases hexempt : directSigningIdentifierPatterns.any (T.globMatch · signingIdentifier) with
  | true => exact ⟨.direct, by rw [kokoroBoxDecision, if_pos hexempt], .exempt hexempt⟩
  | false =>
    rw [kokoroBoxDecision, if_neg (Bool.eq_false_iff.mp hexempt)]
    cases hf : (S.sorted (c.rules.filter (·.enabled))).find?
        (·.matchesFlow T signingIdentifier processName connectionProtocol) with
    | none =>
      have hnone := (find_eq_none_iff S signingIdentifier processName connectionProtocol).mp hf
      exact ⟨.direct, rfl, .unruled hexempt hnone⟩
    | some rule =>
      have hchosen := (find_eq_some_iff S hn signingIdentifier processName connectionProtocol rule).mp hf
      obtain ⟨d, hd, hasks⟩ := asks_of_accepted (hall rule hchosen.mem) hhost hport
      exact ⟨d, hd, .ruled hexempt hchosen hasks⟩

end Choice

section Priorities
variable {χ : Type} [DecidableEq χ] (T : SwiftText χ) (S : Sorting KokoroBoxRule.priority)

/-- An accepted configuration answers a flow with what its one rule of the smallest priority asks, in
whatever order it lists its rules; and a configuration that is rejected replaces nothing. -/
theorem kokoroBoxDecision_by_least_priority {c : KokoroBoxConfiguration}
    (hc : validatedKokoroBoxConfiguration T.lowercased (some c) = some c) (signingIdentifier : String)
    (processName : Option String) (connectionProtocol : RuleProtocol) :
    (directSigningIdentifierPatterns.any (T.globMatch · signingIdentifier) = true →
      kokoroBoxDecision T S (some c) signingIdentifier processName connectionProtocol = some .direct) ∧
    (directSigningIdentifierPatterns.any (T.globMatch · signingIdentifier) = false →
      (∀ rule, c.Chooses T signingIdentifier processName connectionProtocol rule →
        ∃ d, kokoroBoxDecision T S (some c) signingIdentifier processName connectionProtocol = some d ∧
          rule.Asks c.proxyAvailable d) ∧
      ((∃ rule ∈ c.rules, rule.Applies T signingIdentifier processName connectionProtocol) →
        ∃! rule, c.Chooses T signingIdentifier processName connectionProtocol rule) ∧
      ((∀ rule ∈ c.rules, ¬rule.Applies T signingIdentifier processName connectionProtocol) →
        kokoroBoxDecision T S (some c) signingIdentifier processName connectionProtocol = some .direct)) ∧
    (∀ rules, rules.Perm c.rules →
      validatedKokoroBoxConfiguration T.lowercased (some { c with rules }) = some { c with rules } ∧
      kokoroBoxDecision T S (some { c with rules }) signingIdentifier processName connectionProtocol =
        kokoroBoxDecision T S (some c) signingIdentifier processName connectionProtocol) ∧
    ∀ (s : SharedPolicy) (decoded : Option KokoroBoxConfiguration),
      validatedKokoroBoxConfiguration T.lowercased decoded = none →
        s.installKokoroBoxConfiguration T.lowercased decoded = s := by
  obtain ⟨hhost, hport, hrules⟩ := accepted T.lowercased hc
  obtain ⟨hall, ⟨hn, -⟩, -⟩ := (validRules_iff T.lowercased [] [] c.rules).mp hrules
  refine ⟨?_, ?_, ?_, ?_⟩
  · intro hprotected
    rw [kokoroBoxDecision, if_pos hprotected]
  · intro hother
    rw [kokoroBoxDecision, if_neg (Bool.eq_false_iff.mp hother)]
    refine ⟨?_, ?_, ?_⟩
    · intro rule hchosen
      simp only [(find_eq_some_iff S hn signingIdentifier processName connectionProtocol rule).mpr hchosen]
      exact asks_of_accepted (hall rule hchosen.mem) hhost hport
    · rintro ⟨rule, hrule, happlies⟩
      cases hf : (S.sorted (c.rules.filter (·.enabled))).find?
          (·.matchesFlow T signingIdentifier processName connectionProtocol) with
      | none =>
        have hnone := (find_eq_none_iff S signingIdentifier processName connectionProtocol).mp hf
        exact absurd happlies (hnone rule hrule)
      | some chosen =>
        have hchosen := (find_eq_some_iff S hn signingIdentifier processName connectionProtocol chosen).mp hf
        exact ⟨chosen, hchosen, fun other hother => chooses_unique hchosen hother⟩
    · intro hnone
      simp only [(find_eq_none_iff S signingIdentifier processName connectionProtocol).mpr hnone]
  · intro rules hperm
    have hvalid := validRules_perm T.lowercased hperm
    refine ⟨?_, ?_⟩
    · rw [validatedKokoroBoxConfiguration, Option.filter_eq_some_iff] at hc ⊢
      refine ⟨rfl, ?_⟩
      rw [hvalid, hperm.length_eq]
      exact hc.2
    · have hfilter : (rules.filter (·.enabled)).Perm (c.rules.filter (·.enabled)) := hperm.filter _
      have hnodup : ((rules.filter (·.enabled)).map KokoroBoxRule.priority).Nodup :=
        ((hperm.map _).nodup_iff.mpr hn).sublist (List.filter_sublist.map _)
      simp only [kokoroBoxDecision, S.find?_sorted_perm hnodup hfilter]
  · intro s decoded hrejected
    rw [SharedPolicy.installKokoroBoxConfiguration, hrejected]

end Priorities

/-- Strings of plain characters. -/
private def plainText : SwiftText Char := ⟨String.map Char.toLower, String.toList, '*'⟩

def byPriority : Sorting KokoroBoxRule.priority where
  sorted l := l.insertionSort (fun a b => a.priority ≤ b.priority)
  perm l := List.perm_insertionSort _ l
  ordered l := List.pairwise_insertionSort _ l

def twoRules : KokoroBoxConfiguration where
  version := 1
  failClosed := true
  proxyAvailable := true
  proxyHost := "127.0.0.1"
  proxyPort := 7891
  proxyUdpDns := false
  dnsHost := "127.0.0.1"
  dnsPort := 7892
  diagnosticLogging := false
  rules := [⟨"org.app", none, .both, "PROXY", true, 2⟩, ⟨"org.*", none, .tcp, "BLOCK", true, 1⟩]

theorem kokoroBoxDecision_by_least_priority_reversed :
    kokoroBoxDecision plainText byPriority (some { twoRules with rules := twoRules.rules.reverse }) "org.app" none
      .tcp = some .block :=
  ((kokoroBoxDecision_by_least_priority plainText byPriority (by decide +kernel) "org.app" none .tcp).2.2.1
    twoRules.rules.reverse (List.reverse_perm _)).2.trans (by decide +kernel)

end ProxyBridge.MacOS
