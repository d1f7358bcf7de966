import Mathlib.Data.List.AList
import ProxyBridge.Library.Histories
import ProxyBridge.MacOS.KokoroBoxDecision
import ProxyBridge.MacOS.RoutingLog
import ProxyBridge.MacOS.RuleLists

/-! The messages that the app sends to the provider, next to the polls of the shared policy and the starts
and stops. What is in force at a moment is what the messages before it have left. -/
namespace ProxyBridge.MacOS
open Histories

/-- A rule as the provider keeps it. -/
structure StoredRule extends ProxyRule where
  ruleId : UInt32
  ruleProtocol : RuleProtocol
  action : String
  enabled : Bool

/-- A string up to canonical equivalence, by which strings are compared and dictionaries find their keys. -/
abbrev StringKey := List Character

def UnicodeData.key (u : UnicodeData) (s : String) : StringKey := u.characters s.toList

abbrev StoredProxyConfigs := AList (fun _ : StringKey => StoredProxyConfig)

/-- A dictionary of the message `setProxyConfigs`, with the values that have the type asked for. -/
structure ConfigDict where
  id : Option String
  proxyType : Option String
  proxyHost : Option String
  proxyPort : Option Int
  proxyUsername : Option String
  proxyPassword : Option String

/-- What the loop stores for a dictionary; one without all of the four values is skipped. -/
def ConfigDict.entry (d : ConfigDict) : Option (String × StoredProxyConfig) :=
  match d.id, d.proxyType, d.proxyHost, d.proxyPort with
  | some id, some type, some host, some port => some (id, ⟨type, host, port, d.proxyUsername, d.proxyPassword⟩)
  | _, _, _, _ => none

inductive AppMessage where
  /-- What is no object with an `action`, or has an action that is none of the others. -/
  | unknown
  | replaceKokoroBoxConfiguration (decoded : Option KokoroBoxConfiguration)
  | getKokoroBoxStatus
  | getLogs
  | clearLogs
  | setTrafficLogging (enabled : Option Bool)
  | setProxyConfigs (configs : Option (List ConfigDict))
  /-- The rule that the message decodes to; its `ruleId` is not used. -/
  | addRule (decoded : Option StoredRule)
  | clearRules
  | clearConfig

inductive AppResponse where
  | nothing
  | ok
  | version (version : Int)
  | kokoroBoxStatus (version : Int) (configured proxyAvailable : Bool) (ruleCount : Nat)
  | logs (batch : List (List (String × String)))
  | rule (rule : StoredRule)
  | cleared (count : Nat)
  | error (message : String)

/-- What the messages read and write. -/
structure Provider where
  policy : SharedPolicy
  rules : List StoredRule
  nextRuleId : UInt32
  storedProxyConfigs : StoredProxyConfigs
  routingLogs : RoutingLogBuffer

inductive ProviderAction where
  | policy (a : PolicyAction)
  | message (m : AppMessage)
  /-- Any thread appends a line to the logs. -/
  | appendLog (entry : RoutingLogEntry)

def storeConfigs (u : UnicodeData) (configs : List ConfigDict) : StoredProxyConfigs :=
  configs.foldl (fun stored d => d.entry.elim stored fun e => stored.insert (u.key e.1) e.2) ∅

namespace Provider

def init : Provider := ⟨.init, [], 1, ∅, .initial⟩

section Messages
variable (u : UnicodeData) (lowercased : String → String) (s : Provider)

/-- `nextRuleId += 1` traps at the greatest number, and then there is no next state. -/
def handleAppMessage : AppMessage → Option (AppResponse × Provider)
  | .unknown => some (.nothing, s)
  | .replaceKokoroBoxConfiguration decoded =>
    if (validatedKokoroBoxConfiguration lowercased decoded).isSome then
      some (.version 1, { s with policy := s.policy.installKokoroBoxConfiguration lowercased decoded })
    else some (.error "invalid_configuration", s)
  | .getKokoroBoxStatus =>
    let configuration := s.policy.configuration
    some (.kokoroBoxStatus 1 configuration.isSome ((configuration.map (·.proxyAvailable)).getD false)
      ((configuration.map (·.rules.length)).getD 0), s)
  | .getLogs => some (.logs s.routingLogs.drain.1, { s with routingLogs := s.routingLogs.drain.2 })
  | .clearLogs => some (.ok, { s with routingLogs := s.routingLogs.clear })
  | .setTrafficLogging none => some (.nothing, s)
  | .setTrafficLogging (some enabled) =>
    some (.ok, { s with policy := { s.policy with trafficLoggingEnabled := enabled } })
  | .setProxyConfigs none => some (.ok, s)
  | .setProxyConfigs (some configs) => some (.ok, { s with storedProxyConfigs := storeConfigs u configs })
  | .addRule none => some (.error "Invalid rule format", s)
  | .addRule (some decoded) =>
    let rule := { decoded with ruleId := s.nextRuleId }
    if s.nextRuleId = 0xffffffff then none
    else some (.rule rule, { s with nextRuleId := s.nextRuleId + 1, rules := s.rules ++ [rule] })
  | .clearRules => some (.cleared s.rules.length, { s with rules := [] })
  | .clearConfig => some (.ok, { s with storedProxyConfigs := ∅ })

/-- A new configuration of the policy comes by a message of its own. -/
def step : ProviderAction → Option Provider
  | .policy (.replace _) => none
  | .policy a => (s.policy.step lowercased a).map ({ s with policy := · })
  | .message m => (s.handleAppMessage u lowercased m).map (·.2)
  | .appendLog entry => some { s with routingLogs := s.routingLogs.append entry }

end Messages

/-- The rule that an action adds. -/
def adds (s : Provider) : ProviderAction → Option StoredRule
  | .message (.addRule (some decoded)) => some { decoded with ruleId := s.nextRuleId }
  | _ => none

end Provider

namespace ProviderAction

def clearsRules : ProviderAction → Bool
  | .message .clearRules => true
  | _ => false

/-- The configurations that an action stores in place of all others. -/
def stores (u : UnicodeData) : ProviderAction → Option StoredProxyConfigs
  | .message (.setProxyConfigs (some configs)) => some (storeConfigs u configs)
  | .message .clearConfig => some ∅
  | _ => none

/-- `stopProxy` clears the configuration of the policy. -/
def withdraws : ProviderAction → Bool
  | .policy .clear => true
  | _ => false

end ProviderAction

/-- What a step may do with the configuration of the policy. -/
inductive SharedPolicy.Replaces (lowercased : String → String) (a : ProviderAction) :
    Option KokoroBoxConfiguration → Option KokoroBoxConfiguration → Prop where
  | keep (c : Option KokoroBoxConfiguration) : Replaces lowercased a c c
  | install (c : Option KokoroBoxConfiguration) {c' : KokoroBoxConfiguration}
      (h : validatedKokoroBoxConfiguration lowercased (some c') = some c') : Replaces lowercased a c (some c')
  | withdraw (c : Option KokoroBoxConfiguration) (h : a.withdraws = true) : Replaces lowercased a c none

section Policy
variable {lowercased : String → String} {s s' : SharedPolicy}

private theorem validated_again {decoded : Option KokoroBoxConfiguration} {c : KokoroBoxConfiguration}
    (h : validatedKokoroBoxConfiguration lowercased decoded = some c) :
    validatedKokoroBoxConfiguration lowercased (some c) = some c := by
  obtain ⟨hsome, hall⟩ := Option.filter_eq_some_iff.mp h
  exact Option.filter_eq_some_iff.mpr ⟨rfl, hall⟩

private theorem SharedPolicy.install_replaces (a : ProviderAction) (s : SharedPolicy)
    (decoded : Option KokoroBoxConfiguration) :
    Replaces lowercased a s.configuration (s.installKokoroBoxConfiguration lowercased decoded).configuration := by
  unfold installKokoroBoxConfiguration
  split
  · rename_i c hc
    exact .install _ (validated_again hc)
  · exact .keep _

private theorem SharedPolicy.advancePoll_replaces {a : ProviderAction} {p : PolicyAction} {phase : PollPhase}
    (h : s.advancePoll lowercased p phase = some s') : Replaces lowercased a s.configuration s'.configuration := by
  cases p with
  | read envelope =>
    cases phase with
    | idle =>
      simp only [advancePoll] at h
      split at h
      · cases h
      · exact Option.some.inj h ▸ .keep _
    | _ => cases h
  | compare =>
    cases phase with
    | read e => exact Option.some.inj h ▸ .keep _
    | _ => cases h
  | install =>
    cases phase with
    | installing e =>
      simp only [advancePoll] at h
      split at h
      · exact Option.some.inj h ▸ install_replaces a s _
      · exact Option.some.inj h ▸ .keep _
    | _ => cases h
  | record =>
    cases phase with
    | installed e => exact Option.some.inj h ▸ .keep _
    | _ => cases h
  | acknowledge written =>
    cases phase with
    | acknowledging e => exact Option.some.inj h ▸ .keep _
    | _ => cases h
  | _ => cases phase <;> cases h

private theorem SharedPolicy.advanceLifecycle_replaces {p : PolicyAction} {l : Lifecycle}
    (h : s.advanceLifecycle lowercased p l = some s') :
    Replaces lowercased (.policy p) s.configuration s'.configuration := by
  cases p with
  | observe =>
    cases l with
    | stopped | started => exact Option.some.inj h ▸ .keep _
    | _ => cases h
  | start provider =>
    cases l with
    | starting =>
      cases provider with
      | none => exact Option.some.inj h ▸ .keep _
      | some decoded => exact Option.some.inj h ▸ install_replaces _ s decoded
    | _ => cases h
  | unobserve =>
    cases l with
    | started => exact Option.some.inj h ▸ .keep _
    | _ => cases h
  | forget =>
    cases l with
    | unobserved => exact Option.some.inj h ▸ .keep _
    | _ => cases h
  | clear =>
    cases l with
    | forgotten => exact Option.some.inj h ▸ .withdraw _ rfl
    | _ => cases h
  | complete =>
    cases l with
    | cleared => exact Option.some.inj h ▸ .keep _
    | _ => cases h
  | _ => cases l <;> cases h

private theorem SharedPolicy.step_replaces {p : PolicyAction} (h : s.step lowercased p = some s') :
    Replaces lowercased (.policy p) s.configuration s'.configuration := by
  cases p with
  | notify =>
    simp only [step] at h
    split at h
    · exact Option.some.inj h ▸ .keep _
    · cases h
  | replace decoded => exact Option.some.inj h ▸ install_replaces _ s decoded
  | read _ | compare | install | record | acknowledge _ => exact advancePoll_replaces h
  | observe | start _ | unobserve | forget | clear | complete => exact advanceLifecycle_replaces h

end Policy

/-- Everything that a step does to what is in force. -/
structure Provider.Effects (u : UnicodeData) (lowercased : String → String) (s : Provider) (a : ProviderAction)
    (s' : Provider) : Prop where
  rules : s'.rules = if a.clearsRules = true then [] else s.rules ++ (s.adds a).toList
  ids : s'.nextRuleId.toNat = s.nextRuleId.toNat + (s.adds a).toList.length
  stored : s'.storedProxyConfigs = (a.stores u).getD s.storedProxyConfigs
  policy : SharedPolicy.Replaces lowercased a s.policy.configuration s'.policy.configuration

section Steps
variable {u : UnicodeData} {lowercased : String → String} {s s' : Provider} {a : ProviderAction}

theorem Provider.step_effects (h : s.step u lowercased a = some s') : s.Effects u lowercased a s' := by
  cases a with
  | policy p =>
    cases p with
    | replace decoded => cases h
    | _ =>
      obtain ⟨policy, hp, rfl⟩ := Option.map_eq_some_iff.mp h
      exact ⟨(List.append_nil _).symm, rfl, rfl, SharedPolicy.step_replaces hp⟩
  | appendLog entry =>
    obtain rfl := Option.some.inj h
    exact ⟨(List.append_nil _).symm, rfl, rfl, .keep _⟩
  | message m =>
    obtain ⟨⟨response, s₁⟩, hm, rfl⟩ := Option.map_eq_some_iff.mp h
    cases m with
    | replaceKokoroBoxConfiguration decoded =>
      simp only [handleAppMessage] at hm
      split at hm
      · obtain ⟨-, rfl⟩ := Prod.mk.inj (Option.some.inj hm)
        exact ⟨(List.append_nil _).symm, rfl, rfl, SharedPolicy.install_replaces _ _ decoded⟩
      · obtain ⟨-, rfl⟩ := Prod.mk.inj (Option.some.inj hm)
        exact ⟨(List.append_nil _).symm, rfl, rfl, .keep _⟩
    | addRule decoded =>
      cases decoded with
      | none =>
        obtain ⟨-, rfl⟩ := Prod.mk.inj (Option.some.inj hm)
        exact ⟨(List.append_nil _).symm, rfl, rfl, .keep _⟩
      | some decoded =>
        simp only [handleAppMessage] at hm
        split at hm
        · cases hm
        · rename_i hmax
          obtain ⟨-, rfl⟩ := Prod.mk.inj (Option.some.inj hm)
          refine ⟨rfl, ?_, rfl, .keep _⟩
          have hlt := s.nextRuleId.toNat_lt
          have hne : s.nextRuleId.toNat ≠ 0xffffffff := fun he => hmax (UInt32.toNat_inj.mp he)
          have hadd : (s.nextRuleId + 1).toNat = s.nextRuleId.toNat + 1 := by
            rw [UInt32.toNat_add]
            exact Nat.mod_eq_of_lt (by
              change s.nextRuleId.toNat + 1 < 4294967296
              omega)
          exact hadd
    | setTrafficLogging enabled =>
      cases enabled <;>
      · obtain ⟨-, rfl⟩ := Prod.mk.inj (Option.some.inj hm)
        exact ⟨(List.append_nil _).symm, rfl, rfl, .keep _⟩
    | setProxyConfigs configs =>
      cases configs <;>
      · obtain ⟨-, rfl⟩ := Prod.mk.inj (Option.some.inj hm)
        exact ⟨(List.append_nil _).symm, rfl, rfl, .keep _⟩
    | clearRules =>
      obtain ⟨-, rfl⟩ := Prod.mk.inj (Option.some.inj hm)
      exact ⟨rfl, rfl, rfl, .keep _⟩
    | _ =>
      obtain ⟨-, rfl⟩ := Prod.mk.inj (Option.some.inj hm)
      exact ⟨(List.append_nil _).symm, rfl, rfl, .keep _⟩

end Steps

/-- Any sequence of messages, polls, starts and stops, from the launch of the extension on. -/
abbrev ProviderHistory (u : UnicodeData) (lowercased : String → String) :=
  History (Provider.step u lowercased) Provider.init

/-- The last of the dictionaries with an identifier that is stored. -/
def LastEntry (u : UnicodeData) (configs : List ConfigDict) (key : StringKey) (config : StoredProxyConfig) : Prop :=
  ∃ before d after id, configs = before ++ d :: after ∧ d.entry = some (id, config) ∧ u.key id = key ∧
    ∀ d' ∈ after, ∀ e, d'.entry = some e → u.key e.1 ≠ key

section Stored
variable (u : UnicodeData)

private theorem lookup_storeConfigs_append (configs : List ConfigDict) (d : ConfigDict) (key : StringKey) :
    (storeConfigs u (configs ++ [d])).lookup key =
      match d.entry with
      | none => (storeConfigs u configs).lookup key
      | some e => if u.key e.1 = key then some e.2 else (storeConfigs u configs).lookup key := by
  unfold storeConfigs
  rw [List.foldl_append]
  cases he : d.entry with
  | none => simp [he]
  | some e =>
    simp only [List.foldl_cons, List.foldl_nil, he, Option.elim_some]
    split
    · rename_i hkey
      rw [← hkey, AList.lookup_insert]
    · rename_i hkey
      rw [AList.lookup_insert_ne (Ne.symm hkey)]

/-- The dictionary maps an identifier to what comes last for it. -/
theorem lookup_storeConfigs_iff (configs : List ConfigDict) (key : StringKey) (config : StoredProxyConfig) :
    (storeConfigs u configs).lookup key = some config ↔ LastEntry u configs key config := by
  induction configs using List.reverseRecOn with
  | nil =>
    refine iff_of_false (by simp [storeConfigs]) ?_
    rintro ⟨before, d, after, id, h, -⟩
    simp at h
  | append_singleton configs d ih =>
    rw [lookup_storeConfigs_append]
    constructor
    · intro h
      cases he : d.entry with
      | none =>
        simp only [he] at h
        obtain ⟨before, d', after, id, rfl, hentry, hkey, hlast⟩ := ih.mp h
        refine ⟨before, d', after ++ [d], id, by simp, hentry, hkey, fun d'' hd'' e hd => ?_⟩
        rcases List.mem_append.mp hd'' with hd'' | hd''
        · exact hlast d'' hd'' e hd
        · obtain rfl := List.mem_singleton.mp hd''
          cases he.symm.trans hd
      | some e =>
        simp only [he] at h
        split at h
        · rename_i hkey
          obtain rfl := Option.some.inj h
          exact ⟨configs, d, [], e.1, rfl, he, hkey, fun d' hd' => by cases hd'⟩
        · rename_i hkey
          obtain ⟨before, d', after, id, rfl, hentry, hkey', hlast⟩ := ih.mp h
          refine ⟨before, d', after ++ [d], id, by simp, hentry, hkey', fun d'' hd'' e' hd => ?_⟩
          rcases List.mem_append.mp hd'' with hd'' | hd''
          · exact hlast d'' hd'' e' hd
          · obtain rfl := List.mem_singleton.mp hd''
            obtain rfl := Option.some.inj (he.symm.trans hd)
            exact hkey
    · rintro ⟨before, d', after, id, hsplit, hentry, hkey, hlast⟩
      rcases List.eq_nil_or_concat after with rfl | ⟨after, d'', rfl⟩
      · obtain ⟨-, hd⟩ := List.append_inj' hsplit rfl
        obtain rfl := (List.cons.inj hd).1
        simp only [hentry, hkey, if_true]
      · have hassoc : configs ++ [d] = (before ++ d' :: after) ++ [d''] := by simpa using hsplit
        obtain ⟨rfl, hd⟩ := List.append_inj' hassoc rfl
        obtain rfl := (List.cons.inj hd).1
        have hin := ih.mpr ⟨before, d', after, id, rfl, hentry, hkey, fun e he =>
          hlast e (List.concat_eq_append ▸ List.mem_append_left _ he)⟩
        have hno := hlast d (by simp)
        cases he : d.entry with
        | none => exact hin
        | some e =>
          simp only [if_neg (hno e he)]
          exact hin

end Stored

section Histories
variable {u : UnicodeData} {lowercased : String → String} (h : ProviderHistory u lowercased)

/-- The identifiers that are given out grow from one rule to the next. -/
private theorem nextRuleId_lt {i j : Nat} {a : ProviderAction} {r : StoredRule} (hij : i < j)
    (ha : h.action i = some a) (hadd : (h.state i).adds a = some r) :
    (h.state i).nextRuleId < (h.state j).nextRuleId := by
  have hgrows : Monotone ((fun s : Provider => s.nextRuleId.toNat) ∘ h.state) := by
    refine h.monotone _ (fun s a s' hs => ?_)
    rw [(Provider.step_effects hs).ids]
    exact Nat.le_add_right _ _
  have hids := (Provider.step_effects (h.step_of_some ha)).ids
  rw [hadd] at hids
  have hle : (h.state (i + 1)).nextRuleId.toNat ≤ (h.state j).nextRuleId.toNat := hgrows hij
  have hlen : (some r).toList.length = 1 := rfl
  exact UInt32.lt_iff_toNat_lt.mpr (by omega)

private theorem adds_some {s : Provider} {a : ProviderAction} {r : StoredRule} (hadd : s.adds a = some r) :
    ∃ decoded, a = .message (.addRule (some decoded)) ∧ r = { decoded with ruleId := s.nextRuleId } := by
  unfold Provider.adds at hadd
  split at hadd
  · exact ⟨_, rfl, (Option.some.inj hadd).symm⟩
  · cases hadd

private theorem stores_some {a : ProviderAction} {stored : StoredProxyConfigs} (hs : a.stores u = some stored) :
    (∃ configs, a = .message (.setProxyConfigs (some configs)) ∧ stored = storeConfigs u configs) ∨
      a = .message .clearConfig ∧ stored = ∅ := by
  unfold ProviderAction.stores at hs
  split at hs
  · exact .inl ⟨_, rfl, (Option.some.inj hs).symm⟩
  · exact .inr ⟨rfl, (Option.some.inj hs).symm⟩
  · cases hs

/-- The rules stand in the order of their identifiers, which are below the next one. -/
private theorem rules_ordered (n : Nat) :
    ((h.state n).rules.map (·.ruleId)).Pairwise (· < ·) ∧
    ∀ r ∈ (h.state n).rules, r.ruleId < (h.state n).nextRuleId := by
  refine h.invariant (fun s => (s.rules.map (·.ruleId)).Pairwise (· < ·) ∧
    ∀ r ∈ s.rules, r.ruleId < s.nextRuleId) ⟨.nil, fun r hr => by cases hr⟩ ?_ n
  rintro s a s' ⟨hordered, hbelow⟩ hs
  have heffects := Provider.step_effects hs
  have hle : s.nextRuleId ≤ s'.nextRuleId := by
    rw [UInt32.le_iff_toNat_le, heffects.ids]
    exact Nat.le_add_right _ _
  rw [heffects.rules]
  split
  · exact ⟨.nil, fun r hr => by cases hr⟩
  · cases hadd : s.adds a with
    | none =>
      rw [Option.toList_none, List.append_nil]
      exact ⟨hordered, fun r hr => UInt32.lt_of_lt_of_le (hbelow r hr) hle⟩
    | some r =>
      obtain ⟨decoded, -, rfl⟩ := adds_some hadd
      have hlt : s.nextRuleId < s'.nextRuleId := by
        rw [UInt32.lt_iff_toNat_lt, heffects.ids, hadd]
        exact Nat.lt_succ_self _
      rw [Option.toList_some, List.map_append, List.pairwise_append]
      refine ⟨⟨hordered, List.pairwise_singleton _ _, fun x hx y hy => ?_⟩, fun r hr => ?_⟩
      · obtain ⟨r, hr, rfl⟩ := List.mem_map.mp hx
        obtain rfl := List.mem_singleton.mp hy
        exact hbelow r hr
      · rcases List.mem_append.mp hr with hr | hr
        · exact UInt32.lt_trans (hbelow r hr) hlt
        · rw [List.mem_singleton.mp hr]
          exact hlt

/-- At every moment of every history the rules in force are those that were added since the rules were
last cleared, each under the number that was next when it came, in the order in which they came; no number
is given out twice, not even after the rules were cleared; and under an identifier is stored what the last
list that was sent has last for it, unless the configurations were cleared after that. -/
theorem messages_put_in_force (n : Nat) :
    (∀ r, r ∈ (h.state n).rules ↔ ∃ i < n, ∃ decoded, h.action i = some (.message (.addRule (some decoded))) ∧
      r = { decoded with ruleId := (h.state i).nextRuleId } ∧ h.Without (·.clearsRules = true) (i + 1) n) ∧
    ((h.state n).rules.map (·.ruleId)).Pairwise (· < ·) ∧
    (∀ i j, i < j → ∀ decoded, h.action i = some (.message (.addRule (some decoded))) →
      (h.state i).nextRuleId < (h.state j).nextRuleId) ∧
    ∀ key config, (h.state n).storedProxyConfigs.lookup key = some config ↔
      ∃ i < n, ∃ configs, h.action i = some (.message (.setProxyConfigs (some configs))) ∧
        LastEntry u configs key config ∧ h.Without (fun a => (a.stores u).isSome = true) (i + 1) n := by
  refine ⟨fun r => ?_, (rules_ordered h n).1, fun i j hij decoded ha => nextRuleId_lt h hij ha rfl,
    fun key config => ?_⟩
  · rw [h.mem_collected Provider.rules Provider.adds (fun a => a.clearsRules = true) rfl
      (fun s a s' hs => (Provider.step_effects hs).rules)]
    constructor
    · rintro ⟨i, hi, a, ha, -, hadd, hw⟩
      obtain ⟨decoded, rfl, rfl⟩ := adds_some hadd
      exact ⟨i, hi, decoded, ha, rfl, hw⟩
    · rintro ⟨i, hi, decoded, ha, rfl, hw⟩
      exact ⟨i, hi, _, ha, Bool.false_ne_true, rfl, hw⟩
  · have hlast := h.lastWrite Provider.storedProxyConfigs (·.stores u)
      (fun s a s' hs => (Provider.step_effects hs).stored) n
    constructor
    · intro hlookup
      rcases hlast with ⟨hnone, -⟩ | ⟨i, hi, a, ha, hstores, hw⟩
      · rw [hnone] at hlookup
        exact absurd hlookup (by simp [Provider.init])
      · rcases stores_some hstores with ⟨configs, rfl, hstored⟩ | ⟨-, hempty⟩
        · rw [hstored] at hlookup
          exact ⟨i, hi, configs, ha, (lookup_storeConfigs_iff u configs key config).mp hlookup, hw⟩
        · rw [hempty] at hlookup
          exact absurd hlookup (by simp)
    · rintro ⟨i, hi, configs, ha, hentry, hw⟩
      rw [hlast.eq hi ha rfl hw]
      exact (lookup_storeConfigs_iff u configs key config).mpr hentry

end Histories
end ProxyBridge.MacOS
