import ProxyBridge.Library.ChainStores
import ProxyBridge.Library.Runs
import ProxyBridge.Windows.Conntrack
import ProxyBridge.Windows.Rules

/-! The exported calls of `pb_rules.c` that change the rule list. The rules are heap nodes on the
chain that starts at `rules_list`, and the two flags next to them are what the packet path reads. -/
namespace ProxyBridge.Windows
open CStrings IntrusiveChains

def maxProcessName : Nat := 65536

/-- The list a filter of a new rule is stored as: no filter is stored as `*`. -/
def storedList (list : Option (List UInt8)) : List UInt8 :=
  match list with
  | none | some [] => wildcard
  | some list => strncpyTruncate (min list.length maxListSize + 1) list

/-- What a caller passes for a rule, where `none` is NULL. -/
structure RuleParams where
  processName : Option (List UInt8)
  targetHosts : Option (List UInt8)
  targetPorts : Option (List UInt8)
  targetDomains : Option (List UInt8)
  protocol : RuleProtocol
  action : RuleAction
  proxyConfigId : UInt32

/-- The rule that `ProxyBridge_AddRule` builds for a process. -/
def RuleParams.built (params : RuleParams) (processName : List UInt8) (ruleId : UInt32) : ProcessRule where
  ruleId := ruleId
  processName := strncpyTruncate maxProcessName processName
  targetHosts := storedList params.targetHosts
  targetPorts := storedList params.targetPorts
  targetDomains := storedList params.targetDomains
  protocol := params.protocol
  action := params.action
  proxyConfigId := params.proxyConfigId
  enabled := true

/-- The domains that an edited rule gets, again with `*` for no filter. -/
def domainsIn (targetDomains : Option (List UInt8)) : List UInt8 :=
  match targetDomains with
  | none | some [] => wildcard
  | some targetDomains => targetDomains

/-- The rule that `ProxyBridge_EditRule` leaves in the place of `rule`, whose identifier and enabled
flag stay. -/
def RuleParams.edited (params : RuleParams) (processName targetHosts targetPorts : List UInt8) (rule : ProcessRule) :
    ProcessRule :=
  { rule with
    processName := strncpyTruncate maxProcessName processName
    targetHosts := targetHosts
    targetPorts := targetPorts
    targetDomains := domainsIn params.targetDomains
    protocol := params.protocol
    action := params.action
    proxyConfigId := params.proxyConfigId }

/-- What the allocations of `ProxyBridge_AddRule` return: the node, and whether the three lists
can be had. -/
structure RuleAllocs where
  rule : Option Addr
  hosts : Bool
  ports : Bool
  domains : Bool

/-- `rules_list` with its nodes, and the globals that the calls keep next to it. -/
structure RuleTable where
  store : ChainStore Unit Addr ProcessRule
  nextRuleId : UInt32
  hasActiveRules : Bool
  hasDomainRules : Bool
  udpGeneration : UInt32

namespace RuleTable

def initial : RuleTable where
  store := ⟨∅, fun _ => ⟨0, [], [], [], [], .both, .direct, 0, false⟩, .empty⟩
  nextRuleId := 1
  hasActiveRules := false
  hasDomainRules := false
  udpGeneration := 1

variable (s : RuleTable)

/-- The rules in the order of the chain. -/
def rules : List ProcessRule :=
  (s.store.links.follow s.store.live.card (s.store.links.head ())).map s.store.node

/-- What the packet path reads of the table. -/
def policy (proxyUdpDnsEnabled : Bool) : Policy := ⟨s.rules, s.hasDomainRules, proxyUdpDnsEnabled⟩

def invalidateUdpDecisions : RuleTable := { s with udpGeneration := s.udpGeneration + 1 }

def updateHasActiveRules : RuleTable :=
  let flags := recomputeFlags s.rules false
  { s.invalidateUdpDecisions with hasActiveRules := flags.1, hasDomainRules := flags.2 }

/-- The link in front of the first rule with the identifier, or the last link of the chain. -/
def find (ruleId : UInt32) : Cursor Unit Addr :=
  s.store.links.seek (fun a => (s.store.node a).ruleId == ruleId) s.store.live.card (.bucket ())

/-- The link that is NULL at the end of the chain. -/
def tail : Cursor Unit Addr := s.store.links.seek (fun _ => false) s.store.live.card (.bucket ())

/-- Allocate the node and link it behind the last rule. -/
def append (a : Addr) (rule : ProcessRule) : RuleTable :=
  { s with store := ⟨insert a s.store.live, Function.update s.store.node a rule, s.store.links.insertAt s.tail a⟩ }

/-- `ProxyBridge_AddRule`. The identifier is used up before the lists are allocated. -/
def addRule (params : RuleParams) (alloc : RuleAllocs) : RuleTable × UInt32 :=
  match params.processName, alloc.rule with
  | none, _ | some [], _ | _, none => (s, 0)
  | some processName, some a =>
    let ruleId := s.nextRuleId
    let s := { s with nextRuleId := ruleId + 1 }
    if alloc.hosts && alloc.ports && alloc.domains then
      ((s.append a (params.built processName ruleId)).updateHasActiveRules, ruleId)
    else (s, 0)

/-- The body that the calls which change one rule in place share. -/
def updateRule (ruleId : UInt32) (f : ProcessRule → ProcessRule) : RuleTable × Bool :=
  match s.store.links.read (s.find ruleId) with
  | none => (s, false)
  | some a => ({ s with store := s.store.modify a f }.updateHasActiveRules, true)

def enableRule (ruleId : UInt32) : RuleTable × Bool :=
  if ruleId == 0 then (s, false) else s.updateRule ruleId (fun rule => { rule with enabled := true })

def disableRule (ruleId : UInt32) : RuleTable × Bool :=
  if ruleId == 0 then (s, false) else s.updateRule ruleId (fun rule => { rule with enabled := false })

def deleteRule (ruleId : UInt32) : RuleTable × Bool :=
  if ruleId == 0 then (s, false)
  else
    match s.store.links.read (s.find ruleId) with
    | none => (s, false)
    | some a => ({ s with store := s.store.removeAt (s.find ruleId) a }.updateHasActiveRules, true)

/-- `ProxyBridge_EditRule`, where `hosts`, `ports` and `domains` say whether `_strdup` succeeds. -/
def editRule (ruleId : UInt32) (params : RuleParams) (hosts ports domains : Bool) : RuleTable × Bool :=
  match params.processName, params.targetHosts, params.targetPorts with
  | some processName, some targetHosts, some targetPorts =>
    if ruleId == 0 then (s, false)
    else if hosts && ports && domains then s.updateRule ruleId (params.edited processName targetHosts targetPorts)
    else (s, false)
  | _, _, _ => (s, false)

/-- The count of the nodes in front of the rule, starting at `position`. -/
def positionFrom (ruleId : UInt32) : Nat → Option Addr → UInt32 → UInt32
  | 0, _, _ => 0
  | _+1, none, _ => 0
  | fuel+1, some a, position =>
    if (s.store.node a).ruleId == ruleId then position
    else positionFrom ruleId fuel (s.store.links.next a) (position + 1)

def getRulePosition (ruleId : UInt32) : UInt32 :=
  if ruleId == 0 then 0 else s.positionFrom ruleId s.store.live.card (s.store.links.head ()) 1

end RuleTable

/-- `while (current != NULL && pos < limit)`. -/
def walkTo (links : Links Unit Addr) (limit : UInt32) : Nat → Option Addr → UInt32 → Option Addr
  | 0, current, _ => current
  | _+1, none, _ => none
  | fuel+1, some a, pos => if pos < limit then walkTo links limit fuel (links.next a) (pos + 1) else some a

/-- `while (current->next != NULL)`, from a node. -/
def lastNode (links : Links Unit Addr) : Nat → Addr → Addr
  | 0, current => current
  | fuel+1, current =>
    match links.next current with
    | none => current
    | some a => lastNode links fuel a

/-- The second half of `ProxyBridge_MoveRuleToPosition`, which links the rule in again. There is no
result where it dereferences NULL, which the search for the last rule does in an empty list. -/
def relink (links : Links Unit Addr) (fuel : Nat) (a : Addr) (newPosition : UInt32) :
    Option (Links Unit Addr) :=
  if newPosition == 1 then some (links.insertAt (.bucket ()) a)
  else
    match walkTo links (newPosition - 1) fuel (links.head ()) 1 with
    | some current => some (links.insertAt (.field current) a)
    | none =>
      (links.head ()).map (fun first =>
        (links.write (.field (lastNode links fuel first)) (some a)).write (.field a) none)

namespace RuleTable
variable (s : RuleTable)

/-- `ProxyBridge_MoveRuleToPosition`, with no result where it dereferences NULL. -/
def moveRuleToPosition (ruleId newPosition : UInt32) : Option (RuleTable × Bool) :=
  if ruleId == 0 || newPosition == 0 then some (s, false)
  else
    match s.store.links.read (s.find ruleId) with
    | none => some (s, false)
    | some a =>
      (relink (s.store.links.unlink (s.find ruleId)) s.store.live.card a newPosition).map (fun links =>
        ({ s with store := { s.store with links := links } }.invalidateUdpDecisions, true))

end RuleTable

/-- A call of the rule API. -/
inductive RuleCall where
  | addRule (params : RuleParams) (alloc : RuleAllocs)
  | enableRule (ruleId : UInt32)
  | disableRule (ruleId : UInt32)
  | deleteRule (ruleId : UInt32)
  | editRule (ruleId : UInt32) (params : RuleParams) (hosts ports domains : Bool)
  | moveRuleToPosition (ruleId newPosition : UInt32)

/-- The table after the call has returned. -/
def RuleTable.call (s : RuleTable) : RuleCall → Option RuleTable
  | .addRule params alloc => some (s.addRule params alloc).1
  | .enableRule ruleId => some (s.enableRule ruleId).1
  | .disableRule ruleId => some (s.disableRule ruleId).1
  | .deleteRule ruleId => some (s.deleteRule ruleId).1
  | .editRule ruleId params hosts ports domains => some (s.editRule ruleId params hosts ports domains).1
  | .moveRuleToPosition ruleId newPosition => (s.moveRuleToPosition ruleId newPosition).map (·.1)

/-- `malloc` returns a block that is not in use. -/
def RuleCall.Fresh (s : RuleTable) : RuleCall → Prop
  | .addRule _ alloc => ∀ a, alloc.rule = some a → a ∉ s.store.live
  | _ => True

def RuleCall.additions : RuleCall → Nat
  | .addRule .. => 1
  | _ => 0

/-- A table with the number of calls of `ProxyBridge_AddRule` that led to it. -/
structure RuleHistory where
  table : RuleTable
  additions : Nat

namespace RuleHistory

def initial : RuleHistory := ⟨.initial, 0⟩

def call (h : RuleHistory) (c : RuleCall) : Option RuleHistory :=
  (h.table.call c).map (⟨·, h.additions + c.additions⟩)

/-- What completed calls lead to, one at a time. -/
abbrev Reached : RuleHistory → Prop := Runs.Reach call (fun h c => c.Fresh h.table) initial

end RuleHistory

namespace RuleTable
variable {s : RuleTable} {nodes : List Addr}

/-- `rules_list` runs through exactly the allocated rules, in this order. -/
abbrev Threaded (s : RuleTable) (nodes : List Addr) : Prop := s.store.Chained (fun _ => ()) (fun _ => nodes)

def Linked (s : RuleTable) : Prop := ∃ nodes, s.Threaded nodes

private theorem Threaded.length_le (h : s.Threaded nodes) : nodes.length ≤ s.store.live.card :=
  h.represents.row_length_le () s.store.live (h.live_of_mem ())

theorem Threaded.rules_eq (h : s.Threaded nodes) : s.rules = nodes.map s.store.node := by
  unfold rules
  rw [h.represents.follow_eq () _ h.length_le]

/-- The rule that a search stops at, with what stands in front of it and behind it. -/
theorem Threaded.find_cases (h : s.Threaded nodes) (ruleId : UInt32) :
    (s.store.links.read (s.find ruleId) = none ∧ ∀ rule ∈ s.rules, rule.ruleId ≠ ruleId) ∨
    ∃ done a rest, nodes = done ++ a :: rest ∧ s.find ruleId = .after () done ∧
      s.store.links.read (s.find ruleId) = some a ∧ (s.store.node a).ruleId = ruleId ∧
      ∀ b ∈ done, (s.store.node b).ruleId ≠ ruleId := by
  rcases h.represents.seek_cases (fun a => (s.store.node a).ruleId == ruleId) () _ h.length_le with
    ⟨hread, _, hall⟩ | ⟨done, a, rest, hr, hseek, hread, ha, hdone⟩
  · refine .inl ⟨hread, ?_⟩
    intro rule hrule
    rw [h.rules_eq] at hrule
    obtain ⟨a, ha, rfl⟩ := List.mem_map.mp hrule
    simpa using hall a ha
  · refine .inr ⟨done, a, rest, hr, hseek, ?_, by simpa using ha, fun b hb => by simpa using hdone b hb⟩
    rw [find, hseek]
    exact hread

theorem update_rows (nodes row : List Addr) : Function.update (fun _ : Unit => nodes) () row = fun _ => row := by
  funext u
  exact Function.update_self ..

theorem initial_linked : initial.Linked :=
  ⟨[], Links.empty_represents, fun a => by simp [initial], fun _ a ha => by cases ha⟩

private theorem Threaded.tail_eq (h : s.Threaded nodes) : s.tail = .after () nodes := by
  unfold tail
  rcases h.represents.seek_cases (fun _ => false) () _ h.length_le with ⟨_, hseek, _⟩ | ⟨_, _, _, _, _, _, hfalse, _⟩
  · exact hseek
  · exact absurd hfalse Bool.false_ne_true

/-- Appending a fresh node puts its rule behind the others. -/
theorem Threaded.append (h : s.Threaded nodes) {a : Addr} (ha : a ∉ s.store.live) (rule : ProcessRule) :
    (s.append a rule).Threaded (nodes ++ [a]) ∧ (s.append a rule).rules = s.rules ++ [rule] := by
  have hnot : a ∉ nodes := fun hn => ha (h.live_of_mem () a hn)
  have hins := h.represents.insert_after (a := a) () nodes [] (fun _ => hnot) (List.append_nil _).symm
  have hthreaded : (s.append a rule).Threaded (nodes ++ [a]) := by
    refine ⟨?_, ?_, fun _ _ _ => rfl⟩
    · rw [← h.tail_eq] at hins
      exact hins
    · intro b
      have hmem := h.mem b
      simp only [exists_const] at hmem
      simp [RuleTable.append, hmem, or_comm]
  refine ⟨hthreaded, ?_⟩
  rw [hthreaded.rules_eq, h.rules_eq, List.map_append]
  congr 1
  · refine List.map_congr_left (fun b hb => ?_)
    have hne : b ≠ a := by rintro rfl; exact hnot hb
    exact Function.update_of_ne hne ..
  · simp [RuleTable.append]

/-- `ProxyBridge_AddRule` accepts a process name while memory lasts. -/
def accepts (params : RuleParams) (alloc : RuleAllocs) : Bool :=
  (match params.processName with
    | none | some [] => false
    | _ => true) && alloc.rule.isSome && alloc.hosts && alloc.ports && alloc.domains

/-- A rule that is accepted goes behind the others under the next identifier, and otherwise the
list stays. -/
theorem addRule_cases (h : s.Linked) (params : RuleParams) (alloc : RuleAllocs)
    (hfresh : ∀ a, alloc.rule = some a → a ∉ s.store.live) :
    (accepts params alloc = false ∧ (s.addRule params alloc).2 = 0 ∧
      ((s.addRule params alloc).1 = s ∨ (s.addRule params alloc).1 = { s with nextRuleId := s.nextRuleId + 1 })) ∨
    ∃ (processName : List UInt8) (s' : RuleTable), accepts params alloc = true ∧ params.processName = some processName ∧
      s.addRule params alloc = (s'.updateHasActiveRules, s.nextRuleId) ∧ s'.Linked ∧
      s'.rules = s.rules ++ [params.built processName s.nextRuleId] ∧ s'.nextRuleId = s.nextRuleId + 1 := by
  obtain ⟨nodes, h⟩ := h
  rcases hname : params.processName with _ | _ | ⟨c, name⟩
  · exact .inl (by simp [accepts, addRule, hname])
  · exact .inl (by simp [accepts, addRule, hname])
  · cases hrule : alloc.rule with
    | none => exact .inl (by simp [accepts, addRule, hname, hrule])
    | some a =>
      cases hlists : alloc.hosts && alloc.ports && alloc.domains with
      | false =>
        refine .inl ⟨?_, ?_, .inr ?_⟩
        · simpa [accepts, hname, hrule, Bool.and_assoc] using hlists
        · simp [addRule, hname, hrule, hlists]
        · simp [addRule, hname, hrule, hlists]
      | true =>
        have happend := Threaded.append (s := { s with nextRuleId := s.nextRuleId + 1 }) h (hfresh a hrule)
          (params.built (c :: name) s.nextRuleId)
        refine .inr ⟨c :: name, _, ?_, rfl, ?_, ⟨_, happend.1⟩, happend.2, rfl⟩
        · simpa [accepts, hname, hrule, Bool.and_assoc] using hlists
        · simp [addRule, hname, hrule, hlists]

/-- Changing the first rule with the identifier in place. -/
theorem updateRule_cases (h : s.Linked) (ruleId : UInt32) (f : ProcessRule → ProcessRule) :
    (s.updateRule ruleId f = (s, false) ∧ ∀ rule ∈ s.rules, rule.ruleId ≠ ruleId) ∨
    ∃ (pre : List ProcessRule) (rule : ProcessRule) (post : List ProcessRule) (s' : RuleTable),
      s.rules = pre ++ rule :: post ∧ rule.ruleId = ruleId ∧
      (∀ r ∈ pre, r.ruleId ≠ ruleId) ∧ s.updateRule ruleId f = (s'.updateHasActiveRules, true) ∧
      s'.Linked ∧ s'.rules = pre ++ f rule :: post ∧ s'.nextRuleId = s.nextRuleId := by
  obtain ⟨nodes, h⟩ := h
  rcases h.find_cases ruleId with ⟨hread, hall⟩ | ⟨done, a, rest, hr, _, hread, hid, hdone⟩
  · exact .inl ⟨by simp [updateRule, hread], hall⟩
  · have hthreaded : RuleTable.Threaded { s with store := s.store.modify a f } nodes :=
      ⟨h.represents, h.mem, fun _ _ _ => rfl⟩
    have hnd : (done ++ a :: rest).Nodup := hr ▸ h.represents.nodup ()
    have hkeep : ∀ l : List Addr, a ∉ l → l.map (s.store.modify a f).node = l.map s.store.node := by
      intro l hl
      refine List.map_congr_left (fun b hb => ?_)
      have hne : b ≠ a := by rintro rfl; exact hl hb
      exact Function.update_of_ne hne ..
    obtain ⟨hrest, hd⟩ : a ∉ rest ∧ a ∉ done := by
      obtain ⟨_, htail, hcross⟩ := List.nodup_append.mp hnd
      exact ⟨(List.nodup_cons.mp htail).1, fun ha => hcross a ha a List.mem_cons_self rfl⟩
    refine .inr ⟨done.map s.store.node, s.store.node a, rest.map s.store.node, _, ?_, hid, ?_, ?_, ⟨nodes, hthreaded⟩,
      ?_, rfl⟩
    · rw [h.rules_eq, hr, List.map_append, List.map_cons]
    · intro r hmem
      obtain ⟨b, hb, rfl⟩ := List.mem_map.mp hmem
      exact hdone b hb
    · simp only [updateRule, hread]
    · rw [hthreaded.rules_eq, hr, List.map_append, List.map_cons, hkeep done hd, hkeep rest hrest]
      simp [ChainStore.modify]

/-- Deleting takes the first rule with the identifier out of the list. -/
theorem deleteRule_cases (h : s.Linked) (ruleId : UInt32) :
    (s.deleteRule ruleId = (s, false) ∧ (ruleId = 0 ∨ ∀ rule ∈ s.rules, rule.ruleId ≠ ruleId)) ∨
    ∃ (pre : List ProcessRule) (rule : ProcessRule) (post : List ProcessRule) (s' : RuleTable),
      s.rules = pre ++ rule :: post ∧ rule.ruleId = ruleId ∧ ruleId ≠ 0 ∧
      (∀ r ∈ pre, r.ruleId ≠ ruleId) ∧ s.deleteRule ruleId = (s'.updateHasActiveRules, true) ∧
      s'.Linked ∧ s'.rules = pre ++ post ∧ s'.nextRuleId = s.nextRuleId := by
  obtain ⟨nodes, h⟩ := h
  by_cases hz : ruleId = 0
  · exact .inl ⟨by simp [deleteRule, hz], .inl hz⟩
  rcases h.find_cases ruleId with ⟨hread, hall⟩ | ⟨done, a, rest, hr, hfind, hread, hid, hdone⟩
  · exact .inl ⟨by simp [deleteRule, hz, hread], .inr hall⟩
  · have hthreaded : RuleTable.Threaded { s with store := s.store.removeAt (s.find ruleId) a } (done ++ rest) := by
      have hremove := ChainStore.Chained.removeAt (i := ()) h hr
      rw [← hfind] at hremove
      rwa [update_rows] at hremove
    refine .inr ⟨done.map s.store.node, s.store.node a, rest.map s.store.node, _, ?_, hid, hz, ?_, ?_,
      ⟨_, hthreaded⟩, ?_, rfl⟩
    · rw [h.rules_eq, hr, List.map_append, List.map_cons]
    · intro r hmem
      obtain ⟨b, hb, rfl⟩ := List.mem_map.mp hmem
      exact hdone b hb
    · simp [deleteRule, hz, hread]
    · rw [hthreaded.rules_eq, List.map_append]
      rfl

end RuleTable

end ProxyBridge.Windows
