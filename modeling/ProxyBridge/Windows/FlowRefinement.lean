import ProxyBridge.Windows.ConntrackRuns
import ProxyBridge.Windows.FlowMap

/-! The forward table against the finite map it stands for. A call rewrites the entry of its own
flow, a section of a cleanup pass drops the stale entries of a bucket, and the lookups answer
with the last add of a flow that nothing has removed since. -/
namespace ProxyBridge.Windows
open Runs

/-- The flow that a call is about. The reverse lookup, the whole pass and the clearing have none. -/
def TableOp.key : TableOp → Option FlowKey
  | .addConnection _ _ _ srcPort isUdp .. => some ⟨srcPort, isUdp, false⟩
  | .addConnectionV6 _ _ _ srcPort isUdp .. => some ⟨srcPort, isUdp, true⟩
  | .udpFlowStamp port ipv6 _ => some ⟨port, true, ipv6⟩
  | .udpFlowValidate _ _ port ipv6 .. => some ⟨port, true, ipv6⟩
  | .connectionFin _ srcPort isIpv6 _ => some ⟨srcPort, false, isIpv6⟩
  | .getConnection _ srcPort isUdp => some ⟨srcPort, isUdp, false⟩
  | .getConnectionFull _ srcPort isUdp => some ⟨srcPort, isUdp, false⟩
  | .getConnectionFullV6 _ srcPort isUdp => some ⟨srcPort, isUdp, true⟩
  | .removeConnection srcPort isUdp isIpv6 => some ⟨srcPort, isUdp, isIpv6⟩
  | .findV4UdpSender .. | .cleanupStaleConnections _ | .clearAll => none

/-- What a call makes of the entry of its flow. -/
def TableOp.effect : TableOp → Option FlowEntry → Option FlowEntry
  | .addConnection generation now _ _ _ srcIp destIp destPort proxyConfigId, _ =>
    some ⟨.v4 srcIp, .v4 destIp, destPort, proxyConfigId, true, 0, generation, now⟩
  | .addConnectionV6 generation now _ _ _ srcIp6 destIp6 destPort proxyConfigId, _ =>
    some ⟨.v6 srcIp6, .v6 destIp6, destPort, proxyConfigId, true, 0, generation, now⟩
  | .udpFlowStamp _ _ generation, e => e.map (fun e => { e with policyGeneration := generation })
  | .udpFlowValidate generation now _ ipv6 source source6 destination destination6 destinationPort, e =>
    (e.filter (fun e => e.udpValid generation now (.select ipv6 source source6)
      (.select ipv6 destination destination6) destinationPort)).map (FlowEntry.touch now)
  | .connectionFin now _ _ bit, e => e.map (fun e => { e with finFlags := e.finFlags ||| bit, lastActivity := now })
  | .getConnection now .., e => e.map (FlowEntry.touch now)
  | .getConnectionFull now .., e => e.map (FlowEntry.touch now)
  | .getConnectionFullV6 now .., e => e.map (FlowEntry.touch now)
  | .removeConnection .., _ => none
  | .findV4UdpSender .., e | .cleanupStaleConnections _, e | .clearAll, e => e

/-- Whether a call asks `calloc` for a node when its flow is new. -/
def TableOp.adds : TableOp → Bool
  | .addConnection .. | .addConnectionV6 .. => true
  | _ => false

/-- A call on tables in which an allocation, if there is one, succeeds. -/
structure TableOp.Succeeds (t : Tables) (op : TableOp) : Prop where
  admissible : op.Admissible t
  allocated : op.adds = true → op.alloc.isSome = true

/-- The destination, port and proxy configuration that an add gives a flow. -/
inductive Binding where
  | v4 (destIp : UInt32) (destPort : UInt16) (proxyConfigId : UInt32)
  | v6 (destIp6 : Ip6) (destPort : UInt16) (proxyConfigId : UInt32)
  deriving DecidableEq

def FlowEntry.binding (e : FlowEntry) : Binding :=
  match e.dest with
  | .v4 ip => .v4 ip e.destPort e.proxyConfigId
  | .v6 ip6 => .v6 ip6 e.destPort e.proxyConfigId

/-- What the five lookups answer about one flow; the lookups of the other family are not made. -/
structure Answers where
  connection : Option (UInt32 × UInt16)
  full : Option (UInt32 × UInt16 × UInt32)
  proxyId : UInt32
  fullV6 : Option (Ip6 × UInt16 × UInt32)
  tracked : Bool
  deriving DecidableEq

def Tables.answers (t : Tables) (now : UInt64) (k : FlowKey) : Answers :=
  if k.isIpv6 then
    ⟨none, none, 0, (t.getConnectionFullV6 now k.srcPort k.isUdp).1,
      t.isConnectionTracked k.srcPort k.isUdp k.isIpv6⟩
  else
    ⟨(t.getConnection now k.srcPort k.isUdp).1, (t.getConnectionFull now k.srcPort k.isUdp).1,
      t.getConnectionProxyId k.srcPort k.isUdp, none, t.isConnectionTracked k.srcPort k.isUdp k.isIpv6⟩

/-- The answers for a flow with this binding, and for a flow with none. -/
def Binding.answers : Option Binding → Answers
  | some (.v4 destIp destPort proxyConfigId) =>
    ⟨some (destIp, destPort), some (destIp, destPort, proxyConfigId), proxyConfigId, none, true⟩
  | some (.v6 destIp6 destPort proxyConfigId) => ⟨none, none, 0, some (destIp6, destPort, proxyConfigId), true⟩
  | none => ⟨none, none, 0, none, false⟩

inductive TableStep where
  | call (op : TableOp)
  | sweep (now : UInt64) (i : Bucket)

/-- The tables beside the map they are to refine and the bindings that history leaves. -/
structure Ledger where
  tables : Tables
  map : FlowMap
  bound : FlowKey → Option Binding

namespace Ledger

def init : Ledger := ⟨.empty, fun _ => none, fun _ => none⟩

/-- An add binds its flow; `remove_connection` and an `udp_flow_validate` that answers FALSE unbind
theirs. -/
def rebind (l : Ledger) : TableOp → FlowKey → Option Binding
  | .addConnection _ _ _ srcPort isUdp _ destIp destPort proxyConfigId =>
    Function.update l.bound ⟨srcPort, isUdp, false⟩ (some (.v4 destIp destPort proxyConfigId))
  | .addConnectionV6 _ _ _ srcPort isUdp _ destIp6 destPort proxyConfigId =>
    Function.update l.bound ⟨srcPort, isUdp, true⟩ (some (.v6 destIp6 destPort proxyConfigId))
  | .removeConnection srcPort isUdp isIpv6 => Function.update l.bound ⟨srcPort, isUdp, isIpv6⟩ none
  | .udpFlowValidate generation now port ipv6 source source6 destination destination6 destinationPort =>
    if (l.tables.udpFlowValidate generation now port ipv6 source source6 destination destination6
      destinationPort).1 then l.bound
    else Function.update l.bound ⟨port, true, ipv6⟩ none
  | _ => l.bound

/-- A section of a cleanup pass reaches a flow of its bucket whose entry is stale. -/
def Sweeps (l : Ledger) (now : UInt64) (i : Bucket) (k : FlowKey) : Bool :=
  decide (bucketOf k.srcPort = i) && (l.map k).any (·.isStale now)

def step (l : Ledger) : TableStep → Option Ledger
  | .call op => op.key.map (fun k =>
    ⟨l.tables.apply op, Function.update l.map k (op.effect (l.map k)), l.rebind op⟩)
  | .sweep now i => some
    ⟨Tables.sweepBucket now l.tables i, fun k => if l.Sweeps now i k then none else l.map k,
      fun k => if l.Sweeps now i k then none else l.bound k⟩

/-- Allocation succeeds. -/
def Succeeds (l : Ledger) : TableStep → Prop
  | .call op => op.Succeeds l.tables
  | .sweep .. => True

/-- The tables hold the map, and the map holds for each flow what it is bound to. -/
structure Refines (l : Ledger) : Prop where
  consistent : l.tables.Consistent
  flow : l.tables.flow = l.map
  binding : ∀ k, (l.map k).map FlowEntry.binding = l.bound k
  tracked : ∀ k e, l.map k = some e → e.isTracked = true

end Ledger

namespace Tables.Consistent
variable {t : Tables}

/-- A call rewrites the entry of its own flow. -/
theorem flow_apply (h : t.Consistent) {op : TableOp} {k : FlowKey} (hop : op.Succeeds t) (hk : op.key = some k) :
    (t.apply op).flow = Function.update t.flow k (op.effect (t.flow k)) := by
  obtain ⟨hadm, halloc⟩ := hop
  cases op with
  | addConnection generation now alloc srcPort isUdp srcIp destIp destPort proxyConfigId =>
    obtain rfl := Option.some.inj hk
    have hsome : alloc ≠ none := Option.isSome_iff_ne_none.mp (halloc rfl)
    have hfresh : t.Fresh alloc := hadm
    rw [Tables.apply, h.flow_addConnection hfresh, if_neg (fun hn => hsome hn.2)]
    rfl
  | addConnectionV6 generation now alloc srcPort isUdp srcIp6 destIp6 destPort proxyConfigId =>
    obtain rfl := Option.some.inj hk
    have hsome : alloc ≠ none := Option.isSome_iff_ne_none.mp (halloc rfl)
    have hfresh : t.Fresh alloc := hadm
    rw [Tables.apply, h.flow_addConnectionV6 hfresh, if_neg (fun hn => hsome hn.2)]
    rfl
  | udpFlowStamp port ipv6 generation =>
    obtain rfl := Option.some.inj hk
    exact h.flow_udpFlowStamp port ipv6 generation
  | udpFlowValidate generation now port ipv6 source source6 destination destination6 destinationPort =>
    obtain rfl := Option.some.inj hk
    rw [Tables.apply, (h.flow_udpFlowValidate generation now port ipv6 source source6 destination destination6
      destinationPort).2]
    cases he : t.flow ⟨port, true, ipv6⟩ with
    | none => simp [TableOp.effect]
    | some e =>
      simp only [Option.any_some, TableOp.effect, Option.filter]
      split
      · rw [FlowMap.alter, he]
      · rfl
  | connectionFin now srcPort isIpv6 bit =>
    obtain rfl := Option.some.inj hk
    exact h.flow_connectionFin now srcPort isIpv6 bit
  | getConnection now srcPort isUdp =>
    obtain rfl := Option.some.inj hk
    exact h.flow_touch now ⟨srcPort, isUdp, false⟩
  | getConnectionFull now srcPort isUdp =>
    obtain rfl := Option.some.inj hk
    exact h.flow_touch now ⟨srcPort, isUdp, false⟩
  | getConnectionFullV6 now srcPort isUdp =>
    obtain rfl := Option.some.inj hk
    exact h.flow_touch now ⟨srcPort, isUdp, true⟩
  | removeConnection srcPort isUdp isIpv6 =>
    obtain rfl := Option.some.inj hk
    exact h.flow_removeConnection srcPort isUdp isIpv6
  | findV4UdpSender now origDestIp origDestPort => cases hk
  | cleanupStaleConnections now => cases hk
  | clearAll => cases hk

/-- No call changes the entry of another flow, whether its allocation succeeds or not. -/
theorem flow_apply_of_ne (h : t.Consistent) {op : TableOp} {j k : FlowKey} (hadm : op.Admissible t)
    (hj : op.key = some j) (hne : k ≠ j) : (t.apply op).flow k = t.flow k := by
  cases hadd : op.adds with
  | false =>
    rw [h.flow_apply ⟨hadm, fun ht => (Bool.false_ne_true (hadd.symm.trans ht)).elim⟩ hj]
    exact Function.update_of_ne hne _ _
  | true =>
    cases op with
    | addConnection generation now alloc srcPort isUdp srcIp destIp destPort proxyConfigId =>
      obtain rfl := Option.some.inj hj
      have hfresh : t.Fresh alloc := hadm
      rw [Tables.apply, h.flow_addConnection hfresh]
      split
      · rfl
      · exact Function.update_of_ne hne _ _
    | addConnectionV6 generation now alloc srcPort isUdp srcIp6 destIp6 destPort proxyConfigId =>
      obtain rfl := Option.some.inj hj
      have hfresh : t.Fresh alloc := hadm
      rw [Tables.apply, h.flow_addConnectionV6 hfresh]
      split
      · rfl
      · exact Function.update_of_ne hne _ _
    | _ => cases hadd

/-- The lookups read the map: a flow of either family, and only it, is what they answer about. -/
theorem answers_eq (h : t.Consistent) (now : UInt64) (k : FlowKey)
    (htracked : ∀ e, t.flow k = some e → e.isTracked = true) :
    t.answers now k = Binding.answers ((t.flow k).map FlowEntry.binding) := by
  have hflag := h.isConnectionTracked_eq k
  cases hl : t.lookup k.srcPort k.isUdp k.isIpv6 with
  | none =>
    have hflow : t.flow k = none := by simp [Tables.flow, hl]
    rw [hflow] at hflag ⊢
    obtain ⟨srcPort, isUdp, isIpv6⟩ := k
    simp only [Tables.answers, hflag]
    cases isIpv6
    · simp [Tables.getConnection, Tables.getConnectionFull, Tables.getConnectionProxyId, hl, Binding.answers]
    · simp [Tables.getConnectionFullV6, hl, Binding.answers]
  | some a =>
    obtain ⟨ha, hk⟩ := (h.lookup_eq_some k a).mp hl
    have hflow : t.flow k = some (t.node a).entry := by simp [Tables.flow, hl]
    have hv : (t.node a).isIpv6 = k.isIpv6 := congrArg FlowKey.isIpv6 hk
    have ht := htracked _ hflow
    rw [hflow] at hflag ⊢
    obtain ⟨srcPort, isUdp, isIpv6⟩ := k
    simp only [Tables.answers, hflag, Option.any_some, ht]
    cases isIpv6
    · simp [Tables.getConnection, Tables.getConnectionFull, Tables.getConnectionProxyId, hl, Binding.answers,
        FlowEntry.binding, ConnectionInfo.entry, IpAddr.select, hv]
    · simp [Tables.getConnectionFullV6, hl, Binding.answers, FlowEntry.binding, ConnectionInfo.entry,
        IpAddr.select, hv]

end Tables.Consistent

/-- The two comparisons of `udp_flow_validate` bound the age, which is negative for a clock that was
read before the entry was last touched. -/
private theorem age_le_iff (now lastActivity : UInt64) :
    (decide (now ≤ lastActivity) || decide (now - lastActivity ≤ 20000)) = true ↔
      (now.toNat : Int) - lastActivity.toNat ≤ 20000 := by
  rw [Bool.or_eq_true, decide_eq_true_iff, decide_eq_true_iff]
  rcases UInt64.le_total now lastActivity with hle | hle
  · have hn := UInt64.le_iff_toNat_le.mp hle
    exact ⟨fun _ => by omega, fun _ => .inl hle⟩
  · rw [UInt64.le_iff_toNat_le, UInt64.le_iff_toNat_le, UInt64.toNat_sub_of_le _ _ hle]
    have hn := UInt64.le_iff_toNat_le.mp hle
    have hc : (20000 : UInt64).toNat = 20000 := rfl
    rw [hc]
    omega

theorem FlowEntry.udpValid_iff (e : FlowEntry) (generation : UInt32) (now : UInt64) (source destination : IpAddr)
    (destinationPort : UInt16) :
    e.udpValid generation now source destination destinationPort = true ↔
      e.source = source ∧ e.dest = destination ∧ e.destPort = destinationPort ∧
      e.policyGeneration = generation ∧ (now.toNat : Int) - e.lastActivity.toNat ≤ 20000 := by
  rw [FlowEntry.udpValid, Bool.and_eq_true, age_le_iff]
  simp only [Bool.and_eq_true, beq_iff_eq]
  tauto

namespace Ledger
variable {l : Ledger}

theorem refines_init : init.Refines where
  consistent := consistent_empty
  flow := funext flow_empty
  binding _ := rfl
  tracked _ _ he := nomatch he

private theorem map_tracked {e : Option FlowEntry} {f : FlowEntry → FlowEntry} {e' : FlowEntry}
    (h : e.map f = some e') (he : ∀ d, e = some d → d.isTracked = true)
    (hf : ∀ d, (f d).isTracked = d.isTracked) : e'.isTracked = true := by
  obtain ⟨d, hd, rfl⟩ := Option.map_eq_some_iff.mp h
  exact (hf d).trans (he d hd)

private theorem effect_tracked {op : TableOp} {e : Option FlowEntry} {e' : FlowEntry}
    (he : ∀ d, e = some d → d.isTracked = true) (h : op.effect e = some e') : e'.isTracked = true := by
  cases op with
  | addConnection => exact Option.some.inj h ▸ rfl
  | addConnectionV6 => exact Option.some.inj h ▸ rfl
  | udpFlowStamp => exact map_tracked h he (fun _ => rfl)
  | udpFlowValidate =>
    exact map_tracked h (fun d hd => he d (Option.filter_eq_some_iff.mp hd).1) (fun _ => rfl)
  | connectionFin => exact map_tracked h he (fun _ => rfl)
  | getConnection => exact map_tracked h he (fun _ => rfl)
  | getConnectionFull => exact map_tracked h he (fun _ => rfl)
  | getConnectionFullV6 => exact map_tracked h he (fun _ => rfl)
  | removeConnection => cases h
  | findV4UdpSender => exact he e' h
  | cleanupStaleConnections => exact he e' h
  | clearAll => exact he e' h

private theorem rebind_of_ne {op : TableOp} {j k : FlowKey} (hk : op.key = some k) (hne : j ≠ k) :
    l.rebind op j = l.bound j := by
  cases op with
  | addConnection => exact Function.update_of_ne (Option.some.inj hk ▸ hne) _ _
  | addConnectionV6 => exact Function.update_of_ne (Option.some.inj hk ▸ hne) _ _
  | removeConnection => exact Function.update_of_ne (Option.some.inj hk ▸ hne) _ _
  | udpFlowValidate =>
    simp only [rebind]
    split
    · rfl
    · exact Function.update_of_ne (Option.some.inj hk ▸ hne) _ _
  | _ => rfl

/-- What a call does to its entry is what history says of its binding. -/
private theorem Refines.effect_binding (h : l.Refines) {op : TableOp} {k : FlowKey} (hk : op.key = some k) :
    (op.effect (l.map k)).map FlowEntry.binding = l.rebind op k := by
  have hkeep := h.binding k
  have hmap : ∀ f : FlowEntry → FlowEntry, (∀ d, (f d).binding = d.binding) →
      ((l.map k).map f).map FlowEntry.binding = l.bound k := by
    intro f hf
    rw [Option.map_map, ← hkeep]
    exact congrArg (fun g => (l.map k).map g) (funext hf)
  cases op with
  | addConnection =>
    obtain rfl := Option.some.inj hk
    simp [TableOp.effect, rebind, FlowEntry.binding]
  | addConnectionV6 =>
    obtain rfl := Option.some.inj hk
    simp [TableOp.effect, rebind, FlowEntry.binding]
  | removeConnection =>
    obtain rfl := Option.some.inj hk
    simp [TableOp.effect, rebind]
  | udpFlowValidate generation now port ipv6 source source6 destination destination6 destinationPort =>
    obtain rfl := Option.some.inj hk
    have hv := (h.consistent.flow_udpFlowValidate generation now port ipv6 source source6 destination destination6
      destinationPort).1
    rw [h.flow] at hv
    simp only [rebind, hv, TableOp.effect]
    cases he : l.map ⟨port, true, ipv6⟩ with
    | none => simp
    | some e =>
      rw [he] at hkeep
      simp only [Option.any_some, Option.filter]
      split
      · exact hkeep
      · simp
  | udpFlowStamp => exact hmap _ (fun _ => rfl)
  | connectionFin => exact hmap _ (fun _ => rfl)
  | getConnection => exact hmap _ (fun _ => rfl)
  | getConnectionFull => exact hmap _ (fun _ => rfl)
  | getConnectionFullV6 => exact hmap _ (fun _ => rfl)
  | findV4UdpSender => exact hkeep
  | cleanupStaleConnections => exact hkeep
  | clearAll => exact hkeep

theorem Refines.call (h : l.Refines) {op : TableOp} {k : FlowKey} (hop : op.Succeeds l.tables)
    (hk : op.key = some k) :
    Refines ⟨l.tables.apply op, Function.update l.map k (op.effect (l.map k)), l.rebind op⟩ where
  consistent := h.consistent.apply hop.admissible
  flow := by
    have ha := h.consistent.flow_apply hop hk
    rwa [h.flow] at ha
  binding j := by
    by_cases hj : j = k
    · subst hj
      simp only [Function.update_self]
      exact h.effect_binding hk
    · simp only [Function.update_of_ne hj]
      rw [rebind_of_ne hk hj]
      exact h.binding j
  tracked j e he := by
    by_cases hj : j = k
    · subst hj
      simp only [Function.update_self] at he
      exact effect_tracked (fun d hd => h.tracked j d hd) he
    · simp only [Function.update_of_ne hj] at he
      exact h.tracked j e he

theorem Refines.sweep (h : l.Refines) (now : UInt64) (i : Bucket) :
    Refines ⟨Tables.sweepBucket now l.tables i, fun k => if l.Sweeps now i k then none else l.map k,
      fun k => if l.Sweeps now i k then none else l.bound k⟩ where
  consistent := h.consistent.sweepBucket now i
  flow := by
    funext k
    rw [h.consistent.flow_sweepBucket, h.flow]
    cases he : l.map k with
    | none => simp [he]
    | some e =>
      simp only [Sweeps, he, Option.any_some, Option.filter]
      by_cases hs : (decide (bucketOf k.srcPort = i) && e.isStale now) = true
      · simp [hs]
      · simp [hs]
  binding k := by
    simp only
    split
    · rfl
    · exact h.binding k
  tracked k e he := by
    simp only at he
    split at he
    · cases he
    · exact h.tracked k e he

theorem Refines.step {l' : Ledger} {a : TableStep} (h : l.Refines) (hok : l.Succeeds a)
    (hs : l.step a = some l') : l'.Refines := by
  cases a with
  | call op =>
    obtain ⟨k, hk, rfl⟩ := Option.map_eq_some_iff.mp hs
    exact h.call hok hk
  | sweep now i =>
    rw [← Option.some.inj hs]
    exact h.sweep now i

theorem refines_of_reach (h : Reach step Succeeds init l) : l.Refines :=
  h.invariant refines_init (fun _ _ _ hi hok hs => hi.step hok hs)

/-- After any sequence of calls and sweeps the lookups answer, for every flow, with the last add of
the flow that nothing has removed since. A call about one flow changes no answer about another, and
`udp_flow_validate` accepts exactly a flow with the same endpoints, the current generation and an age
of at most twenty seconds. -/
theorem connection_table_refines_flow_map (h : Reach step Succeeds init l) :
    l.tables.flow = l.map ∧
    (∀ now k, l.tables.answers now k = Binding.answers (l.bound k)) ∧
    (∀ op j k now, op.key = some j → op.Admissible l.tables → k ≠ j →
      (l.tables.apply op).answers now k = l.tables.answers now k) ∧
    (∀ generation now port ipv6 source source6 destination destination6 destinationPort,
      (l.tables.udpFlowValidate generation now port ipv6 source source6 destination destination6
        destinationPort).1 = true ↔
      ∃ e, l.map ⟨port, true, ipv6⟩ = some e ∧ e.source = .select ipv6 source source6 ∧
        e.dest = .select ipv6 destination destination6 ∧ e.destPort = destinationPort ∧
        e.policyGeneration = generation ∧ (now.toNat : Int) - e.lastActivity.toNat ≤ 20000) := by
  have hr := refines_of_reach h
  have htracked : ∀ k e, l.tables.flow k = some e → e.isTracked = true := by
    rw [hr.flow]
    exact hr.tracked
  refine ⟨hr.flow, fun now k => ?_, fun op j k now hj hadm hne => ?_, ?_⟩
  · rw [hr.consistent.answers_eq now k (htracked k), hr.flow, hr.binding]
  · have hflow := hr.consistent.flow_apply_of_ne hadm hj hne
    have hcons := hr.consistent.apply hadm
    rw [hr.consistent.answers_eq now k (htracked k), hcons.answers_eq now k (by rw [hflow]; exact htracked k), hflow]
  · intro generation now port ipv6 source source6 destination destination6 destinationPort
    rw [(hr.consistent.flow_udpFlowValidate generation now port ipv6 source source6 destination destination6
      destinationPort).1, hr.flow, Option.any_eq_true]
    refine exists_congr fun e => and_congr_right fun _ => ?_
    exact e.udpValid_iff generation now _ _ destinationPort

/-- A datagram flow of port 5000 that moves to a second destination, beside an IPv6 flow of the same
port that is removed. -/
theorem connection_table_refines_flow_map_rekeyed :
    ∃ l : Ledger, Reach step Succeeds init l ∧
      l.tables.answers 300 ⟨5000, true, false⟩ = Binding.answers (some (.v4 0x08080808 53 2)) ∧
      l.tables.answers 300 ⟨5000, true, true⟩ = Binding.answers none ∧
      (l.tables.udpFlowValidate 1 20200 5000 false 0x0100007f .zero 0x08080808 .zero 53).1 = true := by
  have hfirst : Reach step Succeeds init _ :=
    .next (a := .call (.addConnection 1 100 (some 0) 5000 true 0x0100007f 0x01010101 443 1)) .start
      ⟨fun a _ => Finset.notMem_empty a, fun _ => rfl⟩ rfl
  have hsecond : Reach step Succeeds init _ :=
    hfirst.next (a := .call (.addConnectionV6 1 100 (some 1) 5000 true .zero .zero 443 1))
      ⟨fun a ha => Option.some.inj ha ▸ by decide, fun _ => rfl⟩ rfl
  have hthird : Reach step Succeeds init _ :=
    hsecond.next (a := .call (.addConnection 1 200 (some 2) 5000 true 0x0100007f 0x08080808 53 2))
      ⟨fun a ha => Option.some.inj ha ▸ by decide, fun _ => rfl⟩ rfl
  have hlast : Reach step Succeeds init _ :=
    hthird.next (a := .call (.removeConnection 5000 true true)) ⟨fun a ha => (nomatch ha), fun ha => (nomatch ha)⟩ rfl
  obtain ⟨_, hanswers, _, hvalid⟩ := connection_table_refines_flow_map hlast
  refine ⟨_, hlast, hanswers 300 _, hanswers 300 _, (hvalid _ _ _ _ _ _ _ _ _).mpr ⟨_, rfl, ?_⟩⟩
  decide

end Ledger
end ProxyBridge.Windows
