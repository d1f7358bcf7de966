import ProxyBridge.Windows.ConntrackInvariant

/-! What the connection tables are for: a finite map from flows to tracked destinations. Each
operation on consistent tables is an update of that map at one flow. -/
namespace ProxyBridge.Windows
open IntrusiveChains

inductive IpAddr where
  | v4 (ip : UInt32)
  | v6 (ip6 : Ip6)
  deriving DecidableEq

/-- The address a pair of C arguments stands for: the unused one is ignored. -/
def IpAddr.select (ipv6 : Bool) (ip : UInt32) (ip6 : Ip6) : IpAddr := if ipv6 then .v6 ip6 else .v4 ip

/-- An entry without its key and without the bookkeeping of the reverse index. -/
structure FlowEntry where
  source : IpAddr
  dest : IpAddr
  destPort : UInt16
  proxyConfigId : UInt32
  isTracked : Bool
  finFlags : UInt8
  policyGeneration : UInt32
  lastActivity : UInt64
  deriving DecidableEq

abbrev FlowMap := FlowKey → Option FlowEntry

/-- Rewrite the entry of one flow, if it is tracked. -/
def FlowMap.alter (m : FlowMap) (k : FlowKey) (f : FlowEntry → FlowEntry) : FlowMap :=
  Function.update m k ((m k).map f)

def FlowEntry.touch (now : UInt64) (e : FlowEntry) : FlowEntry := { e with lastActivity := now }

def FlowEntry.udpValid (e : FlowEntry) (generation : UInt32) (now : UInt64) (source destination : IpAddr)
    (destinationPort : UInt16) : Bool :=
  (e.destPort == destinationPort && (e.source == source && e.dest == destination)) &&
    e.policyGeneration == generation &&
    (decide (now ≤ e.lastActivity) || decide (now - e.lastActivity ≤ 20000))

def FlowEntry.staleTimeout (e : FlowEntry) : UInt64 :=
  if e.finFlags == 3 then 60000 else connectionStaleTimeoutMs

def FlowEntry.isStale (now : UInt64) (e : FlowEntry) : Bool :=
  decide (now - e.lastActivity > e.staleTimeout)

def ConnectionInfo.entry (c : ConnectionInfo) : FlowEntry where
  source := .select c.isIpv6 c.srcIp c.srcIp6
  dest := .select c.isIpv6 c.origDestIp c.origDestIp6
  destPort := c.origDestPort
  proxyConfigId := c.proxyConfigId
  isTracked := c.isTracked
  finFlags := c.finFlags
  policyGeneration := c.policyGeneration
  lastActivity := c.lastActivity

/-- The map the tables hold. -/
def Tables.flow (t : Tables) : FlowMap := fun k =>
  (t.lookup k.srcPort k.isUdp k.isIpv6).map (fun a => (t.node a).entry)

@[simp] theorem flow_empty (k : FlowKey) : Tables.empty.flow k = none := rfl

theorem ConnectionInfo.udpValid_entry (c : ConnectionInfo) (generation : UInt32) (now : UInt64)
    (source destination : UInt32) (source6 destination6 : Ip6) (destinationPort : UInt16) :
    c.udpValid generation now c.isIpv6 source destination source6 destination6 destinationPort =
      c.entry.udpValid generation now (.select c.isIpv6 source source6)
        (.select c.isIpv6 destination destination6) destinationPort := by
  cases hv : c.isIpv6 <;>
    simp [ConnectionInfo.udpValid, FlowEntry.udpValid, ConnectionInfo.entry, IpAddr.select, hv, beq_eq_decide]

namespace Tables.Consistent
variable {t t' : Tables}

theorem flow_eq_some (h : t.Consistent) (k : FlowKey) (e : FlowEntry) :
    t.flow k = some e ↔ ∃ a ∈ t.live, (t.node a).key = k ∧ (t.node a).entry = e := by
  simp only [Tables.flow, Option.map_eq_some_iff, h.lookup_eq_some, and_assoc]

theorem flow_of_live (h : t.Consistent) {a : Addr} (ha : a ∈ t.live) :
    t.flow (t.node a).key = some (t.node a).entry :=
  (h.flow_eq_some _ _).mpr ⟨a, ha, rfl, rfl⟩

theorem flow_eq_none (h : t.Consistent) (k : FlowKey) :
    t.flow k = none ↔ ∀ a ∈ t.live, (t.node a).key ≠ k := by
  rw [← h.lookup_eq_none, Tables.flow, Option.map_eq_none_iff]

/-- Writing one node, whether it was live or not, updates the map at its key. -/
theorem flow_write (h : t.Consistent) (h' : t'.Consistent) {a : Addr} {k : FlowKey}
    (hlive : t'.live = insert a t.live)
    (hnode : ∀ b, b ≠ a → (t'.node b).key = (t.node b).key ∧ (t'.node b).entry = (t.node b).entry)
    (hkey : (t'.node a).key = k) (hold : a ∈ t.live → (t.node a).key = k) :
    t'.flow = Function.update t.flow k (some (t'.node a).entry) := by
  funext j
  have ha : a ∈ t'.live := by rw [hlive]; exact Finset.mem_insert_self a t.live
  by_cases hj : j = k
  · subst hj
    rw [Function.update_self, ← hkey]
    exact h'.flow_of_live ha
  · rw [Function.update_of_ne hj]
    apply Option.ext
    intro e
    rw [h'.flow_eq_some, h.flow_eq_some]
    constructor
    · rintro ⟨b, hb, hbk, hbe⟩
      have hba : b ≠ a := by
        rintro rfl
        exact hj (hbk.symm.trans hkey)
      obtain ⟨hk, he⟩ := hnode b hba
      rw [hlive] at hb
      exact ⟨b, Finset.mem_of_mem_insert_of_ne hb hba, hk ▸ hbk, he ▸ hbe⟩
    · rintro ⟨b, hb, hbk, hbe⟩
      have hba : b ≠ a := by
        rintro rfl
        exact hj (hbk.symm.trans (hold hb))
      obtain ⟨hk, he⟩ := hnode b hba
      exact ⟨b, by rw [hlive]; exact Finset.mem_insert_of_mem hb, hk.trans hbk, he.trans hbe⟩

/-- Dropping one live node erases its key from the map. -/
theorem flow_erase (h : t.Consistent) (h' : t'.Consistent) {a : Addr} (ha : a ∈ t.live)
    (hlive : t'.live = t.live.erase a) (hnode : ∀ b, b ≠ a → t'.node b = t.node b) :
    t'.flow = Function.update t.flow (t.node a).key none := by
  funext j
  by_cases hj : j = (t.node a).key
  · subst hj
    rw [Function.update_self, h'.flow_eq_none]
    intro b hb he
    rw [hlive] at hb
    obtain ⟨hba, hb⟩ := Finset.mem_erase.mp hb
    rw [hnode b hba] at he
    exact hba (h.unique hb ha he)
  · rw [Function.update_of_ne hj]
    apply Option.ext
    intro e
    rw [h'.flow_eq_some, h.flow_eq_some]
    constructor
    · rintro ⟨b, hb, hbk, hbe⟩
      rw [hlive] at hb
      obtain ⟨hba, hb⟩ := Finset.mem_erase.mp hb
      rw [hnode b hba] at hbk hbe
      exact ⟨b, hb, hbk, hbe⟩
    · rintro ⟨b, hb, hbk, hbe⟩
      have hba : b ≠ a := by
        rintro rfl
        exact hj hbk.symm
      exact ⟨b, by rw [hlive]; exact Finset.mem_erase.mpr ⟨hba, hb⟩, by rwa [hnode b hba], by rwa [hnode b hba]⟩

/-- Rewriting a node the reverse index does not look at. -/
theorem flow_modify (h : t.Consistent) {a : Addr} (ha : a ∈ t.live) (f : ConnectionInfo → ConnectionInfo)
    (hk : (f (t.node a)).key = (t.node a).key) (hr : (f (t.node a)).revHash = (t.node a).revHash)
    (hi : (f (t.node a)).inRev = (t.node a).inRev)
    (hb : (f (t.node a)).revBucket = (t.node a).revBucket) :
    (t.modify a f).flow = Function.update t.flow (t.node a).key (some (f (t.node a)).entry) := by
  have hself : (t.modify a f).node a = f (t.node a) := by simp [Tables.modify]
  rw [← hself]
  refine h.flow_write (h.modify a f hk hr hi hb) (Finset.insert_eq_self.mpr ha).symm ?_ ?_ (fun _ => rfl)
  · intro b hb
    simp [Tables.modify, hb]
  · rw [hself, hk]

/-- A field update of the entry a lookup finds. -/
private theorem flow_modify_lookup (h : t.Consistent) (k : FlowKey) (f : ConnectionInfo → ConnectionInfo)
    (g : FlowEntry → FlowEntry) (he : ∀ c, (f c).entry = g c.entry) (hk : ∀ c, (f c).key = c.key)
    (hr : ∀ c, (f c).revHash = c.revHash) (hi : ∀ c, (f c).inRev = c.inRev)
    (hb : ∀ c, (f c).revBucket = c.revBucket) :
    (match t.lookup k.srcPort k.isUdp k.isIpv6 with
      | none => t
      | some a => t.modify a f).flow = FlowMap.alter t.flow k g := by
  cases hl : t.lookup k.srcPort k.isUdp k.isIpv6 with
  | none =>
    have hnone : t.flow k = none := by simp [Tables.flow, hl]
    rw [FlowMap.alter, hnone, Option.map_none, ← hnone, Function.update_eq_self]
  | some a =>
    obtain ⟨ha, hak⟩ := (h.lookup_eq_some k a).mp hl
    have hsome : t.flow k = some (t.node a).entry := by rw [← hak]; exact h.flow_of_live ha
    simp only
    rw [h.flow_modify ha f (hk _) (hr _) (hi _) (hb _), FlowMap.alter, hsome, hak, he]
    rfl

theorem flow_touch (h : t.Consistent) (now : UInt64) (k : FlowKey) :
    (t.touch now (t.lookup k.srcPort k.isUdp k.isIpv6)).flow = FlowMap.alter t.flow k (FlowEntry.touch now) :=
  h.flow_modify_lookup k (fun e => { e with lastActivity := now }) _ (fun _ => rfl) (fun _ => rfl)
    (fun _ => rfl) (fun _ => rfl) (fun _ => rfl)

theorem flow_connectionFin (h : t.Consistent) (now : UInt64) (srcPort : UInt16) (isIpv6 : Bool) (bit : UInt8) :
    (t.connectionFin now srcPort isIpv6 bit).flow = FlowMap.alter t.flow ⟨srcPort, false, isIpv6⟩
      (fun e => { e with finFlags := e.finFlags ||| bit, lastActivity := now }) :=
  h.flow_modify_lookup ⟨srcPort, false, isIpv6⟩
    (fun e => { e with finFlags := e.finFlags ||| bit, lastActivity := now }) _ (fun _ => rfl)
    (fun _ => rfl) (fun _ => rfl) (fun _ => rfl) (fun _ => rfl)

theorem flow_udpFlowStamp (h : t.Consistent) (port : UInt16) (ipv6 : Bool) (generation : UInt32) :
    (t.udpFlowStamp port ipv6 generation).flow = FlowMap.alter t.flow ⟨port, true, ipv6⟩
      (fun e => { e with policyGeneration := generation }) :=
  h.flow_modify_lookup ⟨port, true, ipv6⟩ (fun e => { e with policyGeneration := generation }) _
    (fun _ => rfl) (fun _ => rfl) (fun _ => rfl) (fun _ => rfl) (fun _ => rfl)

private theorem revInsert_view (t : Tables) (a b : Addr) :
    ((t.revInsert a).node b).key = (t.node b).key ∧ ((t.revInsert a).node b).entry = (t.node b).entry := by
  obtain ⟨_, _, _, hn⟩ := Linked.revInsert_frame t a
  rw [hn]
  split <;> exact ⟨rfl, rfl⟩

/-- An add stores the new entry unless the flow is new and `calloc` fails. -/
private theorem flow_upsert (h : t.Consistent) {alloc : Option Addr} (hfresh : t.Fresh alloc) (k : FlowKey)
    (rekey fresh : ConnectionInfo → ConnectionInfo) (e : FlowEntry)
    (hr : ∀ c, c.key = k → (rekey c).key = k ∧ (rekey c).entry = e)
    (hf : (fresh .zeroed).key = k ∧ (fresh .zeroed).entry = e) :
    (t.upsert alloc k rekey fresh).flow =
      if t.flow k = none ∧ alloc = none then t.flow else Function.update t.flow k (some e) := by
  have h' := h.upsert hfresh k rekey fresh (fun c hc => (hr c hc).1) hf.1
  unfold Tables.upsert at h' ⊢
  cases hl : t.lookup k.srcPort k.isUdp k.isIpv6 with
  | some a =>
    obtain ⟨ha, hak⟩ := (h.lookup_eq_some k a).mp hl
    have hsome : t.flow k ≠ none := by simp [Tables.flow, hl]
    simp only [hl] at h' ⊢
    rw [if_neg (fun hc => hsome hc.1)]
    obtain ⟨hlive, _, hunlink⟩ := Linked.revUnlink_frame t a
    have hview := revInsert_view ((t.revUnlink a).modify a rekey) a
    have hself : ((t.revUnlink a).node a).key = k := by
      rw [hunlink]
      split <;> exact hak
    have hat : ((t.revUnlink a).modify a rekey).node a = rekey ((t.revUnlink a).node a) := by
      simp [Tables.modify]
    rw [← (hr _ hself).2, ← hat, ← (hview a).2]
    refine h.flow_write h' ?_ ?_ ?_ (fun _ => hak)
    · rw [Finset.insert_eq_self.mpr ha]
      exact hlive
    · intro b hb
      rw [(hview b).1, (hview b).2]
      simp [Tables.modify, hb, hunlink]
    · rw [(hview a).1, hat]
      exact (hr _ hself).1
  | none =>
    have hnone : t.flow k = none := by simp [Tables.flow, hl]
    simp only [hl] at h' ⊢
    cases alloc with
    | none => simp [hnone]
    | some a =>
      simp only at h' ⊢
      rw [if_neg (by simp)]
      generalize hlinked : (⟨_, _, _, _⟩ : Tables) = linked at h' ⊢
      have hview := revInsert_view linked a
      have hat : linked.node a = fresh .zeroed := by
        rw [← hlinked]
        simp [Tables.modify, Tables.calloc]
      rw [← hf.2, ← hat, ← (hview a).2]
      refine h.flow_write h' ?_ ?_ ?_ (fun hc => (hfresh a rfl hc).elim)
      · rw [← hlinked]
        rfl
      · intro b hb
        rw [(hview b).1, (hview b).2, ← hlinked]
        simp [Tables.modify, Tables.calloc, hb]
      · rw [(hview a).1, hat]
        exact hf.1

theorem flow_addConnection (h : t.Consistent) {alloc : Option Addr} (hfresh : t.Fresh alloc)
    (generation : UInt32) (now : UInt64) (srcPort : UInt16) (isUdp : Bool) (srcIp destIp : UInt32)
    (destPort : UInt16) (proxyConfigId : UInt32) :
    (t.addConnection generation now alloc srcPort isUdp srcIp destIp destPort proxyConfigId).flow =
      if t.flow ⟨srcPort, isUdp, false⟩ = none ∧ alloc = none then t.flow
      else Function.update t.flow ⟨srcPort, isUdp, false⟩
        (some ⟨.v4 srcIp, .v4 destIp, destPort, proxyConfigId, true, 0, generation, now⟩) := by
  apply h.flow_upsert hfresh
  · intro c hc
    simp only [ConnectionInfo.key, FlowKey.mk.injEq] at hc
    simp [ConnectionInfo.key, ConnectionInfo.entry, IpAddr.select, hc]
  · exact ⟨rfl, rfl⟩

theorem flow_addConnectionV6 (h : t.Consistent) {alloc : Option Addr} (hfresh : t.Fresh alloc)
    (generation : UInt32) (now : UInt64) (srcPort : UInt16) (isUdp : Bool) (srcIp6 destIp6 : Ip6)
    (destPort : UInt16) (proxyConfigId : UInt32) :
    (t.addConnectionV6 generation now alloc srcPort isUdp srcIp6 destIp6 destPort proxyConfigId).flow =
      if t.flow ⟨srcPort, isUdp, true⟩ = none ∧ alloc = none then t.flow
      else Function.update t.flow ⟨srcPort, isUdp, true⟩
        (some ⟨.v6 srcIp6, .v6 destIp6, destPort, proxyConfigId, true, 0, generation, now⟩) := by
  apply h.flow_upsert hfresh
  · intro c hc
    simp only [ConnectionInfo.key, FlowKey.mk.injEq] at hc
    simp [ConnectionInfo.key, ConnectionInfo.entry, IpAddr.select, hc]
  · exact ⟨rfl, rfl⟩

theorem cursorOf_read (h : t.Consistent) (k : FlowKey) :
    t.fwd.read (t.cursorOf k.srcPort k.isUdp k.isIpv6) = t.lookup k.srcPort k.isUdp k.isIpv6 := by
  obtain ⟨_, _, hl⟩ := h
  exact hl.cursorOf_read k

private theorem flow_removeAt (h : t.Consistent) (k : FlowKey) {a : Addr}
    (ha : t.fwd.read (t.cursorOf k.srcPort k.isUdp k.isIpv6) = some a) :
    (t.removeAt (t.cursorOf k.srcPort k.isUdp k.isIpv6) a).flow = Function.update t.flow k none := by
  have hl : a ∈ t.live ∧ (t.node a).key = k := by
    rw [← h.lookup_eq_some, ← h.cursorOf_read]
    exact ha
  obtain ⟨hlive, hnode⟩ := removeAt_frame t (t.cursorOf k.srcPort k.isUdp k.isIpv6) a
  rw [h.flow_erase (h.removeAt k ha) hl.1 hlive hnode, hl.2]

theorem flow_removeConnection (h : t.Consistent) (srcPort : UInt16) (isUdp isIpv6 : Bool) :
    (t.removeConnection srcPort isUdp isIpv6).flow = Function.update t.flow ⟨srcPort, isUdp, isIpv6⟩ none := by
  simp only [Tables.removeConnection]
  cases hc : t.fwd.read (t.cursorOf srcPort isUdp isIpv6) with
  | some a => exact h.flow_removeAt ⟨srcPort, isUdp, isIpv6⟩ hc
  | none =>
    have hl := (h.cursorOf_read ⟨srcPort, isUdp, isIpv6⟩).symm.trans hc
    have hnone : t.flow ⟨srcPort, isUdp, isIpv6⟩ = none := by simp [Tables.flow, hl]
    rw [← hnone, Function.update_eq_self]

/-- `udp_flow_validate` accepts and refreshes a valid entry and drops an invalid one. -/
theorem flow_udpFlowValidate (h : t.Consistent) (generation : UInt32) (now : UInt64) (port : UInt16)
    (ipv6 : Bool) (source : UInt32) (source6 : Ip6) (destination : UInt32) (destination6 : Ip6)
    (destinationPort : UInt16) :
    let r := t.udpFlowValidate generation now port ipv6 source source6 destination destination6 destinationPort
    let valid := (t.flow ⟨port, true, ipv6⟩).any (fun e => e.udpValid generation now
      (.select ipv6 source source6) (.select ipv6 destination destination6) destinationPort)
    r.1 = valid ∧ r.2.flow = if valid then FlowMap.alter t.flow ⟨port, true, ipv6⟩ (FlowEntry.touch now)
      else Function.update t.flow ⟨port, true, ipv6⟩ none := by
  simp only [Tables.udpFlowValidate]
  have hread := h.cursorOf_read ⟨port, true, ipv6⟩
  cases hc : t.fwd.read (t.cursorOf port true ipv6) with
  | none =>
    have hnone : t.flow ⟨port, true, ipv6⟩ = none := by simp [Tables.flow, ← hread, hc]
    simp only [hnone, Option.any_none, Bool.false_eq_true, if_false]
    exact ⟨trivial, by rw [← hnone, Function.update_eq_self]⟩
  | some a =>
    obtain ⟨ha, hk⟩ := (h.lookup_eq_some ⟨port, true, ipv6⟩ a).mp (hread.symm.trans hc)
    have hsome : t.flow ⟨port, true, ipv6⟩ = some (t.node a).entry := by rw [← hk]; exact h.flow_of_live ha
    have hv : (t.node a).isIpv6 = ipv6 := congrArg FlowKey.isIpv6 hk
    have hvalid := (t.node a).udpValid_entry generation now source destination source6 destination6
      destinationPort
    rw [hv] at hvalid
    simp only [hsome, Option.any_some, ← hvalid]
    split
    · rename_i hok
      refine ⟨hok.symm, ?_⟩
      rw [h.flow_modify ha (fun e => { e with lastActivity := now }) rfl rfl rfl rfl, FlowMap.alter, hsome, hk]
      rfl
    · rename_i hok
      exact ⟨(Bool.eq_false_iff.mpr hok).symm, h.flow_removeAt ⟨port, true, ipv6⟩ hc⟩

/-- One locked section of a cleanup pass erases the stale flows of one bucket. -/
theorem flow_sweepBucket (h : t.Consistent) (now : UInt64) (i : Bucket) (k : FlowKey) :
    (Tables.sweepBucket now t i).flow k =
      (t.flow k).filter (fun e => !(decide (bucketOf k.srcPort = i) && e.isStale now)) := by
  have h' := h.sweepBucket now i
  apply Option.ext
  intro e
  have hframe := sweepFrom_frame now t.live.card (.bucket i) t
  have hmem : ∀ a, a ∈ (Tables.sweepBucket now t i).live ↔
      a ∈ t.live ∧ ¬ (bucketOf (t.node a).srcPort = i ∧ (t.node a).isStale now = true) := by
    obtain ⟨rows, revRows, hl⟩ := h
    obtain ⟨_, hl'⟩ := hl.sweepBucket now i
    intro a
    rw [hl'.mem_fwd, hl.mem_fwd]
    constructor
    · rintro ⟨j, hj⟩
      by_cases hji : j = i
      · subst hji
        rw [Function.update_self] at hj
        obtain ⟨hj, hs⟩ := List.mem_filter.mp hj
        exact ⟨⟨j, hj⟩, fun hc => by simp [hc.2] at hs⟩
      · rw [Function.update_of_ne hji] at hj
        exact ⟨⟨j, hj⟩, fun hc => hji ((hl.bucket j a hj).symm.trans hc.1)⟩
    · rintro ⟨⟨j, hj⟩, hs⟩
      refine ⟨j, ?_⟩
      by_cases hji : j = i
      · subst hji
        rw [Function.update_self]
        exact List.mem_filter.mpr ⟨hj, by simpa [hl.bucket j a hj] using hs⟩
      · rwa [Function.update_of_ne hji]
  have hst : ∀ a, (t.node a).isStale now = (t.node a).entry.isStale now := fun _ => rfl
  rw [h'.flow_eq_some, Option.filter_eq_some_iff, h.flow_eq_some]
  constructor
  · rintro ⟨a, ha, hk, he⟩
    obtain ⟨_, hn⟩ := hframe a ha
    obtain ⟨ha, hs⟩ := (hmem a).mp ha
    have hn : (Tables.sweepBucket now t i).node a = t.node a := hn
    rw [hn] at hk he
    refine ⟨⟨a, ha, hk, he⟩, ?_⟩
    have hp : (t.node a).srcPort = k.srcPort := congrArg FlowKey.srcPort hk
    rw [hst, he, hp] at hs
    simpa [imp_iff_not_or] using hs
  · rintro ⟨⟨a, ha, hk, he⟩, hs⟩
    have hp : (t.node a).srcPort = k.srcPort := congrArg FlowKey.srcPort hk
    have ha' := (hmem a).mpr ⟨ha, by rw [hst, he, hp]; simpa [imp_iff_not_or] using hs⟩
    obtain ⟨_, hn⟩ := hframe a ha'
    have hn : (Tables.sweepBucket now t i).node a = t.node a := hn
    exact ⟨a, ha', by rwa [hn], by rwa [hn]⟩

private theorem flow_of_live_empty (h : t.Consistent) (hlive : t.live = ∅) : t.flow = fun _ => none := by
  funext k
  rw [h.flow_eq_none, hlive]
  intro a ha
  exact (Finset.notMem_empty a ha).elim

theorem flow_clearAll (h : t.Consistent) : t.clearAll.flow = fun _ => none :=
  h.clearAll.2.flow_of_live_empty h.clearAll.1

theorem isConnectionTracked_eq (h : t.Consistent) (k : FlowKey) :
    t.isConnectionTracked k.srcPort k.isUdp k.isIpv6 = (t.flow k).any (·.isTracked) := by
  have htracked := h
  obtain ⟨_, _, hl⟩ := h
  rw [Bool.eq_iff_iff, hl.isConnectionTracked_iff, Option.any_eq_true]
  constructor
  · rintro ⟨a, ha, hk, ht⟩
    exact ⟨(t.node a).entry, (htracked.flow_eq_some k _).mpr ⟨a, ha, hk, rfl⟩, ht⟩
  · rintro ⟨e, he, ht⟩
    obtain ⟨a, ha, hk, rfl⟩ := (htracked.flow_eq_some k e).mp he
    exact ⟨a, ha, hk, ht⟩

/-- The winner of a reverse lookup is a node of the chain it walked. -/
private theorem newest_mem (t : Tables) (wanted : ConnectionInfo → Bool) (l : List Addr) (fuel : Nat)
    (q best : Option Addr) (hseg : t.rev.Segment q l none) {a : Addr}
    (ha : t.newest wanted fuel q best = some a) :
    best = some a ∨ (a ∈ l ∧ wanted (t.node a) = true) := by
  induction l generalizing fuel q best with
  | nil =>
    obtain rfl : q = none := hseg
    cases fuel <;> exact .inl ha
  | cons b l ih =>
    obtain ⟨rfl, hseg⟩ := hseg
    cases fuel with
    | zero => exact .inl ha
    | succ fuel =>
      rcases ih fuel _ _ hseg ha with hb | ⟨hl, hw⟩
      · rcases ite_eq_iff.mp hb with ⟨hpick, hb⟩ | ⟨_, hb⟩
        · obtain rfl : b = a := Option.some.inj hb
          exact .inr ⟨List.mem_cons_self, (Bool.and_eq_true_iff.mp hpick).1⟩
        · exact .inl hb
      · exact .inr ⟨List.mem_cons_of_mem b hl, hw⟩

theorem newest_live (h : t.Consistent) (wanted : ConnectionInfo → Bool) (fuel : Nat) (i : Bucket)
    {a : Addr} (ha : t.newest wanted fuel (t.rev.head i) none = some a) :
    a ∈ t.live ∧ wanted (t.node a) = true := by
  obtain ⟨rows, revRows, hl⟩ := h
  rcases newest_mem t wanted (revRows i) fuel _ none (hl.rev.chain i) ha with hc | ⟨hmem, hw⟩
  · cases hc
  · exact ⟨((hl.mem_rev i a).mp hmem).1, hw⟩

theorem flow_touch_live (h : t.Consistent) (now : UInt64) {a : Addr} (ha : a ∈ t.live) :
    (t.touch now (some a)).flow = FlowMap.alter t.flow (t.node a).key (FlowEntry.touch now) := by
  have hl := (h.lookup_eq_some (t.node a).key a).mpr ⟨ha, rfl⟩
  rw [← hl]
  exact h.flow_touch now (t.node a).key

/-- The IPv4 reverse lookup answers with a flow whose destination is the one asked for, and
refreshes that flow only. -/
theorem flow_findV4UdpSender (h : t.Consistent) (now : UInt64) (origDestIp : UInt32) (origDestPort : UInt16) :
    match t.findV4UdpSender now origDestIp origDestPort with
    | (none, t') => t' = t
    | (some (srcIp, srcPort), t') =>
      (∃ e, t.flow ⟨srcPort, true, false⟩ = some e ∧ e.source = .v4 srcIp ∧ e.dest = .v4 origDestIp ∧
        e.destPort = origDestPort) ∧
      t'.flow = FlowMap.alter t.flow ⟨srcPort, true, false⟩ (FlowEntry.touch now) := by
  simp only [Tables.findV4UdpSender]
  split
  · rename_i t' hr
    obtain ⟨hnone, rfl⟩ := Prod.mk.inj hr
    rw [Option.map_eq_none_iff.mp hnone]
    rfl
  · rename_i srcIp srcPort t' hr
    obtain ⟨hsome, rfl⟩ := Prod.mk.inj hr
    obtain ⟨a, ha, he⟩ := Option.map_eq_some_iff.mp hsome
    obtain ⟨rfl, rfl⟩ := Prod.mk.inj he
    obtain ⟨hlive, hw⟩ := h.newest_live _ _ _ ha
    simp only [Bool.and_eq_true, Bool.not_eq_true', beq_iff_eq] at hw
    obtain ⟨⟨⟨hu, hv⟩, hd⟩, hp⟩ := hw
    have hk : (t.node a).key = ⟨(t.node a).srcPort, true, false⟩ := by simp [ConnectionInfo.key, hu, hv]
    rw [ha, h.flow_touch_live now hlive, hk]
    refine ⟨⟨(t.node a).entry, ?_, ?_, ?_, hp⟩, rfl⟩
    · rw [← hk]
      exact h.flow_of_live hlive
    · simp [ConnectionInfo.entry, IpAddr.select, hv]
    · simp [ConnectionInfo.entry, IpAddr.select, hv, hd]

/-- The IPv6 reverse lookup writes nothing. -/
theorem flow_findV6UdpSender (h : t.Consistent) (origDestIp6 : Ip6) (origDestPort : UInt16) {srcIp6 : Ip6}
    {srcPort : UInt16} (hf : t.findV6UdpSender origDestIp6 origDestPort = some (srcIp6, srcPort)) :
    ∃ e, t.flow ⟨srcPort, true, true⟩ = some e ∧ e.source = .v6 srcIp6 ∧ e.dest = .v6 origDestIp6 ∧
      e.destPort = origDestPort := by
  obtain ⟨a, ha, he⟩ := Option.map_eq_some_iff.mp hf
  obtain ⟨rfl, rfl⟩ := Prod.mk.inj he
  obtain ⟨hlive, hw⟩ := h.newest_live _ _ _ ha
  simp only [Bool.and_eq_true, beq_iff_eq] at hw
  obtain ⟨⟨⟨hu, hv⟩, hp⟩, hd⟩ := hw
  have hk : (t.node a).key = ⟨(t.node a).srcPort, true, true⟩ := by simp [ConnectionInfo.key, hu, hv]
  refine ⟨(t.node a).entry, ?_, ?_, ?_, hp⟩
  · rw [← hk]
    exact h.flow_of_live hlive
  · simp [ConnectionInfo.entry, IpAddr.select, hv]
  · simp [ConnectionInfo.entry, IpAddr.select, hv, hd]

end Tables.Consistent
end ProxyBridge.Windows
