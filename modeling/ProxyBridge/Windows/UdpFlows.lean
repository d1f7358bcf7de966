import ProxyBridge.Windows.UdpPackets

/-! What a UDP packet does to the map of tracked flows. Everything the relay and the policy proofs
use of the packet thread is stated here once, for both families. -/
namespace ProxyBridge.Windows

/-- The flow map of each operation of a family, in the common address type. -/
structure UdpFamily.Lawful {α : Type} (F : UdpFamily α) : Prop where
  toAddr_inj : ∀ {a b : α}, F.toAddr a = F.toAddr b → a = b
  validate_consistent : ∀ {t : Tables}, t.Consistent → ∀ generation now port src dst dstPort,
    (F.validate t generation now port src dst dstPort).2.Consistent
  validate_fresh : ∀ {t : Tables} {alloc}, t.Fresh alloc → ∀ generation now port src dst dstPort,
    (F.validate t generation now port src dst dstPort).2.Fresh alloc
  validate_flow : ∀ {t : Tables}, t.Consistent → ∀ generation now port src dst dstPort,
    let valid := (t.flow ⟨port, true, F.isIpv6⟩).any
      (fun e => e.udpValid generation now (F.toAddr src) (F.toAddr dst) dstPort)
    (F.validate t generation now port src dst dstPort).1 = valid ∧
    (F.validate t generation now port src dst dstPort).2.flow =
      if valid then FlowMap.alter t.flow ⟨port, true, F.isIpv6⟩ (FlowEntry.touch now)
      else Function.update t.flow ⟨port, true, F.isIpv6⟩ none
  add_consistent : ∀ {t : Tables}, t.Consistent → ∀ {alloc}, t.Fresh alloc →
    ∀ generation now srcPort src dst dstPort id,
      (F.add t generation now alloc srcPort src dst dstPort id).Consistent
  add_flow : ∀ {t : Tables}, t.Consistent → ∀ {alloc}, t.Fresh alloc →
    ∀ generation now srcPort src dst dstPort id,
      (F.add t generation now alloc srcPort src dst dstPort id).flow =
        if t.flow ⟨srcPort, true, F.isIpv6⟩ = none ∧ alloc = none then t.flow
        else Function.update t.flow ⟨srcPort, true, F.isIpv6⟩
          (some ⟨F.toAddr src, F.toAddr dst, dstPort, id, true, 0, generation, now⟩)
  restore_consistent : ∀ {t : Tables}, t.Consistent → ∀ now port, (F.restore t now port).2.Consistent
  restore_flow : ∀ {t : Tables}, t.Consistent → ∀ now port,
    (F.restore t now port).2.flow = FlowMap.alter t.flow ⟨port, true, F.isIpv6⟩ (FlowEntry.touch now)
  restore_eq : ∀ {t : Tables}, t.Consistent → ∀ now port,
    (F.restore t now port).1.map (fun e => (F.toAddr e.1, e.2)) =
      (t.flow ⟨port, true, F.isIpv6⟩).map (fun e => (e.dest, e.destPort))

theorem Tables.Fresh.udpFlowValidate {t : Tables} {alloc : Option Addr} (h : t.Fresh alloc)
    (generation : UInt32) (now : UInt64) (port : UInt16) (ipv6 : Bool) (source : UInt32) (source6 : Ip6)
    (destination : UInt32) (destination6 : Ip6) (destinationPort : UInt16) :
    (t.udpFlowValidate generation now port ipv6 source source6 destination destination6
      destinationPort).2.Fresh alloc := by
  intro a ha
  simp only [Tables.udpFlowValidate]
  split
  · exact h a ha
  · rename_i c _
    split
    · exact h a ha
    · rw [(removeAt_frame t _ c).1]
      exact fun hm => h a ha (Finset.mem_of_mem_erase hm)

/-- The destination a lookup returns is the one the map holds. -/
private theorem lookup_dest {t : Tables} (h : t.Consistent) (k : FlowKey) :
    (t.lookup k.srcPort k.isUdp k.isIpv6).map (fun a => (IpAddr.select k.isIpv6 (t.node a).origDestIp
      (t.node a).origDestIp6, (t.node a).origDestPort)) = (t.flow k).map (fun e => (e.dest, e.destPort)) := by
  rw [Tables.flow, Option.map_map]
  cases hl : t.lookup k.srcPort k.isUdp k.isIpv6 with
  | none => rfl
  | some a =>
    have hk := ((h.lookup_eq_some k a).mp hl).2
    have hv : (t.node a).isIpv6 = k.isIpv6 := congrArg FlowKey.isIpv6 hk
    simp [ConnectionInfo.entry, hv]

theorem udpV4_lawful : udpV4.Lawful where
  toAddr_inj h := IpAddr.v4.inj h
  validate_consistent h generation now port src dst dstPort := h.udpFlowValidate ..
  validate_fresh h generation now port src dst dstPort :=
    h.udpFlowValidate generation now port false src Ip6.zero dst Ip6.zero dstPort
  validate_flow h generation now port src dst dstPort :=
    h.flow_udpFlowValidate generation now port false src Ip6.zero dst Ip6.zero dstPort
  add_consistent h _ hfresh generation now srcPort src dst dstPort id := h.addConnection hfresh ..
  add_flow h _ hfresh generation now srcPort src dst dstPort id := h.flow_addConnection hfresh ..
  restore_consistent h now port := h.touch now _
  restore_flow h now port := h.flow_touch now ⟨port, true, false⟩
  restore_eq h now port := by
    rw [← lookup_dest h]
    simp [udpV4, Tables.getConnection, IpAddr.select, Function.comp_def]

theorem udpV6_lawful : udpV6.Lawful where
  toAddr_inj h := IpAddr.v6.inj h
  validate_consistent h generation now port src dst dstPort := h.udpFlowValidate ..
  validate_fresh h generation now port src dst dstPort :=
    h.udpFlowValidate generation now port true 0 src 0 dst dstPort
  validate_flow h generation now port src dst dstPort :=
    h.flow_udpFlowValidate generation now port true 0 src 0 dst dstPort
  add_consistent h _ hfresh generation now srcPort src dst dstPort id := h.addConnectionV6 hfresh ..
  add_flow h _ hfresh generation now srcPort src dst dstPort id := h.flow_addConnectionV6 hfresh ..
  restore_consistent h now port := h.touch now _
  restore_flow h now port := h.flow_touch now ⟨port, true, true⟩
  restore_eq h now port := by
    rw [← lookup_dest h]
    simp [udpV6, Tables.getConnectionFullV6, IpAddr.select, Function.comp_def]

namespace UdpFamily
variable {α : Type} (F : UdpFamily α) (g : Settings) (r : Readings) (s : Core) (p : Packet α)

/-- The flow of a datagram. -/
def key : FlowKey := ⟨p.srcPort, true, F.isIpv6⟩

/-- Whether the entry of the flow is one that `udp_flow_validate` accepts for this datagram. -/
def valid : Bool :=
  (s.tables.flow (F.key p)).any
    (fun e => e.udpValid r.generation r.now (F.toAddr p.srcAddr) (F.toAddr p.dstAddr) p.dstPort)

/-- Whether the datagram gets as far as the rules and is judged PROXY, so that it is re-keyed. -/
def rekeys : Bool :=
  !F.passes g r s p && !F.valid r s p && !F.unasked g p && F.finalAction g r p == .proxy &&
    F.carries g r.verdict.proxyConfigId

/-- The entry that a PROXY verdict records. -/
def recorded : FlowEntry :=
  ⟨F.toAddr p.srcAddr, F.toAddr p.dstAddr, p.dstPort, r.verdict.proxyConfigId, true, 0, r.generation, r.now⟩

/-- What a datagram does to the entry of its own flow, by outcome. -/
inductive Effect : UdpOutcome α → Option FlowEntry → Prop where
  | passed : F.passes g r s p = true → Effect .pass (s.tables.flow (F.key p))
  | refused {o : UdpOutcome α} : o = .drop ∨ o = .pass → F.passes g r s p = false → F.valid r s p = false →
      F.rekeys g r s p = false → Effect o none
  | validated (e : FlowEntry) : F.passes g r s p = false → F.valid r s p = true →
      s.tables.flow (F.key p) = some e → Effect (.validated (F.toRelay p)) (some (e.touch r.now))
  | proxied : F.rekeys g r s p = true → r.alloc ≠ none → Effect (.proxied (F.toRelay p)) (some (F.recorded r p))
  | unrecorded : F.rekeys g r s p = true → r.alloc = none → Effect (.proxied (F.toRelay p)) none

end UdpFamily

namespace UdpFamily.Lawful
variable {α : Type} {F : UdpFamily α} {g : Settings} {r : Readings} {s : Core} {p : Packet α}

/-- An entry that is accepted has the endpoints of the datagram. -/
theorem dest_of_valid {e : FlowEntry} (hv : F.valid r s p = true) (he : s.tables.flow (F.key p) = some e) :
    e.dest = F.toAddr p.dstAddr ∧ e.destPort = p.dstPort := by
  rw [UdpFamily.valid, he, Option.any_some] at hv
  simp only [FlowEntry.udpValid, Bool.and_eq_true, beq_iff_eq] at hv
  exact ⟨hv.1.1.2.2, hv.1.1.1⟩

/-- A PROXY verdict in a state without an entry for the flow records one if there is memory. -/
private theorem flow_record (hF : F.Lawful) {t : Tables} (hc : t.Consistent) (hfresh : t.Fresh r.alloc)
    (hnone : t.flow (F.key p) = none) :
    let t' := (F.add t r.generation r.now r.alloc p.srcPort p.srcAddr p.dstAddr p.dstPort
      r.verdict.proxyConfigId).udpFlowStamp p.srcPort F.isIpv6 r.generation
    t'.Consistent ∧ t'.flow =
      Function.update t.flow (F.key p) (if r.alloc = none then none else some (F.recorded r p)) := by
  have hadd := hF.add_consistent hc hfresh r.generation r.now p.srcPort p.srcAddr p.dstAddr p.dstPort
    r.verdict.proxyConfigId
  refine ⟨hadd.udpFlowStamp .., ?_⟩
  rw [hadd.flow_udpFlowStamp, hF.add_flow hc hfresh]
  change FlowMap.alter (if t.flow (F.key p) = none ∧ r.alloc = none then t.flow
    else Function.update t.flow (F.key p) (some (F.recorded r p))) (F.key p) _ = _
  by_cases ha : r.alloc = none
  · rw [if_pos ⟨hnone, ha⟩, if_pos ha, FlowMap.alter, hnone]
    rfl
  · rw [if_neg (fun h => ha h.2), if_neg ha, FlowMap.alter, Function.update_self, Function.update_idem]
    rfl

/-- The effect of one application datagram on the whole map: only its own flow changes. -/
theorem datagram_effect (hF : F.Lawful) (hc : s.tables.Consistent) (hfresh : s.tables.Fresh r.alloc) :
    (F.datagram g r s p).2.tables.Consistent ∧
    ∃ after, F.Effect g r s p (F.datagram g r s p).1 after ∧
      (F.datagram g r s p).2.tables.flow = Function.update s.tables.flow (F.key p) after := by
  obtain ⟨hfst, hflow⟩ := hF.validate_flow hc r.generation r.now p.srcPort p.srcAddr p.dstAddr p.dstPort
  have hvc := hF.validate_consistent hc r.generation r.now p.srcPort p.srcAddr p.dstAddr p.dstPort
  have hvf := hF.validate_fresh hfresh r.generation r.now p.srcPort p.srcAddr p.dstAddr p.dstPort
  change _ = F.valid r s p at hfst
  change _ = if F.valid r s p then FlowMap.alter s.tables.flow (F.key p) _
    else Function.update s.tables.flow (F.key p) none at hflow
  simp only [UdpFamily.datagram]
  generalize F.validate s.tables r.generation r.now p.srcPort p.srcAddr p.dstAddr p.dstPort = v at *
  obtain ⟨ok, t⟩ := v
  simp only at hfst hflow hvc hvf ⊢
  subst hfst
  cases hp : F.passes g r s p with
  | true => exact ⟨hc, _, .passed hp, by rw [Function.update_eq_self]; rfl⟩
  | false =>
    cases hv : F.valid r s p with
    | true =>
      rw [hv, if_pos rfl] at hflow
      obtain ⟨e, he, _⟩ := (Option.any_eq_true ..).mp hv
      refine ⟨hvc, _, .validated e hp hv he, ?_⟩
      simpa [FlowMap.alter, he] using hflow
    | false =>
      rw [hv, if_neg (by simp)] at hflow
      have hnone : t.flow (F.key p) = none := by rw [hflow, Function.update_self]
      cases hu : F.unasked g p with
      | true => exact ⟨hvc, none, .refused (.inr rfl) hp hv (by simp [UdpFamily.rekeys, hu]), hflow⟩
      | false =>
        simp only [Bool.false_eq_true, if_false, UdpFamily.judge]
        split
        · rename_i hact
          exact ⟨hvc, none, .refused (.inl rfl) hp hv (by simp [UdpFamily.rekeys, hact]), hflow⟩
        · rename_i hact
          split
          · rename_i hcar
            have hre : F.rekeys g r s p = true := by simp [UdpFamily.rekeys, hp, hv, hu, hact, hcar]
            obtain ⟨hrc, hrf⟩ := hF.flow_record (p := p) hvc hvf hnone
            rw [hflow, Function.update_idem] at hrf
            refine ⟨hrc, _, ?_, hrf⟩
            split
            · rename_i ha
              exact .unrecorded hre ha
            · rename_i ha
              exact .proxied hre ha
          · rename_i hcar
            exact ⟨hvc, none, .refused (.inl rfl) hp hv (by simp [UdpFamily.rekeys, hcar]), hflow⟩
        · rename_i hact
          refine ⟨?_, none, .refused (.inr rfl) hp hv (by simp [UdpFamily.rekeys, hact]), ?_⟩
          · split <;> exact hvc
          · split <;> exact hflow

end UdpFamily.Lawful
end ProxyBridge.Windows
