import ProxyBridge.Windows.TcpPackets

/-! The decision bitmaps against the connection table, over any sequence of outbound IPv4 and
IPv6 TCP packets. The bitmaps have one entry for a port, the table one for each family. -/
namespace ProxyBridge.Windows
open Runs

/-- Whether a TCP flow is tracked, read off the map the tables hold. -/
def FlowMap.tracked (m : FlowMap) (k : FlowKey) : Bool := (m k).any (·.isTracked)

theorem Tables.Fresh.removeConnection {t : Tables} {alloc : Option Addr} (h : t.Fresh alloc) (port : UInt16)
    (isUdp isIpv6 : Bool) : (t.removeConnection port isUdp isIpv6).Fresh alloc := by
  intro a ha
  simp only [Tables.removeConnection]
  split
  · exact h a ha
  · rename_i c _
    rw [(removeAt_frame t _ c).1]
    exact fun hm => h a ha (Finset.mem_of_mem_erase hm)

namespace FlowMap

theorem tracked_alter (m : FlowMap) (k : FlowKey) (f : FlowEntry → FlowEntry)
    (hf : ∀ e, (f e).isTracked = e.isTracked) (j : FlowKey) : (m.alter k f).tracked j = m.tracked j := by
  by_cases hj : j = k
  · subst hj
    simp only [tracked, alter, Function.update_self]
    cases m j with
    | none => rfl
    | some e => exact hf e
  · simp [tracked, alter, Function.update_of_ne hj]

theorem tracked_erase (m : FlowMap) (k j : FlowKey) :
    tracked (Function.update m k none) j = (!decide (j = k) && m.tracked j) := by
  by_cases hj : j = k
  · subst hj
    simp [tracked]
  · simp [tracked, hj]

/-- An add that finds no memory leaves the map as it is. -/
theorem tracked_store {c : Prop} [Decidable c] {m : FlowMap} {k j : FlowKey} {v : Option FlowEntry}
    (h : tracked (if c then m else Function.update m k v) j = true) : j = k ∨ m.tracked j = true := by
  split at h
  · exact .inr h
  · by_cases hj : j = k
    · exact .inl hj
    · exact .inr (by simpa [tracked, Function.update_of_ne hj] using h)

end FlowMap

/-- What the proofs use of a family: how its tables operations act on the tracked flows. -/
structure TcpFamily.Lawful {α : Type} (F : TcpFamily α) : Prop where
  restore_consistent : ∀ {t : Tables}, t.Consistent → ∀ now port, (F.restore t now port).2.Consistent
  restore_tracked : ∀ {t : Tables}, t.Consistent → ∀ now port k,
    (F.restore t now port).2.flow.tracked k = t.flow.tracked k
  add_consistent : ∀ {t : Tables}, t.Consistent → ∀ {alloc}, t.Fresh alloc →
    ∀ generation now srcPort src dst dstPort id,
      (F.add t generation now alloc srcPort src dst dstPort id).Consistent
  add_tracked : ∀ {t : Tables}, t.Consistent → ∀ {alloc}, t.Fresh alloc →
    ∀ generation now srcPort src dst dstPort id k,
      (F.add t generation now alloc srcPort src dst dstPort id).flow.tracked k = true →
      k = ⟨srcPort, false, F.isIpv6⟩ ∨ t.flow.tracked k = true
  exempt_nil : ∀ (g : Settings) (p : Packet α), g.configs = [] → F.exempt g p = false

theorem tcpV4_lawful : tcpV4.Lawful where
  restore_consistent h now port := h.touch now _
  restore_tracked h now port k := by
    have hf := h.flow_touch now ⟨port, false, false⟩
    change FlowMap.tracked (Tables.flow (Tables.touch _ now _)) k = _
    rw [hf]
    exact FlowMap.tracked_alter _ _ (FlowEntry.touch now) (fun _ => rfl) k
  add_consistent h _ hfresh generation now srcPort src dst dstPort id :=
    h.addConnection hfresh generation now srcPort false src dst dstPort id
  add_tracked h _ hfresh generation now srcPort src dst dstPort id k hk := by
    change FlowMap.tracked (Tables.flow (Tables.addConnection ..)) k = true at hk
    rw [h.flow_addConnection hfresh] at hk
    exact FlowMap.tracked_store hk
  exempt_nil g p hg := by simp [tcpV4, isProxyServerEndpoint, hg]

theorem tcpV6_lawful : tcpV6.Lawful where
  restore_consistent h now port := h.touch now _
  restore_tracked h now port k := by
    have hf := h.flow_touch now ⟨port, false, true⟩
    change FlowMap.tracked (Tables.flow (Tables.touch _ now _)) k = _
    rw [hf]
    exact FlowMap.tracked_alter _ _ (FlowEntry.touch now) (fun _ => rfl) k
  add_consistent h _ hfresh generation now srcPort src dst dstPort id :=
    h.addConnectionV6 hfresh generation now srcPort false src dst dstPort id
  add_tracked h _ hfresh generation now srcPort src dst dstPort id k hk := by
    change FlowMap.tracked (Tables.flow (Tables.addConnectionV6 ..)) k = true at hk
    rw [h.flow_addConnectionV6 hfresh] at hk
    exact FlowMap.tracked_store hk
  exempt_nil _ _ _ := rfl

/-- A flow that is tracked is never under a cached DIRECT verdict, whatever its family. -/
structure Core.Inv (relayPort : UInt16) (s : Core) : Prop where
  consistent : s.tables.Consistent
  decided : ∀ p, s.bitmaps.portIsDirect p = true → s.bitmaps.portIsDecided p = true
  not_direct : ∀ p v, p ≠ relayPort → s.tables.flow.tracked ⟨p, false, v⟩ = true →
    s.bitmaps.portIsDirect p = false

namespace Core.Inv
variable {relayPort : UInt16} {s : Core}

theorem init (relayPort : UInt16) : Core.Inv relayPort .init where
  consistent := consistent_empty
  decided p h := by
    have hz : testPort (fun _ => 0) p = false := by simp [testPort]
    rw [show Core.init.bitmaps.portIsDirect p = testPort (fun _ => 0) p from rfl, hz] at h
    cases h
  not_direct p v _ h := by
    simp [Core.init, FlowMap.tracked] at h

theorem tables (h : s.Inv relayPort) {t : Tables} (ht : t.Consistent)
    (hsub : ∀ p v, t.flow.tracked ⟨p, false, v⟩ = true → s.tables.flow.tracked ⟨p, false, v⟩ = true) :
    Core.Inv relayPort { s with tables := t } where
  consistent := ht
  decided := h.decided
  not_direct p v hp htr := h.not_direct p v hp (hsub p v htr)

theorem portClear (h : s.Inv relayPort) (p : UInt16) :
    Core.Inv relayPort { s with bitmaps := s.bitmaps.portClear p } where
  consistent := h.consistent
  decided q hq := by
    simp only [PortBitmaps.portIsDirect_portClear, PortBitmaps.portIsDecided_portClear, Bool.and_eq_true] at hq ⊢
    exact ⟨hq.1, h.decided q hq.2⟩
  not_direct q v hq htr := by
    simp [h.not_direct q v hq htr]

theorem portSetDecided (h : s.Inv relayPort) (p : UInt16) :
    Core.Inv relayPort { s with bitmaps := s.bitmaps.portSetDecided p } where
  consistent := h.consistent
  decided q hq := by
    simp [h.decided q hq]
  not_direct := h.not_direct

theorem removeConnection (h : s.Inv relayPort) (port : UInt16) (v : Bool) :
    Core.Inv relayPort { s with tables := s.tables.removeConnection port false v } := by
  refine h.tables (h.consistent.removeConnection port false v) (fun p w htr => ?_)
  rw [h.consistent.flow_removeConnection, FlowMap.tracked_erase, Bool.and_eq_true] at htr
  exact htr.2

theorem connectionFin (h : s.Inv relayPort) (now : UInt64) (port : UInt16) (v : Bool) (bit : UInt8) :
    Core.Inv relayPort { s with tables := s.tables.connectionFin now port v bit } := by
  refine h.tables (h.consistent.connectionFin now port v bit) (fun p w htr => ?_)
  rw [h.consistent.flow_connectionFin, FlowMap.tracked_alter] at htr
  · exact htr
  · exact fun _ => rfl

theorem resetStaleTcpState (h : s.Inv relayPort) (g : Settings) (port : UInt16) (v : Bool) :
    (s.resetStaleTcpState g port v).Inv relayPort := by
  unfold Core.resetStaleTcpState
  split
  · exact h
  · exact (h.removeConnection port v).portClear port

/-- A DIRECT verdict is cached only where no TCP flow of either family is tracked. -/
theorem portSetDirect (h : s.Inv relayPort) (p : UInt16)
    (hp : ∀ v, s.tables.flow.tracked ⟨p, false, v⟩ = false) :
    Core.Inv relayPort { s with bitmaps := s.bitmaps.portSetDirect p } where
  consistent := h.consistent
  decided q hq := by
    simp only [PortBitmaps.portIsDirect_portSetDirect, PortBitmaps.portIsDecided_portSetDirect,
      Bool.or_eq_true] at hq ⊢
    exact hq.imp_right (h.decided q)
  not_direct q v hq htr := by
    have hne : q ≠ p := by
      rintro rfl
      rw [hp v] at htr
      cases htr
    simp [hne, h.not_direct q v hq htr]

end Core.Inv

namespace TcpFamily
variable {α : Type} {F : TcpFamily α} {relayPort : UInt16} {g : Settings} {r : Readings} {s : Core}
  {p : Packet α} {f : TcpFlags}

/-- Past the entry of an undecided or not-direct port, its direct bit is clear. -/
theorem enter_inv (h : s.Inv relayPort) :
    (F.enter g s p f).2.Inv relayPort ∧
      ((F.enter g s p f).1 = false → (F.enter g s p f).2.bitmaps.portIsDirect p.srcPort = false) := by
  have hs : (if f.syn && !f.ack then s.resetStaleTcpState g p.srcPort F.isIpv6 else s).Inv relayPort := by
    split
    · exact h.resetStaleTcpState g p.srcPort F.isIpv6
    · exact h
  simp only [enter]
  generalize (if f.syn && !f.ack then s.resetStaleTcpState g p.srcPort F.isIpv6 else s) = s at hs ⊢
  split
  · rename_i hd
    simp only [Core.consumeDirectDecision, hd, Bool.true_and]
    split
    · exact ⟨hs.portClear p.srcPort, fun _ => by simp⟩
    · exact ⟨hs, fun hn => hn⟩
  · rename_i hd
    refine ⟨hs, fun _ => Bool.eq_false_iff.mpr (fun hc => hd (hs.decided _ hc))⟩

theorem relayResponse_inv (hF : F.Lawful) (h : s.Inv relayPort) :
    (F.relayResponse r s p f).2.Inv relayPort := by
  have hrestore : Core.Inv relayPort { s with tables := (F.restore s.tables r.now p.dstPort).2 } := by
    refine h.tables (hF.restore_consistent h.consistent r.now p.dstPort) (fun q v htr => ?_)
    rwa [hF.restore_tracked h.consistent] at htr
  simp only [relayResponse]
  split
  · exact hrestore.removeConnection p.dstPort F.isIpv6
  · split
    · exact hrestore.connectionFin r.now p.dstPort F.isIpv6 2
    · exact hrestore

theorem tracked_inv (h : s.Inv relayPort) : (F.tracked g r s p f).2.Inv relayPort := by
  simp only [tracked]
  split
  · exact (h.removeConnection p.srcPort F.isIpv6).portClear p.srcPort
  · split
    · exact h.connectionFin r.now p.srcPort F.isIpv6 1
    · exact h

variable (F g s p f) in
/-- Whether a packet gets as far as the rules. -/
def asks : Bool :=
  !F.exempt g p && !(F.enter g s p f).1 && p.srcPort != g.localRelayPort &&
    !(F.enter g s p f).2.tables.isConnectionTracked p.srcPort false F.isIpv6 && !F.unasked g p f

variable (F g r s p f) in
/-- A DIRECT verdict is about to be cached for a port whose flow of the other family is tracked. -/
def cachesOverOther : Bool :=
  F.asks g s p f && F.finalAction g r p == .direct && r.verdict.pid != 0 &&
    s.tables.isConnectionTracked p.srcPort false (!F.isIpv6)

/-- The bitmap test of the entry does not write to the tables. -/
theorem enter_tables :
    (F.enter g s p f).2.tables =
      (if f.syn && !f.ack then s.resetStaleTcpState g p.srcPort F.isIpv6 else s).tables := by
  simp only [enter]
  generalize (if f.syn && !f.ack then s.resetStaleTcpState g p.srcPort F.isIpv6 else s) = s
  split
  · simp only [Core.consumeDirectDecision]
    split <;> rfl
  · rfl

theorem enter_fresh (h : s.tables.Fresh r.alloc) : (F.enter g s p f).2.tables.Fresh r.alloc := by
  rw [enter_tables]
  split
  · simp only [Core.resetStaleTcpState]
    split
    · exact h
    · exact h.removeConnection p.srcPort false F.isIpv6
  · exact h

/-- The entry of a packet touches the tracked flows of its own family only. -/
theorem enter_tracked (h : s.tables.Consistent) (port : UInt16) :
    (F.enter g s p f).2.tables.flow.tracked ⟨port, false, !F.isIpv6⟩ =
      s.tables.flow.tracked ⟨port, false, !F.isIpv6⟩ := by
  rw [enter_tables]
  split
  · simp only [Core.resetStaleTcpState]
    split
    · rfl
    · simp only
      rw [h.flow_removeConnection, FlowMap.tracked_erase]
      cases F.isIpv6 <;> simp
  · rfl

/-- A packet that asks the rules is judged in the state its entry left. -/
theorem outbound_of_asks (h : F.asks g s p f = true) :
    F.outbound g r s p f = F.judge g r (F.enter g s p f).2 p := by
  simp only [asks, Bool.and_eq_true, Bool.not_eq_true', bne_iff_ne, ne_eq] at h
  obtain ⟨⟨⟨⟨he, hd⟩, hr⟩, ht⟩, hu⟩ := h
  simp [outbound, he, hd, hr, ht, hu]

theorem judge_inv (hF : F.Lawful) (h : s.Inv relayPort) (hfresh : s.tables.Fresh r.alloc)
    (hdirect : s.bitmaps.portIsDirect p.srcPort = false)
    (hown : s.tables.isConnectionTracked p.srcPort false F.isIpv6 = false)
    (hother : F.finalAction g r p = .direct → r.verdict.pid ≠ 0 →
      s.tables.flow.tracked ⟨p.srcPort, false, !F.isIpv6⟩ = false) :
    (F.judge g r s p).2.Inv relayPort := by
  simp only [judge]
  split
  · rename_i hact
    split
    · rename_i hpid
      refine h.portSetDirect p.srcPort (fun v => ?_)
      by_cases hv : v = F.isIpv6
      · rw [hv]
        exact (h.consistent.isConnectionTracked_eq ⟨p.srcPort, false, F.isIpv6⟩).symm.trans hown
      · rw [Bool.eq_not_of_ne hv]
        exact hother hact (by simpa using hpid)
    · exact h
  · exact h.portSetDecided p.srcPort
  · refine ⟨hF.add_consistent h.consistent hfresh .., (h.portSetDecided p.srcPort).decided, fun q v hq htr => ?_⟩
    rcases hF.add_tracked h.consistent hfresh _ _ _ _ _ _ _ _ htr with hk | htr
    · rw [show q = p.srcPort from congrArg FlowKey.srcPort hk]
      exact hdirect
    · exact h.not_direct q v hq htr

/-- One packet keeps the invariant unless it caches DIRECT over the other family's flow. -/
theorem outbound_inv (hF : F.Lawful) (h : s.Inv relayPort) (hfresh : s.tables.Fresh r.alloc)
    (hok : F.cachesOverOther g r s p f = false) : (F.outbound g r s p f).2.Inv relayPort := by
  obtain ⟨henter, hbit⟩ := enter_inv (F := F) (g := g) (p := p) (f := f) h
  cases hasks : F.asks g s p f with
  | true =>
    have hparts := hasks
    simp only [asks, Bool.and_eq_true, Bool.not_eq_true'] at hparts
    rw [outbound_of_asks hasks]
    refine judge_inv hF henter (enter_fresh hfresh) (hbit hparts.1.1.1.2) hparts.1.2 (fun hact hpid => ?_)
    rw [enter_tracked h.consistent, Bool.eq_false_iff]
    intro htr
    have hc := h.consistent.isConnectionTracked_eq ⟨p.srcPort, false, !F.isIpv6⟩
    simp [cachesOverOther, hasks, hact, hpid, hc.trans htr] at hok
  | false =>
    simp only [outbound]
    split
    · exact h
    · split
      · exact henter
      · split
        · exact relayResponse_inv hF henter
        · split
          · exact tracked_inv henter
          · split
            · exact henter
            · rename_i he hd hr ht hu
              rw [beq_iff_eq] at hr
              simp [asks, he, hd, hr, ht, hu] at hasks

end TcpFamily

/-- An outbound TCP packet of either family. -/
inductive TcpAction where
  | v4 (input : TcpInput UInt32)
  | v6 (input : TcpInput Ip6)

def TcpInput.Enabled {α : Type} (relayPort : UInt16) (s : Core) (i : TcpInput α) : Prop :=
  i.settings.localRelayPort = relayPort ∧ i.packet.outbound = true ∧ s.tables.Fresh i.readings.alloc

instance {α : Type} (relayPort : UInt16) (s : Core) (i : TcpInput α) : Decidable (i.Enabled relayPort s) :=
  inferInstanceAs (Decidable (_ ∧ _ ∧ _))

def Core.tcpStep (relayPort : UInt16) (s : Core) : TcpAction → Option Core
  | .v4 i => if i.Enabled relayPort s then some (tcpV4.process s i).2 else none
  | .v6 i => if i.Enabled relayPort s then some (tcpV6.process s i).2 else none

/-- The condition on a step: it does not cache a DIRECT verdict for a port while a TCP flow of the
other family is tracked for that port. -/
def Core.KeepsOtherFamily (s : Core) : TcpAction → Prop
  | .v4 i => tcpV4.cachesOverOther i.settings i.readings s i.packet i.flags = false
  | .v6 i => tcpV6.cachesOverOther i.settings i.readings s i.packet i.flags = false

/-- A packet of a tracked flow that is no fresh SYN and does not go to a proxy is sent to the relay. -/
def TcpFamily.RedirectsTracked {α : Type} (F : TcpFamily α) (relayPort : UInt16) (s : Core) : Prop :=
  ∀ i : TcpInput α, i.settings.localRelayPort = relayPort → i.packet.outbound = true →
    (i.flags.syn && !i.flags.ack) = false → F.exempt i.settings i.packet = false →
    i.packet.srcPort ≠ relayPort → s.tables.isConnectionTracked i.packet.srcPort false F.isIpv6 = true →
    ∃ q, (F.process s i).1 = .modified q ∧ q.dstPort = relayPort

def Core.RedirectsTracked (relayPort : UInt16) (s : Core) : Prop :=
  tcpV4.RedirectsTracked relayPort s ∧ tcpV6.RedirectsTracked relayPort s

section Redirect
variable {α : Type} {F : TcpFamily α} {relayPort : UInt16} {s : Core}

private theorem toRelay_dstPort (g : Settings) (p : Packet α) : (F.toRelay g p).dstPort = g.localRelayPort := by
  simp only [TcpFamily.toRelay, TcpFamily.reroute]
  split <;> rfl

theorem Core.Inv.redirectsTracked (h : s.Inv relayPort) : F.RedirectsTracked relayPort s := by
  intro i hport _ hsyn hexempt hsrc htr
  have hflow := (h.consistent.isConnectionTracked_eq ⟨i.packet.srcPort, false, F.isIpv6⟩).symm.trans htr
  have hbit := h.not_direct _ _ hsrc hflow
  have henter : (F.enter i.settings s i.packet i.flags).1 = false ∧
      (F.enter i.settings s i.packet i.flags).2.tables = s.tables := by
    simp only [TcpFamily.enter, hsyn, Bool.false_eq_true, if_false, Core.consumeDirectDecision, hbit, Bool.and_false]
    split
    · exact ⟨rfl, by split <;> rfl⟩
    · exact ⟨rfl, rfl⟩
  have hne : ¬ i.packet.srcPort = i.settings.localRelayPort := by rwa [hport]
  refine ⟨F.toRelay i.settings i.packet, ?_, (toRelay_dstPort _ _).trans hport⟩
  simp [TcpFamily.process, TcpFamily.outbound, hexempt, henter.1, henter.2, hne, htr, TcpFamily.tracked]

/-- A packet that would be leaked: no flags, to nowhere in particular, with no proxy configured. -/
private def probe [Inhabited α] (relayPort port : UInt16) : TcpInput α where
  settings := ⟨relayPort, false, false, false, []⟩
  readings := ⟨0, 0, none, ⟨.direct, 0, 0⟩⟩
  packet := ⟨default, default, port, 0, true⟩
  flags := ⟨false, false, false, false⟩

/-- A cached DIRECT verdict on the port of a tracked flow lets its packets through. -/
theorem TcpFamily.Lawful.leaks [Inhabited α] (hF : F.Lawful) {port : UInt16} (hport : port ≠ relayPort)
    (hdecided : s.bitmaps.portIsDecided port = true) (hdirect : s.bitmaps.portIsDirect port = true)
    (htr : s.tables.isConnectionTracked port false F.isIpv6 = true) : ¬ F.RedirectsTracked relayPort s := by
  intro hred
  obtain ⟨q, hq, _⟩ := hred (probe relayPort port) rfl rfl rfl (hF.exempt_nil _ _ rfl) hport htr
  have hpass : (F.process s (probe relayPort port)).1 = .pass := by
    simp [TcpFamily.process, TcpFamily.outbound, TcpFamily.enter, probe, hdecided,
      Core.consumeDirectDecision, hdirect]
  rw [hpass] at hq
  cases hq

/-- A step that breaks the condition leaves the other family's flow under a DIRECT verdict. -/
theorem TcpFamily.caches_over_other (h : s.Inv relayPort) {i : TcpInput α}
    (hc : F.cachesOverOther i.settings i.readings s i.packet i.flags = true) :
    i.packet.srcPort ≠ i.settings.localRelayPort ∧
      (F.process s i).2.bitmaps.portIsDecided i.packet.srcPort = true ∧
      (F.process s i).2.bitmaps.portIsDirect i.packet.srcPort = true ∧
      (F.process s i).2.tables.isConnectionTracked i.packet.srcPort false (!F.isIpv6) = true := by
  simp only [TcpFamily.cachesOverOther, Bool.and_eq_true, beq_iff_eq] at hc
  obtain ⟨⟨⟨hasks, hact⟩, hpid⟩, htr⟩ := hc
  have hne : i.packet.srcPort ≠ i.settings.localRelayPort := by
    simp only [TcpFamily.asks, Bool.and_eq_true, bne_iff_ne] at hasks
    exact hasks.1.1.2
  have hflow := (h.consistent.isConnectionTracked_eq ⟨i.packet.srcPort, false, !F.isIpv6⟩).symm.trans htr
  have hs : (F.process s i).2 =
      { (F.enter i.settings s i.packet i.flags).2 with
        bitmaps := (F.enter i.settings s i.packet i.flags).2.bitmaps.portSetDirect i.packet.srcPort } := by
    rw [TcpFamily.process, TcpFamily.outbound_of_asks hasks]
    simp only [TcpFamily.judge, hact, hpid, if_true]
  have hc : (F.enter i.settings s i.packet i.flags).2.tables.Consistent := (enter_inv h).1.consistent
  rw [hs]
  refine ⟨hne, by simp, by simp, ?_⟩
  rw [hc.isConnectionTracked_eq ⟨i.packet.srcPort, false, !F.isIpv6⟩]
  exact (TcpFamily.enter_tracked h.consistent i.packet.srcPort).trans hflow

end Redirect

namespace Core
variable {relayPort : UInt16} {s s' : Core} {a : TcpAction}

theorem Inv.tcpStep (h : s.Inv relayPort) (hok : s.KeepsOtherFamily a)
    (hs : s.tcpStep relayPort a = some s') : s'.Inv relayPort := by
  cases a with
  | v4 i =>
    obtain ⟨hen, hs⟩ := Option.ite_none_right_eq_some.mp hs
    rw [← Option.some.inj hs]
    exact TcpFamily.outbound_inv tcpV4_lawful h hen.2.2 hok
  | v6 i =>
    obtain ⟨hen, hs⟩ := Option.ite_none_right_eq_some.mp hs
    rw [← Option.some.inj hs]
    exact TcpFamily.outbound_inv tcpV6_lawful h hen.2.2 hok

theorem keepsOtherFamily_of_redirects (h : s.Inv relayPort) (hs : s.tcpStep relayPort a = some s')
    (hred : s'.RedirectsTracked relayPort) : s.KeepsOtherFamily a := by
  cases a with
  | v4 i =>
    obtain ⟨hen, hs⟩ := Option.ite_none_right_eq_some.mp hs
    obtain rfl := Option.some.inj hs
    refine Bool.eq_false_iff.mpr (fun hc => ?_)
    obtain ⟨hne, hd, hdir, htr⟩ := TcpFamily.caches_over_other h hc
    rw [hen.1] at hne
    exact tcpV6_lawful.leaks hne hd hdir htr hred.2
  | v6 i =>
    obtain ⟨hen, hs⟩ := Option.ite_none_right_eq_some.mp hs
    obtain rfl := Option.some.inj hs
    refine Bool.eq_false_iff.mpr (fun hc => ?_)
    obtain ⟨hne, hd, hdir, htr⟩ := TcpFamily.caches_over_other h hc
    rw [hen.1] at hne
    exact tcpV4_lawful.leaks hne hd hdir htr hred.1

/-- While no step caches a DIRECT verdict over a tracked flow of the other family, every packet of
a tracked flow goes to the relay; and the first step that does so breaks this. -/
theorem tracked_flows_redirected_iff_other_family_kept (relayPort : UInt16) :
    (∀ s, Reach (tcpStep relayPort) KeepsOtherFamily init s → s.RedirectsTracked relayPort) ∧
    (∀ s a s', Reach (tcpStep relayPort) KeepsOtherFamily init s → s.tcpStep relayPort a = some s' →
      (s'.RedirectsTracked relayPort ↔ s.KeepsOtherFamily a)) := by
  have hinv : ∀ s, Reach (tcpStep relayPort) KeepsOtherFamily init s → s.Inv relayPort :=
    fun s h => h.invariant (Inv.init relayPort) (fun _ _ _ hi hok hs => hi.tcpStep hok hs)
  refine ⟨fun s h => ⟨(hinv s h).redirectsTracked, (hinv s h).redirectsTracked⟩, fun s a s' h hs => ?_⟩
  refine ⟨keepsOtherFamily_of_redirects (hinv s h) hs, fun hok => ?_⟩
  exact ⟨((hinv s h).tcpStep hok hs).redirectsTracked, ((hinv s h).tcpStep hok hs).redirectsTracked⟩

instance (s : Core) (a : TcpAction) : Decidable (s.KeepsOtherFamily a) :=
  match a with
  | .v4 _ => inferInstanceAs (Decidable (_ = false))
  | .v6 _ => inferInstanceAs (Decidable (_ = false))

/-- A SYN from port 5000, judged as the argument says by a process with identifier 1. -/
private def synV4 (action : RuleAction) : TcpInput UInt32 where
  settings := ⟨34010, true, false, false, []⟩
  readings := ⟨0, 1, some 0, ⟨action, 1, 1⟩⟩
  packet := ⟨0x0A00A8C0, 0x08080808, 5000, 443, true⟩
  flags := ⟨true, false, false, false⟩

private def synV6 (action : RuleAction) : TcpInput Ip6 where
  settings := ⟨34010, true, false, false, []⟩
  readings := ⟨0, 1, some 1, ⟨action, 1, 1⟩⟩
  packet := ⟨Vector.replicate 16 0x20, Vector.replicate 16 0x21, 5000, 443, true⟩
  flags := ⟨true, false, false, false⟩

/-- A data segment of the IPv4 flow. -/
private def dataV4 : TcpInput UInt32 := { synV4 .proxy with flags := ⟨false, true, false, false⟩ }

/-- An IPv4 and an IPv6 flow from port 5000, both sent to the proxy. -/
theorem tracked_flows_redirected_iff_other_family_kept_both_proxied :
    ∃ s, Reach (tcpStep 34010) KeepsOtherFamily init s ∧
      s.tables.isConnectionTracked 5000 false false = true ∧
      s.tables.isConnectionTracked 5000 false true = true ∧ s.RedirectsTracked 34010 := by
  obtain ⟨s, hr, ht⟩ := exists_reach_of_exec (tcpStep 34010) KeepsOtherFamily init
    [.v4 (synV4 .proxy), .v6 (synV6 .proxy)]
    (fun s => s.tables.isConnectionTracked 5000 false false && s.tables.isConnectionTracked 5000 false true)
    (by decide +kernel)
  obtain ⟨h4, h6⟩ := Bool.and_eq_true_iff.mp ht
  exact ⟨s, hr, h4, h6, (tracked_flows_redirected_iff_other_family_kept 34010).1 s hr⟩

/-- An IPv6 flow from port 5000 is judged DIRECT while an IPv4 flow from that port is tracked for
the proxy; the next IPv4 segment is queued unmodified. -/
theorem tracked_flow_leaked_by_other_family :
    ∃ s, Reach (tcpStep 34010) (fun _ _ => True) init s ∧ ∃ i : TcpInput UInt32,
      i.settings.localRelayPort = 34010 ∧ i.packet.outbound = true ∧ i.flags.syn = false ∧
      isProxyServerEndpoint i.settings.configs i.packet.dstAddr i.packet.dstPort = false ∧
      i.packet.srcPort ≠ 34010 ∧ s.tables.isConnectionTracked i.packet.srcPort false false = true ∧
      (tcpV4.process s i).1 = .pass ∧ ¬ s.RedirectsTracked 34010 := by
  obtain ⟨s, hr, ht⟩ := exists_reach_of_exec (tcpStep 34010) (fun _ _ => True) init
    [.v4 (synV4 .proxy), .v6 (synV6 .direct)]
    (fun s => s.tables.isConnectionTracked 5000 false false &&
      decide ((tcpV4.process s dataV4).1 = .pass)) (by decide +kernel)
  obtain ⟨htr, hpass⟩ := Bool.and_eq_true_iff.mp ht
  have hpass := of_decide_eq_true hpass
  refine ⟨s, hr, dataV4, rfl, rfl, rfl, rfl, by decide, htr, hpass, fun hred => ?_⟩
  obtain ⟨q, hq, _⟩ := hred.1 dataV4 rfl rfl rfl rfl (by decide) htr
  rw [hpass] at hq
  cases hq

end Core
end ProxyBridge.Windows
