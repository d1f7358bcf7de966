import ProxyBridge.Windows.ConntrackRuns
import ProxyBridge.Windows.TcpDecisions
import ProxyBridge.Windows.UdpRelay

/-! The way to the relay and back. A redirected packet carries its client's port to the relay, an
answer carries it back, and the packet thread turns the answer into one of the original
destination. Two families and two protocols have their own copy of both rewritings. -/
namespace ProxyBridge.Windows
open Runs

def relayPeerOkV4 (peer originalDestination : UInt32) : Bool :=
  firstOctet peer == 127 || peer == originalDestination

def relayPeerOkV6 (peer originalDestination : Ip6) : Bool :=
  isLoopback6 peer || peer == originalDestination

/-- A TCP family with the test that the relay makes of its peers. -/
structure RelayFamily (α : Type) where
  family : TcpFamily α
  toAddr : α → IpAddr
  relayPeerOk : α → α → Bool

def relayV4 : RelayFamily UInt32 := ⟨tcpV4, .v4, relayPeerOkV4⟩

def relayV6 : RelayFamily Ip6 := ⟨tcpV6, .v6, relayPeerOkV6⟩

/-- What the relay's stack sends back: the endpoints exchanged, on its way out. -/
def Packet.answer {α : Type} (p : Packet α) : Packet α := ⟨p.dstAddr, p.srcAddr, p.dstPort, p.srcPort, true⟩

/-- Everything that writes the shared state: packets of both protocols and families, the calls of
the other threads, and a change of policy that forgets the cached decisions. -/
inductive PacketAction where
  | tcp (action : TcpAction)
  | udpV4 (input : UdpInput UInt32)
  | udpV6 (input : UdpInput Ip6)
  | call (op : TableOp)
  | forget

namespace Core

def packetStep (relayPort : UInt16) (s : Core) : PacketAction → Option Core
  | .tcp action => s.tcpStep relayPort action
  | .udpV4 i =>
    if i.packet.outbound = true ∧ s.tables.Fresh i.readings.alloc
    then some (udpV4.outbound i.settings i.readings s i.packet).2 else none
  | .udpV6 i =>
    if i.packet.outbound = true ∧ s.tables.Fresh i.readings.alloc
    then some (udpV6.outbound i.settings i.readings s i.packet).2 else none
  | .call op => if s.tables.Fresh op.alloc then some { s with tables := s.tables.apply op } else none
  | .forget => some { s with bitmaps := .zeroed }

def Reaches (relayPort : UInt16) (s s' : Core) : Prop := Reach (packetStep relayPort) (fun _ _ => True) s s'

/-- The flow of a client is tracked for a destination. -/
def Tracks (s : Core) (k : FlowKey) (client dest : IpAddr) (destPort : UInt16) : Prop :=
  ∃ e, s.tables.flow k = some e ∧ e.source = client ∧ e.dest = dest ∧ e.destPort = destPort

end Core

/-- The packet gets to the branch for tracked flows. -/
def TcpFamily.takesTracked {α : Type} (F : TcpFamily α) (g : Settings) (s : Core) (p : Packet α) (f : TcpFlags) :
    Bool :=
  !F.exempt g p && !(F.enter g s p f).1 && p.srcPort != g.localRelayPort &&
    (F.enter g s p f).2.tables.isConnectionTracked p.srcPort false F.isIpv6

/-- Whenever a packet of a tracked flow is redirected, the relay accepts its peer, and while the flow
stays tracked for the same destination, an answer leaves as a packet of that destination to the
client: inbound, or as it came for a loopback pair. -/
def RelayFamily.RoundTrips {α : Type} (S : RelayFamily α) (relayPort : UInt16) (s : Core) : Prop :=
  ∀ i : TcpInput α, i.Enabled relayPort s → S.family.takesTracked i.settings s i.packet i.flags = true →
    i.packet.dstPort ≠ 0 →
    let tracks (s : Core) := s.Tracks ⟨i.packet.srcPort, false, S.family.isIpv6⟩ (S.toAddr i.packet.srcAddr)
      (S.toAddr i.packet.dstAddr) i.packet.dstPort
    tracks s →
    ∃ q s₁, S.family.process s i = (.modified q, s₁) ∧ q.dstPort = relayPort ∧
      S.relayPeerOk q.srcAddr i.packet.dstAddr = true ∧ (i.flags.rst = false → tracks s₁) ∧
      ∀ s₂, s₁.Reaches relayPort s₂ → tracks s₂ → ∀ (g : Settings) (r : Readings) (f : TcpFlags),
        g.localRelayPort = relayPort →
        (S.family.outbound g r s₂ q.answer f).1 =
          .modified ⟨i.packet.dstAddr, i.packet.srcAddr, i.packet.dstPort, i.packet.srcPort,
            S.family.loopbackPair i.packet⟩

/-- The same for a datagram: an answer from the relay port to the recorded client, whatever local
address it is sent from. -/
def UdpFamily.RoundTrips {α : Type} (F : UdpFamily α) (relayPort : UInt16) (s : Core) : Prop :=
  ∀ i : UdpInput α, i.packet.outbound = true → i.packet.srcPort ≠ localUdpRelayPort →
    s.tables.Fresh i.readings.alloc →
    let tracks (s : Core) := s.Tracks (F.key i.packet) (F.toAddr i.packet.srcAddr) (F.toAddr i.packet.dstAddr)
      i.packet.dstPort
    tracks s →
    ∀ q s₁, F.outbound i.settings i.readings s i.packet = (.validated q, s₁) →
      q.dstPort = localUdpRelayPort ∧ tracks s₁ ∧
      ∀ s₂, s₁.Reaches relayPort s₂ → tracks s₂ → ∀ (g : Settings) (r : Readings) (localAddr : α),
        ∃ out, (F.outbound g r s₂ ⟨localAddr, i.packet.srcAddr, localUdpRelayPort, i.packet.srcPort, true⟩).1 =
          .response ⟨i.packet.dstAddr, i.packet.srcAddr, i.packet.dstPort, i.packet.srcPort, out⟩

/-- What both ways need of the state: consistent tables, and no DIRECT verdict for the relay port. -/
structure Core.RelayInv (relayPort : UInt16) (s : Core) : Prop where
  consistent : s.tables.Consistent
  not_direct : s.bitmaps.portIsDirect relayPort = false

namespace Core.RelayInv
variable {relayPort : UInt16} {s : Core}

private theorem zeroed (p : UInt16) : PortBitmaps.zeroed.portIsDirect p = false := by
  simp [PortBitmaps.portIsDirect, PortBitmaps.zeroed, testPort]

theorem init (relayPort : UInt16) : Core.RelayInv relayPort .init := ⟨consistent_empty, zeroed relayPort⟩

theorem portClear (h : s.RelayInv relayPort) (p : UInt16) :
    Core.RelayInv relayPort { s with bitmaps := s.bitmaps.portClear p } :=
  ⟨h.consistent, by simp [h.not_direct]⟩

theorem resetStaleTcpState (h : s.RelayInv relayPort) (g : Settings) (port : UInt16) (v : Bool) :
    (s.resetStaleTcpState g port v).RelayInv relayPort := by
  unfold Core.resetStaleTcpState
  split
  · exact h
  · exact (RelayInv.mk (h.consistent.removeConnection port false v) h.not_direct :
      Core.RelayInv relayPort { s with tables := _ }).portClear port

end Core.RelayInv

namespace TcpFamily
variable {α : Type} {F : TcpFamily α} {relayPort : UInt16} {g : Settings} {r : Readings} {s : Core}
  {p : Packet α} {f : TcpFlags}

private theorem enter_relayInv (h : s.RelayInv relayPort) : (F.enter g s p f).2.RelayInv relayPort := by
  have hs : (if f.syn && !f.ack then s.resetStaleTcpState g p.srcPort F.isIpv6 else s).RelayInv relayPort := by
    split
    · exact h.resetStaleTcpState g p.srcPort F.isIpv6
    · exact h
  simp only [enter]
  generalize (if f.syn && !f.ack then s.resetStaleTcpState g p.srcPort F.isIpv6 else s) = s at hs ⊢
  split
  · simp only [Core.consumeDirectDecision]
    split
    · exact hs.portClear p.srcPort
    · exact hs
  · exact hs

private theorem relayResponse_relayInv (hF : F.Lawful) (h : s.RelayInv relayPort) :
    (F.relayResponse r s p f).2.RelayInv relayPort := by
  have hrestore := hF.restore_consistent h.consistent r.now p.dstPort
  simp only [relayResponse]
  split
  · exact ⟨hrestore.removeConnection .., h.not_direct⟩
  · split
    · exact ⟨hrestore.connectionFin .., h.not_direct⟩
    · exact ⟨hrestore, h.not_direct⟩

private theorem tracked_relayInv (h : s.RelayInv relayPort) : (F.tracked g r s p f).2.RelayInv relayPort := by
  simp only [tracked]
  split
  · exact ⟨h.consistent.removeConnection .., (h.portClear p.srcPort).not_direct⟩
  · split
    · exact ⟨h.consistent.connectionFin .., h.not_direct⟩
    · exact h

/-- A DIRECT verdict is cached for the port of an application, never for the relay's own. -/
private theorem judge_relayInv (hF : F.Lawful) (h : s.RelayInv relayPort) (hfresh : s.tables.Fresh r.alloc)
    (hport : p.srcPort ≠ relayPort) : (F.judge g r s p).2.RelayInv relayPort := by
  simp only [judge]
  split
  · split
    · refine ⟨h.consistent, ?_⟩
      simp [Ne.symm hport, h.not_direct]
    · exact h
  · exact ⟨h.consistent, h.not_direct⟩
  · exact ⟨hF.add_consistent h.consistent hfresh .., h.not_direct⟩

theorem outbound_relayInv (hF : F.Lawful) (h : s.RelayInv relayPort) (hfresh : s.tables.Fresh r.alloc)
    (hg : g.localRelayPort = relayPort) : (F.outbound g r s p f).2.RelayInv relayPort := by
  have henter := enter_relayInv (F := F) (g := g) (p := p) (f := f) h
  simp only [outbound]
  split
  · exact h
  · split
    · exact henter
    · split
      · exact relayResponse_relayInv hF henter
      · rename_i hne
        split
        · exact tracked_relayInv henter
        · split
          · exact henter
          · refine judge_relayInv hF henter (enter_fresh hfresh) ?_
            rwa [beq_iff_eq, hg] at hne

end TcpFamily

theorem UdpFamily.Lawful.outbound_relayInv {α : Type} {F : UdpFamily α} (hF : F.Lawful) {relayPort : UInt16}
    {g : Settings} {r : Readings} {s : Core} {p : Packet α} (h : s.RelayInv relayPort)
    (hfresh : s.tables.Fresh r.alloc) : (F.outbound g r s p).2.RelayInv relayPort := by
  have hbits : (F.datagram g r s p).2.bitmaps = s.bitmaps := by
    simp only [UdpFamily.datagram, UdpFamily.judge]
    repeat' split
    all_goals rfl
  simp only [UdpFamily.outbound]
  split
  · exact ⟨hF.restore_consistent h.consistent .., h.not_direct⟩
  · refine ⟨(hF.datagram_effect (g := g) (p := p) h.consistent hfresh).1, ?_⟩
    rw [hbits]
    exact h.not_direct

namespace Core
variable {relayPort : UInt16} {s s' : Core}

theorem RelayInv.packetStep (h : s.RelayInv relayPort) {a : PacketAction}
    (hs : s.packetStep relayPort a = some s') : s'.RelayInv relayPort := by
  cases a with
  | tcp action =>
    cases action with
    | v4 i =>
      obtain ⟨hen, hs⟩ := Option.ite_none_right_eq_some.mp hs
      rw [← Option.some.inj hs]
      exact TcpFamily.outbound_relayInv tcpV4_lawful h hen.2.2 hen.1
    | v6 i =>
      obtain ⟨hen, hs⟩ := Option.ite_none_right_eq_some.mp hs
      rw [← Option.some.inj hs]
      exact TcpFamily.outbound_relayInv tcpV6_lawful h hen.2.2 hen.1
  | udpV4 i =>
    obtain ⟨hen, hs⟩ := Option.ite_none_right_eq_some.mp hs
    rw [← Option.some.inj hs]
    exact udpV4_lawful.outbound_relayInv h hen.2
  | udpV6 i =>
    obtain ⟨hen, hs⟩ := Option.ite_none_right_eq_some.mp hs
    rw [← Option.some.inj hs]
    exact udpV6_lawful.outbound_relayInv h hen.2
  | call op =>
    obtain ⟨hen, hs⟩ := Option.ite_none_right_eq_some.mp hs
    rw [← Option.some.inj hs]
    exact ⟨h.consistent.apply hen, h.not_direct⟩
  | forget =>
    rw [← Option.some.inj hs]
    exact ⟨h.consistent, RelayInv.zeroed relayPort⟩

theorem RelayInv.reaches (h : s.RelayInv relayPort) (hr : s.Reaches relayPort s') : s'.RelayInv relayPort :=
  Reach.invariant h (fun _ _ _ hi _ hs => hi.packetStep hs) hr

end Core

/-- What the way back needs of a family: both directions test the same pair of addresses, the relay's
own packets are not exempt, and a lookup gives the port that the table holds. -/
structure RelayFamily.Lawful {α : Type} (S : RelayFamily α) : Prop where
  lawful : S.family.Lawful
  pair_symm : ∀ (a b : α) (p q p' q' : UInt16) (o o' : Bool),
    S.family.loopbackPair ⟨a, b, p, q, o⟩ = S.family.loopbackPair ⟨b, a, p', q', o'⟩
  not_exempt : ∀ (g : Settings) (p : Packet α), p.srcPort = g.localRelayPort → S.family.exempt g p = false
  restore_port : ∀ (t : Tables) now port e,
    t.flow ⟨port, false, S.family.isIpv6⟩ = some e → e.destPort ≠ 0 →
    (S.family.restore t now port).1 = some e.destPort
  peer_of_pair : ∀ (p : Packet α) (dest : α), S.family.loopbackPair p = true → S.relayPeerOk p.srcAddr dest = true
  peer_self : ∀ dest : α, S.relayPeerOk dest dest = true

private theorem lookup_port {t : Tables} (k : FlowKey) {e : FlowEntry} (he : t.flow k = some e) :
    (t.lookup k.srcPort k.isUdp k.isIpv6).map (fun a => (t.node a).origDestPort) = some e.destPort := by
  obtain ⟨a, ha, rfl⟩ := Option.map_eq_some_iff.mp he
  rw [ha]
  rfl

theorem relayV4_lawful : relayV4.Lawful where
  lawful := tcpV4_lawful
  pair_symm a b p q p' q' o o' := Bool.and_comm ..
  not_exempt g p hp := by simp [relayV4, tcpV4, hp]
  restore_port t now port e he _ := by
    have hport := lookup_port ⟨port, false, false⟩ he
    simpa [relayV4, tcpV4, Tables.getConnection, Function.comp_def] using hport
  peer_of_pair p dest hp := by
    have hsrc : (firstOctet p.srcAddr == 127) = true := (Bool.and_eq_true_iff.mp hp).1
    simp [relayV4, relayPeerOkV4, hsrc]
  peer_self dest := by simp [relayV4, relayPeerOkV4]

theorem relayV6_lawful : relayV6.Lawful where
  lawful := tcpV6_lawful
  pair_symm a b p q p' q' o o' := Bool.and_comm ..
  not_exempt _ _ _ := rfl
  restore_port t now port e he hne := by
    have hport := lookup_port ⟨port, false, true⟩ he
    have hmap : (t.getConnectionFullV6 now port false).1.map (·.2.1) = some e.destPort := by
      simpa [Tables.getConnectionFullV6, Function.comp_def] using hport
    simp only [relayV6, tcpV6, hmap]
    simp [hne]
  peer_of_pair p dest hp := by
    have hsrc : (p.srcAddr == Ip6.loopback) = true := (Bool.and_eq_true_iff.mp hp).1
    simp [relayV6, relayPeerOkV6, isLoopback6, hsrc]
  peer_self dest := by simp [relayV6, relayPeerOkV6]

namespace RelayFamily.Lawful
variable {α : Type} {S : RelayFamily α} {relayPort : UInt16} {s : Core}

/-- The reply branch gives a packet of the relay the tracked port, and turns it around unless it
belongs to a loopback pair. -/
theorem reply_restores (hS : S.Lawful) (h : s.RelayInv relayPort) {g : Settings} (hg : g.localRelayPort = relayPort)
    (r : Readings) (f : TcpFlags) (a b : α) {port : UInt16} {e : FlowEntry}
    (he : s.tables.flow ⟨port, false, S.family.isIpv6⟩ = some e) (hne : e.destPort ≠ 0) :
    (S.family.outbound g r s ⟨a, b, relayPort, port, true⟩ f).1 =
      .modified (S.family.reroute ⟨a, b, e.destPort, port, true⟩) := by
  have hexempt : S.family.exempt g ⟨a, b, relayPort, port, true⟩ = false := hS.not_exempt g _ hg.symm
  have hreset : s.resetStaleTcpState g relayPort S.family.isIpv6 = s := by simp [Core.resetStaleTcpState, hg]
  have henter : (S.family.enter g s ⟨a, b, relayPort, port, true⟩ f).1 = false ∧
      (S.family.enter g s ⟨a, b, relayPort, port, true⟩ f).2.tables = s.tables := by
    simp only [TcpFamily.enter, hreset, ite_self, Core.consumeDirectDecision, h.not_direct, Bool.and_false]
    split
    · exact ⟨rfl, by split <;> rfl⟩
    · exact ⟨rfl, rfl⟩
  have hrestore := hS.restore_port s.tables r.now port e he hne
  simp [TcpFamily.outbound, hexempt, henter.1, hg, TcpFamily.relayResponse, henter.2, hrestore]

/-- The branch for tracked flows is reached with the tables as they were. -/
private theorem tracked_of_takes {i : TcpInput α}
    (ht : S.family.takesTracked i.settings s i.packet i.flags = true) (hc : s.tables.Consistent) :
    S.family.process s i = S.family.tracked i.settings i.readings
      (S.family.enter i.settings s i.packet i.flags).2 i.packet i.flags ∧
    (S.family.enter i.settings s i.packet i.flags).2.tables = s.tables := by
  simp only [TcpFamily.takesTracked, Bool.and_eq_true, Bool.not_eq_true', bne_iff_ne, ne_eq] at ht
  obtain ⟨⟨⟨hexempt, hdirect⟩, hport⟩, htracked⟩ := ht
  refine ⟨by simp [TcpFamily.process, TcpFamily.outbound, hexempt, hdirect, hport, htracked], ?_⟩
  rw [TcpFamily.enter_tables] at htracked ⊢
  split at htracked
  · have hgone := (hc.removeConnection i.packet.srcPort false S.family.isIpv6).isConnectionTracked_eq
      ⟨i.packet.srcPort, false, S.family.isIpv6⟩
    rw [hc.flow_removeConnection, Function.update_self] at hgone
    simp only [Core.resetStaleTcpState, beq_iff_eq, hport, if_false] at htracked
    rw [hgone] at htracked
    cases htracked
  · rename_i hsyn
    rw [if_neg hsyn]

/-- A segment other than RST leaves the destination of its flow as it was. -/
private theorem tracks_tracked {g : Settings} {r : Readings} {p : Packet α} {f : TcpFlags} {client dest : IpAddr}
    {destPort : UInt16} (hc : s.tables.Consistent) (hf : f.rst = false)
    (ht : s.Tracks ⟨p.srcPort, false, S.family.isIpv6⟩ client dest destPort) :
    (S.family.tracked g r s p f).2.Tracks ⟨p.srcPort, false, S.family.isIpv6⟩ client dest destPort := by
  simp only [TcpFamily.tracked, hf, Bool.false_eq_true, if_false]
  split
  · obtain ⟨e, he, hsrc, hdst, hport⟩ := ht
    refine ⟨{ e with finFlags := e.finFlags ||| 1, lastActivity := r.now }, ?_, hsrc, hdst, hport⟩
    simp only
    rw [hc.flow_connectionFin, FlowMap.alter, Function.update_self, he]
    rfl
  · exact ht

/-- Exchanging the endpoints of a redirected packet and sending it through the reply branch undoes
the redirection. -/
private theorem reroute_answer (hS : S.Lawful) (p : Packet α) (relayPort : UInt16) :
    ∃ a b, (S.family.reroute { p with dstPort := relayPort }).answer = ⟨a, b, relayPort, p.srcPort, true⟩ ∧
      S.family.reroute ⟨a, b, p.dstPort, p.srcPort, true⟩ =
        ⟨p.dstAddr, p.srcAddr, p.dstPort, p.srcPort, S.family.loopbackPair p⟩ := by
  have hback := hS.pair_symm p.srcAddr p.dstAddr p.srcPort p.dstPort p.dstPort p.srcPort p.outbound true
  have hthere := (hS.pair_symm p.dstAddr p.srcAddr p.dstPort p.srcPort p.srcPort relayPort true p.outbound).symm.trans
    hback.symm
  have hturned := (hS.pair_symm p.dstAddr p.srcAddr p.dstPort p.srcPort p.dstPort p.srcPort true true).symm.trans
    hback.symm
  cases hpair : S.family.loopbackPair p with
  | true =>
    refine ⟨p.dstAddr, p.srcAddr, ?_, ?_⟩
    · rw [TcpFamily.reroute, if_pos (hthere.trans hpair)]
      rfl
    · rw [TcpFamily.reroute, if_pos (hback.symm.trans hpair)]
  | false =>
    refine ⟨p.srcAddr, p.dstAddr, ?_, ?_⟩
    · rw [TcpFamily.reroute, if_neg (by rw [hthere.trans hpair]; simp)]
      rfl
    · rw [TcpFamily.reroute, if_neg (by rw [hturned.trans hpair]; simp)]
      rfl

theorem roundTrips (hS : S.Lawful) (h : s.RelayInv relayPort) : S.RoundTrips relayPort s := by
  intro i hen htakes hne tracks ht
  obtain ⟨hprocess, htables⟩ := tracked_of_takes htakes h.consistent
  have hinv : (S.family.process s i).2.RelayInv relayPort :=
    TcpFamily.outbound_relayInv hS.lawful h hen.2.2 hen.1
  refine ⟨S.family.toRelay i.settings i.packet, (S.family.process s i).2, ?_, ?_, ?_, ?_, ?_⟩
  · rw [hprocess]
    rfl
  · simp only [TcpFamily.toRelay, TcpFamily.reroute]
    split <;> exact hen.1
  · simp only [TcpFamily.toRelay, TcpFamily.reroute]
    split
    · rename_i hpair
      exact hS.peer_of_pair _ _ hpair
    · exact hS.peer_self _
  · intro hrst
    rw [hprocess]
    refine tracks_tracked (by rw [htables]; exact h.consistent) hrst ?_
    obtain ⟨e, he, hrest⟩ := ht
    exact ⟨e, by rw [htables]; exact he, hrest⟩
  · intro s₂ hr ht₂ g r f hg
    obtain ⟨e, he, _, _, hport⟩ := ht₂
    obtain ⟨a, b, hanswer, hback⟩ := hS.reroute_answer i.packet relayPort
    have hreply := hS.reply_restores (hinv.reaches hr) hg r f a b he (hport ▸ hne)
    rw [TcpFamily.toRelay, hen.1, hanswer, hreply, hport, hback]

end RelayFamily.Lawful

namespace UdpFamily
variable {α : Type} {F : UdpFamily α} {relayPort : UInt16} {s : Core}

/-- What the way back needs of a UDP family. -/
structure Replies (F : UdpFamily α) : Prop where
  lawful : F.Lawful
  toRelay_port : ∀ p, (F.toRelay p).dstPort = localUdpRelayPort
  respond_some : ∀ p a port, ∃ out, F.respond p (some (a, port)) =
    .response { p with srcAddr := a, srcPort := port, outbound := out }

theorem udpV4_replies : udpV4.Replies where
  lawful := udpV4_lawful
  toRelay_port p := by
    simp only [udpV4]
    split <;> rfl
  respond_some p a port := ⟨_, rfl⟩

theorem udpV6_replies : udpV6.Replies where
  lawful := udpV6_lawful
  toRelay_port p := by
    simp only [udpV6]
    split <;> rfl
  respond_some p a port := ⟨_, rfl⟩

/-- The reply branch gives a datagram of the relay the tracked source. -/
private theorem Replies.reply_restores (hF : F.Replies) (h : s.RelayInv relayPort) (g : Settings) (r : Readings)
    (localAddr client dest : α) {port : UInt16} {e : FlowEntry}
    (he : s.tables.flow ⟨port, true, F.isIpv6⟩ = some e) (hdest : e.dest = F.toAddr dest) :
    ∃ out, (F.outbound g r s ⟨localAddr, client, localUdpRelayPort, port, true⟩).1 =
      .response ⟨dest, client, e.destPort, port, out⟩ := by
  have hrestore := hF.lawful.restore_eq h.consistent r.now port
  rw [he, Option.map_some] at hrestore
  obtain ⟨⟨a, q⟩, hfound, hpair⟩ := Option.map_eq_some_iff.mp hrestore
  obtain ⟨haddr, rfl⟩ := Prod.mk.inj hpair
  obtain rfl : a = dest := hF.lawful.toAddr_inj (haddr.trans hdest)
  obtain ⟨out, hout⟩ := hF.respond_some ⟨localAddr, client, localUdpRelayPort, port, true⟩ a e.destPort
  refine ⟨out, ?_⟩
  simp only [outbound, relayResponse, BEq.rfl, if_true, hfound, hout]

theorem Replies.roundTrips (hF : F.Replies) (h : s.RelayInv relayPort) : F.RoundTrips relayPort s := by
  intro i _ hport hfresh tracks ht q s₁ ho
  have hdatagram : F.outbound i.settings i.readings s i.packet = F.datagram i.settings i.readings s i.packet := by
    simp [outbound, hport]
  have hinv := hF.lawful.outbound_relayInv (g := i.settings) (p := i.packet) h hfresh
  rw [ho] at hinv
  obtain ⟨_, after, heff, hflow⟩ := hF.lawful.datagram_effect (g := i.settings) (p := i.packet) h.consistent hfresh
  rw [← hdatagram, ho] at heff hflow
  have hafter : q.dstPort = localUdpRelayPort ∧ tracks s₁ := by
    obtain ⟨e₀, he₀, hsrc, hdst, hp⟩ := ht
    cases heff with
    | refused hno => rcases hno with hno | hno <;> cases hno
    | validated e _ _ he =>
      refine ⟨hF.toRelay_port i.packet, e.touch i.readings.now, ?_, ?_⟩
      · simp only at hflow
        rw [hflow, Function.update_self]
      · obtain rfl : e₀ = e := Option.some.inj (he₀.symm.trans he)
        exact ⟨hsrc, hdst, hp⟩
  refine ⟨hafter.1, hafter.2, fun s₂ hr ht₂ g r localAddr => ?_⟩
  obtain ⟨e, he, _, hdst, hp⟩ := ht₂
  obtain ⟨out, hout⟩ := hF.reply_restores (hinv.reaches hr) g r localAddr i.packet.srcAddr i.packet.dstAddr he hdst
  exact ⟨out, by rw [hout, hp]⟩

end UdpFamily

/-- In every reachable state, in both protocols and both families: the answer to a redirected packet
of a tracked flow leaves as a packet of the original destination to the client, while the flow
stays tracked; a redirected segment other than RST, and every redirected datagram, leaves it tracked. -/
theorem redirected_packets_round_trip (relayPort : UInt16) {s : Core} (h : Core.init.Reaches relayPort s) :
    relayV4.RoundTrips relayPort s ∧ relayV6.RoundTrips relayPort s ∧
    udpV4.RoundTrips relayPort s ∧ udpV6.RoundTrips relayPort s := by
  have hinv := (Core.RelayInv.init relayPort).reaches h
  exact ⟨relayV4_lawful.roundTrips hinv, relayV6_lawful.roundTrips hinv, UdpFamily.udpV4_replies.roundTrips hinv,
    UdpFamily.udpV6_replies.roundTrips hinv⟩

/-- A segment from 192.168.0.10:5000 to 8.8.8.8:443 that the rules send to the proxy. -/
private def segmentTo443 (alloc : Option Addr) (flags : TcpFlags) : TcpInput UInt32 where
  settings := ⟨34010, true, false, false, []⟩
  readings := ⟨0, 1, alloc, ⟨.proxy, 1, 1⟩⟩
  packet := ⟨0x0A00A8C0, 0x08080808, 5000, 443, true⟩
  flags := flags

private def dataTo443 : TcpInput UInt32 := segmentTo443 none ⟨false, true, false, false⟩

private def resetTo443 : TcpInput UInt32 := segmentTo443 none ⟨false, true, false, true⟩

/-- The state after the SYN of this connection. -/
private def tracking443 : Core := (tcpV4.process Core.init (segmentTo443 (some 0) ⟨true, false, false, false⟩)).2

private theorem reaches_tracking443 : Core.init.Reaches 34010 tracking443 := by
  have hen : (segmentTo443 (some 0) ⟨true, false, false, false⟩).Enabled 34010 Core.init := by decide
  refine .next (a := .tcp (.v4 (segmentTo443 (some 0) ⟨true, false, false, false⟩))) .start trivial ?_
  simp only [Core.packetStep, Core.tcpStep, if_pos hen]
  rfl

private theorem tracks443 : tracking443.Tracks ⟨5000, false, false⟩ (.v4 0x0A00A8C0) (.v4 0x08080808) 443 := by
  have hflow : (tracking443.tables.flow ⟨5000, false, false⟩).any (fun e : FlowEntry => decide (e.source =
      .v4 0x0A00A8C0 ∧ e.dest = .v4 0x08080808 ∧ e.destPort = 443)) = true := by decide +kernel
  obtain ⟨e, he, hroute⟩ := (Option.any_eq_true ..).mp hflow
  exact ⟨e, he, of_decide_eq_true hroute⟩

/-- A data segment, the relay's answer to it and what the client gets. -/
theorem redirected_packets_round_trip_data :
    ∃ (s : Core) (i : TcpInput UInt32) (q : Packet UInt32) (s₁ : Core), Core.init.Reaches 34010 s ∧
      i.packet = ⟨0x0A00A8C0, 0x08080808, 5000, 443, true⟩ ∧ tcpV4.process s i = (.modified q, s₁) ∧
      (tcpV4.outbound i.settings i.readings s₁ q.answer ⟨false, true, false, false⟩).1 =
        .modified ⟨0x08080808, 0x0A00A8C0, 443, 5000, false⟩ := by
  have htakes : tcpV4.takesTracked dataTo443.settings tracking443 dataTo443.packet dataTo443.flags = true := by
    decide +kernel
  obtain ⟨q, s₁, hq, _, _, hkeep, hreply⟩ := (redirected_packets_round_trip 34010 reaches_tracking443).1 dataTo443
    ⟨rfl, rfl, fun a ha => (nomatch ha)⟩ htakes (by decide) tracks443
  exact ⟨tracking443, dataTo443, q, s₁, reaches_tracking443, rfl, hq, hreply s₁ .start (hkeep rfl) _ _ _ rfl⟩

/-- An RST removes its flow while it is redirected: an answer to it would leave from the relay port. -/
theorem answer_to_reset_keeps_relay_port :
    ∃ (s : Core) (i : TcpInput UInt32) (q : Packet UInt32) (s₁ : Core), Core.init.Reaches 34010 s ∧
      i.Enabled 34010 s ∧ tcpV4.takesTracked i.settings s i.packet i.flags = true ∧
      i.packet = ⟨0x0A00A8C0, 0x08080808, 5000, 443, true⟩ ∧ i.flags.rst = true ∧
      s.Tracks ⟨5000, false, false⟩ (.v4 0x0A00A8C0) (.v4 0x08080808) 443 ∧
      tcpV4.process s i = (.modified q, s₁) ∧
      (tcpV4.outbound i.settings i.readings s₁ q.answer ⟨false, true, false, false⟩).1 =
        .modified ⟨0x08080808, 0x0A00A8C0, 34010, 5000, false⟩ := by
  have htakes : tcpV4.takesTracked resetTo443.settings tracking443 resetTo443.packet resetTo443.flags = true := by
    decide +kernel
  have hreply : (tcpV4.outbound resetTo443.settings resetTo443.readings (tcpV4.process tracking443 resetTo443).2
      (tcpV4.toRelay resetTo443.settings resetTo443.packet).answer ⟨false, true, false, false⟩).1 =
      .modified ⟨0x08080808, 0x0A00A8C0, 34010, 5000, false⟩ := by decide +kernel
  have hfirst : (tcpV4.process tracking443 resetTo443).1 =
      .modified (tcpV4.toRelay resetTo443.settings resetTo443.packet) := by decide +kernel
  exact ⟨tracking443, resetTo443, _, _, reaches_tracking443, ⟨rfl, rfl, fun a ha => (nomatch ha)⟩, htakes, rfl, rfl,
    tracks443, Prod.ext hfirst rfl, hreply⟩

end ProxyBridge.Windows
