import ProxyBridge.Windows.UdpPackets

/-! The datagrams that the UDP relay sends to applications. The packet thread gives them the source
that is tracked for the application's port, in two separately written branches. -/
namespace ProxyBridge.Windows
open IntrusiveChains

/-- What is queued for sending when a datagram had this outcome. -/
def UdpOutcome.emitted {α : Type} (p : Packet α) : UdpOutcome α → List (Packet α)
  | .drop => []
  | .pass => [p]
  | .validated q | .proxied q | .response q => [q]

/-- At most one packet is sent, and it has the original destination tracked for the port, the
protocol and the family as its source. Nothing is sent if there is none. -/
def UdpFamily.RepliesAsTracked {α : Type} (F : UdpFamily α) (g : Settings) (r : Readings) (s : Core) (p : Packet α) :
    Prop :=
  let sent := (F.outbound g r s p).1.emitted p
  sent.length ≤ 1 ∧ ∀ q ∈ sent, ∃ e, s.tables.flow ⟨p.dstPort, true, F.isIpv6⟩ = some e ∧
    F.toAddr q.srcAddr = e.dest ∧ q.srcPort = e.destPort

namespace Tables
variable {t : Tables}

/-- The entry that a lookup finds is of the family it asked for. -/
private theorem isIpv6_of_lookup {port : UInt16} {isUdp isIpv6 : Bool} {a : Addr}
    (h : t.lookup port isUdp isIpv6 = some a) : (t.node a).isIpv6 = isIpv6 := by
  have htest := Links.search_some h
  simp only [Bool.and_eq_true, beq_iff_eq] at htest
  exact htest.2

theorem getConnection_flow (now : UInt64) (port : UInt16) :
    (t.getConnection now port true).1.map (fun e => (IpAddr.v4 e.1, e.2)) =
      (t.flow ⟨port, true, false⟩).map (fun e => (e.dest, e.destPort)) := by
  simp only [getConnection, flow]
  cases h : t.lookup port true false with
  | none => rfl
  | some a => simp [ConnectionInfo.entry, isIpv6_of_lookup h, IpAddr.select]

theorem getConnectionFullV6_flow (now : UInt64) (port : UInt16) :
    (t.getConnectionFullV6 now port true).1.map (fun e => (IpAddr.v6 e.1, e.2.1)) =
      (t.flow ⟨port, true, true⟩).map (fun e => (e.dest, e.destPort)) := by
  simp only [getConnectionFullV6, flow]
  cases h : t.lookup port true true with
  | none => rfl
  | some a => simp [ConnectionInfo.entry, isIpv6_of_lookup h, IpAddr.select]

end Tables

/-- A reply has the tracked source for IPv4, whatever is in the tables. For IPv6 it has it if and
only if there is one: otherwise the datagram is sent on from the relay port. -/
theorem relay_replies_iff (g : Settings) (r : Readings) (s : Core) (p : Packet UInt32) (p6 : Packet Ip6)
    (hp : p.srcPort = localUdpRelayPort) (hp6 : p6.srcPort = localUdpRelayPort) :
    udpV4.RepliesAsTracked g r s p ∧
    (udpV6.RepliesAsTracked g r s p6 ↔ (s.tables.flow ⟨p6.dstPort, true, true⟩).isSome) := by
  constructor
  · have hfound := s.tables.getConnection_flow r.now p.dstPort
    simp only [UdpFamily.RepliesAsTracked, UdpFamily.outbound, hp, BEq.rfl, if_true, UdpFamily.relayResponse, udpV4]
    cases h : (s.tables.getConnection r.now p.dstPort true).1 with
    | none => exact ⟨Nat.zero_le 1, fun q hq => nomatch hq⟩
    | some found =>
      rw [h] at hfound
      obtain ⟨e, he, heq⟩ := Option.map_eq_some_iff.mp hfound.symm
      obtain ⟨hdest, hport⟩ := Prod.mk.inj heq
      refine ⟨Nat.le_refl 1, fun q hq => ?_⟩
      obtain rfl := List.mem_singleton.mp hq
      exact ⟨e, he, hdest.symm, hport.symm⟩
  · have hfound := s.tables.getConnectionFullV6_flow r.now p6.dstPort
    simp only [UdpFamily.RepliesAsTracked, UdpFamily.outbound, hp6, BEq.rfl, if_true, UdpFamily.relayResponse, udpV6]
    cases h : (s.tables.getConnectionFullV6 r.now p6.dstPort true).1 with
    | none =>
      rw [h] at hfound
      have hnone : s.tables.flow ⟨p6.dstPort, true, true⟩ = none := Option.map_eq_none_iff.mp hfound.symm
      rw [hnone]
      refine ⟨fun ⟨_, hsent⟩ => ?_, fun hsome => nomatch hsome⟩
      obtain ⟨e, he, _⟩ := hsent _ List.mem_cons_self
      cases he
    | some found =>
      rw [h] at hfound
      obtain ⟨e, he, heq⟩ := Option.map_eq_some_iff.mp hfound.symm
      obtain ⟨hdest, hport⟩ := Prod.mk.inj heq
      refine ⟨fun _ => by rw [he]; rfl, fun _ => ⟨Nat.le_refl 1, fun q hq => ?_⟩⟩
      obtain rfl := List.mem_singleton.mp hq
      exact ⟨e, he, hdest.symm, hport.symm⟩

/-- Port 5000 is tracked for 8.8.8.8:53, and port 5001 for port 853 of the IPv6 loopback address. -/
def bothTracked : Core :=
  { Core.init with
    tables := (Tables.empty.addConnection 1 100 (some 0) 5000 true 0x0100007f 0x08080808 53 1).addConnectionV6 1 100
      (some 1) 5001 true .loopback .loopback 853 1 }

theorem relay_replies_iff_tracked :
    (bothTracked.tables.flow ⟨5000, true, false⟩).isSome = true ∧
    udpV4.RepliesAsTracked ⟨34010, false, false, false, []⟩ ⟨0, 1, none, ⟨.direct, 0, 0⟩⟩ bothTracked
      ⟨0x0100007f, 0x0100007f, localUdpRelayPort, 5000, true⟩ ∧
    udpV6.RepliesAsTracked ⟨34010, false, false, false, []⟩ ⟨0, 1, none, ⟨.direct, 0, 0⟩⟩ bothTracked
      ⟨.loopback, .loopback, localUdpRelayPort, 5001, true⟩ := by
  obtain ⟨hv4, hv6⟩ := relay_replies_iff ⟨34010, false, false, false, []⟩ ⟨0, 1, none, ⟨.direct, 0, 0⟩⟩ bothTracked
    ⟨0x0100007f, 0x0100007f, localUdpRelayPort, 5000, true⟩ ⟨.loopback, .loopback, localUdpRelayPort, 5001, true⟩ rfl
    rfl
  exact ⟨by decide +kernel, hv4, hv6.mpr (by decide +kernel)⟩

/-- With nothing tracked a datagram from the relay reaches an IPv6 client as it came. -/
theorem relay_reply_v6_untracked :
    ¬ udpV6.RepliesAsTracked ⟨34010, false, false, false, []⟩ ⟨0, 1, none, ⟨.direct, 0, 0⟩⟩ .init
      ⟨.zero, .loopback, localUdpRelayPort, 5000, true⟩ := by
  rintro ⟨_, hsent⟩
  obtain ⟨e, he, _⟩ := hsent ⟨.zero, .loopback, localUdpRelayPort, 5000, true⟩ (List.mem_singleton.mpr rfl)
  cases he

end ProxyBridge.Windows
