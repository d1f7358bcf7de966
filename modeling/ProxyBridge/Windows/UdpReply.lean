import ProxyBridge.Windows.UdpForward

/-! From the proxy to the application: whether a reply is delivered under the source that the proxy
named, over any interleaving of the packet thread and the relay thread. -/
namespace ProxyBridge.Windows
open Runs
namespace UdpSystem

/-- While replies to a flow are on their way to the client, the flow is re-keyed only to the source
that those replies name. -/
def KeepsSource {α : Type} (F : UdpFamily α) (s : UdpSystem) (i : UdpInput α) : Prop :=
  F.rekeys i.settings i.readings s.core i.packet = true ∧ i.readings.alloc ≠ none →
    ∀ q ∈ s.replies, q.key = F.key i.packet → q.named = (F.toAddr i.packet.dstAddr, i.packet.dstPort)

/-- An IPv6 reply also needs the entry of its flow to be there still: the IPv4 branch drops a reply
without one and the IPv6 branch lets it through. -/
def KeepsReplies (s : UdpSystem) : UdpAction → Prop
  | .sendV4 i _ => KeepsSource udpV4 s i
  | .sendV6 i _ => KeepsSource udpV6 s i
  | .deliverV6 n .. => ∀ q ∈ s.replies[n]?, s.routes q.key ≠ none
  | _ => True

/-- Every reply on its way agrees with the entry of its flow, if there is one. -/
structure ReplyInv (s : UdpSystem) : Prop where
  consistent : s.core.tables.Consistent
  isUdp : ∀ d ∈ s.inFlight, d.key.isUdp = true
  agreeing : ∀ q ∈ s.replies, ∀ x, s.routes q.key = some x → (x.1, x.2.1) = q.named
  sources : ∀ d ∈ s.delivered, d.source = d.named

namespace ReplyInv
variable {s : UdpSystem}

theorem init : ReplyInv .init where
  consistent := consistent_empty
  isUdp d hd := by simp [UdpSystem.init] at hd
  agreeing q hq := by simp [UdpSystem.init] at hq
  sources d hd := by simp [UdpSystem.init] at hd

/-- A step of either thread that leaves the replies alone and, where it changes the entry of a
flow, agrees with the replies to that flow. -/
theorem frame (h : s.ReplyInv) {t : UdpSystem} (hc : t.core.tables.Consistent)
    (hu : ∀ d ∈ t.inFlight, d.key.isUdp = true) (hq : t.replies = s.replies) (hd : t.delivered = s.delivered)
    (hr : ∀ q ∈ s.replies, ∀ x, t.routes q.key = some x → s.routes q.key = some x ∨ (x.1, x.2.1) = q.named) :
    t.ReplyInv := by
  refine ⟨hc, hu, fun q hm x hx => ?_, hd ▸ h.sources⟩
  rw [hq] at hm
  rcases hr q hm x hx with hx | hx
  · exact h.agreeing q hm x hx
  · exact hx

section Send
variable {α : Type} {F : UdpFamily α} {i : UdpInput α} {payload : List UInt8}

private theorem isUdp_append (h : s.ReplyInv) {id : UInt32} {d : Datagram}
    (hd : d ∈ s.inFlight ++ [redirected F i payload id]) : d.key.isUdp = true := by
  rcases List.mem_append.mp hd with hd | hd
  · exact h.isUdp d hd
  · rw [List.mem_singleton.mp hd]
    rfl

theorem send (hF : F.Lawful) (h : s.ReplyInv) (hi : UdpInput.Enabled s i) (hok : KeepsSource F s i) :
    ReplyInv (s.send F i payload) := by
  obtain ⟨hc, hcase⟩ := send_cases hF h.consistent hi payload
  generalize s.send F i payload = s' at hc hcase ⊢
  cases hcase with
  | passed core hp hr => exact h.frame hc h.isUdp rfl rfl (fun q _ x hx => .inl (hr ▸ hx))
  | refused core hp hv hre hr =>
    refine h.frame hc h.isUdp rfl rfl (fun q _ x hx => .inl ?_)
    rw [routes, hr] at hx
    by_cases hk : q.key = F.key i.packet
    · rw [hk, Function.update_self] at hx
      cases hx
    · rwa [Function.update_of_ne hk] at hx
  | validated core id hbefore hr =>
    exact h.frame hc (fun d hd => h.isUdp_append hd) rfl rfl (fun q _ x hx => .inl (hr ▸ hx))
  | proxied core hre hr =>
    refine h.frame hc (fun d hd => h.isUdp_append hd) rfl rfl (fun q hq x hx => ?_)
    rw [routes, hr] at hx
    by_cases hk : q.key = F.key i.packet
    · rw [hk, Function.update_self] at hx
      obtain ⟨ha, hx⟩ := Option.ite_none_left_eq_some.mp hx
      right
      rw [hok ⟨hre, ha⟩ q hq hk, ← Option.some.inj hx]
      rfl
    · rw [Function.update_of_ne hk] at hx
      exact .inl hx

end Send

theorem receive (h : s.ReplyInv) {n : Nat} {d : Datagram} (hd : s.inFlight[n]? = some d)
    (now : UInt64) (usable : Bool) :
    ReplyInv (UdpSystem.receive { s with inFlight := s.inFlight.eraseIdx n } d now usable) := by
  have hsub : ∀ x ∈ s.inFlight.eraseIdx n, x.key.isUdp = true := fun x hx =>
    h.isUdp x (List.mem_of_mem_eraseIdx hx)
  obtain ⟨hc, hr, hcase⟩ := receive_cases (s := { s with inFlight := s.inFlight.eraseIdx n }) h.consistent
    (h.isUdp d (List.mem_of_getElem? hd)) now usable
  generalize UdpSystem.receive { s with inFlight := s.inFlight.eraseIdx n } d now usable = s' at hc hr hcase ⊢
  have hroutes : ∀ q ∈ s.replies, ∀ x, s'.routes q.key = some x →
      s.routes q.key = some x ∨ (x.1, x.2.1) = q.named := fun q _ x hx => .inl (hr ▸ hx)
  cases hcase with
  | ignored core => exact h.frame hc hsub rfl rfl hroutes
  | encapsulated core usable dest port id hroute =>
    unfold UdpSystem.encapsulate at hc hroutes ⊢
    split <;> rename_i hus <;> simp only [hus, if_true] at hc hroutes
    · exact h.frame hc hsub rfl rfl hroutes
    · exact h.frame hc hsub rfl rfl hroutes
  | held core destIp port id hv hroute => exact h.frame hc hsub rfl rfl hroutes

/-- The relay forwards a reply to a flow whose entry names its source at that moment. -/
theorem proxyReply (h : s.ReplyInv) (now : UInt64) (bytes : List UInt8) :
    ReplyInv (s.proxyReply now bytes) := by
  obtain ⟨hc, hr, core, hcase⟩ := proxyReply_cases h.consistent now bytes
  generalize s.proxyReply now bytes = t at hc hr hcase ⊢
  rcases hcase with rfl | ⟨q, id, hroute, rfl⟩
  · exact h.frame hc h.isUdp rfl rfl (fun q _ x hx => .inl (hr ▸ hx))
  · refine ⟨hc, h.isUdp, fun p hp x hx => ?_, h.sources⟩
    rw [hr] at hx
    rcases List.mem_append.mp hp with hp | hp
    · exact h.agreeing p hp x hx
    · obtain rfl := List.mem_singleton.mp hp
      rw [hroute] at hx
      rw [← Option.some.inj hx]

/-- Where an entry is found, the application sees its destination, which is what the reply named. -/
theorem deliver {α : Type} {F : UdpFamily α} (hF : F.Lawful) (h : s.ReplyInv) (g : Settings) (r : Readings)
    (localAddr client : α) {n : Nat} {q : Reply} (hq : s.replies[n]? = some q)
    (hkey : q.key = ⟨q.clientPort, true, F.isIpv6⟩)
    (hsome : ∀ p ip port, ∃ p', F.respond p (some (ip, port)) = .response p' ∧ p'.srcAddr = ip ∧ p'.srcPort = port)
    (hnone : s.routes q.key = none → ∀ p, shown F q (F.respond p none) = []) :
    ReplyInv (s.deliver F g r localAddr client q (s.replies.eraseIdx n)) := by
  obtain ⟨hc, hr, core, found, hfound, he⟩ :=
    deliver_cases hF h.consistent g r localAddr client q (s.replies.eraseIdx n)
  rw [← hkey] at hfound
  rw [he] at hc hr ⊢
  refine ⟨hc, h.isUdp, fun p hp x hx => ?_, fun d hd => ?_⟩
  · rw [hr] at hx
    exact h.agreeing p (List.mem_of_mem_eraseIdx hp) x hx
  · rcases List.mem_append.mp hd with hd | hd
    · exact h.sources d hd
    · cases found with
      | none =>
        rw [hnone (Option.map_eq_none_iff.mp hfound.symm)] at hd
        cases hd
      | some e =>
        obtain ⟨x, hx, hxe⟩ := Option.map_eq_some_iff.mp hfound.symm
        obtain ⟨p', hp', hip, hport⟩ := hsome ⟨localAddr, client, localUdpRelayPort, q.clientPort, true⟩ e.1 e.2
        rw [show some e = some (e.1, e.2) from rfl, hp', shown, List.mem_singleton] at hd
        rw [hd, hip, hport]
        exact hxe.symm.trans (h.agreeing q (List.mem_of_getElem? hq) x hx)

theorem step {s' : UdpSystem} {a : UdpAction} (h : s.ReplyInv) (hok : s.KeepsReplies a)
    (hs : s.step a = some s') : s'.ReplyInv := by
  cases a with
  | sendV4 i payload =>
    obtain ⟨hi, hs⟩ := Option.ite_none_right_eq_some.mp hs
    exact Option.some.inj hs ▸ h.send udpV4_lawful hi hok
  | sendV6 i payload =>
    obtain ⟨hi, hs⟩ := Option.ite_none_right_eq_some.mp hs
    exact Option.some.inj hs ▸ h.send udpV6_lawful hi hok
  | lose n =>
    rw [← Option.some.inj hs]
    exact h.frame h.consistent (fun d hd => h.isUdp d (List.mem_of_mem_eraseIdx hd)) rfl rfl
      (fun q _ x hx => .inl hx)
  | receive n now usable =>
    obtain ⟨_, hs⟩ := Option.ite_none_left_eq_some.mp hs
    obtain ⟨d, hd, rfl⟩ := Option.map_eq_some_iff.mp hs
    exact h.receive hd now usable
  | resolve usable =>
    obtain ⟨q, hq, rfl⟩ := Option.map_eq_some_iff.mp hs
    unfold UdpSystem.resolve UdpSystem.encapsulate
    split
    · exact h.frame h.consistent h.isUdp rfl rfl (fun q _ x hx => .inl hx)
    · exact h.frame h.consistent h.isUdp rfl rfl (fun q _ x hx => .inl hx)
  | proxyReply now bytes =>
    obtain ⟨_, hs⟩ := Option.ite_none_left_eq_some.mp hs
    exact Option.some.inj hs ▸ h.proxyReply now bytes
  | deliverV4 n g r localAddr =>
    obtain ⟨q, client, hq, hclient, rfl⟩ := deliverV4_cases hs
    refine h.deliver udpV4_lawful g r localAddr client hq ?_ ?_ ?_
    · rw [Reply.key, hclient]
      rfl
    · exact fun p ip port => ⟨_, rfl, rfl, rfl⟩
    · exact fun _ _ => rfl
  | deliverV6 n g r localAddr =>
    obtain ⟨q, client, hq, hclient, rfl⟩ := deliverV6_cases hs
    refine h.deliver udpV6_lawful g r localAddr client hq ?_ ?_ ?_
    · rw [Reply.key, hclient]
      rfl
    · exact fun p ip port => ⟨_, rfl, rfl, rfl⟩
    · exact fun hgone => (hok q hq hgone).elim

end ReplyInv

/-- In a run in which a flow is not re-keyed to another destination while replies to it are on
their way, and no IPv6 reply comes through after its entry is gone, every reply that an application
gets has the source that the proxy named. -/
theorem replies_delivered_from_named_source {s : UdpSystem} (h : Reach step KeepsReplies init s) :
    ∀ d ∈ s.delivered, d.source = d.named :=
  (h.invariant ReplyInv.init (fun _ _ _ hi hok hs => hi.step hok hs)).sources

instance {α : Type} (F : UdpFamily α) (s : UdpSystem) (i : UdpInput α) : Decidable (KeepsSource F s i) :=
  inferInstanceAs (Decidable (_ ∧ _ → _))

instance (s : UdpSystem) (a : UdpAction) : Decidable (s.KeepsReplies a) :=
  match a with
  | .sendV4 i _ => inferInstanceAs (Decidable (KeepsSource udpV4 s i))
  | .sendV6 i _ => inferInstanceAs (Decidable (KeepsSource udpV6 s i))
  | .deliverV6 n .. => inferInstanceAs (Decidable (∀ q ∈ s.replies[n]?, s.routes q.key ≠ none))
  | .lose .. | .receive .. | .resolve .. | .proxyReply .. | .deliverV4 .. => isTrue trivial

/-- A reply of 1.1.1.1:53 to the client, in turn with a datagram to 8.8.8.8:53 from the same port. -/
theorem replies_delivered_from_named_source_in_turn :
    ∃ s, Reach step KeepsReplies init s ∧ s.delivered.length = 2 ∧ ∀ d ∈ s.delivered, d.source = d.named := by
  obtain ⟨s, hr, ht⟩ := exists_reach_of_exec step KeepsReplies init
    [.sendV4 (proxiedDatagram (some 0) 0x01010101 1) [7],
      .proxyReply 1001 (socks5UdpHeader (.v4 0x01010101) 53 ++ [9]),
      .deliverV4 0 (proxiedDatagram none 0 0).settings (proxiedDatagram none 0 0).readings 0x0A00A8C0,
      .sendV4 (proxiedDatagram (some 1) 0x08080808 1) [8],
      .proxyReply 1002 (socks5UdpHeader (.v4 0x08080808) 53 ++ [9]),
      .deliverV4 0 (proxiedDatagram none 0 0).settings (proxiedDatagram none 0 0).readings 0x0A00A8C0]
    (fun s => s.delivered.length == 2) (by decide +kernel)
  exact ⟨s, hr, beq_iff_eq.mp ht, replies_delivered_from_named_source hr⟩

/-- The client sends to 8.8.8.8:53 before the packet thread sees the reply of 1.1.1.1:53, and gets
that reply from 8.8.8.8:53. -/
theorem reply_delivered_from_other_source :
    ∃ s, Reach step (fun _ _ => True) init s ∧ ∃ d ∈ s.delivered,
      d.named = (.v4 0x01010101, 53) ∧ d.source = (.v4 0x08080808, 53) ∧ d.source ≠ d.named := by
  obtain ⟨s, hr, ht⟩ := exists_reach_of_exec step (fun _ _ => True) init
    [.sendV4 (proxiedDatagram (some 0) 0x01010101 1) [7],
      .proxyReply 1001 (socks5UdpHeader (.v4 0x01010101) 53 ++ [9]),
      .sendV4 (proxiedDatagram (some 1) 0x08080808 1) [8],
      .deliverV4 0 (proxiedDatagram none 0 0).settings (proxiedDatagram none 0 0).readings 0x0A00A8C0]
    (fun s => s.delivered.any (fun d => decide (d.named = (.v4 0x01010101, 53)) &&
      decide (d.source = (.v4 0x08080808, 53)))) (by decide +kernel)
  obtain ⟨d, hd, ht⟩ := List.any_eq_true.mp ht
  simp only [Bool.and_eq_true, decide_eq_true_eq] at ht
  refine ⟨s, hr, d, hd, ht.1, ht.2, ?_⟩
  rw [ht.1, ht.2]
  decide

end UdpSystem
end ProxyBridge.Windows
