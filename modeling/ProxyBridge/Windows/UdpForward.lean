import ProxyBridge.Library.CStrings
import ProxyBridge.Windows.UdpRelay

/-! From the application to the proxy: whether a datagram is encapsulated with the destination it
was sent to, over any interleaving of the packet thread and the relay thread. -/
namespace ProxyBridge.Windows
open CStrings Runs
namespace UdpSystem

/-- The datagram went out under the header of its own destination, by a configuration identifier that
the rules returned for its flow and that destination. -/
def Faithful (s : UdpSystem) (e : Encapsulated) : Prop :=
  e.bytes = socks5UdpHeader e.origin.dest e.origin.destPort ++ e.origin.payload ∧
  e.proxyConfigId = e.origin.configId ∧
  ⟨e.origin.key, e.origin.dest, e.origin.destPort, e.proxyConfigId⟩ ∈ s.judged

/-- While the relay has yet to encapsulate datagrams of a flow, the flow is re-keyed only to where
those datagrams go; and between the two lookups for an IPv4 flow its entry is not dropped. -/
def Undisturbed {α : Type} (F : UdpFamily α) (s : UdpSystem) (i : UdpInput α) : Prop :=
  (F.rekeys i.settings i.readings s.core i.packet = true ∧ i.readings.alloc ≠ none →
    ∀ d ∈ s.pending, d.key = F.key i.packet →
      d.route = (F.toAddr i.packet.dstAddr, i.packet.dstPort, i.readings.verdict.proxyConfigId)) ∧
  (∀ h ∈ s.held, h.datagram.key = F.key i.packet → F.passes i.settings i.readings s.core i.packet = true ∨
    F.valid i.readings s.core i.packet = true ∨
    (F.rekeys i.settings i.readings s.core i.packet = true ∧ i.readings.alloc ≠ none))

def KeepsInFlight (s : UdpSystem) : UdpAction → Prop
  | .sendV4 i _ => Undisturbed udpV4 s i
  | .sendV6 i _ => Undisturbed udpV6 s i
  | _ => True

/-- Every datagram still to be encapsulated agrees with the entry of its flow, if there is one. -/
structure ForwardInv (s : UdpSystem) : Prop where
  consistent : s.core.tables.Consistent
  isUdp : ∀ d ∈ s.pending, d.key.isUdp = true
  routed : ∀ d ∈ s.pending, ∀ x, s.routes d.key = some x → x = d.route
  looked_up : ∀ h, s.held = some h → h.datagram.key.isIpv6 = false ∧ s.routes h.datagram.key ≠ none ∧
    h.datagram.dest = .v4 h.destIp ∧ h.datagram.destPort = h.destPort
  judged_routes : ∀ k x, s.routes k = some x → ⟨k, x.1, x.2.1, x.2.2⟩ ∈ s.judged
  judged_pending : ∀ d ∈ s.pending, ⟨d.key, d.dest, d.destPort, d.configId⟩ ∈ s.judged
  sent : ∀ e ∈ s.sent, s.Faithful e

namespace ForwardInv
variable {s : UdpSystem}

theorem init : ForwardInv .init where
  consistent := consistent_empty
  isUdp d hd := by simp [pending, UdpSystem.init] at hd
  routed d hd := by simp [pending, UdpSystem.init] at hd
  looked_up h hh := by simp [UdpSystem.init] at hh
  judged_routes k x hx := by simp [routes, UdpSystem.init, Core.init, FlowMap.routes] at hx
  judged_pending d hd := by simp [pending, UdpSystem.init] at hd
  sent e he := by simp [UdpSystem.init] at he

/-- A change of the tables that keeps the routes, and of what the invariant does not mention. -/
theorem frame (h : s.ForwardInv) {core : Core} (hc : core.tables.Consistent)
    (hr : core.tables.flow.routes = s.routes) (replies : List Reply) (delivered : List Delivered) :
    ForwardInv { s with core := core, replies := replies, delivered := delivered } where
  consistent := hc
  isUdp := h.isUdp
  routed d hd x hx := h.routed d hd x (hr ▸ hx)
  looked_up q hq := by
    have hl := h.looked_up q hq
    exact ⟨hl.1, by rw [routes, hr]; exact hl.2.1, hl.2.2⟩
  judged_routes k x hx := h.judged_routes k x (hr ▸ hx)
  judged_pending := h.judged_pending
  sent := h.sent

/-- Forgetting some of the datagrams that are in flight. -/
theorem forget (h : s.ForwardInv) (l : List Datagram) (hl : ∀ d ∈ l, d ∈ s.inFlight) :
    ForwardInv { s with inFlight := l } := by
  have hsub : ∀ d ∈ pending { s with inFlight := l }, d ∈ s.pending := by
    intro d hd
    rcases List.mem_append.mp hd with hd | hd
    · exact List.mem_append_left _ (hl d hd)
    · exact List.mem_append_right _ hd
  exact ⟨h.consistent, fun d hd => h.isUdp d (hsub d hd), fun d hd => h.routed d (hsub d hd), h.looked_up,
    h.judged_routes, fun d hd => h.judged_pending d (hsub d hd), h.sent⟩

/-- A send of a datagram whose lookups agreed with it. -/
theorem encapsulate (h : s.ForwardInv) (usable : Bool) {d : Datagram} {dest : IpAddr} {port : UInt16}
    {id : UInt32} (hroute : (dest, port, id) = d.route)
    (hj : ⟨d.key, d.dest, d.destPort, d.configId⟩ ∈ s.judged) :
    ForwardInv (s.encapsulate usable d dest port id) := by
  obtain ⟨rfl, rfl, rfl⟩ : dest = d.dest ∧ port = d.destPort ∧ id = d.configId := by
    simpa [Datagram.route] using hroute
  unfold UdpSystem.encapsulate
  split
  · refine ⟨h.consistent, h.isUdp, h.routed, h.looked_up, h.judged_routes, h.judged_pending, fun e he => ?_⟩
    rcases List.mem_append.mp he with he | he
    · exact h.sent e he
    · rw [List.mem_singleton.mp he]
      exact ⟨rfl, rfl, hj⟩
  · exact h

section Send
variable {α : Type} {F : UdpFamily α} {i : UdpInput α} {payload : List UInt8}

private theorem mem_pending_append {d new : Datagram} (core : Core) (judged : List Judgement)
    (hd : d ∈ pending { s with core := core, inFlight := s.inFlight ++ [new], judged := judged }) :
    d ∈ s.pending ∨ d = new := by
  simp only [pending, List.mem_append, List.mem_singleton] at hd ⊢
  tauto

/-- The entry of a flow is dropped while none of its datagrams is between the two lookups. -/
private theorem refused (h : s.ForwardInv) {core : Core} (hc : core.tables.Consistent) (k : FlowKey)
    (hr : core.tables.flow.routes = Function.update s.routes k none)
    (hheld : ∀ q ∈ s.held, q.datagram.key ≠ k) : ForwardInv { s with core := core } := by
  have hsub : ∀ j x, core.tables.flow.routes j = some x → s.routes j = some x := by
    intro j x hx
    rw [hr] at hx
    by_cases hj : j = k
    · rw [hj, Function.update_self] at hx
      cases hx
    · rwa [Function.update_of_ne hj] at hx
  refine ⟨hc, h.isUdp, fun d hd x hx => h.routed d hd x (hsub _ _ hx), fun q hq => ?_,
    fun j x hx => h.judged_routes j x (hsub j x hx), h.judged_pending, h.sent⟩
  have hl := h.looked_up q hq
  refine ⟨hl.1, ?_, hl.2.2⟩
  rw [routes, hr, Function.update_of_ne (hheld q hq)]
  exact hl.2.1

/-- An accepted datagram joins the others of its flow, all of which agree with the entry. -/
private theorem validated (h : s.ForwardInv) {core : Core} (hc : core.tables.Consistent)
    (hr : core.tables.flow.routes = s.routes) {new : Datagram} (hu : new.key.isUdp = true)
    (hnew : s.routes new.key = some new.route) :
    ForwardInv { s with core := core, inFlight := s.inFlight ++ [new] } := by
  refine ⟨hc, fun d hd => ?_, fun d hd x hx => ?_, fun q hq => ?_, fun j x hx => h.judged_routes j x (hr ▸ hx),
    fun d hd => ?_, h.sent⟩
  · rcases mem_pending_append core s.judged hd with hd | rfl
    · exact h.isUdp d hd
    · exact hu
  · have hbefore : s.routes d.key = some x := by
      rw [← hr]
      exact hx
    rcases mem_pending_append core s.judged hd with hd | rfl
    · exact h.routed d hd x hbefore
    · exact Option.some.inj (hbefore.symm.trans hnew)
  · have hl := h.looked_up q hq
    exact ⟨hl.1, by rw [routes, hr]; exact hl.2.1, hl.2.2⟩
  · rcases mem_pending_append core s.judged hd with hd | rfl
    · exact h.judged_pending d hd
    · exact h.judged_routes _ _ hnew

/-- A re-keyed flow takes its entry to where the datagrams in flight are going already. -/
private theorem proxied (h : s.ForwardInv) {core : Core} (hc : core.tables.Consistent) {new : Datagram}
    (hu : new.key.isUdp = true) (v : Option (IpAddr × UInt16 × UInt32)) (hv : v = none ∨ v = some new.route)
    (hr : core.tables.flow.routes = Function.update s.routes new.key v)
    (hsame : v ≠ none → ∀ d ∈ s.pending, d.key = new.key → d.route = new.route)
    (hheld : ∀ q ∈ s.held, q.datagram.key = new.key → v ≠ none) :
    ForwardInv { s with
      core := core, inFlight := s.inFlight ++ [new]
      judged := s.judged ++ [⟨new.key, new.dest, new.destPort, new.configId⟩] } := by
  have hsub : ∀ j x, core.tables.flow.routes j = some x →
      (j = new.key ∧ v ≠ none ∧ x = new.route) ∨ (j ≠ new.key ∧ s.routes j = some x) := by
    intro j x hx
    rw [hr] at hx
    by_cases hj : j = new.key
    · rw [hj, Function.update_self] at hx
      rcases hv with hv | hv
      · rw [hv] at hx
        cases hx
      · exact .inl ⟨hj, by simp [hv], Option.some.inj (hx.symm.trans hv)⟩
    · rw [Function.update_of_ne hj] at hx
      exact .inr ⟨hj, hx⟩
  refine ⟨hc, fun d hd => ?_, fun d hd x hx => ?_, fun q hq => ?_, fun j x hx => ?_, fun d hd => ?_,
    fun e he => ?_⟩
  · rcases mem_pending_append core _ hd with hd | rfl
    · exact h.isUdp d hd
    · exact hu
  · rcases mem_pending_append core _ hd with hd | rfl
    · rcases hsub _ _ hx with ⟨hk, hv, rfl⟩ | ⟨_, hx⟩
      · exact (hsame hv d hd hk).symm
      · exact h.routed d hd x hx
    · rcases hsub _ _ hx with ⟨_, _, rfl⟩ | ⟨hne, _⟩
      · rfl
      · exact (hne rfl).elim
  · have hl := h.looked_up q hq
    refine ⟨hl.1, ?_, hl.2.2⟩
    rw [routes, hr]
    by_cases hk : q.datagram.key = new.key
    · rw [hk, Function.update_self]
      exact hheld q hq hk
    · rw [Function.update_of_ne hk]
      exact hl.2.1
  · rcases hsub j x hx with ⟨rfl, _, rfl⟩ | ⟨_, hx⟩
    · exact List.mem_append_right _ (List.mem_singleton_self _)
    · exact List.mem_append_left _ (h.judged_routes j x hx)
  · rcases mem_pending_append core _ hd with hd | rfl
    · exact List.mem_append_left _ (h.judged_pending d hd)
    · exact List.mem_append_right _ (List.mem_singleton_self _)
  · obtain ⟨hb, hid, hj⟩ := h.sent e he
    exact ⟨hb, hid, List.mem_append_left _ hj⟩

theorem send (hF : F.Lawful) (h : s.ForwardInv) (hi : UdpInput.Enabled s i) (hok : Undisturbed F s i) :
    ForwardInv (s.send F i payload) := by
  obtain ⟨hc, hcase⟩ := send_cases hF h.consistent hi payload
  obtain ⟨hsame, hkeep⟩ := hok
  generalize s.send F i payload = s' at hc hcase ⊢
  cases hcase with
  | passed core hp hr => exact h.frame hc hr s.replies s.delivered
  | refused core hp hv hre hr =>
    refine h.refused hc (F.key i.packet) hr (fun q hq hk => ?_)
    rcases hkeep q hq hk with hc | hc | hc
    · rw [hp] at hc
      cases hc
    · rw [hv] at hc
      cases hc
    · rw [hre] at hc
      cases hc.1
  | validated core id hbefore hr => exact h.validated hc hr rfl hbefore
  | proxied core hre hr =>
    refine h.proxied hc rfl _ ?_ hr (fun hv => hsame ⟨hre, fun ha => hv (if_pos ha)⟩) (fun q hq hk => ?_)
    · split
      · exact .inl rfl
      · exact .inr rfl
    · simp only [UdpFamily.rekeys, Bool.and_eq_true, Bool.not_eq_true'] at hre
      rcases hkeep q hq hk with hc | hc | hc
      · rw [hre.1.1.1.1] at hc
        cases hc
      · rw [hre.1.1.1.2] at hc
        cases hc
      · rw [if_neg hc.2]
        simp

end Send

theorem receive (h : s.ForwardInv) {n : Nat} {d : Datagram} (hd : s.inFlight[n]? = some d)
    (now : UInt64) (usable : Bool) :
    ForwardInv (UdpSystem.receive { s with inFlight := s.inFlight.eraseIdx n } d now usable) := by
  have hmem : d ∈ s.pending := List.mem_append_left _ (List.mem_of_getElem? hd)
  have hf := h.forget (s.inFlight.eraseIdx n) (fun _ hx => List.mem_of_mem_eraseIdx hx)
  obtain ⟨hc, hr, hcase⟩ := receive_cases hf.consistent (h.isUdp d hmem) now usable
  generalize UdpSystem.receive { s with inFlight := s.inFlight.eraseIdx n } d now usable = s' at hc hr hcase ⊢
  cases hcase with
  | ignored core => exact hf.frame hc hr s.replies s.delivered
  | encapsulated core usable dest port id hroute =>
    have hcore : core.tables.Consistent ∧ core.tables.flow.routes = s.routes := by
      unfold UdpSystem.encapsulate at hc hr
      split at hc <;> split at hr <;> exact ⟨hc, hr⟩
    exact (hf.frame hcore.1 hcore.2 s.replies s.delivered).encapsulate usable (h.routed d hmem _ hroute)
      (h.judged_pending d hmem)
  | held core destIp port id hv hroute =>
    have hg := hf.frame hc hr s.replies s.delivered
    have hagree := h.routed d hmem _ hroute
    simp only [Datagram.route, Prod.mk.injEq] at hagree
    have hsub : ∀ x ∈ s.inFlight.eraseIdx n ++ [d], x ∈ s.pending := by
      intro x hx
      rcases List.mem_append.mp hx with hx | hx
      · exact List.mem_append_left _ (List.mem_of_mem_eraseIdx hx)
      · rw [List.mem_singleton.mp hx]
        exact hmem
    refine ⟨hc, fun x hx => h.isUdp x (hsub x hx), fun x hx y hy => h.routed x (hsub x hx) y (hr ▸ hy),
      fun q hq => ?_, hg.judged_routes, fun x hx => h.judged_pending x (hsub x hx), hg.sent⟩
    obtain rfl := Option.some.inj hq
    refine ⟨hv, ?_, hagree.1.symm, hagree.2.1.symm⟩
    rw [hr]
    intro hnone
    have := hroute.symm.trans hnone
    cases this

theorem resolve (h : s.ForwardInv) {q : Held} (hq : s.held = some q) (usable : Bool) :
    ForwardInv (s.resolve q usable) := by
  obtain ⟨hv, hsome, hd, hp⟩ := h.looked_up q hq
  have hmem : q.datagram ∈ s.pending := by simp [pending, hq]
  obtain ⟨x, hx⟩ := Option.ne_none_iff_exists'.mp hsome
  have hroute := h.routed _ hmem x hx
  have hid := getConnectionProxyId_eq h.consistent (h.isUdp _ hmem) hv (hx.trans (congrArg some hroute))
  have hdrop : ForwardInv { s with held := none } := by
    have hsub : ∀ d ∈ pending { s with held := none }, d ∈ s.pending := by
      intro d hd
      simp only [pending, Option.map_none, Option.toList_none, List.append_nil] at hd
      exact List.mem_append_left _ hd
    exact ⟨h.consistent, fun d hd => h.isUdp d (hsub d hd), fun d hd => h.routed d (hsub d hd),
      fun _ hn => (nomatch hn), h.judged_routes, fun d hd => h.judged_pending d (hsub d hd), h.sent⟩
  unfold UdpSystem.resolve
  refine hdrop.encapsulate usable ?_ (h.judged_pending _ hmem)
  rw [hid, Datagram.route, hd, hp]

theorem deliver {α : Type} {F : UdpFamily α} (hF : F.Lawful) (h : s.ForwardInv) (g : Settings) (r : Readings)
    (localAddr client : α) (q : Reply) (rest : List Reply) :
    ForwardInv (s.deliver F g r localAddr client q rest) := by
  obtain ⟨hc, hr, core, found, _, he⟩ := deliver_cases hF h.consistent g r localAddr client q rest
  rw [he] at hc hr ⊢
  exact h.frame hc hr rest _

theorem step {s' : UdpSystem} {a : UdpAction} (h : s.ForwardInv) (hok : s.KeepsInFlight a)
    (hs : s.step a = some s') : s'.ForwardInv := by
  cases a with
  | sendV4 i payload =>
    obtain ⟨hi, hs⟩ := Option.ite_none_right_eq_some.mp hs
    exact Option.some.inj hs ▸ h.send udpV4_lawful hi hok
  | sendV6 i payload =>
    obtain ⟨hi, hs⟩ := Option.ite_none_right_eq_some.mp hs
    exact Option.some.inj hs ▸ h.send udpV6_lawful hi hok
  | lose n => exact Option.some.inj hs ▸ h.forget _ (fun _ hx => List.mem_of_mem_eraseIdx hx)
  | receive n now usable =>
    obtain ⟨_, hs⟩ := Option.ite_none_left_eq_some.mp hs
    obtain ⟨d, hd, rfl⟩ := Option.map_eq_some_iff.mp hs
    exact h.receive hd now usable
  | resolve usable =>
    obtain ⟨q, hq, rfl⟩ := Option.map_eq_some_iff.mp hs
    exact h.resolve hq usable
  | proxyReply now bytes =>
    obtain ⟨_, hs⟩ := Option.ite_none_left_eq_some.mp hs
    rw [← Option.some.inj hs]
    obtain ⟨hc, hr, core, hcase⟩ := proxyReply_cases h.consistent now bytes
    generalize s.proxyReply now bytes = t at hc hr hcase ⊢
    rcases hcase with rfl | ⟨q, id, _, rfl⟩
    · exact h.frame hc hr s.replies s.delivered
    · exact h.frame hc hr _ s.delivered
  | deliverV4 n g r localAddr =>
    obtain ⟨q, client, _, _, rfl⟩ := deliverV4_cases hs
    exact h.deliver udpV4_lawful g r localAddr client q _
  | deliverV6 n g r localAddr =>
    obtain ⟨q, client, _, _, rfl⟩ := deliverV6_cases hs
    exact h.deliver udpV6_lawful g r localAddr client q _

end ForwardInv

/-- In a run in which the entry of a flow is left alone while the relay has datagrams of that flow
to encapsulate, every datagram is encapsulated with the destination it was sent to and goes out by
the configuration identifier that the rules returned for it. -/
theorem datagrams_forwarded_faithfully {s : UdpSystem} (h : Reach step KeepsInFlight init s) :
    ∀ e ∈ s.sent, s.Faithful e :=
  (h.invariant ForwardInv.init (fun _ _ _ hi hok hs => hi.step hok hs)).sent

instance {α : Type} (F : UdpFamily α) (s : UdpSystem) (i : UdpInput α) : Decidable (Undisturbed F s i) :=
  inferInstanceAs (Decidable (_ ∧ _))

instance (s : UdpSystem) (a : UdpAction) : Decidable (s.KeepsInFlight a) :=
  match a with
  | .sendV4 i _ => inferInstanceAs (Decidable (Undisturbed udpV4 s i))
  | .sendV6 i _ => inferInstanceAs (Decidable (Undisturbed udpV6 s i))
  | .lose .. | .receive .. | .resolve .. | .proxyReply .. | .deliverV4 .. | .deliverV6 .. => isTrue trivial

/-- A SOCKS5 configuration on 127.0.0.1:1080 with a UDP association on the same endpoint. -/
def associatedConfig (id : UInt32) : ProxyConfig where
  configId := id
  type := .socks5
  host := lit ['1', '2', '7', '.', '0', '.', '0', '.', '1']
  port := 1080
  resolvedIp := 0x0100007F
  udpConnected := true
  udpRelayIp := 0x0100007F
  udpRelayPort := 1080

/-- A datagram from port 5000 that is judged PROXY through one of two stored configurations, 1 and 2. -/
def proxiedDatagram (alloc : Option Addr) (destination : UInt32) (id : UInt32) : UdpInput UInt32 where
  settings := ⟨34010, true, false, false, [associatedConfig 1, associatedConfig 2]⟩
  readings := ⟨1000, 1, alloc, ⟨.proxy, 1, id⟩⟩
  packet := ⟨0x0A00A8C0, destination, 5000, 53, true⟩

/-- Two destinations from one port, with time for the relay in between. -/
theorem datagrams_forwarded_faithfully_in_turn :
    ∃ s, Reach step KeepsInFlight init s ∧ s.sent.length = 2 ∧ ∀ e ∈ s.sent, s.Faithful e := by
  obtain ⟨s, hr, ht⟩ := exists_reach_of_exec step KeepsInFlight init
    [.sendV4 (proxiedDatagram (some 0) 0x01010101 1) [7], .receive 0 1001 true, .resolve true,
      .sendV4 (proxiedDatagram (some 1) 0x08080808 2) [8], .receive 0 1002 true, .resolve true]
    (fun s => s.sent.length == 2) (by decide +kernel)
  exact ⟨s, hr, beq_iff_eq.mp ht, datagrams_forwarded_faithfully hr⟩

/-- Two datagrams from one port to two destinations before the relay reads either: the first one
goes out under the destination of the second. -/
theorem datagram_forwarded_to_other_destination :
    ∃ s, Reach step (fun _ _ => True) init s ∧ ∃ e ∈ s.sent, e.origin.dest = .v4 0x01010101 ∧
      e.bytes = socks5UdpHeader (.v4 0x08080808) 53 ++ e.origin.payload ∧ ¬ s.Faithful e := by
  obtain ⟨s, hr, ht⟩ := exists_reach_of_exec step (fun _ _ => True) init
    [.sendV4 (proxiedDatagram (some 0) 0x01010101 1) [7], .sendV4 (proxiedDatagram (some 1) 0x08080808 1) [8],
      .receive 0 1001 true, .resolve true]
    (fun s => s.sent.any (fun e => decide (e.origin.dest = .v4 0x01010101) && e.origin.destPort == 53 &&
      e.bytes == socks5UdpHeader (.v4 0x08080808) 53 ++ e.origin.payload)) (by decide +kernel)
  obtain ⟨e, he, ht⟩ := List.any_eq_true.mp ht
  simp only [Bool.and_eq_true, decide_eq_true_eq, beq_iff_eq] at ht
  obtain ⟨⟨hd, hp⟩, hb⟩ := ht
  refine ⟨s, hr, e, he, hd, hb, fun hf => ?_⟩
  have hsame := List.append_cancel_right (hb.symm.trans hf.1)
  rw [hd, hp] at hsame
  revert hsame
  decide

end UdpSystem
end ProxyBridge.Windows
