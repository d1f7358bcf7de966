import ProxyBridge.Library.Runs
import ProxyBridge.Windows.UdpFlows

/-! The packet thread and the UDP relay thread as one system. A redirected datagram loses its
destination; the relay recovers it from the connection table by source port. A reply of the proxy
is sent to the client found in the reverse index, and the packet thread recovers its source from
the connection table again. -/
namespace ProxyBridge.Windows
open Runs

/-- `MAXBUF`. -/
def maxBuf : Nat := 0xFFFF

/-- The header that `udp_relay_server` writes in front of a payload. -/
def socks5UdpHeader (dest : IpAddr) (port : UInt16) : List UInt8 :=
  [0, 0, 0, if dest.isIpv6 then (4 : UInt8) else 1] ++ dest.bytes ++ [(port >>> 8).toUInt8, port.toUInt8]

private def portAt (buf : List UInt8) (i : Nat) : UInt16 :=
  (buf.getD i 0).toUInt16 <<< 8 ||| (buf.getD (i + 1) 0).toUInt16

/-- The source that the header of a datagram from the proxy names, and the payload behind it. -/
def decapsulate (buf : List UInt8) : Option ((IpAddr × UInt16) × List UInt8) :=
  if buf.length < 10 || buf.getD 2 0 != 0 then none
  else if buf.getD 3 0 == 1 then
    let ip := (buf.getD 4 0).toUInt32 ||| (buf.getD 5 0).toUInt32 <<< 8 ||| (buf.getD 6 0).toUInt32 <<< 16 |||
      (buf.getD 7 0).toUInt32 <<< 24
    some ((.v4 ip, portAt buf 8), buf.drop 10)
  else if buf.getD 3 0 == 4 && decide (buf.length ≥ 22) then
    some ((.v6 (Vector.ofFn (fun i : Fin 16 => buf.getD (4 + i) 0)), portAt buf 20), buf.drop 22)
  else none

/-- A datagram on its way to the relay. The relay sees the flow and the payload; the rest records
where the application sent it and which configuration the rules chose for that destination. -/
structure Datagram where
  key : FlowKey
  payload : List UInt8
  dest : IpAddr
  destPort : UInt16
  configId : UInt32

/-- An IPv4 datagram between the two lookups, with the answer of the first. -/
structure Held where
  datagram : Datagram
  destIp : UInt32
  destPort : UInt16

/-- What the relay sent to a proxy, the identifier it looked the configuration up by, and the datagram it
came from. When no configuration has that identifier, `find_proxy_config` gives the first one for it. -/
structure Encapsulated where
  bytes : List UInt8
  proxyConfigId : UInt32
  origin : Datagram

/-- A PROXY verdict of the rules for a flow and destination. -/
structure Judgement where
  key : FlowKey
  dest : IpAddr
  destPort : UInt16
  configId : UInt32
  deriving DecidableEq

/-- A datagram from the relay port to a client, and the source that the proxy named. -/
structure Reply where
  client : IpAddr
  clientPort : UInt16
  named : IpAddr × UInt16

def Reply.key (q : Reply) : FlowKey := ⟨q.clientPort, true, q.client.isIpv6⟩

/-- The source an application saw, and the one that the proxy had named. -/
structure Delivered where
  source : IpAddr × UInt16
  named : IpAddr × UInt16

structure UdpSystem where
  core : Core
  inFlight : List Datagram
  held : Option Held
  sent : List Encapsulated
  judged : List Judgement
  replies : List Reply
  delivered : List Delivered

/-- A datagram of an application with everything its classification reads. -/
structure UdpInput (α : Type) where
  settings : Settings
  readings : Readings
  packet : Packet α

inductive UdpAction where
  | sendV4 (input : UdpInput UInt32) (payload : List UInt8)
  | sendV6 (input : UdpInput Ip6) (payload : List UInt8)
  | lose (i : Nat)
  | receive (i : Nat) (now : UInt64) (usable : Bool)
  | resolve (usable : Bool)
  | proxyReply (now : UInt64) (bytes : List UInt8)
  | deliverV4 (i : Nat) (settings : Settings) (readings : Readings) (localAddr : UInt32)
  | deliverV6 (i : Nat) (settings : Settings) (readings : Readings) (localAddr : Ip6)

namespace UdpSystem

def init : UdpSystem := ⟨.init, [], none, [], [], [], []⟩

def withTables (s : UdpSystem) (t : Tables) : UdpSystem := { s with core := { s.core with tables := t } }

section Family
variable {α : Type} (F : UdpFamily α) (s : UdpSystem)

/-- The packet thread classifies an application's datagram and redirects it if it is proxied. -/
def send (i : UdpInput α) (payload : List UInt8) : UdpSystem :=
  let p := i.packet
  let o := F.outbound i.settings i.readings s.core p
  let redirected (id : UInt32) : Datagram := ⟨F.key p, payload, F.toAddr p.dstAddr, p.dstPort, id⟩
  match o.1 with
  | .validated _ =>
    let id := ((s.core.tables.flow (F.key p)).map (·.proxyConfigId)).getD 0
    { s with core := o.2, inFlight := s.inFlight ++ [redirected id] }
  | .proxied _ =>
    let id := i.readings.verdict.proxyConfigId
    { s with
      core := o.2
      inFlight := s.inFlight ++ [redirected id]
      judged := s.judged ++ [⟨F.key p, F.toAddr p.dstAddr, p.dstPort, id⟩] }
  | .drop | .pass | .response _ => { s with core := o.2 }

/-- What the application gets to see of a reply. -/
def shown (q : Reply) : UdpOutcome α → List Delivered
  | .response p => [⟨(F.toAddr p.srcAddr, p.srcPort), q.named⟩]
  | _ => []

/-- The packet thread passes a reply on to the application. -/
def deliver (g : Settings) (r : Readings) (localAddr client : α) (q : Reply) (rest : List Reply) :
    UdpSystem :=
  let o := F.outbound g r s.core ⟨localAddr, client, localUdpRelayPort, q.clientPort, true⟩
  { s with core := o.2, replies := rest, delivered := s.delivered ++ shown F q o.1 }

end Family

def UdpInput.Enabled {α : Type} (s : UdpSystem) (i : UdpInput α) : Prop :=
  i.packet.outbound = true ∧ i.packet.srcPort ≠ localUdpRelayPort ∧
    s.core.tables.Fresh i.readings.alloc

instance {α : Type} (s : UdpSystem) (i : UdpInput α) : Decidable (UdpInput.Enabled s i) :=
  inferInstanceAs (Decidable (_ ∧ _ ∧ _))

def encapsulate (s : UdpSystem) (usable : Bool) (d : Datagram) (dest : IpAddr) (port : UInt16) (id : UInt32) :
    UdpSystem :=
  if usable then { s with sent := s.sent ++ [⟨socks5UdpHeader dest port ++ d.payload, id, d⟩] } else s

/-- The relay reads one datagram. For IPv6 one lookup gives destination and configuration; for
IPv4 this is the first of two. -/
def receive (s : UdpSystem) (d : Datagram) (now : UInt64) (usable : Bool) : UdpSystem :=
  let port := d.key.srcPort
  if d.key.isIpv6 then
    if d.payload.length = 0 ∨ d.payload.length > maxBuf - 22 then s
    else
      let v := s.core.tables.getConnectionFullV6 now port true
      let s := s.withTables v.2
      match v.1 with
      | none => s
      | some (dest, destPort, id) => s.encapsulate usable d (.v6 dest) destPort id
  else if d.payload.length = 0 ∨ d.payload.length > maxBuf - 10 then s
  else
    let v := s.core.tables.getConnection now port true
    let s := s.withTables v.2
    match v.1 with
    | none => s
    | some (destIp, destPort) => { s with held := some ⟨d, destIp, destPort⟩ }

/-- The second IPv4 lookup, and the send if the configuration it names can be used. -/
def resolve (s : UdpSystem) (h : Held) (usable : Bool) : UdpSystem :=
  let id := s.core.tables.getConnectionProxyId h.datagram.key.srcPort true
  UdpSystem.encapsulate { s with held := none } usable h.datagram (.v4 h.destIp) h.destPort id

/-- The relay decapsulates a datagram from a proxy and sends it to the client of that source. -/
def proxyReply (s : UdpSystem) (now : UInt64) (bytes : List UInt8) : UdpSystem :=
  match decapsulate bytes with
  | none => s
  | some ((.v4 ip, port), _) =>
    let v := s.core.tables.findV4UdpSender now ip port
    let s := s.withTables v.2
    match v.1 with
    | none => s
    | some (client, clientPort) =>
      { s with replies := s.replies ++ [⟨.v4 client, clientPort, (.v4 ip, port)⟩] }
  | some ((.v6 ip6, port), _) =>
    match s.core.tables.findV6UdpSender ip6 port with
    | none => s
    | some (client, clientPort) =>
      { s with replies := s.replies ++ [⟨.v6 client, clientPort, (.v6 ip6, port)⟩] }

/-- Datagrams and replies may overtake each other or get lost; the relay thread does one thing at
a time, so nothing else is received between the two lookups. -/
def step (s : UdpSystem) : UdpAction → Option UdpSystem
  | .sendV4 i payload => if UdpInput.Enabled s i then some (s.send udpV4 i payload) else none
  | .sendV6 i payload => if UdpInput.Enabled s i then some (s.send udpV6 i payload) else none
  | .lose i => some { s with inFlight := s.inFlight.eraseIdx i }
  | .receive i now usable =>
    if s.held.isSome then none
    else s.inFlight[i]?.map (fun d =>
      receive { s with inFlight := s.inFlight.eraseIdx i } d now usable)
  | .resolve usable => s.held.map (fun h => s.resolve h usable)
  | .proxyReply now bytes => if s.held.isSome then none else some (s.proxyReply now bytes)
  | .deliverV4 i g r localAddr =>
    match s.replies[i]? with
    | some q =>
      match q.client with
      | .v4 client => some (s.deliver udpV4 g r localAddr client q (s.replies.eraseIdx i))
      | .v6 _ => none
    | none => none
  | .deliverV6 i g r localAddr =>
    match s.replies[i]? with
    | some q =>
      match q.client with
      | .v6 client => some (s.deliver udpV6 g r localAddr client q (s.replies.eraseIdx i))
      | .v4 _ => none
    | none => none

/-- The datagrams the relay has yet to encapsulate. -/
def pending (s : UdpSystem) : List Datagram := s.inFlight ++ (s.held.map (·.datagram)).toList

end UdpSystem

/-- Where a tracked flow goes: destination, port and configuration. -/
def FlowEntry.route (e : FlowEntry) : IpAddr × UInt16 × UInt32 := (e.dest, e.destPort, e.proxyConfigId)

def FlowMap.routes (m : FlowMap) (k : FlowKey) : Option (IpAddr × UInt16 × UInt32) := (m k).map (·.route)

def Datagram.route (d : Datagram) : IpAddr × UInt16 × UInt32 := (d.dest, d.destPort, d.configId)

/-- Refreshing an entry does not change where it goes. -/
theorem FlowMap.routes_touch (m : FlowMap) (k : FlowKey) (now : UInt64) :
    (m.alter k (FlowEntry.touch now)).routes = m.routes := by
  funext j
  by_cases hj : j = k
  · subst hj
    simp only [routes, alter, Function.update_self, Option.map_map]
    rfl
  · simp [routes, alter, Function.update_of_ne hj]

theorem FlowMap.routes_update (m : FlowMap) (k : FlowKey) (v : Option FlowEntry) :
    FlowMap.routes (Function.update m k v) = Function.update m.routes k (v.map (·.route)) := by
  funext j
  by_cases hj : j = k
  · subst hj
    simp [routes]
  · simp [routes, hj]

namespace UdpSystem

/-- The route of a flow by the connection table of the system. -/
def routes (s : UdpSystem) : FlowKey → Option (IpAddr × UInt16 × UInt32) := s.core.tables.flow.routes

section Packets
variable {α : Type} (F : UdpFamily α) (s : UdpSystem) (i : UdpInput α) (payload : List UInt8)

/-- A datagram on its way to the relay with this configuration. -/
def redirected (id : UInt32) : Datagram :=
  ⟨F.key i.packet, payload, F.toAddr i.packet.dstAddr, i.packet.dstPort, id⟩

/-- All that the packet thread can do with an application's datagram. -/
inductive Sent : UdpSystem → Prop where
  | passed (core : Core) : F.passes i.settings i.readings s.core i.packet = true →
      core.tables.flow.routes = s.routes → Sent { s with core := core }
  | refused (core : Core) : F.passes i.settings i.readings s.core i.packet = false →
      F.valid i.readings s.core i.packet = false → F.rekeys i.settings i.readings s.core i.packet = false →
      core.tables.flow.routes = Function.update s.routes (F.key i.packet) none → Sent { s with core := core }
  | validated (core : Core) (id : UInt32) : s.routes (F.key i.packet) = some (redirected F i payload id).route →
      core.tables.flow.routes = s.routes →
      Sent { s with core := core, inFlight := s.inFlight ++ [redirected F i payload id] }
  | proxied (core : Core) : F.rekeys i.settings i.readings s.core i.packet = true →
      core.tables.flow.routes = Function.update s.routes (F.key i.packet) (if i.readings.alloc = none then none
        else some (redirected F i payload i.readings.verdict.proxyConfigId).route) →
      Sent { s with
        core := core
        inFlight := s.inFlight ++ [redirected F i payload i.readings.verdict.proxyConfigId]
        judged := s.judged ++ [⟨F.key i.packet, F.toAddr i.packet.dstAddr, i.packet.dstPort,
          i.readings.verdict.proxyConfigId⟩] }

end Packets

section Cases
variable {α : Type} {F : UdpFamily α} {s : UdpSystem} {i : UdpInput α}

theorem send_cases (hF : F.Lawful) (hc : s.core.tables.Consistent) (hi : UdpInput.Enabled s i)
    (payload : List UInt8) :
    (s.send F i payload).core.tables.Consistent ∧ Sent F s i payload (s.send F i payload) := by
  have hne : ¬ i.packet.srcPort = localUdpRelayPort := hi.2.1
  obtain ⟨hcons, after, heff, hflow⟩ := hF.datagram_effect (g := i.settings) (p := i.packet) hc hi.2.2
  have hroutes := congrArg FlowMap.routes hflow
  rw [FlowMap.routes_update] at hroutes
  have hout : F.outbound i.settings i.readings s.core i.packet =
      F.datagram i.settings i.readings s.core i.packet := by simp [UdpFamily.outbound, hne]
  simp only [send, hout]
  generalize F.datagram i.settings i.readings s.core i.packet = o at *
  obtain ⟨outcome, core⟩ := o
  simp only at heff hroutes hcons
  cases heff with
  | passed hp => exact ⟨hcons, .passed core hp (by rw [hroutes]; exact Function.update_eq_self ..)⟩
  | refused ho hp hv hr =>
    rcases ho with rfl | rfl
    · exact ⟨hcons, .refused core hp hv hr hroutes⟩
    · exact ⟨hcons, .refused core hp hv hr hroutes⟩
  | validated e hp hv he =>
    obtain ⟨hd, hport⟩ := UdpFamily.Lawful.dest_of_valid hv he
    have hbefore : s.routes (F.key i.packet) = some (redirected F i payload e.proxyConfigId).route := by
      simp [routes, FlowMap.routes, he, FlowEntry.route, Datagram.route, redirected, hd, hport]
    simp only [he, Option.map_some, Option.getD_some]
    refine ⟨hcons, .validated core _ hbefore ?_⟩
    rw [hroutes, ← Function.update_eq_self (F.key i.packet) s.routes, hbefore]
    simp [FlowEntry.route, FlowEntry.touch, Datagram.route, redirected, hd, hport]
    rfl
  | proxied hr ha =>
    refine ⟨hcons, .proxied core hr ?_⟩
    rw [hroutes, if_neg ha]
    rfl
  | unrecorded hr ha =>
    refine ⟨hcons, .proxied core hr ?_⟩
    rw [hroutes, if_pos ha]
    rfl

end Cases

section Relay
variable {s : UdpSystem}

/-- The route of a flow read off the node a lookup finds. -/
private theorem routes_eq_lookup (hc : s.core.tables.Consistent) (k : FlowKey) :
    s.routes k = (s.core.tables.lookup k.srcPort k.isUdp k.isIpv6).map (fun a =>
      let c := s.core.tables.node a
      (IpAddr.select k.isIpv6 c.origDestIp c.origDestIp6, c.origDestPort, c.proxyConfigId)) := by
  rw [routes, FlowMap.routes, Tables.flow, Option.map_map]
  cases hl : s.core.tables.lookup k.srcPort k.isUdp k.isIpv6 with
  | none => rfl
  | some a =>
    have hv : (s.core.tables.node a).isIpv6 = k.isIpv6 :=
      congrArg FlowKey.isIpv6 ((hc.lookup_eq_some k a).mp hl).2
    simp [ConnectionInfo.entry, FlowEntry.route, hv]

/-- All that reading one datagram can do: nothing but a refresh, a send, or the first lookup. -/
inductive Received (s : UdpSystem) (d : Datagram) : UdpSystem → Prop where
  | ignored (core : Core) : Received s d { s with core := core }
  | encapsulated (core : Core) (usable : Bool) (dest : IpAddr) (port : UInt16) (id : UInt32) :
      s.routes d.key = some (dest, port, id) →
      Received s d (UdpSystem.encapsulate { s with core := core } usable d dest port id)
  | held (core : Core) (destIp : UInt32) (port : UInt16) (id : UInt32) : d.key.isIpv6 = false →
      s.routes d.key = some (.v4 destIp, port, id) →
      Received s d { s with core := core, held := some ⟨d, destIp, port⟩ }

private theorem encapsulate_core (usable : Bool) (d : Datagram) (dest : IpAddr) (port : UInt16) (id : UInt32) :
    (s.encapsulate usable d dest port id).core = s.core := by
  unfold encapsulate
  split <;> rfl

/-- Refreshing the entry a lookup found keeps every route. -/
private theorem touched (hc : s.core.tables.Consistent) (now : UInt64) (k : FlowKey) :
    let t := s.core.tables.touch now (s.core.tables.lookup k.srcPort k.isUdp k.isIpv6)
    t.Consistent ∧ t.flow.routes = s.routes := by
  refine ⟨hc.touch now _, ?_⟩
  rw [hc.flow_touch, FlowMap.routes_touch]
  rfl

theorem receive_cases (hc : s.core.tables.Consistent) {d : Datagram} (hu : d.key.isUdp = true) (now : UInt64)
    (usable : Bool) :
    (s.receive d now usable).core.tables.Consistent ∧ (s.receive d now usable).routes = s.routes ∧
      Received s d (s.receive d now usable) := by
  obtain ⟨⟨port, isUdp, isIpv6⟩, payload, dest, destPort, configId⟩ := d
  obtain rfl : isUdp = true := hu
  obtain ⟨htc, htr⟩ := touched hc now ⟨port, true, isIpv6⟩
  have hroute := routes_eq_lookup hc ⟨port, true, isIpv6⟩
  simp only at htc htr hroute
  cases isIpv6 with
  | true =>
    simp only [receive, if_true, Tables.getConnectionFullV6]
    split
    · exact ⟨hc, rfl, .ignored s.core⟩
    · cases hl : s.core.tables.lookup port true true with
      | none =>
        rw [hl] at htc htr
        exact ⟨htc, htr, .ignored _⟩
      | some a =>
        rw [hl] at hroute htc htr
        refine ⟨?_, ?_, .encapsulated _ usable _ _ _ hroute⟩
        · simp only [Option.map_some, encapsulate_core]
          exact htc
        · simp only [Option.map_some, routes, encapsulate_core]
          exact htr
  | false =>
    simp only [receive, Bool.false_eq_true, if_false, Tables.getConnection]
    split
    · exact ⟨hc, rfl, .ignored s.core⟩
    · cases hl : s.core.tables.lookup port true false with
      | none =>
        rw [hl] at htc htr
        exact ⟨htc, htr, .ignored _⟩
      | some a =>
        rw [hl] at hroute htc htr
        exact ⟨htc, htr, .held _ _ _ _ rfl hroute⟩

/-- The second IPv4 lookup answers with the configuration of the entry that is there by then. -/
theorem getConnectionProxyId_eq (hc : s.core.tables.Consistent) {k : FlowKey} (hu : k.isUdp = true)
    (hv : k.isIpv6 = false) {dest : IpAddr} {port : UInt16} {id : UInt32}
    (hr : s.routes k = some (dest, port, id)) : s.core.tables.getConnectionProxyId k.srcPort true = id := by
  obtain ⟨p, isUdp, isIpv6⟩ := k
  obtain rfl : isUdp = true := hu
  obtain rfl : isIpv6 = false := hv
  rw [routes_eq_lookup hc] at hr
  obtain ⟨a, ha, he⟩ := Option.map_eq_some_iff.mp hr
  simp only [Prod.mk.injEq] at he
  simp only [Tables.getConnectionProxyId]
  rw [ha]
  exact he.2.2

/-- A reply of the proxy is forwarded only to a client whose entry has the named destination. -/
theorem proxyReply_cases (hc : s.core.tables.Consistent) (now : UInt64) (bytes : List UInt8) :
    (s.proxyReply now bytes).core.tables.Consistent ∧ (s.proxyReply now bytes).routes = s.routes ∧
      ∃ core, s.proxyReply now bytes = { s with core := core } ∨
        ∃ q id, s.routes (Reply.key q) = some (q.named.1, q.named.2, id) ∧
          s.proxyReply now bytes = { s with core := core, replies := s.replies ++ [q] } := by
  unfold proxyReply
  split
  · exact ⟨hc, rfl, s.core, .inl rfl⟩
  · rename_i ip port _ _
    have hf := hc.flow_findV4UdpSender now ip port
    have hcons : (s.core.tables.findV4UdpSender now ip port).2.Consistent := hc.touch now _
    generalize s.core.tables.findV4UdpSender now ip port = v at hf hcons ⊢
    obtain ⟨found, t⟩ := v
    cases found with
    | none =>
      obtain rfl : t = s.core.tables := hf
      exact ⟨hcons, rfl, s.core, .inl rfl⟩
    | some c =>
      obtain ⟨client, clientPort⟩ := c
      obtain ⟨⟨e, he, _, hd, hp⟩, hflow⟩ := hf
      refine ⟨hcons, ?_, { s.core with tables := t },
        .inr ⟨⟨.v4 client, clientPort, (.v4 ip, port)⟩, e.proxyConfigId, ?_, rfl⟩⟩
      · change t.flow.routes = s.routes
        rw [hflow, FlowMap.routes_touch]
        rfl
      · simp [routes, FlowMap.routes, Reply.key, IpAddr.isIpv6, he, FlowEntry.route, hd, hp]
  · rename_i ip6 port _ _
    split
    · exact ⟨hc, rfl, s.core, .inl rfl⟩
    · rename_i client clientPort hf
      obtain ⟨e, he, _, hd, hp⟩ := hc.flow_findV6UdpSender ip6 port hf
      refine ⟨hc, rfl, s.core, .inr ⟨⟨.v6 client, clientPort, (.v6 ip6, port)⟩, e.proxyConfigId, ?_, rfl⟩⟩
      simp [routes, FlowMap.routes, Reply.key, IpAddr.isIpv6, he, FlowEntry.route, hd, hp]

end Relay

section Deliver
variable {α : Type} {F : UdpFamily α} {s : UdpSystem}

/-- A reply packet shows the application the destination tracked for its port at that moment. -/
theorem deliver_cases (hF : F.Lawful) (hc : s.core.tables.Consistent) (g : Settings) (r : Readings)
    (localAddr client : α) (q : Reply) (rest : List Reply) :
    let k : FlowKey := ⟨q.clientPort, true, F.isIpv6⟩
    (s.deliver F g r localAddr client q rest).core.tables.Consistent ∧
    (s.deliver F g r localAddr client q rest).routes = s.routes ∧
    ∃ core found, found.map (fun e => (F.toAddr e.1, e.2)) = (s.routes k).map (fun x => (x.1, x.2.1)) ∧
      s.deliver F g r localAddr client q rest = { s with
        core := core
        replies := rest
        delivered := s.delivered ++
          shown F q (F.respond ⟨localAddr, client, localUdpRelayPort, q.clientPort, true⟩ found) } := by
  have hflow := hF.restore_flow hc r.now q.clientPort
  have heq := hF.restore_eq hc r.now q.clientPort
  have hout : F.outbound g r s.core ⟨localAddr, client, localUdpRelayPort, q.clientPort, true⟩ =
      F.relayResponse r s.core ⟨localAddr, client, localUdpRelayPort, q.clientPort, true⟩ := by
    simp [UdpFamily.outbound]
  simp only [deliver, hout, UdpFamily.relayResponse]
  refine ⟨hF.restore_consistent hc r.now q.clientPort, ?_, _, _, ?_, rfl⟩
  · rw [routes, hflow, FlowMap.routes_touch]
    rfl
  · rw [heq, routes, FlowMap.routes, Option.map_map]
    rfl

theorem deliverV4_cases {s' : UdpSystem} {n : Nat} {g : Settings} {r : Readings} {localAddr : UInt32}
    (hs : s.step (.deliverV4 n g r localAddr) = some s') :
    ∃ q client, s.replies[n]? = some q ∧ q.client = .v4 client ∧
      s' = s.deliver udpV4 g r localAddr client q (s.replies.eraseIdx n) := by
  simp only [step] at hs
  split at hs
  · rename_i q hq
    split at hs
    · rename_i client hclient
      exact ⟨q, client, hq, hclient, (Option.some.inj hs).symm⟩
    · cases hs
  · cases hs

theorem deliverV6_cases {s' : UdpSystem} {n : Nat} {g : Settings} {r : Readings} {localAddr : Ip6}
    (hs : s.step (.deliverV6 n g r localAddr) = some s') :
    ∃ q client, s.replies[n]? = some q ∧ q.client = .v6 client ∧
      s' = s.deliver udpV6 g r localAddr client q (s.replies.eraseIdx n) := by
  simp only [step] at hs
  split at hs
  · rename_i q hq
    split at hs
    · rename_i client hclient
      exact ⟨q, client, hq, hclient, (Option.some.inj hs).symm⟩
    · cases hs
  · cases hs

end Deliver
end UdpSystem
end ProxyBridge.Windows
