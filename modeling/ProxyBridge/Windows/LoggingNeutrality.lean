import ProxyBridge.Windows.LoggedConnections
import ProxyBridge.Windows.OwnerRules
import ProxyBridge.Windows.TcpDecisions
import ProxyBridge.Windows.UdpFlows

/-! Two runs of `packet_processor` over the same packets that differ in connection logging only. The
fast path for an empty policy is taken without a callback and left with one, so that the run that logs
asks the rules, and caches their verdicts, where the other one does not. -/
namespace ProxyBridge.Windows
open Runs

/-- The globals that concern connection logging. -/
structure LogSettings where
  connectionCallback : Bool
  trafficLoggingEnabled : Bool

/-- The globals that decide the route of a packet. The callback of `settings` is the one of the run. -/
structure RoutingPolicy where
  settings : Settings
  rules : Policy
  owners : OwnerSettings
  generation : UInt32

/-- What the system answers while one packet is processed. `named` is the answer to the second
lookup of the process name, which the log makes, and `logAlloc` says whether its `malloc` succeeds. -/
structure Lookups where
  now : UInt64
  alloc : Option Addr
  owner : Owner
  env : RuleEnv
  named : Bool
  logAlloc : Bool

def Settings.withCallback (g : Settings) (c : Bool) : Settings := { g with connectionCallback := c }

/-- The code of one IP family. `logKey` is the destination as the log compares it. -/
structure Stack (α : Type) where
  tcp : TcpFamily α
  udp : UdpFamily α
  check : RoutingPolicy → Lookups → Bool → Packet α → Verdict
  logKey : α → UInt32

def stackV4 : Stack UInt32 where
  tcp := tcpV4
  udp := udpV4
  check π l isUdp p :=
    checkProcessRule l.env π.rules π.settings.configs π.owners l.owner p.dstPort isUdp p.srcAddr p.dstAddr
  logKey dst := dst

/-- A word of an IPv6 address as the processor reads it from memory. -/
def Ip6.word (ip6 : Ip6) (i : Fin 4) : UInt32 :=
  let byte (j : Fin 4) := ip6[4 * i.val + j.val].toUInt32
  byte 0 ||| (byte 1 <<< 8) ||| (byte 2 <<< 16) ||| (byte 3 <<< 24)

def stackV6 : Stack Ip6 where
  tcp := tcpV6
  udp := udpV6
  check π l isUdp p :=
    checkProcessRuleV6 l.env π.rules π.settings.configs π.owners l.owner p.dstPort isUdp p.srcAddr p.dstAddr
  logKey dst := dst.word 0 ^^^ dst.word 1 ^^^ dst.word 2 ^^^ dst.word 3

structure Machine where
  core : Core
  log : ConnectionLog

/-- The log part of a classification: a flow of a known process is entered once. -/
def ConnectionLog.record (s : ConnectionLog) (c : LogSettings) (l : Lookups) (logged : LoggedConnection) :
    ConnectionLog :=
  if logged.pid != 0 && l.named && !s.isConnectionAlreadyLogged logged && c.trafficLoggingEnabled then
    let i := s.evictions.length
    let s := s.addLoggedConnection logged l.logAlloc
    match s.evictions[i]? with
    | some e => s.resumeAdd i e l.logAlloc
    | none => s
  else s

/-- Every datagram that goes to the relay or comes from it is queued with new headers. -/
def UdpOutcome.disposition {α : Type} : UdpOutcome α → Disposition α
  | .drop => .drop
  | .pass => .pass
  | .validated p | .proxied p | .response p => .modified p

/-- Whether a datagram gets as far as the rules. -/
def UdpFamily.asks {α : Type} (F : UdpFamily α) (g : Settings) (r : Readings) (s : Core) (p : Packet α) : Bool :=
  p.srcPort != localUdpRelayPort && !F.passes g r s p &&
    !(F.validate s.tables r.generation r.now p.srcPort p.srcAddr p.dstAddr p.dstPort).1 && !F.unasked g p

namespace Stack
variable {α : Type} (S : Stack α) (π : RoutingPolicy) (c : LogSettings) (m : Machine) (l : Lookups) (p : Packet α)

def readings (isUdp : Bool) : Readings := ⟨l.now, π.generation, l.alloc, S.check π l isUdp p⟩

/-- TCP connections are logged at their SYN. -/
def tcpOutbound (f : TcpFlags) : Disposition α × Machine :=
  let g := π.settings.withCallback c.connectionCallback
  let r := S.readings π l p false
  let out := S.tcp.outbound g r m.core p f
  let logs := c.connectionCallback && S.tcp.asks g m.core p f && f.syn && !f.ack
  let logged := ⟨r.verdict.pid, S.logKey p.dstAddr, p.dstPort, S.tcp.finalAction g r p⟩
  (out.1, ⟨out.2, if logs then m.log.record c l logged else m.log⟩)

def udpOutbound : Disposition α × Machine :=
  let g := π.settings.withCallback c.connectionCallback
  let r := S.readings π l p true
  let out := S.udp.outbound g r m.core p
  let logs := c.connectionCallback && S.udp.asks g r m.core p
  let logged := ⟨r.verdict.pid, S.logKey p.dstAddr, p.dstPort, S.udp.finalAction g r p⟩
  (out.1.disposition, ⟨out.2, if logs then m.log.record c l logged else m.log⟩)

/-- An inbound packet is queued as it came, with its checksums computed anew if a relay receives it. -/
def inbound (relayPort : UInt16) : Disposition α :=
  if p.dstPort == relayPort then .modified p else .pass

/-- One packet; `flags` are those of a TCP header. -/
def process (flags : Option TcpFlags) : Disposition α × Machine :=
  match flags with
  | some f => if p.outbound then S.tcpOutbound π c m l p f else (inbound p π.settings.localRelayPort, m)
  | none => if p.outbound then S.udpOutbound π c m l p else (inbound p localUdpRelayPort, m)

end Stack

inductive PacketEvent where
  | v4 (lookups : Lookups) (packet : Packet UInt32) (flags : Option TcpFlags)
  | v6 (lookups : Lookups) (packet : Packet Ip6) (flags : Option TcpFlags)

def PacketEvent.now : PacketEvent → UInt64
  | .v4 l _ _ | .v6 l _ _ => l.now

/-- What becomes of a packet. -/
inductive Emission where
  | v4 (disposition : Disposition UInt32)
  | v6 (disposition : Disposition Ip6)
  deriving DecidableEq

def Machine.process (m : Machine) (π : RoutingPolicy) (c : LogSettings) : PacketEvent → Emission × Machine
  | .v4 l p flags => ((stackV4.process π c m l p flags).map Emission.v4 id)
  | .v6 l p flags => ((stackV6.process π c m l p flags).map Emission.v6 id)

/-- Two runs side by side, with the last clock reading and what each has emitted. -/
structure Twins where
  left : Machine
  right : Machine
  clock : UInt64
  sentLeft : List Emission
  sentRight : List Emission

/-- The runs start in states that agree but for the lists of logged connections. -/
def Twins.start (core : Core) (logLeft logRight : ConnectionLog) : Twins :=
  ⟨⟨core, logLeft⟩, ⟨core, logRight⟩, 0, [], []⟩

/-- Both runs process one packet with the same lookups. The clock does not run backwards. -/
def Twins.step (π : RoutingPolicy) (a b : LogSettings) (s : Twins) (e : PacketEvent) : Option Twins :=
  if s.clock ≤ e.now then
    let left := s.left.process π a e
    let right := s.right.process π b e
    some ⟨left.2, right.2, e.now, s.sentLeft ++ [left.1], s.sentRight ++ [right.1]⟩
  else none

namespace Stack
variable {α : Type} (S : Stack α) (π : RoutingPolicy) (s : Core) (l : Lookups) (p : Packet α)

/-- If the packet asks the rules, it is DIRECT, and caching that does not cover a tracked flow of the
other family. -/
def tcpHarmless (f : TcpFlags) : Bool :=
  let g := π.settings.withCallback true
  let r := S.readings π l p false
  !S.tcp.asks g s p f || (S.tcp.finalAction g r p == .direct &&
    (r.verdict.pid == 0 || !s.tables.isConnectionTracked p.srcPort false (!S.tcp.isIpv6)))

/-- The slot a DIRECT verdict would be cached in holds nothing that still matters: its entry is not in
force, its flow is not tracked, or it belongs to the flow of the datagram itself. -/
def slotFree : Bool :=
  let e := s.udpDirect (udpDirectSlot (S.udp.toAddr p.srcAddr) p.srcPort (S.udp.toAddr p.dstAddr) p.dstPort)
  decide (e.expires ≤ l.now) || e.generation != π.generation ||
    (s.tables.flow ⟨e.sourcePort, true, e.source.isIpv6⟩).isNone ||
    (e.sourcePort == p.srcPort && e.source.isIpv6 == S.udp.isIpv6)

def udpHarmless : Bool :=
  let g := π.settings.withCallback true
  let r := S.readings π l p true
  !S.udp.asks g r s p || (S.udp.finalAction g r p == .direct && (r.verdict.pid == 0 || S.slotFree π s l p))

def harmless (flags : Option TcpFlags) : Bool :=
  match flags with
  | some f => !p.outbound || S.tcpHarmless π s l p f
  | none => !p.outbound || S.udpHarmless π s l p

end Stack

/-- The condition on a packet in the run that logs. -/
def RoutingPolicy.harmless (π : RoutingPolicy) (s : Core) : PacketEvent → Bool
  | .v4 l p flags => stackV4.harmless π s l p flags
  | .v6 l p flags => stackV6.harmless π s l p flags

/-- The condition on a step: both runs have a callback or neither has, or there are active rules, or
the packet is harmless in the run that has the callback. -/
def Twins.Quiet (π : RoutingPolicy) (a b : LogSettings) (s : Twins) (e : PacketEvent) : Prop :=
  a.connectionCallback = b.connectionCallback ∨ π.settings.hasActiveRules = true ∨
    π.harmless (if a.connectionCallback then s.left.core else s.right.core) e = true

instance (π : RoutingPolicy) (a b : LogSettings) (s : Twins) (e : PacketEvent) :
    Decidable (Twins.Quiet π a b s e) :=
  inferInstanceAs (Decidable (_ ∨ _ ∨ _))

/-- Whether the bitmaps send the packets of a port straight on. -/
def Core.isDirect (s : Core) (port : UInt16) : Bool := s.bitmaps.portIsDecided port && s.bitmaps.portIsDirect port

/-- The tables lose flows and gain none. -/
structure Narrows (t t' : Tables) : Prop where
  consistent : t'.Consistent
  untracked : ∀ k, t.flow.tracked k = false → t'.flow.tracked k = false
  absent : ∀ k, t.flow k = none → t'.flow k = none

namespace Narrows
variable {t t' t'' : Tables}

theorem refl (h : t.Consistent) : Narrows t t := ⟨h, fun _ hk => hk, fun _ hk => hk⟩

theorem trans (h : Narrows t t') (h' : Narrows t' t'') : Narrows t t'' :=
  ⟨h'.consistent, fun k hk => h'.untracked k (h.untracked k hk), fun k hk => h'.absent k (h.absent k hk)⟩

theorem of_alter (h' : t'.Consistent) {k : FlowKey} {f : FlowEntry → FlowEntry}
    (hflow : t'.flow = FlowMap.alter t.flow k f) (hf : ∀ e, (f e).isTracked = e.isTracked) : Narrows t t' := by
  refine ⟨h', fun j hj => ?_, fun j hj => ?_⟩
  · rw [hflow, FlowMap.tracked_alter _ _ _ hf]
    exact hj
  · rw [hflow, FlowMap.alter]
    by_cases hk : j = k
    · rw [hk, Function.update_self, ← hk, hj]
      rfl
    · rw [Function.update_of_ne hk, hj]

theorem of_erase (h' : t'.Consistent) {k : FlowKey} (hflow : t'.flow = Function.update t.flow k none) :
    Narrows t t' := by
  refine ⟨h', fun j hj => ?_, fun j hj => ?_⟩
  · rw [hflow, FlowMap.tracked_erase, hj, Bool.and_false]
  · rw [hflow]
    by_cases hk : j = k
    · rw [hk, Function.update_self]
    · rw [Function.update_of_ne hk, hj]

theorem touch (h : t.Consistent) (now : UInt64) (k : FlowKey) :
    Narrows t (t.touch now (t.lookup k.srcPort k.isUdp k.isIpv6)) :=
  of_alter (h.touch now _) (h.flow_touch now k) (fun _ => rfl)

theorem removeConnection (h : t.Consistent) (port : UInt16) (isUdp isIpv6 : Bool) :
    Narrows t (t.removeConnection port isUdp isIpv6) :=
  of_erase (h.removeConnection port isUdp isIpv6) (h.flow_removeConnection port isUdp isIpv6)

theorem connectionFin (h : t.Consistent) (now : UInt64) (port : UInt16) (isIpv6 : Bool) (bit : UInt8) :
    Narrows t (t.connectionFin now port isIpv6 bit) :=
  of_alter (h.connectionFin now port isIpv6 bit) (h.flow_connectionFin now port isIpv6 bit) (fun _ => rfl)

end Narrows

/-- What the proofs use of a family: the callback decides nothing but the fast path, and the lookups
for a relay response and for a datagram only lose flows. -/
structure Stack.Lawful {α : Type} (S : Stack α) : Prop where
  udp : S.udp.Lawful
  tcp_exempt : ∀ (g : Settings) (c : Bool) (p : Packet α), S.tcp.exempt (g.withCallback c) p = S.tcp.exempt g p
  tcp_demoted : ∀ (g : Settings) (c : Bool) (a : α), S.tcp.demoted (g.withCallback c) a = S.tcp.demoted g a
  udp_exempt : ∀ (g : Settings) (c : Bool) (p : Packet α), S.udp.exempt (g.withCallback c) p = S.udp.exempt g p
  udp_demoted : ∀ (g : Settings) (c : Bool) (p : Packet α), S.udp.demoted (g.withCallback c) p = S.udp.demoted g p
  udp_carries : ∀ (g : Settings) (c : Bool) (id : UInt32), S.udp.carries (g.withCallback c) id = S.udp.carries g id
  toAddr_isIpv6 : ∀ a : α, (S.udp.toAddr a).isIpv6 = S.udp.isIpv6
  restore_narrows : ∀ {t : Tables}, t.Consistent → ∀ now port, Narrows t (S.tcp.restore t now port).2
  validate_absent : ∀ {t : Tables}, t.Consistent → ∀ generation now port src dst dstPort,
    t.flow ⟨port, true, S.udp.isIpv6⟩ = none →
    S.udp.validate t generation now port src dst dstPort = (false, t)

/-- `udp_flow_validate` leaves the tables alone when it finds no entry. -/
theorem udpFlowValidate_absent {t : Tables} (h : t.Consistent) {generation : UInt32} {now : UInt64} {port : UInt16}
    {ipv6 : Bool} {source : UInt32} {source6 : Ip6} {destination : UInt32} {destination6 : Ip6}
    {destinationPort : UInt16} (hnone : t.flow ⟨port, true, ipv6⟩ = none) :
    t.udpFlowValidate generation now port ipv6 source source6 destination destination6 destinationPort =
      (false, t) := by
  have hlookup : t.lookup port true ipv6 = none := Option.map_eq_none_iff.mp hnone
  have hread := (h.cursorOf_read ⟨port, true, ipv6⟩).trans hlookup
  simp only [Tables.udpFlowValidate, hread]

theorem stackV4_lawful : stackV4.Lawful where
  udp := udpV4_lawful
  tcp_exempt _ _ _ := rfl
  tcp_demoted _ _ _ := rfl
  udp_exempt _ _ _ := rfl
  udp_demoted _ _ _ := rfl
  udp_carries _ _ _ := rfl
  toAddr_isIpv6 _ := rfl
  restore_narrows h now port := .touch h now ⟨port, false, false⟩
  validate_absent h _ _ _ _ _ _ hnone := udpFlowValidate_absent h hnone

theorem stackV6_lawful : stackV6.Lawful where
  udp := udpV6_lawful
  tcp_exempt _ _ _ := rfl
  tcp_demoted _ _ _ := rfl
  udp_exempt _ _ _ := rfl
  udp_demoted _ _ _ := rfl
  udp_carries _ _ _ := rfl
  toAddr_isIpv6 _ := rfl
  restore_narrows h now port := .touch h now ⟨port, false, true⟩
  validate_absent h _ _ _ _ _ _ hnone := udpFlowValidate_absent h hnone

/-- A flow whose owner is known, or need not be. -/
def OwnerSettings.accepts (g : OwnerSettings) (o : Owner) : Bool :=
  !g.failClosedOnUnknownOwner || (o.pid != 0 && (o.pid == g.currentProcessId || o.processName.isSome))

theorem judgeOwner_direct_iff {configs : List ProxyConfig} {g : OwnerSettings} {o : Owner} {isUdp bypass : Bool} :
    (if bypass then ⟨.direct, 0, 0⟩ else judgeOwner configs g o isUdp (fun _ => (.direct, 0)) : Verdict).action =
      .direct ↔ bypass = true ∨ g.accepts o = true := by
  cases bypass with
  | true => simp
  | false =>
    simp only [judgeOwner, OwnerSettings.accepts]
    by_cases hpid : o.pid = 0
    · cases g.failClosedOnUnknownOwner <;> simp [hpid]
    by_cases hself : o.pid = g.currentProcessId
    · rw [hself] at hpid
      simp [hself, hpid]
    · cases o.processName <;> cases g.failClosedOnUnknownOwner <;> simp [hpid, hself]

/-- Where no rule is enabled, the rules that a callback makes the code ask answer DIRECT exactly for
bypassed loopback pairs and for flows with an accepted owner. -/
theorem idle_check_direct_iff {π : RoutingPolicy} (hidle : ∀ r ∈ π.rules.rules, r.enabled = false) (l : Lookups)
    (isUdp : Bool) :
    (∀ p, (stackV4.check π l isUdp p).action = .direct ↔
      (π.owners.loopbackBypassEnabled && isLoopbackV4 p.srcAddr && isLoopbackV4 p.dstAddr) = true ∨
        π.owners.accepts l.owner = true) ∧
    (∀ p, (stackV6.check π l isUdp p).action = .direct ↔
      (π.owners.loopbackBypassEnabled && isLoopback6 p.srcAddr && isLoopback6 p.dstAddr) = true ∨
        π.owners.accepts l.owner = true) := by
  refine ⟨fun p => ?_, fun p => ?_⟩
  · simp only [stackV4, checkProcessRule, matchRule, RuleQuery.loop_disabled _ hidle]
    exact judgeOwner_direct_iff
  · simp only [stackV6, checkProcessRuleV6, matchRuleV6, RuleQuery.loop_disabled _ hidle]
    exact judgeOwner_direct_iff

/-- The state `a` of a run that logs under a policy without active rules against the state `b` of one
that does not. The caches of DIRECT verdicts may differ where no flow is tracked. -/
structure Shadows (π : RoutingPolicy) (clock : UInt64) (a b : Core) : Prop where
  tables : a.tables = b.tables
  consistent : a.tables.Consistent
  ports : ∀ q, a.isDirect q = b.isDirect q ∨
    (q ≠ π.settings.localRelayPort ∧ ∀ v, a.tables.flow.tracked ⟨q, false, v⟩ = false)
  datagrams : ∀ now, clock ≤ now → ∀ source sourcePort destination destinationPort,
    udpDirectCached a.udpDirect π.generation now source sourcePort destination destinationPort =
      udpDirectCached b.udpDirect π.generation now source sourcePort destination destinationPort ∨
    a.tables.flow ⟨sourcePort, true, source.isIpv6⟩ = none

namespace Shadows
variable {π : RoutingPolicy} {clock : UInt64} {a b : Core}

theorem refl (h : a.tables.Consistent) : Shadows π clock a a := ⟨rfl, h, fun _ => .inl rfl, fun _ _ _ _ _ _ => .inl rfl⟩

theorem later (h : Shadows π clock a b) {now : UInt64} (hle : clock ≤ now) : Shadows π now a b :=
  { h with datagrams := fun now' hnow => h.datagrams now' (UInt64.le_trans hle hnow) }

theorem retable (h : Shadows π clock a b) {t : Tables} (ht : Narrows a.tables t) :
    Shadows π clock { a with tables := t } { b with tables := t } where
  tables := rfl
  consistent := ht.consistent
  ports q := (h.ports q).imp_right fun hq => ⟨hq.1, fun v => ht.untracked _ (hq.2 v)⟩
  datagrams now hnow source sourcePort destination destinationPort :=
    (h.datagrams now hnow source sourcePort destination destinationPort).imp_right (ht.absent _)

/-- Verdicts that both bitmaps lose. -/
theorem forget (h : Shadows π clock a b) {bitsA bitsB : PortBitmaps} (keep : UInt16 → Bool)
    (ha : ∀ q, Core.isDirect { a with bitmaps := bitsA } q = (keep q && a.isDirect q))
    (hb : ∀ q, Core.isDirect { b with bitmaps := bitsB } q = (keep q && b.isDirect q)) :
    Shadows π clock { a with bitmaps := bitsA } { b with bitmaps := bitsB } where
  tables := h.tables
  consistent := h.consistent
  ports q := by
    rw [ha, hb]
    exact (h.ports q).imp_left (fun hq => by rw [hq])
  datagrams := h.datagrams

theorem isDirect_portClear (s : Core) (p q : UInt16) :
    Core.isDirect { s with bitmaps := s.bitmaps.portClear p } q = (!decide (q = p) && s.isDirect q) := by
  simp only [Core.isDirect, PortBitmaps.portIsDecided_portClear, PortBitmaps.portIsDirect_portClear]
  cases decide (q = p) <;> simp

theorem portClear (h : Shadows π clock a b) (p : UInt16) :
    Shadows π clock { a with bitmaps := a.bitmaps.portClear p } { b with bitmaps := b.bitmaps.portClear p } :=
  h.forget (fun q => !decide (q = p)) (isDirect_portClear a p) (isDirect_portClear b p)

/-- A verdict that the run with the log alone caches, for a port without a tracked flow. -/
theorem portSetDirect (h : Shadows π clock a b) {p : UInt16} (hp : p ≠ π.settings.localRelayPort)
    (hu : ∀ v, a.tables.flow.tracked ⟨p, false, v⟩ = false) :
    Shadows π clock { a with bitmaps := a.bitmaps.portSetDirect p } b where
  tables := h.tables
  consistent := h.consistent
  ports q := by
    by_cases hq : q = p
    · rw [hq]
      exact .inr ⟨hp, hu⟩
    · simpa [Core.isDirect, hq] using h.ports q
  datagrams := h.datagrams

/-- A cached verdict belongs to the entry in its slot. -/
theorem entry_of_cached {t : UdpDirectTable} {generation : UInt32} {now : UInt64} {source destination : IpAddr}
    {sourcePort destinationPort : UInt16}
    (h : udpDirectCached t generation now source sourcePort destination destinationPort = true) :
    let e := t (udpDirectSlot source sourcePort destination destinationPort)
    e.expires > now ∧ e.generation = generation ∧ e.sourcePort = sourcePort ∧ e.source = source := by
  simp only [udpDirectCached, Bool.and_eq_true, decide_eq_true_eq, beq_iff_eq] at h
  obtain ⟨⟨⟨⟨⟨hexp, hgen⟩, hport⟩, _⟩, hsource⟩, _⟩ := h
  exact ⟨hexp, hgen, hport, hsource⟩

/-- A verdict that the run with the log alone remembers, for a flow without an entry and over a slot
that holds nothing of importance. -/
theorem remember {now : UInt64} (h : Shadows π now a b) {source destination : IpAddr}
    {sourcePort destinationPort : UInt16} {e : UdpDirectEntry}
    (he : a.udpDirect (udpDirectSlot source sourcePort destination destinationPort) = e)
    (hown : a.tables.flow ⟨sourcePort, true, source.isIpv6⟩ = none)
    (hslot : e.expires ≤ now ∨ e.generation ≠ π.generation ∨
      a.tables.flow ⟨e.sourcePort, true, e.source.isIpv6⟩ = none) :
    Shadows π now { a with
      udpDirect := udpDirectRemember a.udpDirect now source sourcePort destination destinationPort π.generation }
      b where
  tables := h.tables
  consistent := h.consistent
  ports := h.ports
  datagrams now' hnow src sp dst dp := by
    by_cases hs : udpDirectSlot src sp dst dp = udpDirectSlot source sourcePort destination destinationPort
    · rcases h.datagrams now' hnow src sp dst dp with heq | habsent
      · cases hc : udpDirectCached a.udpDirect π.generation now' src sp dst dp with
        | true =>
          obtain ⟨hexp, hgen, hport, hsource⟩ := entry_of_cached hc
          rw [hs, he] at hexp hgen hport hsource
          rcases hslot with hold | hold | hold
          · exact absurd (UInt64.lt_of_lt_of_le hexp hold) (UInt64.not_lt.mpr hnow)
          · exact absurd hgen hold
          · rw [hport, hsource] at hold
            exact .inr hold
        | false =>
          cases hn : udpDirectCached (udpDirectRemember a.udpDirect now source sourcePort destination destinationPort
              π.generation) π.generation now' src sp dst dp with
          | true =>
            obtain ⟨_, _, hport, hsource⟩ := entry_of_cached hn
            rw [udpDirectRemember, hs, Function.update_self] at hport hsource
            simp only at hport hsource
            rw [hport, hsource] at hown
            exact .inr hown
          | false => exact .inl (hc.symm.trans heq)
      · exact .inr habsent
    · have hold : udpDirectCached (udpDirectRemember a.udpDirect now source sourcePort destination destinationPort
          π.generation) π.generation now' src sp dst dp =
          udpDirectCached a.udpDirect π.generation now' src sp dst dp := by
        simp only [udpDirectCached, udpDirectRemember, Function.update_of_ne hs]
      rw [hold]
      exact h.datagrams now' hnow src sp dst dp

end Shadows

section Tcp
variable {α : Type} {F : TcpFamily α} {π : RoutingPolicy} {clock : UInt64} {a b : Core}
  {p : Packet α} {f : TcpFlags}

/-- The verdict bits after the fast path of a port: a teardown takes the port's own verdict away. -/
theorem consume_isDirect (s : Core) (p : UInt16) (teardown : Bool) :
    let e := if s.bitmaps.portIsDecided p then s.consumeDirectDecision p teardown else (false, s)
    e.1 = s.isDirect p ∧ e.2 = { s with bitmaps := e.2.bitmaps } ∧
      ∀ q, e.2.isDirect q = (!(teardown && decide (q = p)) && s.isDirect q) := by
  cases hd : s.bitmaps.portIsDecided p with
  | true =>
    cases teardown with
    | true => exact ⟨rfl, rfl, Shadows.isDirect_portClear s p⟩
    | false => exact ⟨rfl, rfl, fun q => by simp [Core.consumeDirectDecision]⟩
  | false =>
    have hp : s.isDirect p = false := by simp [Core.isDirect, hd]
    refine ⟨hp.symm, rfl, fun q => ?_⟩
    by_cases hq : q = p
    · simp [hq, hp]
    · simp [hq]

theorem Shadows.resetStaleTcpState (h : Shadows π clock a b) (port : UInt16) (v : Bool) :
    Shadows π clock (a.resetStaleTcpState π.settings port v) (b.resetStaleTcpState π.settings port v) := by
  simp only [Core.resetStaleTcpState]
  split
  · exact h
  · rw [← h.tables]
    exact (h.retable (.removeConnection h.consistent port false v)).portClear port

/-- After the entry of a packet the states still agree, and so do the cached verdicts of its port
unless no flow of it is tracked. -/
theorem Shadows.enter (h : Shadows π clock a b) :
    Shadows π clock (F.enter π.settings a p f).2 (F.enter π.settings b p f).2 ∧
    ((F.enter π.settings a p f).1 = (F.enter π.settings b p f).1 ∨
      (p.srcPort ≠ π.settings.localRelayPort ∧
        ∀ v, (F.enter π.settings a p f).2.tables.flow.tracked ⟨p.srcPort, false, v⟩ = false)) := by
  have hreset : Shadows π clock
      (if f.syn && !f.ack then a.resetStaleTcpState π.settings p.srcPort F.isIpv6 else a)
      (if f.syn && !f.ack then b.resetStaleTcpState π.settings p.srcPort F.isIpv6 else b) := by
    split
    · exact h.resetStaleTcpState p.srcPort F.isIpv6
    · exact h
  simp only [TcpFamily.enter]
  generalize (if f.syn && !f.ack then a.resetStaleTcpState π.settings p.srcPort F.isIpv6 else a) = a at hreset ⊢
  generalize (if f.syn && !f.ack then b.resetStaleTcpState π.settings p.srcPort F.isIpv6 else b) = b at hreset ⊢
  obtain ⟨ha, hsa, hqa⟩ := consume_isDirect a p.srcPort (f.fin || f.rst)
  obtain ⟨hb, hsb, hqb⟩ := consume_isDirect b p.srcPort (f.fin || f.rst)
  rw [ha, hb]
  rw [hsa] at hqa ⊢
  rw [hsb] at hqb ⊢
  exact ⟨hreset.forget _ hqa hqb, hreset.ports p.srcPort⟩

theorem Shadows.relayResponse {S : Stack α} (hS : S.Lawful) (h : Shadows π clock a b) (r : Readings) :
    (S.tcp.relayResponse r a p f).1 = (S.tcp.relayResponse r b p f).1 ∧
      Shadows π clock (S.tcp.relayResponse r a p f).2 (S.tcp.relayResponse r b p f).2 := by
  have hrestore := hS.restore_narrows h.consistent r.now p.dstPort
  simp only [TcpFamily.relayResponse, ← h.tables]
  refine ⟨trivial, h.retable (hrestore.trans ?_)⟩
  split
  · exact .removeConnection hrestore.consistent p.dstPort false S.tcp.isIpv6
  · split
    · exact .connectionFin hrestore.consistent r.now p.dstPort S.tcp.isIpv6 2
    · exact .refl hrestore.consistent

theorem Shadows.tracked (h : Shadows π clock a b) (g : Settings) (r : Readings) :
    (F.tracked g r a p f).1 = (F.tracked g r b p f).1 ∧
      Shadows π clock (F.tracked g r a p f).2 (F.tracked g r b p f).2 := by
  refine ⟨rfl, ?_⟩
  simp only [TcpFamily.tracked, ← h.tables]
  split
  · exact (h.retable (.removeConnection h.consistent p.srcPort false F.isIpv6)).portClear p.srcPort
  · split
    · exact h.retable (.connectionFin h.consistent r.now p.srcPort F.isIpv6 1)
    · exact h

/-- The stages of a packet, with the callback where it is read. -/
theorem Stack.Lawful.outbound_eq {S : Stack α} (hS : S.Lawful) (g : Settings) (c : Bool) (r : Readings) (s : Core) :
    S.tcp.outbound (g.withCallback c) r s p f =
      if S.tcp.exempt g p then (.pass, s)
      else
        let e := S.tcp.enter g s p f
        if e.1 then (.pass, e.2)
        else if p.srcPort == g.localRelayPort then S.tcp.relayResponse r e.2 p f
        else if e.2.tables.isConnectionTracked p.srcPort false S.tcp.isIpv6 then S.tcp.tracked g r e.2 p f
        else if S.tcp.unasked (g.withCallback c) p f then (.pass, e.2)
        else S.tcp.judge (g.withCallback c) r e.2 p := by
  simp only [TcpFamily.outbound, hS.tcp_exempt]
  rfl

/-- A packet past the entry that belongs to no tracked flow is queued as it came in the run that logs
too, which may cache the verdict. -/
theorem Shadows.untracked {S : Stack α} {l : Lookups} (hS : S.Lawful) (hc : a.tables.Consistent)
    (hexempt : S.tcp.exempt π.settings p = false) (hport : p.srcPort ≠ π.settings.localRelayPort)
    (hdirect : (S.tcp.enter π.settings a p f).1 = false)
    (huntracked : (S.tcp.enter π.settings a p f).2.tables.isConnectionTracked p.srcPort false S.tcp.isIpv6 = false)
    (hok : S.tcpHarmless π a l p f = true) (h : Shadows π clock (S.tcp.enter π.settings a p f).2 b) :
    (S.tcp.outbound (π.settings.withCallback true) (S.readings π l p false) a p f).1 = .pass ∧
      Shadows π clock (S.tcp.outbound (π.settings.withCallback true) (S.readings π l p false) a p f).2 b := by
  have henter : S.tcp.enter (π.settings.withCallback true) a p f = S.tcp.enter π.settings a p f := rfl
  have hasks : S.tcp.asks (π.settings.withCallback true) a p f = !S.tcp.unasked (π.settings.withCallback true) p f := by
    have hrelay : (π.settings.withCallback true).localRelayPort = π.settings.localRelayPort := rfl
    simp [TcpFamily.asks, hS.tcp_exempt, hexempt, henter, hdirect, hrelay, hport, huntracked]
  cases hu : S.tcp.unasked (π.settings.withCallback true) p f with
  | true =>
    rw [hS.outbound_eq]
    simpa [hexempt, hdirect, hport, huntracked, hu] using h
  | false =>
    rw [hu, Bool.not_false] at hasks
    simp only [Stack.tcpHarmless, hasks, Bool.not_true, Bool.false_or, Bool.and_eq_true, beq_iff_eq, Bool.or_eq_true,
      Bool.not_eq_true'] at hok
    rw [TcpFamily.outbound_of_asks hasks, henter, TcpFamily.judge, hok.1]
    refine ⟨rfl, ?_⟩
    by_cases hpid : (S.readings π l p false).verdict.pid = 0
    · simpa [hpid] using h
    · rw [if_pos (by simpa using hpid)]
      refine h.portSetDirect hport (fun v => ?_)
      by_cases hv : v = S.tcp.isIpv6
      · rw [hv]
        exact (h.consistent.isConnectionTracked_eq ⟨p.srcPort, false, S.tcp.isIpv6⟩).symm.trans huntracked
      · rw [Bool.eq_not_of_ne hv, TcpFamily.enter_tracked hc]
        exact (hc.isConnectionTracked_eq ⟨p.srcPort, false, !S.tcp.isIpv6⟩).symm.trans (hok.2.resolve_left hpid)

/-- Without active rules the run that does not log queues such a packet without asking. -/
theorem Stack.Lawful.outbound_silent {S : Stack α} {r : Readings} (hS : S.Lawful)
    (hact : π.settings.hasActiveRules = false) (hexempt : S.tcp.exempt π.settings p = false)
    (hport : p.srcPort ≠ π.settings.localRelayPort)
    (huntracked : (S.tcp.enter π.settings b p f).2.tables.isConnectionTracked p.srcPort false S.tcp.isIpv6 = false) :
    S.tcp.outbound (π.settings.withCallback false) r b p f = (.pass, (S.tcp.enter π.settings b p f).2) := by
  have hsilent : S.tcp.unasked (π.settings.withCallback false) p f = true := by
    simp [TcpFamily.unasked, Settings.withCallback, hact]
  rw [hS.outbound_eq]
  simp [hexempt, hport, huntracked, hsilent]

theorem Stack.Lawful.outbound_direct {S : Stack α} {g : Settings} {c : Bool} {r : Readings} {s : Core}
    (hS : S.Lawful) (hexempt : S.tcp.exempt g p = false) (hdirect : (S.tcp.enter g s p f).1 = true) :
    S.tcp.outbound (g.withCallback c) r s p f = (.pass, (S.tcp.enter g s p f).2) := by
  rw [hS.outbound_eq]
  simp [hexempt, hdirect]

/-- One outbound TCP packet: the two runs emit the same and their states still agree. -/
theorem Shadows.tcpOutbound {S : Stack α} {l : Lookups} (hS : S.Lawful)
    (hact : π.settings.hasActiveRules = false) (h : Shadows π clock a b) (hok : S.tcpHarmless π a l p f = true) :
    let r := S.readings π l p false
    (S.tcp.outbound (π.settings.withCallback true) r a p f).1 =
        (S.tcp.outbound (π.settings.withCallback false) r b p f).1 ∧
      Shadows π clock (S.tcp.outbound (π.settings.withCallback true) r a p f).2
        (S.tcp.outbound (π.settings.withCallback false) r b p f).2 := by
  intro r
  obtain ⟨he, hd⟩ := h.enter (F := S.tcp) (p := p) (f := f)
  cases hexempt : S.tcp.exempt π.settings p with
  | true =>
    rw [hS.outbound_eq π.settings true r a, hS.outbound_eq π.settings false r b, if_pos hexempt, if_pos hexempt]
    exact ⟨rfl, h⟩
  | false =>
    have hflow := he.consistent.isConnectionTracked_eq ⟨p.srcPort, false, S.tcp.isIpv6⟩
    cases hda : (S.tcp.enter π.settings a p f).1 with
    | true =>
      rw [hS.outbound_direct hexempt hda]
      cases hdb : (S.tcp.enter π.settings b p f).1 with
      | true =>
        rw [hS.outbound_direct hexempt hdb]
        exact ⟨rfl, he⟩
      | false =>
        obtain ⟨hport, hu⟩ := hd.resolve_left (by simp [hda, hdb])
        rw [hS.outbound_silent hact hexempt hport (by rw [← he.tables]; exact hflow.trans (hu S.tcp.isIpv6))]
        exact ⟨rfl, he⟩
    | false =>
      cases hdb : (S.tcp.enter π.settings b p f).1 with
      | true =>
        obtain ⟨hport, hu⟩ := hd.resolve_left (by simp [hda, hdb])
        rw [hS.outbound_direct hexempt hdb]
        exact Shadows.untracked hS h.consistent hexempt hport hda (hflow.trans (hu S.tcp.isIpv6)) hok he
      | false =>
        by_cases hport : p.srcPort = π.settings.localRelayPort
        · rw [hS.outbound_eq π.settings true r a, hS.outbound_eq π.settings false r b]
          simpa [hexempt, hda, hdb, hport] using he.relayResponse hS r
        · cases ht : (S.tcp.enter π.settings a p f).2.tables.isConnectionTracked p.srcPort false S.tcp.isIpv6 with
          | true =>
            rw [hS.outbound_eq π.settings true r a, hS.outbound_eq π.settings false r b]
            simpa [hexempt, hda, hdb, hport, ht, ← he.tables] using he.tracked π.settings r
          | false =>
            rw [hS.outbound_silent hact hexempt hport (by rw [← he.tables]; exact ht)]
            exact Shadows.untracked hS h.consistent hexempt hport hda ht hok he

end Tcp

section Udp
variable {α : Type} {S : Stack α} {π : RoutingPolicy} {a b : Core} {l : Lookups} {p : Packet α}

variable (S π p) in
/-- The direct cache as a datagram reads it. -/
def Stack.cached (s : Core) (now : UInt64) : Bool :=
  udpDirectCached s.udpDirect π.generation now (S.udp.toAddr p.srcAddr) p.srcPort (S.udp.toAddr p.dstAddr) p.dstPort

variable (S π l p) in
/-- The table lookup of a datagram. -/
def Stack.validated (t : Tables) : Bool × Tables :=
  S.udp.validate t π.generation l.now p.srcPort p.srcAddr p.dstAddr p.dstPort

variable (π l p) in
theorem Stack.Lawful.validated_narrows (hS : S.Lawful) {t : Tables} (h : t.Consistent) :
    Narrows t (S.validated π l p t).2 := by
  obtain ⟨_, hflow⟩ := hS.udp.validate_flow h π.generation l.now p.srcPort p.srcAddr p.dstAddr p.dstPort
  have hc := hS.udp.validate_consistent h π.generation l.now p.srcPort p.srcAddr p.dstAddr p.dstPort
  split at hflow
  · exact .of_alter hc hflow (fun _ => rfl)
  · exact .of_erase hc hflow

/-- A datagram that is not validated has no entry afterwards. -/
theorem Stack.Lawful.absent_of_refused (hS : S.Lawful) {t : Tables} (h : t.Consistent)
    (hv : (S.validated π l p t).1 = false) : (S.validated π l p t).2.flow (S.udp.key p) = none := by
  obtain ⟨hfst, hflow⟩ := hS.udp.validate_flow h π.generation l.now p.srcPort p.srcAddr p.dstAddr p.dstPort
  rw [← hfst] at hflow
  change (S.validated π l p t).2.flow = if (S.validated π l p t).1 = true then _ else _ at hflow
  rw [hv, if_neg Bool.false_ne_true] at hflow
  rw [hflow]
  exact Function.update_self ..

/-- The stages of a datagram, with the callback where it is read. -/
theorem Stack.Lawful.datagram_eq (hS : S.Lawful) (c : Bool) (s : Core)
    (hexempt : S.udp.exempt π.settings p = false) :
    S.udp.datagram (π.settings.withCallback c) (S.readings π l p true) s p =
      if S.cached π p s l.now then (.pass, s)
      else
        let v := S.validated π l p s.tables
        if v.1 then (.validated (S.udp.toRelay p), { s with tables := v.2 })
        else if S.udp.unasked (π.settings.withCallback c) p then (.pass, { s with tables := v.2 })
        else S.udp.judge (π.settings.withCallback c) (S.readings π l p true) { s with tables := v.2 } p := by
  simp only [UdpFamily.datagram, UdpFamily.passes, hS.udp_exempt, hexempt, Bool.false_or]
  rfl

/-- Without active rules the run that does not log queues a datagram it has no entry for. -/
theorem Stack.Lawful.datagram_silent (hS : S.Lawful) (hact : π.settings.hasActiveRules = false)
    (hexempt : S.udp.exempt π.settings p = false) (hcached : S.cached π p b l.now = false)
    (hv : (S.validated π l p b.tables).1 = false) :
    S.udp.datagram (π.settings.withCallback false) (S.readings π l p true) b p =
      (.pass, { b with tables := (S.validated π l p b.tables).2 }) := by
  have hsilent : S.udp.unasked (π.settings.withCallback false) p = true := by
    simp [UdpFamily.unasked, Settings.withCallback, hact]
  rw [hS.datagram_eq false b hexempt]
  simp [hcached, hv, hsilent]

/-- The run that logs queues it as well, and may remember the verdict. -/
theorem Shadows.refused (hS : S.Lawful) (hc : a.tables.Consistent) (hport : p.srcPort ≠ localUdpRelayPort)
    (hexempt : S.udp.exempt π.settings p = false) (hcached : S.cached π p a l.now = false)
    (hv : (S.validated π l p a.tables).1 = false) (hok : S.udpHarmless π a l p = true)
    (h : Shadows π l.now { a with tables := (S.validated π l p a.tables).2 } b) :
    (S.udp.datagram (π.settings.withCallback true) (S.readings π l p true) a p).1 = .pass ∧
      Shadows π l.now (S.udp.datagram (π.settings.withCallback true) (S.readings π l p true) a p).2 b := by
  have hasks : S.udp.asks (π.settings.withCallback true) (S.readings π l p true) a p =
      !S.udp.unasked (π.settings.withCallback true) p := by
    have hpasses : S.udp.passes (π.settings.withCallback true) (S.readings π l p true) a p = false := by
      rw [UdpFamily.passes, hS.udp_exempt, hexempt]
      exact hcached
    change (_ && _ && !(S.validated π l p a.tables).1 && _) = _
    simp [hport, hpasses, hv]
  rw [hS.datagram_eq true a hexempt]
  simp only [hcached, hv, Bool.false_eq_true, if_false]
  cases hu : S.udp.unasked (π.settings.withCallback true) p with
  | true => exact ⟨rfl, h⟩
  | false =>
    rw [hu, Bool.not_false] at hasks
    simp only [Stack.udpHarmless, hasks, Bool.not_true, Bool.false_or, Bool.and_eq_true, beq_iff_eq,
      Bool.or_eq_true] at hok
    simp only [Bool.false_eq_true, if_false, UdpFamily.judge, hok.1]
    refine ⟨trivial, ?_⟩
    by_cases hpid : (S.readings π l p true).verdict.pid = 0
    · simpa [hpid] using h
    · rw [if_pos (by simpa using hpid)]
      have hnone := hS.absent_of_refused hc hv
      have hslot := hok.2.resolve_left hpid
      simp only [Stack.slotFree, Bool.or_eq_true, decide_eq_true_eq, bne_iff_ne, Option.isNone_iff_eq_none,
        Bool.and_eq_true, beq_iff_eq] at hslot
      refine h.remember rfl ?_ ?_
      · rw [hS.toAddr_isIpv6]
        exact hnone
      · rcases hslot with ((hold | hold) | hold) | ⟨hport, hfam⟩
        · exact .inl hold
        · exact .inr (.inl hold)
        · exact .inr (.inr ((hS.validated_narrows π l p hc).absent _ hold))
        · refine .inr (.inr ?_)
          simp only
          rw [hport, hfam]
          exact hnone

theorem Stack.Lawful.datagram_cached (hS : S.Lawful) {c : Bool} {s : Core}
    (hexempt : S.udp.exempt π.settings p = false) (hcached : S.cached π p s l.now = true) :
    S.udp.datagram (π.settings.withCallback c) (S.readings π l p true) s p = (.pass, s) := by
  rw [hS.datagram_eq c s hexempt]
  simp [hcached]

/-- A datagram that the two runs look up with the same answer of the direct cache. -/
theorem Shadows.datagram_of_eq (hS : S.Lawful) (hact : π.settings.hasActiveRules = false)
    (hport : p.srcPort ≠ localUdpRelayPort) (hexempt : S.udp.exempt π.settings p = false)
    (h : Shadows π l.now a b) (hok : S.udpHarmless π a l p = true)
    (heq : S.cached π p a l.now = S.cached π p b l.now) :
    let r := S.readings π l p true
    (S.udp.datagram (π.settings.withCallback true) r a p).1 = (S.udp.datagram (π.settings.withCallback false) r b p).1 ∧
      Shadows π l.now (S.udp.datagram (π.settings.withCallback true) r a p).2
        (S.udp.datagram (π.settings.withCallback false) r b p).2 := by
  intro r
  have hnarrow := h.retable (hS.validated_narrows π l p h.consistent)
  cases hca : S.cached π p a l.now with
  | true =>
    rw [hS.datagram_cached hexempt hca, hS.datagram_cached hexempt (heq.symm.trans hca)]
    exact ⟨rfl, h⟩
  | false =>
    have hcb := heq.symm.trans hca
    cases hv : (S.validated π l p a.tables).1 with
    | true =>
      rw [hS.datagram_eq true a hexempt, hS.datagram_eq false b hexempt]
      simpa [hca, hcb, hv, ← h.tables] using hnarrow
    | false =>
      rw [hS.datagram_silent hact hexempt hcb (by rw [← h.tables]; exact hv), ← h.tables]
      exact Shadows.refused hS h.consistent hport hexempt hca hv hok hnarrow

/-- A datagram whose flow has no entry, whatever the direct caches answer. -/
theorem Shadows.datagram_of_absent (hS : S.Lawful) (hact : π.settings.hasActiveRules = false)
    (hport : p.srcPort ≠ localUdpRelayPort) (hexempt : S.udp.exempt π.settings p = false)
    (h : Shadows π l.now a b) (hok : S.udpHarmless π a l p = true)
    (hnone : a.tables.flow (S.udp.key p) = none) :
    let r := S.readings π l p true
    (S.udp.datagram (π.settings.withCallback true) r a p).1 = (S.udp.datagram (π.settings.withCallback false) r b p).1 ∧
      Shadows π l.now (S.udp.datagram (π.settings.withCallback true) r a p).2
        (S.udp.datagram (π.settings.withCallback false) r b p).2 := by
  intro r
  have hva : S.validated π l p a.tables = (false, a.tables) := hS.validate_absent h.consistent _ _ _ _ _ _ hnone
  have hb : S.udp.datagram (π.settings.withCallback false) r b p = (.pass, b) := by
    cases hcb : S.cached π p b l.now with
    | true => exact hS.datagram_cached hexempt hcb
    | false =>
      have hvb : S.validated π l p b.tables = (false, b.tables) := by rw [← h.tables, hva]
      rw [hS.datagram_silent hact hexempt hcb (by rw [hvb]), hvb]
  rw [hb]
  cases hca : S.cached π p a l.now with
  | true =>
    rw [hS.datagram_cached hexempt hca]
    exact ⟨rfl, h⟩
  | false =>
    refine Shadows.refused hS h.consistent hport hexempt hca (by rw [hva]) hok ?_
    rw [hva]
    exact h

/-- One outbound datagram: the two runs emit the same and their states still agree. -/
theorem Shadows.udpOutbound (hS : S.Lawful) (hact : π.settings.hasActiveRules = false) (h : Shadows π l.now a b)
    (hok : S.udpHarmless π a l p = true) :
    let r := S.readings π l p true
    (S.udp.outbound (π.settings.withCallback true) r a p).1 = (S.udp.outbound (π.settings.withCallback false) r b p).1 ∧
      Shadows π l.now (S.udp.outbound (π.settings.withCallback true) r a p).2
        (S.udp.outbound (π.settings.withCallback false) r b p).2 := by
  intro r
  simp only [UdpFamily.outbound]
  by_cases hport : p.srcPort = localUdpRelayPort
  · simp only [hport, beq_self_eq_true, if_true, UdpFamily.relayResponse, ← h.tables]
    exact ⟨trivial, h.retable (.of_alter (hS.udp.restore_consistent h.consistent r.now p.dstPort)
      (hS.udp.restore_flow h.consistent r.now p.dstPort) (fun _ => rfl))⟩
  · rw [if_neg (by simpa using hport), if_neg (by simpa using hport)]
    cases hexempt : S.udp.exempt π.settings p with
    | true =>
      simp only [UdpFamily.datagram, UdpFamily.passes, hS.udp_exempt, hexempt, Bool.true_or, if_true]
      exact ⟨trivial, h⟩
    | false =>
      rcases h.datagrams l.now (UInt64.le_refl _) (S.udp.toAddr p.srcAddr) p.srcPort (S.udp.toAddr p.dstAddr) p.dstPort
        with heq | hnone
      · exact h.datagram_of_eq hS hact hport hexempt hok heq
      · rw [hS.toAddr_isIpv6] at hnone
        exact h.datagram_of_absent hS hact hport hexempt hok hnone

end Udp

/-- The two runs after the same packets: their states are equal where the callback decides nothing, and
otherwise the run that logs shadows the other one. -/
structure Twins.Agree (π : RoutingPolicy) (a b : LogSettings) (s : Twins) : Prop where
  sent : s.sentLeft = s.sentRight
  same : a.connectionCallback = b.connectionCallback ∨ π.settings.hasActiveRules = true → s.left.core = s.right.core
  left : π.settings.hasActiveRules = false → a.connectionCallback = true → b.connectionCallback = false →
    Shadows π s.clock s.left.core s.right.core
  right : π.settings.hasActiveRules = false → a.connectionCallback = false → b.connectionCallback = true →
    Shadows π s.clock s.right.core s.left.core

section Step
variable {α : Type} {S : Stack α} {π : RoutingPolicy} {a b : LogSettings} {m n : Machine} {l : Lookups} {p : Packet α}
  {flags : Option TcpFlags}

/-- The run that logs against the one that does not, for one packet. -/
theorem Stack.Lawful.process_shadows (hS : S.Lawful) (hact : π.settings.hasActiveRules = false)
    (ha : a.connectionCallback = true) (hb : b.connectionCallback = false) (h : Shadows π l.now m.core n.core)
    (hok : S.harmless π m.core l p flags = true) :
    (S.process π a m l p flags).1 = (S.process π b n l p flags).1 ∧
      Shadows π l.now (S.process π a m l p flags).2.core (S.process π b n l p flags).2.core := by
  cases hout : p.outbound with
  | false => cases flags <;> simpa [Stack.process, hout] using h
  | true =>
    cases flags with
    | some f =>
      simp only [Stack.harmless, hout, Bool.not_true, Bool.false_or] at hok
      simpa [Stack.process, hout, Stack.tcpOutbound, ha, hb] using h.tcpOutbound hS hact hok
    | none =>
      simp only [Stack.harmless, hout, Bool.not_true, Bool.false_or] at hok
      obtain ⟨hsent, hcore⟩ := h.udpOutbound hS hact hok
      simpa [Stack.process, hout, Stack.udpOutbound, ha, hb, hsent] using hcore

/-- Under active rules the fast path is closed and the callback decides nothing. -/
theorem Stack.Lawful.tcp_active (hS : S.Lawful) {g : Settings} (hact : g.hasActiveRules = true) (c d : Bool)
    (r : Readings) (s : Core) (f : TcpFlags) :
    S.tcp.outbound (g.withCallback c) r s p f = S.tcp.outbound (g.withCallback d) r s p f := by
  have hunasked : S.tcp.unasked (g.withCallback c) p f = S.tcp.unasked (g.withCallback d) p f := by
    simp [TcpFamily.unasked, Settings.withCallback, hact]
  have hjudge : ∀ s, S.tcp.judge (g.withCallback c) r s p = S.tcp.judge (g.withCallback d) r s p := by
    intro s
    simp only [TcpFamily.judge, TcpFamily.finalAction, hS.tcp_demoted]
    rfl
  rw [hS.outbound_eq, hS.outbound_eq, hunasked]
  simp only [hjudge]

theorem Stack.Lawful.udp_active (hS : S.Lawful) {g : Settings} (hact : g.hasActiveRules = true) (c d : Bool)
    (r : Readings) (s : Core) :
    S.udp.outbound (g.withCallback c) r s p = S.udp.outbound (g.withCallback d) r s p := by
  have hunasked : S.udp.unasked (g.withCallback c) p = S.udp.unasked (g.withCallback d) p := by
    simp [UdpFamily.unasked, Settings.withCallback, hact]
  simp only [UdpFamily.outbound, UdpFamily.datagram, UdpFamily.passes, UdpFamily.judge, UdpFamily.finalAction,
    hS.udp_exempt, hS.udp_demoted, hS.udp_carries, hunasked]

variable (l p flags) in
theorem Stack.Lawful.process_same (hS : S.Lawful)
    (hsame : a.connectionCallback = b.connectionCallback ∨ π.settings.hasActiveRules = true)
    (h : m.core = n.core) :
    (S.process π a m l p flags).1 = (S.process π b n l p flags).1 ∧
      (S.process π a m l p flags).2.core = (S.process π b n l p flags).2.core := by
  have htcp : ∀ r s f, S.tcp.outbound (π.settings.withCallback a.connectionCallback) r s p f =
      S.tcp.outbound (π.settings.withCallback b.connectionCallback) r s p f := by
    rcases hsame with hcb | hact
    · simp [hcb]
    · exact fun r s f => hS.tcp_active hact _ _ r s f
  have hudp : ∀ r s, S.udp.outbound (π.settings.withCallback a.connectionCallback) r s p =
      S.udp.outbound (π.settings.withCallback b.connectionCallback) r s p := by
    rcases hsame with hcb | hact
    · simp [hcb]
    · exact fun r s => hS.udp_active hact _ _ r s
  cases hout : p.outbound with
  | false => cases flags <;> simpa [Stack.process, hout] using h
  | true => cases flags <;> simp [Stack.process, hout, Stack.tcpOutbound, Stack.udpOutbound, h, htcp, hudp]

end Step

section Runs
variable {π : RoutingPolicy} {a b : LogSettings}

theorem Machine.process_same {m n : Machine}
    (hsame : a.connectionCallback = b.connectionCallback ∨ π.settings.hasActiveRules = true)
    (h : m.core = n.core) (e : PacketEvent) :
    (m.process π a e).1 = (n.process π b e).1 ∧ (m.process π a e).2.core = (n.process π b e).2.core := by
  cases e with
  | v4 l p flags =>
    obtain ⟨hsent, hcore⟩ := stackV4_lawful.process_same l p flags hsame h
    exact ⟨congrArg Emission.v4 hsent, hcore⟩
  | v6 l p flags =>
    obtain ⟨hsent, hcore⟩ := stackV6_lawful.process_same l p flags hsame h
    exact ⟨congrArg Emission.v6 hsent, hcore⟩

theorem Machine.process_shadows {m n : Machine} {e : PacketEvent} (hact : π.settings.hasActiveRules = false)
    (ha : a.connectionCallback = true) (hb : b.connectionCallback = false) (h : Shadows π e.now m.core n.core)
    (hok : π.harmless m.core e = true) :
    (m.process π a e).1 = (n.process π b e).1 ∧
      Shadows π e.now (m.process π a e).2.core (n.process π b e).2.core := by
  cases e with
  | v4 l p flags =>
    obtain ⟨hsent, hcore⟩ := stackV4_lawful.process_shadows hact ha hb h hok
    exact ⟨congrArg Emission.v4 hsent, hcore⟩
  | v6 l p flags =>
    obtain ⟨hsent, hcore⟩ := stackV6_lawful.process_shadows hact ha hb h hok
    exact ⟨congrArg Emission.v6 hsent, hcore⟩

theorem Twins.Agree.step {s s' : Twins} {e : PacketEvent} (h : Twins.Agree π a b s) (hok : Twins.Quiet π a b s e)
    (hs : s.step π a b e = some s') : Twins.Agree π a b s' := by
  simp only [Twins.step, Option.ite_none_right_eq_some] at hs
  obtain ⟨hclock, hs⟩ := hs
  obtain rfl := Option.some.inj hs
  by_cases hsame : a.connectionCallback = b.connectionCallback ∨ π.settings.hasActiveRules = true
  · obtain ⟨hsent, hcore⟩ := Machine.process_same hsame (h.same hsame) e
    refine ⟨by simp only [h.sent, hsent], fun _ => hcore, fun hact ha hb => ?_, fun hact ha hb => ?_⟩
    · simp [hact, ha, hb] at hsame
    · simp [hact, ha, hb] at hsame
  · obtain ⟨hcb, hact⟩ := not_or.mp hsame
    have hact := Bool.eq_false_iff.mpr hact
    have hharm := (hok.resolve_left hcb).resolve_left (by simp [hact])
    cases ha : a.connectionCallback with
    | true =>
      have hb : b.connectionCallback = false := by simpa [ha] using hcb
      rw [ha, if_pos rfl] at hharm
      obtain ⟨hsent, hcore⟩ := Machine.process_shadows hact ha hb ((h.left hact ha hb).later hclock) hharm
      exact ⟨by simp only [h.sent, hsent], fun hc => (hsame hc).elim, fun _ _ _ => hcore,
        fun _ hn => by simp [ha] at hn⟩
    | false =>
      have hb : b.connectionCallback = true := by simpa [ha] using hcb
      rw [ha, if_neg Bool.false_ne_true] at hharm
      obtain ⟨hsent, hcore⟩ := Machine.process_shadows hact hb ha ((h.right hact ha hb).later hclock) hharm
      exact ⟨by simp only [h.sent, hsent], fun hc => (hsame hc).elim, fun _ hn => by simp [ha] at hn,
        fun _ _ _ => hcore⟩

end Runs

/-- Two runs from states that agree but for connection logging emit the same packets with the same
rewriting, as long as every step is quiet. -/
theorem logging_keeps_routes_while_quiet (π : RoutingPolicy) (a b : LogSettings) {core : Core}
    (hcore : core.tables.Consistent) (logLeft logRight : ConnectionLog) {s : Twins}
    (h : Reach (Twins.step π a b) (Twins.Quiet π a b) (Twins.start core logLeft logRight) s) :
    s.sentLeft = s.sentRight := by
  have hinit : Twins.Agree π a b (Twins.start core logLeft logRight) :=
    ⟨rfl, fun _ => rfl, fun _ _ _ => .refl hcore, fun _ _ _ => .refl hcore⟩
  exact (h.invariant hinit (fun _ _ _ hi hok hs => hi.step hok hs)).sent

/-- No rules, and flows without a known owner are blocked. -/
def idlePolicy : RoutingPolicy where
  settings := ⟨34010, false, false, false, []⟩
  rules := ⟨[], false, false⟩
  owners := ⟨true, true, 1⟩
  generation := 1

private def answered (now : UInt64) (owner : Owner) : Lookups := ⟨now, none, owner, emptyRuleEnv, true, true⟩

/-- An outbound IPv4 packet from port 5000 of the process with the identifier 7. -/
private def ownedPacket (now : UInt64) (flags : Option TcpFlags) : PacketEvent :=
  .v4 (answered now ⟨7, some (CStrings.lit ['a'])⟩) ⟨0x0A00A8C0, 0x08080808, 5000, 443, true⟩ flags

/-- A connection and a datagram of a known process, each of which the run with the callback caches. -/
theorem logging_keeps_routes_while_quiet_owned :
    ∃ s, Reach (Twins.step idlePolicy ⟨true, true⟩ ⟨false, false⟩) (Twins.Quiet idlePolicy ⟨true, true⟩ ⟨false, false⟩)
        (Twins.start .init .init .init) s ∧
      s.left.core.isDirect 5000 = true ∧ s.right.core.isDirect 5000 = false ∧
      s.left.log.loggedConnections.length = 1 ∧ s.sentLeft = s.sentRight := by
  obtain ⟨s, hr, ht⟩ := exists_reach_of_exec (Twins.step idlePolicy ⟨true, true⟩ ⟨false, false⟩)
    (Twins.Quiet idlePolicy ⟨true, true⟩ ⟨false, false⟩) (Twins.start .init .init .init)
    [ownedPacket 1 (some ⟨true, false, false, false⟩), ownedPacket 2 (some ⟨false, true, false, false⟩),
      ownedPacket 3 none, ownedPacket 4 none]
    (fun s => s.left.core.isDirect 5000 && !s.right.core.isDirect 5000 &&
      s.left.log.loggedConnections.length == 1) (by decide +kernel)
  simp only [Bool.and_eq_true, Bool.not_eq_true', beq_iff_eq] at ht
  obtain ⟨⟨hl, hr'⟩, hlen⟩ := ht
  exact ⟨s, hr, hl, hr', hlen,
    logging_keeps_routes_while_quiet idlePolicy ⟨true, true⟩ ⟨false, false⟩ consistent_empty .init .init hr⟩

/-- A SYN of an unknown owner is dropped by the run with a callback and queued by the one without. -/
theorem callback_blocks_unknown_owner :
    ∃ s, Reach (Twins.step idlePolicy ⟨true, true⟩ ⟨false, false⟩) (fun _ _ => True) (Twins.start .init .init .init) s ∧
      s.sentLeft = [.v4 .drop] ∧ s.sentRight = [.v4 .pass] ∧ s.sentLeft ≠ s.sentRight := by
  obtain ⟨s, hr, ht⟩ := exists_reach_of_exec (Twins.step idlePolicy ⟨true, true⟩ ⟨false, false⟩) (fun _ _ => True)
    (Twins.start .init .init .init)
    [.v4 (answered 1 ⟨0, none⟩) ⟨0x0A00A8C0, 0x08080808, 5000, 443, true⟩ (some ⟨true, false, false, false⟩)]
    (fun s => decide (s.sentLeft = [.v4 .drop] ∧ s.sentRight = [.v4 .pass] ∧ s.sentLeft ≠ s.sentRight))
    (by decide +kernel)
  exact ⟨s, hr, of_decide_eq_true ht⟩

end ProxyBridge.Windows
