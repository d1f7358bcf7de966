import ProxyBridge.Windows.Packet

/-! The outbound UDP branches of `packet_processor`. As for TCP, the IPv4 and the IPv6 branch run
through the same stages and a `UdpFamily` collects what differs. -/
namespace ProxyBridge.Windows

/-- What happened to a datagram. One that goes to the relay was either accepted by
`udp_flow_validate` or has just been judged PROXY. -/
inductive UdpOutcome (α : Type) where
  | drop
  | pass
  | validated (packet : Packet α)
  | proxied (packet : Packet α)
  | response (packet : Packet α)
  deriving DecidableEq

/-- `exempt` datagrams go to a proxy's own relay address, `unroutable` destinations never reach
the rules, a PROXY verdict for a `demoted` datagram becomes DIRECT, and one for a configuration
that does not `carry` UDP drops the datagram. -/
structure UdpFamily (α : Type) where
  isIpv6 : Bool
  toAddr : α → IpAddr
  exempt : Settings → Packet α → Bool
  unroutable : α → Bool
  demoted : Settings → Packet α → Bool
  carries : Settings → UInt32 → Bool
  validate : Tables → UInt32 → UInt64 → UInt16 → α → α → UInt16 → Bool × Tables
  add : Tables → UInt32 → UInt64 → Option Addr → UInt16 → α → α → UInt16 → UInt32 → Tables
  toRelay : Packet α → Packet α
  restore : Tables → UInt64 → UInt16 → Option (α × UInt16) × Tables
  respond : Packet α → Option (α × UInt16) → UdpOutcome α

/-- `htonl(INADDR_LOOPBACK)`. -/
def inaddrLoopback : UInt32 := 0x0100007F

def udpV4 : UdpFamily UInt32 where
  isIpv6 := false
  toAddr := .v4
  exempt g p := isProxyUdpEndpoint g.configs p.dstAddr p.dstPort
  unroutable _ := false
  demoted g p := (!g.localhostViaProxy && firstOctet p.dstAddr == 127) || isBroadcastOrMulticast p.dstAddr ||
    (p.dstPort == 67 || p.dstPort == 68)
  carries _ _ := true
  validate t generation now port src dst dstPort :=
    t.udpFlowValidate generation now port false src Ip6.zero dst Ip6.zero dstPort
  add t generation now alloc srcPort src dst dstPort proxyConfigId :=
    t.addConnection generation now alloc srcPort true src dst dstPort proxyConfigId
  toRelay p :=
    let p := { p with dstPort := localUdpRelayPort }
    if firstOctet p.srcAddr == 127 then { p with dstAddr := inaddrLoopback } else p.swapInbound
  restore t now clientPort := t.getConnection now clientPort true
  respond p found :=
    match found with
    | none => .drop
    | some (ip, port) =>
      .response { p with srcAddr := ip, srcPort := port, outbound := p.outbound && firstOctet p.dstAddr == 127 }

def udpV6 : UdpFamily Ip6 where
  isIpv6 := true
  toAddr := .v6
  exempt _ _ := false
  unroutable dst := isIpv6MulticastOrLinklocal dst
  demoted g p := (!g.localhostViaProxy && isLoopback6 p.dstAddr) || (p.dstPort == 546 || p.dstPort == 547)
  carries g proxyConfigId := (findProxyConfig g.configs proxyConfigId).any (fun c => c.type == .socks5)
  validate t generation now port src dst dstPort :=
    t.udpFlowValidate generation now port true 0 src 0 dst dstPort
  add t generation now alloc srcPort src dst dstPort proxyConfigId :=
    t.addConnectionV6 generation now alloc srcPort true src dst dstPort proxyConfigId
  toRelay p :=
    let p := { p with dstPort := localUdpRelayPort }
    if p.srcAddr == Ip6.loopback && p.dstAddr == Ip6.loopback then p else p.swapInbound
  restore t now clientPort :=
    let (found, t) := t.getConnectionFullV6 now clientPort true
    (found.map (fun e => (e.1, e.2.1)), t)
  respond p found :=
    let p := { p with outbound := p.outbound && p.dstAddr == Ip6.loopback }
    match found with
    | none => .response p
    | some (ip6, port) => .response { p with srcAddr := ip6, srcPort := port }

namespace UdpFamily
variable {α : Type} (F : UdpFamily α) (g : Settings) (r : Readings) (s : Core) (p : Packet α)

/-- The datagrams that are queued untouched before the connection table is asked. -/
def passes : Bool :=
  F.exempt g p || udpDirectCached s.udpDirect r.generation r.now (F.toAddr p.srcAddr) p.srcPort
    (F.toAddr p.dstAddr) p.dstPort

/-- The datagrams without an accepted entry that are queued without asking the rules. -/
def unasked : Bool := F.unroutable p.dstAddr || (!g.hasActiveRules && !g.connectionCallback)

def finalAction : RuleAction :=
  if r.verdict.action = .proxy ∧ F.demoted g p then .direct else r.verdict.action

def judge : UdpOutcome α × Core :=
  match F.finalAction g r p with
  | .block => (.drop, s)
  | .proxy =>
    if F.carries g r.verdict.proxyConfigId then
      let tables := F.add s.tables r.generation r.now r.alloc p.srcPort p.srcAddr p.dstAddr p.dstPort
        r.verdict.proxyConfigId
      (.proxied (F.toRelay p), { s with tables := tables.udpFlowStamp p.srcPort F.isIpv6 r.generation })
    else (.drop, s)
  | .direct =>
    (.pass,
      if r.verdict.pid != 0 then
        { s with
          udpDirect := udpDirectRemember s.udpDirect r.now (F.toAddr p.srcAddr) p.srcPort (F.toAddr p.dstAddr)
            p.dstPort r.generation }
      else s)

/-- A datagram of an application, which does not come from the relay port. -/
def datagram : UdpOutcome α × Core :=
  if F.passes g r s p then (.pass, s)
  else
    let v := F.validate s.tables r.generation r.now p.srcPort p.srcAddr p.dstAddr p.dstPort
    let s := { s with tables := v.2 }
    if v.1 then (.validated (F.toRelay p), s)
    else if F.unasked g p then (.pass, s)
    else F.judge g r s p

/-- A datagram of the relay to a client, whose source is replaced by the tracked destination. -/
def relayResponse : UdpOutcome α × Core :=
  let found := F.restore s.tables r.now p.dstPort
  (F.respond p found.1, { s with tables := found.2 })

def outbound : UdpOutcome α × Core :=
  if p.srcPort == localUdpRelayPort then F.relayResponse r s p else F.datagram g r s p

end UdpFamily
end ProxyBridge.Windows
