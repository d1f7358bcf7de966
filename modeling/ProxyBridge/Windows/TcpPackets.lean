import ProxyBridge.Library.Runs
import ProxyBridge.Windows.Packet

/-! The outbound TCP branches of `packet_processor`. The IPv4 and the IPv6 branch run through the
same stages; what differs between them is collected in a `TcpFamily`. -/
namespace ProxyBridge.Windows
open Runs

namespace Core

def resetStaleTcpState (s : Core) (g : Settings) (sourcePort : UInt16) (ipv6 : Bool) : Core :=
  if sourcePort == g.localRelayPort then s
  else { s with
    tables := s.tables.removeConnection sourcePort false ipv6, bitmaps := s.bitmaps.portClear sourcePort }

def consumeDirectDecision (s : Core) (sourcePort : UInt16) (teardown : Bool) : Bool × Core :=
  (s.bitmaps.portIsDecided sourcePort && s.bitmaps.portIsDirect sourcePort,
    if teardown then { s with bitmaps := s.bitmaps.portClear sourcePort } else s)

end Core

/-- What the two copies of the TCP code do differently. `exempt` packets are queued before
anything else, `unroutable` destinations before the rules are asked, and a PROXY verdict for a
`demoted` destination becomes DIRECT. -/
structure TcpFamily (α : Type) where
  isIpv6 : Bool
  exempt : Settings → Packet α → Bool
  unroutable : α → Bool
  demoted : Settings → α → Bool
  loopbackPair : Packet α → Bool
  restore : Tables → UInt64 → UInt16 → Option UInt16 × Tables
  add : Tables → UInt32 → UInt64 → Option Addr → UInt16 → α → α → UInt16 → UInt32 → Tables

def tcpV4 : TcpFamily UInt32 where
  isIpv6 := false
  exempt g p := p.srcPort != g.localRelayPort && isProxyServerEndpoint g.configs p.dstAddr p.dstPort
  unroutable _ := false
  demoted g dst := (!g.localhostViaProxy && firstOctet dst == 127) || isBroadcastOrMulticast dst
  loopbackPair p := firstOctet p.srcAddr == 127 && firstOctet p.dstAddr == 127
  restore t now clientPort :=
    let (found, t) := t.getConnection now clientPort false
    (found.map (·.2), t)
  add t generation now alloc srcPort src dst dstPort proxyConfigId :=
    t.addConnection generation now alloc srcPort false src dst dstPort proxyConfigId

def tcpV6 : TcpFamily Ip6 where
  isIpv6 := true
  exempt _ _ := false
  unroutable dst := isIpv6MulticastOrLinklocal dst
  demoted g dst := !g.localhostViaProxy && isLoopback6 dst
  loopbackPair p := p.srcAddr == Ip6.loopback && p.dstAddr == Ip6.loopback
  restore t now clientPort :=
    let (found, t) := t.getConnectionFullV6 now clientPort false
    ((found.map (·.2.1)).filter (· != 0), t)
  add t generation now alloc srcPort src dst dstPort proxyConfigId :=
    t.addConnectionV6 generation now alloc srcPort false src dst dstPort proxyConfigId

namespace TcpFamily
variable {α : Type} (F : TcpFamily α) (g : Settings) (r : Readings) (s : Core) (p : Packet α) (f : TcpFlags)

/-- Loopback pairs only change port; other packets turn around and are injected inbound. -/
def reroute : Packet α := if F.loopbackPair p then p else p.swapInbound

/-- The packet on its way to the local relay. -/
def toRelay : Packet α := F.reroute { p with dstPort := g.localRelayPort }

/-- A SYN discards what is known of the port; then a cached DIRECT verdict may apply. -/
def enter : Bool × Core :=
  let s := if f.syn && !f.ack then s.resetStaleTcpState g p.srcPort F.isIpv6 else s
  if s.bitmaps.portIsDecided p.srcPort then s.consumeDirectDecision p.srcPort (f.fin || f.rst) else (false, s)

/-- The relay answers a client: its source port becomes the original destination port again. -/
def relayResponse : Disposition α × Core :=
  let (origPort, tables) := F.restore s.tables r.now p.dstPort
  let tables :=
    if f.rst then tables.removeConnection p.dstPort false F.isIpv6
    else if f.fin then tables.connectionFin r.now p.dstPort F.isIpv6 2
    else tables
  (.modified (F.reroute { p with srcPort := origPort.getD p.srcPort }), { s with tables := tables })

def tracked : Disposition α × Core :=
  let s :=
    if f.rst then
      { s with
        tables := s.tables.removeConnection p.srcPort false F.isIpv6
        bitmaps := s.bitmaps.portClear p.srcPort }
    else if f.fin then { s with tables := s.tables.connectionFin r.now p.srcPort F.isIpv6 1 }
    else s
  (.modified (F.toRelay g p), s)

/-- The verdict after the overrides for local destinations. -/
def finalAction : RuleAction :=
  if r.verdict.action = .proxy ∧ F.demoted g p.dstAddr then .direct else r.verdict.action

def judge : Disposition α × Core :=
  match F.finalAction g r p with
  | .direct =>
    (.pass, if r.verdict.pid != 0 then { s with bitmaps := s.bitmaps.portSetDirect p.srcPort } else s)
  | .block => (.drop, { s with bitmaps := s.bitmaps.portSetDecided p.srcPort })
  | .proxy =>
    (.modified (F.toRelay g p),
      { s with
        tables := F.add s.tables r.generation r.now r.alloc p.srcPort p.srcAddr p.dstAddr p.dstPort
          r.verdict.proxyConfigId
        bitmaps := s.bitmaps.portSetDecided p.srcPort })

/-- The packets that are queued untouched without asking the rules. -/
def unasked : Bool :=
  f.fin || f.rst || F.unroutable p.dstAddr || (!g.hasActiveRules && !g.connectionCallback)

/-- An outbound TCP packet from end to end. -/
def outbound : Disposition α × Core :=
  if F.exempt g p then (.pass, s)
  else
    let (direct, s) := F.enter g s p f
    if direct then (.pass, s)
    else if p.srcPort == g.localRelayPort then F.relayResponse r s p f
    else if s.tables.isConnectionTracked p.srcPort false F.isIpv6 then F.tracked g r s p f
    else if F.unasked g p f then (.pass, s)
    else F.judge g r s p

end TcpFamily

/-- One outbound packet with everything its classification reads. -/
structure TcpInput (α : Type) where
  settings : Settings
  readings : Readings
  packet : Packet α
  flags : TcpFlags

def TcpFamily.process {α : Type} (F : TcpFamily α) (s : Core) (i : TcpInput α) : Disposition α × Core :=
  F.outbound i.settings i.readings s i.packet i.flags

end ProxyBridge.Windows
