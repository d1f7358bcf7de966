import ProxyBridge.Windows.PacketBatch
import ProxyBridge.Windows.TcpPackets
import ProxyBridge.Windows.UdpPackets

/-! The loop of `packet_processor` over a received batch, with the queue call of each of its exits.
What the exits depend on is in `TcpFamily` and `UdpFamily`. -/
namespace ProxyBridge.Windows

/-- What `WinDivertHelperParsePacket` finds: the offsets of the headers that are there, the offset of
the next packet, if there is one, and how many bytes there are from it on. -/
structure ParsedPacket where
  ipHeader : Option Nat
  ipv6Header : Option Nat
  tcpHeader : Option Nat
  udpHeader : Option Nat
  nextPacket : Option Nat
  nextLen : UInt32
  deriving DecidableEq

/-- The two helpers of the driver's library. Checksums are written into the headers. -/
structure DivertHelpers where
  parsePacket : List UInt8 → Option ParsedPacket
  calcChecksums : List UInt8 → PacketAddress → List UInt8 × PacketAddress
  calcChecksums_length : ∀ packet addr, (calcChecksums packet addr).1.length = packet.length

/-- Where the addresses are in the IP header of a family. -/
structure HeaderLayout (α : Type) where
  size : Nat
  srcAddr : Nat
  dstAddr : Nat
  width : Nat
  read : List UInt8 → Nat → α
  bytes : α → List UInt8
  bytes_length : ∀ a, (bytes a).length = width
  srcAddr_fits : srcAddr + width ≤ size
  dstAddr_fits : dstAddr + width ≤ size

/-- `WINDIVERT_IPHDR`. -/
def ipv4Layout : HeaderLayout UInt32 where
  size := 20
  srcAddr := 12
  dstAddr := 16
  width := 4
  read packet i := (packet.getD i 0).toUInt32 ||| (packet.getD (i + 1) 0).toUInt32 <<< 8 |||
    (packet.getD (i + 2) 0).toUInt32 <<< 16 ||| (packet.getD (i + 3) 0).toUInt32 <<< 24
  bytes ip := (IpAddr.v4 ip).bytes
  bytes_length _ := rfl
  srcAddr_fits := by decide
  dstAddr_fits := by decide

/-- `WINDIVERT_IPV6HDR`. -/
def ipv6Layout : HeaderLayout Ip6 where
  size := 40
  srcAddr := 8
  dstAddr := 24
  width := 16
  read packet i := Vector.ofFn (fun k : Fin 16 => packet.getD (i + k) 0)
  bytes ip6 := (IpAddr.v6 ip6).bytes
  bytes_length ip6 := ip6.length_toList
  srcAddr_fits := by decide
  dstAddr_fits := by decide

/-- `ntohs` of the two bytes of a port. -/
def readHeaderPort (packet : List UInt8) (i : Nat) : UInt16 :=
  (packet.getD i 0).toUInt16 <<< 8 ||| (packet.getD (i + 1) 0).toUInt16

def headerPortBytes (port : UInt16) : List UInt8 := [(port >>> 8).toUInt8, port.toUInt8]

/-- The bits of `WINDIVERT_TCPHDR`. -/
def readTcpFlags (packet : List UInt8) (tcp : Nat) : TcpFlags :=
  let flags := packet.getD (tcp + 13) 0
  { syn := flags &&& 0x02 != 0, ack := flags &&& 0x10 != 0, fin := flags &&& 0x01 != 0, rst := flags &&& 0x04 != 0 }

namespace HeaderLayout
variable {α : Type} (L : HeaderLayout α)

/-- The fields that the branches look at. The ports are the first two fields of either transport. -/
def view (packet : List UInt8) (ip transport : Nat) (outbound : Bool) : Packet α where
  srcAddr := L.read packet (ip + L.srcAddr)
  dstAddr := L.read packet (ip + L.dstAddr)
  srcPort := readHeaderPort packet transport
  dstPort := readHeaderPort packet (transport + 2)
  outbound := outbound

/-- The packet with these fields written into its headers. -/
def store (packet : List UInt8) (ip transport : Nat) (p : Packet α) : List UInt8 :=
  let packet := copyTo packet (ip + L.srcAddr) (L.bytes p.srcAddr)
  let packet := copyTo packet (ip + L.dstAddr) (L.bytes p.dstAddr)
  let packet := copyTo packet transport (headerPortBytes p.srcPort)
  copyTo packet (transport + 2) (headerPortBytes p.dstPort)

end HeaderLayout

/-- What comes with one packet of a received batch: its address, what the settings, the rules and the
clock answer meanwhile, and what the other threads have done to the shared state before. -/
structure PacketTurn where
  addr : PacketAddress
  settings : Settings
  readings : Readings
  others : Core → Core

/-- The variables of the loop. `memory` is the receive buffer from `packet` on, and `results` is what
the queue calls returned. -/
structure PacketLoop where
  memory : List UInt8
  remaining : UInt32
  core : Core
  batch : PacketSendBatch
  results : List Bool

namespace PacketLoop

/-- The macro `WinDivertSend`. -/
def winDivertSend (s : PacketLoop) (packet : List UInt8) (packetLen : UInt32) (addr : PacketAddress) : PacketLoop :=
  let queued := queuePacketForSend s.batch packet packetLen addr
  { s with batch := queued.2, results := s.results ++ [queued.1] }

def withCore (s : PacketLoop) (core : Core) : PacketLoop := { s with core := core }

def withTables (s : PacketLoop) (tables : Tables) : PacketLoop := s.withCore { s.core with tables := tables }

end PacketLoop

/-- How a branch ends: with `continue`, or at the code below it with the packet as it is by then. -/
inductive Control where
  | next (s : PacketLoop)
  | tail (s : PacketLoop) (packet : List UInt8) (addr : PacketAddress)

/-- A parsed packet with the headers that its branch uses. -/
structure CapturedPacket where
  packet : List UInt8
  packetLen : UInt32
  addr : PacketAddress
  ip : Nat
  transport : Nat
  settings : Settings
  readings : Readings

namespace CapturedPacket
variable {α : Type} (L : HeaderLayout α) (c : CapturedPacket) (s : PacketLoop)

def view : Packet α := L.view c.packet c.ip c.transport c.addr.outbound

/-- `WinDivertSend(windivert_handle, packet, packet_len, NULL, &addr); continue;` -/
def pass : Control := .next (s.winDivertSend c.packet c.packetLen c.addr)

/-- The headers are written and the code below computes the checksums. -/
def rewrite (p : Packet α) : Control :=
  .tail s (L.store c.packet c.ip c.transport p) { c.addr with outbound := p.outbound }

end CapturedPacket

namespace UdpFamily
variable {α : Type} (F : UdpFamily α) (L : HeaderLayout α) (c : CapturedPacket) (s : PacketLoop)

/-- From `check_process_rule` on. -/
def judgeExits : Control :=
  let g := c.settings
  let r := c.readings
  let p := c.view L
  match F.finalAction g r p with
  | .block => .next s
  | .proxy =>
    if F.carries g r.verdict.proxyConfigId then
      let tables := F.add s.core.tables r.generation r.now r.alloc p.srcPort p.srcAddr p.dstAddr p.dstPort
        r.verdict.proxyConfigId
      c.rewrite L (s.withTables (tables.udpFlowStamp p.srcPort F.isIpv6 r.generation)) (F.toRelay p)
    else .next s
  | .direct =>
    if r.verdict.pid != 0 then
      c.pass (s.withCore { s.core with
        udpDirect := udpDirectRemember s.core.udpDirect r.now (F.toAddr p.srcAddr) p.srcPort (F.toAddr p.dstAddr)
          p.dstPort r.generation })
    else c.pass s

def outboundExits : Control :=
  let g := c.settings
  let r := c.readings
  let p := c.view L
  if p.srcPort == localUdpRelayPort then
    let found := F.restore s.core.tables r.now p.dstPort
    let s := s.withTables found.2
    match F.respond p found.1 with
    | .response q => c.rewrite L s q
    | .drop | .pass | .validated _ | .proxied _ => .next s
  else if F.exempt g p || udpDirectCached s.core.udpDirect r.generation r.now (F.toAddr p.srcAddr) p.srcPort
      (F.toAddr p.dstAddr) p.dstPort then c.pass s
  else
    let v := F.validate s.core.tables r.generation r.now p.srcPort p.srcAddr p.dstAddr p.dstPort
    let s := s.withTables v.2
    if v.1 then c.rewrite L s (F.toRelay p)
    else if F.unroutable p.dstAddr then c.pass s
    else if !g.hasActiveRules && !g.connectionCallback then c.pass s
    else F.judgeExits L c s

/-- Responses of a DNS server are also read for the domain cache on their way. -/
def exits : Control :=
  if c.addr.outbound then F.outboundExits L c s
  else if (c.view L).dstPort ≠ localUdpRelayPort then c.pass s
  else .tail s c.packet c.addr

end UdpFamily

namespace TcpFamily
variable {α : Type} (F : TcpFamily α) (L : HeaderLayout α) (c : CapturedPacket) (s : PacketLoop)

def judgeExits : Control :=
  let g := c.settings
  let r := c.readings
  let p := c.view L
  match F.finalAction g r p with
  | .direct =>
    if r.verdict.pid != 0 then
      c.pass (s.withCore { s.core with bitmaps := s.core.bitmaps.portSetDirect p.srcPort })
    else c.pass s
  | .block => .next (s.withCore { s.core with bitmaps := s.core.bitmaps.portSetDecided p.srcPort })
  | .proxy =>
    c.rewrite L (s.withCore { s.core with
      tables := F.add s.core.tables r.generation r.now r.alloc p.srcPort p.srcAddr p.dstAddr p.dstPort
        r.verdict.proxyConfigId
      bitmaps := s.core.bitmaps.portSetDecided p.srcPort }) (F.toRelay g p)

def outboundExits : Control :=
  let g := c.settings
  let r := c.readings
  let p := c.view L
  let f := readTcpFlags c.packet c.transport
  if F.exempt g p then c.pass s
  else
    let entered := F.enter g s.core p f
    let s := s.withCore entered.2
    if entered.1 then c.pass s
    else if p.srcPort == g.localRelayPort then
      let found := F.restore s.core.tables r.now p.dstPort
      let q := F.reroute { p with srcPort := found.1.getD p.srcPort }
      if f.rst then c.rewrite L (s.withTables (found.2.removeConnection p.dstPort false F.isIpv6)) q
      else if f.fin then c.rewrite L (s.withTables (found.2.connectionFin r.now p.dstPort F.isIpv6 2)) q
      else c.rewrite L (s.withTables found.2) q
    else if s.core.tables.isConnectionTracked p.srcPort false F.isIpv6 then
      if f.rst then
        c.rewrite L (s.withCore { s.core with
          tables := s.core.tables.removeConnection p.srcPort false F.isIpv6
          bitmaps := s.core.bitmaps.portClear p.srcPort }) (F.toRelay g p)
      else if f.fin then
        c.rewrite L (s.withTables (s.core.tables.connectionFin r.now p.srcPort F.isIpv6 1)) (F.toRelay g p)
      else c.rewrite L s (F.toRelay g p)
    else if f.fin || f.rst then c.pass s
    else if F.unroutable p.dstAddr then c.pass s
    else if !g.hasActiveRules && !g.connectionCallback then c.pass s
    else F.judgeExits L c s

def exits : Control :=
  if c.addr.outbound then F.outboundExits L c s
  else if (c.view L).dstPort ≠ c.settings.localRelayPort then c.pass s
  else .tail s c.packet c.addr

end TcpFamily

namespace DivertHelpers
variable (W : DivertHelpers)

/-- The code below the branches: `WinDivertHelperCalcChecksums` and `WinDivertSend`. -/
def finish (packetLen : UInt32) : Control → PacketLoop
  | .next s => s
  | .tail s packet addr =>
    let sums := W.calcChecksums packet addr
    s.winDivertSend sums.1 packetLen sums.2

/-- The body of the loop behind the parser. -/
def packetBody (t : PacketTurn) (h : ParsedPacket) (packet : List UInt8) (packetLen : UInt32) (s : PacketLoop) :
    PacketLoop :=
  let captured (ip transport : Nat) : CapturedPacket :=
    ⟨packet, packetLen, t.addr, ip, transport, t.settings, t.readings⟩
  match h.ipHeader with
  | none =>
    match h.ipv6Header with
    | none => s
    | some ip6 =>
      match h.tcpHeader with
      | none =>
        match h.udpHeader with
        | some udp => W.finish packetLen (udpV6.exits ipv6Layout (captured ip6 udp) s)
        | none => s.winDivertSend packet packetLen t.addr
      | some tcp => W.finish packetLen (tcpV6.exits ipv6Layout (captured ip6 tcp) s)
  | some ip =>
    match h.tcpHeader with
    | none =>
      match h.udpHeader with
      | some udp => W.finish packetLen (udpV4.exits ipv4Layout (captured ip udp) s)
      | none => s
    | some tcp => W.finish packetLen (tcpV4.exits ipv4Layout (captured ip tcp) s)

/-- One turn of the loop. Behind a packet that cannot be parsed there is nothing left. -/
def iterate (t : PacketTurn) (s : PacketLoop) : PacketLoop :=
  let s := s.withCore (t.others s.core)
  match W.parsePacket (s.memory.take s.remaining.toNat) with
  | none => { s with memory := [], remaining := 0 }
  | some h =>
    let packetLen := s.remaining - h.nextLen
    { W.packetBody t h (s.memory.take packetLen.toNat) packetLen s with
      memory := h.nextPacket.elim [] (fun i => s.memory.drop i)
      remaining := h.nextLen }

/-- A turn for each address of the received batch. -/
def packetLoop : List PacketTurn → PacketLoop → PacketLoop
  | [], s => s
  | t :: turns, s => if s.remaining > 0 then packetLoop turns (W.iterate t s) else s

end DivertHelpers

/-! The exits against the outcomes that the branches have in the models of the two protocols. -/

namespace CapturedPacket
variable {α : Type} (L : HeaderLayout α) (c : CapturedPacket) (s : PacketLoop)

def udpControl : UdpOutcome α → Control
  | .drop => .next s
  | .pass => c.pass s
  | .validated p | .proxied p | .response p => c.rewrite L s p

def tcpControl : Disposition α → Control
  | .drop => .next s
  | .pass => c.pass s
  | .modified p => c.rewrite L s p

end CapturedPacket

section Outcomes
variable {α : Type} (L : HeaderLayout α) (c : CapturedPacket) (s : PacketLoop)

private theorem udp_judgeExits_eq (F : UdpFamily α) : F.judgeExits L c s =
    c.udpControl L (s.withCore (F.judge c.settings c.readings s.core (c.view L)).2)
      (F.judge c.settings c.readings s.core (c.view L)).1 := by
  simp only [UdpFamily.judgeExits, UdpFamily.judge]
  cases F.finalAction c.settings c.readings (c.view L) with
  | block => rfl
  | proxy =>
    by_cases hcarries : F.carries c.settings c.readings.verdict.proxyConfigId = true
    · simp only [hcarries, if_true]
      rfl
    · simp only [hcarries]
      rfl
  | direct =>
    by_cases hpid : (c.readings.verdict.pid != 0) = true
    · simp only [hpid, if_true]
      rfl
    · simp only [hpid]
      rfl

/-- An outbound datagram leaves its branch as its outcome says. -/
theorem UdpFamily.outboundExits_eq (F : UdpFamily α)
    (hrespond : ∀ p found, F.respond p found = .drop ∨ ∃ q, F.respond p found = .response q) :
    F.outboundExits L c s =
      c.udpControl L (s.withCore (F.outbound c.settings c.readings s.core (c.view L)).2)
        (F.outbound c.settings c.readings s.core (c.view L)).1 := by
  rw [outboundExits, outbound]
  by_cases hrelay : ((c.view L).srcPort == localUdpRelayPort) = true
  · rw [if_pos hrelay, if_pos hrelay, relayResponse]
    rcases hrespond (c.view L) (F.restore s.core.tables c.readings.now (c.view L).dstPort).1 with h | ⟨q, h⟩
    · simp only [h]
      rfl
    · simp only [h]
      rfl
  rw [if_neg hrelay, if_neg hrelay, datagram, passes]
  by_cases hpass : (F.exempt c.settings (c.view L) || udpDirectCached s.core.udpDirect c.readings.generation
      c.readings.now (F.toAddr (c.view L).srcAddr) (c.view L).srcPort (F.toAddr (c.view L).dstAddr)
      (c.view L).dstPort) = true
  · rw [if_pos hpass, if_pos hpass]
    rfl
  rw [if_neg hpass, if_neg hpass]
  generalize F.validate s.core.tables c.readings.generation c.readings.now (c.view L).srcPort (c.view L).srcAddr
    (c.view L).dstAddr (c.view L).dstPort = v
  by_cases hvalid : v.1 = true
  · simp only [hvalid, if_true]
    rfl
  by_cases hunroutable : F.unroutable (c.view L).dstAddr = true
  · simp only [hvalid, unasked, hunroutable, Bool.true_or, if_true]
    rfl
  by_cases hrules : (!c.settings.hasActiveRules && !c.settings.connectionCallback) = true
  · simp only [hvalid, unasked, hunroutable, hrules, Bool.or_true, if_true]
    rfl
  · simp only [hvalid, unasked, hunroutable, hrules]
    exact udp_judgeExits_eq L c (s.withTables v.2) F

private theorem tcp_judgeExits_eq (F : TcpFamily α) : F.judgeExits L c s =
    c.tcpControl L (s.withCore (F.judge c.settings c.readings s.core (c.view L)).2)
      (F.judge c.settings c.readings s.core (c.view L)).1 := by
  simp only [TcpFamily.judgeExits, TcpFamily.judge]
  cases F.finalAction c.settings c.readings (c.view L) with
  | block => rfl
  | proxy => rfl
  | direct =>
    by_cases hpid : (c.readings.verdict.pid != 0) = true
    · simp only [hpid, if_true]
      rfl
    · simp only [hpid]
      rfl

/-- An outbound TCP packet leaves its branch as its disposition says. -/
theorem TcpFamily.outboundExits_eq (F : TcpFamily α) (f : TcpFlags) (hf : readTcpFlags c.packet c.transport = f) :
    F.outboundExits L c s =
      c.tcpControl L (s.withCore (F.outbound c.settings c.readings s.core (c.view L) f).2)
        (F.outbound c.settings c.readings s.core (c.view L) f).1 := by
  simp only [outboundExits, outbound, hf]
  by_cases hexempt : F.exempt c.settings (c.view L) = true
  · simp only [hexempt, if_true]
    rfl
  generalize F.enter c.settings s.core (c.view L) f = entered
  obtain ⟨direct, core⟩ := entered
  simp only [hexempt]
  cases direct with
  | true => rfl
  | false =>
    by_cases hrelay : ((c.view L).srcPort == c.settings.localRelayPort) = true
    · simp only [hrelay, if_true, relayResponse]
      by_cases hrst : f.rst = true
      · simp only [hrst, if_true]
        rfl
      by_cases hfin : f.fin = true
      · simp only [hrst, hfin, if_true]
        rfl
      · simp only [hrst, hfin]
        rfl
    have hcore : (s.withCore core).core = core := rfl
    by_cases htracked : core.tables.isConnectionTracked (c.view L).srcPort false F.isIpv6 = true
    · simp only [hrelay, hcore, htracked, if_true, tracked]
      by_cases hrst : f.rst = true
      · simp only [hrst, if_true]
        rfl
      by_cases hfin : f.fin = true
      · simp only [hrst, hfin, if_true]
        rfl
      · simp only [hrst, hfin]
        rfl
    simp only [hrelay, hcore, htracked, unasked]
    by_cases hending : (f.fin || f.rst) = true
    · simp only [hending, Bool.true_or, if_true]
      rfl
    by_cases hunroutable : F.unroutable (c.view L).dstAddr = true
    · simp only [hending, hunroutable, Bool.or_true, Bool.true_or, if_true]
      rfl
    by_cases hrules : (!c.settings.hasActiveRules && !c.settings.connectionCallback) = true
    · simp only [hending, hunroutable, hrules, Bool.or_true, if_true]
      rfl
    · simp only [hending, hunroutable, hrules]
      exact tcp_judgeExits_eq L c (s.withCore core) F

end Outcomes

end ProxyBridge.Windows
