import ProxyBridge.Windows.PortBitmap
import ProxyBridge.Windows.ProxyConfig
import ProxyBridge.Windows.UdpDirect

/-! What one iteration of `packet_processor` reads and writes: the headers it inspects, the
settings, the rule verdict and the state that it shares with the other threads. -/
namespace ProxyBridge.Windows

/-- The addresses, ports and direction of a captured packet, for either IP family. -/
structure Packet (α : Type) where
  srcAddr : α
  dstAddr : α
  srcPort : UInt16
  dstPort : UInt16
  outbound : Bool
  deriving DecidableEq

structure TcpFlags where
  syn : Bool
  ack : Bool
  fin : Bool
  rst : Bool
  deriving DecidableEq

/-- A packet is dropped, queued as it came, or queued with new headers and checksums. -/
inductive Disposition (α : Type) where
  | drop
  | pass
  | modified (packet : Packet α)
  deriving DecidableEq

structure Settings where
  localRelayPort : UInt16
  hasActiveRules : Bool
  connectionCallback : Bool
  localhostViaProxy : Bool
  configs : List ProxyConfig

/-- What `check_process_rule` returns, with the owner it resolved. -/
structure Verdict where
  action : RuleAction
  pid : UInt32
  proxyConfigId : UInt32

/-- What the system and the rules answer while one packet is classified. -/
structure Readings where
  now : UInt64
  generation : UInt32
  alloc : Option Addr
  verdict : Verdict

structure Core where
  tables : Tables
  bitmaps : PortBitmaps
  udpDirect : UdpDirectTable

def Core.init : Core := ⟨.empty, .zeroed, fun _ => .zeroed⟩

/-- Addresses are in network byte order, so the first octet is the low byte. -/
def firstOctet (ip : UInt32) : UInt32 := ip &&& 0xFF

def isBroadcastOrMulticast (ip : UInt32) : Bool :=
  let first := firstOctet ip
  let second := (ip >>> 8) &&& 0xFF
  (first == 169 && second == 254) || ip == 0xFFFFFFFF || (ip &&& 0xFF000000) == 0xFF000000 ||
    (decide (first ≥ 224) && decide (first ≤ 239))

def isIpv6MulticastOrLinklocal (ip6 : Ip6) : Bool :=
  ip6[0] == 0xFF || (ip6[0] == 0xFE && (ip6[1] &&& 0xC0) == 0x80) ||
    (ip6[0] == 0xFE && (ip6[1] &&& 0xC0) == 0xC0) || ip6 == Ip6.zero

/-- `::1`. -/
def Ip6.loopback : Ip6 := Vector.ofFn (fun i : Fin 16 => if i.val = 15 then 1 else 0)

/-- `::1` or `::ffff:127.x.x.x`. -/
def isLoopback6 (ip6 : Ip6) : Bool :=
  ip6 == Ip6.loopback ||
    (ip6.toList.take 12 == [0, 0, 0, 0, 0, 0, 0, 0, 0, 0, 0xFF, 0xFF] && ip6[12] == 127)

def Packet.swapInbound {α : Type} (p : Packet α) : Packet α :=
  { p with srcAddr := p.dstAddr, dstAddr := p.srcAddr, outbound := false }

end ProxyBridge.Windows
