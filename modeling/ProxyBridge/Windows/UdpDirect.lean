import ProxyBridge.Windows.FlowMap

/-! The cache of DIRECT verdicts for UDP: a direct-mapped table that the packet thread owns. -/
namespace ProxyBridge.Windows

/-- The bytes of an address in memory order. -/
def IpAddr.bytes : IpAddr → List UInt8
  | .v4 ip => [ip.toUInt8, (ip >>> 8).toUInt8, (ip >>> 16).toUInt8, (ip >>> 24).toUInt8]
  | .v6 ip6 => ip6.toList

def IpAddr.isIpv6 : IpAddr → Bool
  | .v4 _ => false
  | .v6 _ => true

/-- `UDP_DIRECT_ENTRY`. Its `ipv6` flag is the constructor of the two addresses. -/
structure UdpDirectEntry where
  source : IpAddr
  destination : IpAddr
  sourcePort : UInt16
  destinationPort : UInt16
  generation : UInt32
  expires : UInt64

def UdpDirectEntry.zeroed : UdpDirectEntry := ⟨.v4 0, .v4 0, 0, 0, 0, 0⟩

abbrev UdpDirectTable := Fin 4096 → UdpDirectEntry

def udpDirectSlot (source : IpAddr) (sourcePort : UInt16) (destination : IpAddr) (destinationPort : UInt16) :
    Fin 4096 :=
  let hash := (sourcePort.toUInt32 <<< 16) ^^^ destinationPort.toUInt32 ^^^ source.isIpv6.toUInt32
  let hash := (source.bytes.zip destination.bytes).foldl
    (fun hash b => hash * 31 + b.1.toUInt32 + b.2.toUInt32) hash
  ⟨hash.toNat % 4096, Nat.mod_lt _ (by decide)⟩

def udpDirectCached (t : UdpDirectTable) (generation : UInt32) (now : UInt64) (source : IpAddr)
    (sourcePort : UInt16) (destination : IpAddr) (destinationPort : UInt16) : Bool :=
  let entry := t (udpDirectSlot source sourcePort destination destinationPort)
  decide (entry.expires > now) && entry.generation == generation && entry.sourcePort == sourcePort &&
    entry.destinationPort == destinationPort && entry.source == source && entry.destination == destination

def udpDirectRemember (t : UdpDirectTable) (now : UInt64) (source : IpAddr) (sourcePort : UInt16)
    (destination : IpAddr) (destinationPort : UInt16) (generation : UInt32) : UdpDirectTable :=
  Function.update t (udpDirectSlot source sourcePort destination destinationPort)
    ⟨source, destination, sourcePort, destinationPort, generation, now + 5000⟩

end ProxyBridge.Windows
