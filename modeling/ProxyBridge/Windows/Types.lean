import Mathlib.Data.Finset.Basic
import ProxyBridge.Library.IntrusiveChains

/-! Records and constants of `pb_internal.h` and `ProxyBridge.h`. Addresses are kept in the
network byte order of the packet headers: the first octet of an IPv4 address is its low byte. -/
namespace ProxyBridge.Windows

abbrev Ip6 := Vector UInt8 16

abbrev connectionHashSize : Nat := 4096

/-- An index into one of the two connection tables. -/
abbrev Bucket := Fin connectionHashSize

def localUdpRelayPort : UInt16 := 34011
def connectionStaleTimeoutMs : UInt64 := 1800000

inductive ProxyType where
  | http
  | socks5
  deriving DecidableEq, Repr

inductive RuleAction where
  | proxy
  | direct
  | block
  deriving DecidableEq, Repr

inductive RuleProtocol where
  | tcp
  | udp
  | both
  deriving DecidableEq, Repr

/-- A node of the connection tables. Its two link fields are kept by the tables themselves. -/
structure ConnectionInfo where
  srcPort : UInt16
  isUdp : Bool
  srcIp : UInt32
  origDestIp : UInt32
  origDestPort : UInt16
  isTracked : Bool
  finFlags : UInt8
  policyGeneration : UInt32
  lastActivity : UInt64
  proxyConfigId : UInt32
  isIpv6 : Bool
  srcIp6 : Ip6
  origDestIp6 : Ip6
  revBucket : Bucket
  inRev : Bool
  deriving DecidableEq

/-- The unspecified IPv6 address. -/
def Ip6.zero : Ip6 := Vector.replicate 16 0

/-- What `calloc` returns: every field zero. -/
def ConnectionInfo.zeroed : ConnectionInfo where
  srcPort := 0
  isUdp := false
  srcIp := 0
  origDestIp := 0
  origDestPort := 0
  isTracked := false
  finFlags := 0
  policyGeneration := 0
  lastActivity := 0
  proxyConfigId := 0
  isIpv6 := false
  srcIp6 := Ip6.zero
  origDestIp6 := Ip6.zero
  revBucket := 0
  inRev := false

/-- A flow is identified by its local port, protocol and IP family. -/
structure FlowKey where
  srcPort : UInt16
  isUdp : Bool
  isIpv6 : Bool
  deriving DecidableEq, Repr

def ConnectionInfo.key (c : ConnectionInfo) : FlowKey := ⟨c.srcPort, c.isUdp, c.isIpv6⟩

end ProxyBridge.Windows
