import ProxyBridge.Windows.Types

/-! The connection tables of `pb_conntrack.c`: a forward table chained by source port and a
reverse index chained by original destination, threaded through the same heap nodes. Clock
readings, the generation and the address `calloc` returns are inputs of each operation. -/
namespace ProxyBridge.Windows
open IntrusiveChains

abbrev Addr := Nat

/-- `fwd` holds `connection_hash_table` and the `next` fields, `rev` holds
`connection_rev_table` and the `rev_next` fields, `live` the nodes that are allocated. -/
structure Tables where
  live : Finset Addr
  node : Addr → ConnectionInfo
  fwd : Links Bucket Addr
  rev : Links Bucket Addr

namespace Tables

def empty : Tables := ⟨∅, fun _ => .zeroed, .empty, .empty⟩

def modify (t : Tables) (a : Addr) (f : ConnectionInfo → ConnectionInfo) : Tables :=
  { t with node := Function.update t.node a (f (t.node a)) }

def free (t : Tables) (a : Addr) : Tables := { t with live := t.live.erase a }

def calloc (t : Tables) (a : Addr) : Tables :=
  { t with live := insert a t.live, node := Function.update t.node a .zeroed }

end Tables

/-- A hash reduced to an index of the tables. -/
def toBucket (h : Nat) : Bucket := ⟨h % connectionHashSize, Nat.mod_lt h (by decide)⟩

def revHashV4 (destIp : UInt32) (destPort : UInt16) : Bucket :=
  let h := destIp * 2654435761 ^^^ destPort.toUInt32 * 40503
  toBucket h.toNat

def revHashV6 (destIp6 : Ip6) (destPort : UInt16) : Bucket :=
  let h := destIp6.toList.foldl (fun h b => h * 31 + b.toUInt32) (destPort.toUInt32 * 40503)
  toBucket h.toNat

/-- The reverse bucket of an entry's current original destination. -/
def ConnectionInfo.revHash (c : ConnectionInfo) : Bucket :=
  if c.isIpv6 then revHashV6 c.origDestIp6 c.origDestPort else revHashV4 c.origDestIp c.origDestPort

def bucketOf (srcPort : UInt16) : Bucket := toBucket srcPort.toNat

namespace Tables

def revInsert (t : Tables) (c : Addr) : Tables :=
  let b := (t.node c).revHash
  let t := t.modify c (fun e => { e with revBucket := b })
  let t := { t with rev := t.rev.push b c }
  t.modify c (fun e => { e with inRev := true })

def revUnlink (t : Tables) (c : Addr) : Tables :=
  if (t.node c).inRev then
    let pp := t.rev.seek (· == c) t.live.card (.bucket (t.node c).revBucket)
    let t := { t with rev := t.rev.unlink pp }
    let t := t.modify c (fun e => { e with inRev := false })
    { t with rev := t.rev.write (.field c) none }
  else t

/-- Walk the chain of `port` for an entry with this port, protocol and family. -/
def lookup (t : Tables) (port : UInt16) (isUdp isIpv6 : Bool) : Option Addr :=
  t.fwd.search (fun a => (t.node a).srcPort == port && (t.node a).isUdp == isUdp &&
    (t.node a).isIpv6 == isIpv6) t.live.card (t.fwd.head (bucketOf port))

/-- The shape shared by `add_connection` and `add_connection_v6`: re-key the entry of the flow
in place, or allocate one and link it in front of its bucket. -/
def upsert (t : Tables) (alloc : Option Addr) (k : FlowKey)
    (rekey fresh : ConnectionInfo → ConnectionInfo) : Tables :=
  match t.lookup k.srcPort k.isUdp k.isIpv6 with
  | some existing => ((t.revUnlink existing).modify existing rekey).revInsert existing
  | none =>
    match alloc with
    | none => t
    | some conn =>
      let t := (t.calloc conn).modify conn fresh
      let t := { t with fwd := t.fwd.push (bucketOf k.srcPort) conn }
      t.revInsert conn

def addConnection (t : Tables) (generation : UInt32) (now : UInt64) (alloc : Option Addr)
    (srcPort : UInt16) (isUdp : Bool) (srcIp destIp : UInt32) (destPort : UInt16)
    (proxyConfigId : UInt32) : Tables :=
  t.upsert alloc ⟨srcPort, isUdp, false⟩
    (fun e => { e with
      isIpv6 := false, srcIp := srcIp, origDestIp := destIp, origDestPort := destPort,
      proxyConfigId := proxyConfigId, isTracked := true, finFlags := 0,
      policyGeneration := generation, lastActivity := now })
    (fun e => { e with
      srcPort := srcPort, isUdp := isUdp, srcIp := srcIp, origDestIp := destIp,
      origDestPort := destPort, proxyConfigId := proxyConfigId, isTracked := true,
      policyGeneration := generation, isIpv6 := false, lastActivity := now })

def addConnectionV6 (t : Tables) (generation : UInt32) (now : UInt64) (alloc : Option Addr)
    (srcPort : UInt16) (isUdp : Bool) (srcIp6 destIp6 : Ip6) (destPort : UInt16)
    (proxyConfigId : UInt32) : Tables :=
  t.upsert alloc ⟨srcPort, isUdp, true⟩
    (fun e => { e with
      isIpv6 := true, srcIp6 := srcIp6, origDestIp6 := destIp6, origDestPort := destPort,
      proxyConfigId := proxyConfigId, isTracked := true, finFlags := 0,
      policyGeneration := generation, lastActivity := now })
    (fun e => { e with
      srcPort := srcPort, isUdp := isUdp, srcIp := 0, origDestIp := 0, isIpv6 := true,
      srcIp6 := srcIp6, origDestIp6 := destIp6, origDestPort := destPort,
      proxyConfigId := proxyConfigId, isTracked := true, policyGeneration := generation,
      lastActivity := now })

/-- Set `last_activity` of the entry a lookup found. -/
def touch (t : Tables) (now : UInt64) (found : Option Addr) : Tables :=
  match found with
  | none => t
  | some a => t.modify a (fun e => { e with lastActivity := now })

def getConnectionFullV6 (t : Tables) (now : UInt64) (srcPort : UInt16) (isUdp : Bool) :
    Option (Ip6 × UInt16 × UInt32) × Tables :=
  let found := t.lookup srcPort isUdp true
  (found.map (fun a => ((t.node a).origDestIp6, (t.node a).origDestPort, (t.node a).proxyConfigId)),
    t.touch now found)

def isConnectionTracked (t : Tables) (srcPort : UInt16) (isUdp isIpv6 : Bool) : Bool :=
  (t.fwd.search (fun a => (t.node a).srcPort == srcPort && (t.node a).isUdp == isUdp &&
    (t.node a).isIpv6 == isIpv6 && (t.node a).isTracked) t.live.card
    (t.fwd.head (bucketOf srcPort))).isSome

def getConnection (t : Tables) (now : UInt64) (srcPort : UInt16) (isUdp : Bool) :
    Option (UInt32 × UInt16) × Tables :=
  let found := t.lookup srcPort isUdp false
  (found.map (fun a => ((t.node a).origDestIp, (t.node a).origDestPort)), t.touch now found)

def getConnectionFull (t : Tables) (now : UInt64) (srcPort : UInt16) (isUdp : Bool) :
    Option (UInt32 × UInt16 × UInt32) × Tables :=
  let found := t.lookup srcPort isUdp false
  (found.map (fun a => ((t.node a).origDestIp, (t.node a).origDestPort, (t.node a).proxyConfigId)),
    t.touch now found)

/-- Zero, the identifier of no configuration, when the flow is not tracked. -/
def getConnectionProxyId (t : Tables) (srcPort : UInt16) (isUdp : Bool) : UInt32 :=
  match t.lookup srcPort isUdp false with
  | some a => (t.node a).proxyConfigId
  | none => 0

/-- Unlink the node at a forward cursor from both tables and free it. -/
def removeAt (t : Tables) (cursor : Cursor Bucket Addr) (c : Addr) : Tables :=
  let t := { t with fwd := t.fwd.unlink cursor }
  (t.revUnlink c).free c

/-- The link of the first entry with this port, protocol and family. -/
def cursorOf (t : Tables) (port : UInt16) (isUdp isIpv6 : Bool) : Cursor Bucket Addr :=
  t.fwd.seek (fun a => (t.node a).srcPort == port && (t.node a).isUdp == isUdp &&
    (t.node a).isIpv6 == isIpv6) t.live.card (.bucket (bucketOf port))

def removeConnection (t : Tables) (srcPort : UInt16) (isUdp isIpv6 : Bool) : Tables :=
  let connPtr := t.cursorOf srcPort isUdp isIpv6
  match t.fwd.read connPtr with
  | none => t
  | some toFree => t.removeAt connPtr toFree

def connectionFin (t : Tables) (now : UInt64) (srcPort : UInt16) (isIpv6 : Bool) (bit : UInt8) :
    Tables :=
  match t.lookup srcPort false isIpv6 with
  | none => t
  | some c => t.modify c (fun e => { e with finFlags := e.finFlags ||| bit, lastActivity := now })

def udpFlowStamp (t : Tables) (port : UInt16) (ipv6 : Bool) (generation : UInt32) : Tables :=
  match t.lookup port true ipv6 with
  | none => t
  | some c => t.modify c (fun e => { e with policyGeneration := generation })

end Tables

/-- The acceptance test of `udp_flow_validate`: same endpoints, the current generation and at
most twenty seconds of silence. A `now` sampled before `last_activity` counts as fresh. -/
def ConnectionInfo.udpValid (c : ConnectionInfo) (generation : UInt32) (now : UInt64) (ipv6 : Bool)
    (source destination : UInt32) (source6 destination6 : Ip6) (destinationPort : UInt16) : Bool :=
  let same := c.origDestPort == destinationPort &&
    (if ipv6 then c.srcIp6 == source6 && c.origDestIp6 == destination6
     else c.srcIp == source && c.origDestIp == destination)
  same && c.policyGeneration == generation &&
    (decide (now ≤ c.lastActivity) || decide (now - c.lastActivity ≤ 20000))

namespace Tables

def udpFlowValidate (t : Tables) (generation : UInt32) (now : UInt64) (port : UInt16) (ipv6 : Bool)
    (source : UInt32) (source6 : Ip6) (destination : UInt32) (destination6 : Ip6)
    (destinationPort : UInt16) : Bool × Tables :=
  let cursor := t.cursorOf port true ipv6
  match t.fwd.read cursor with
  | none => (false, t)
  | some c =>
    if (t.node c).udpValid generation now ipv6 source destination source6 destination6 destinationPort
    then (true, t.modify c (fun e => { e with lastActivity := now }))
    else (false, t.removeAt cursor c)

end Tables

/-- How long an entry may stay silent before a cleanup pass unlinks it. -/
def ConnectionInfo.staleTimeout (c : ConnectionInfo) : UInt64 :=
  if c.finFlags == 3 then 60000 else connectionStaleTimeoutMs

/-- The unsigned age test of `cleanup_stale_connections` against the sampled clock. -/
def ConnectionInfo.isStale (now : UInt64) (c : ConnectionInfo) : Bool :=
  decide (now - c.lastActivity > c.staleTimeout)

namespace Tables

/-- The locked section of one bucket: unlink each stale entry, else advance the cursor. -/
def sweepFrom (now : UInt64) : Nat → Cursor Bucket Addr → Tables → Tables
  | 0, _, t => t
  | fuel+1, connPtr, t =>
    match t.fwd.read connPtr with
    | none => t
    | some a =>
      if (t.node a).isStale now then sweepFrom now fuel connPtr (t.removeAt connPtr a)
      else sweepFrom now fuel (.field a) t

def sweepBucket (now : UInt64) (t : Tables) (i : Bucket) : Tables :=
  sweepFrom now t.live.card (.bucket i) t

/-- A complete pass over the connection table. -/
def cleanupStaleConnections (t : Tables) (now : UInt64) : Tables :=
  (List.finRange connectionHashSize).foldl (sweepBucket now) t

/-- Free every node of a bucket through the forward chain alone. -/
def clearBucket : Nat → Tables → Bucket → Tables
  | 0, t, _ => t
  | fuel+1, t, i =>
    match t.fwd.head i with
    | none => t
    | some toFree =>
      let t := { t with fwd := t.fwd.unlink (.bucket i) }
      clearBucket fuel (t.free toFree) i

def clearBuckets (is : List Bucket) (t : Tables) : Tables :=
  is.foldl (fun t i => clearBucket t.live.card t i) t

/-- The `memset` of `connection_rev_table`. -/
def zeroReverse (t : Tables) : Tables := { t with rev := { t.rev with head := fun _ => none } }

/-- The clearing in `ProxyBridge_Stop`: the reverse heads are zeroed, not walked. -/
def clearAll (t : Tables) : Tables := (clearBuckets (List.finRange connectionHashSize) t).zeroReverse

/-- The most recently active UDP entry among the nodes of a reverse chain that match. -/
def newest (t : Tables) (wanted : ConnectionInfo → Bool) : Nat → Option Addr → Option Addr → Option Addr
  | 0, _, best => best
  | _+1, none, best => best
  | fuel+1, some a, best =>
    let better := match best with
      | none => true
      | some b => decide ((t.node a).lastActivity > (t.node b).lastActivity)
    let best := if wanted (t.node a) && better then some a else best
    t.newest wanted fuel (t.rev.next a) best

/-- The reverse lookup inlined in `udp_relay_server`; the winner's activity is refreshed. -/
def findV4UdpSender (t : Tables) (now : UInt64) (origDestIp : UInt32) (origDestPort : UInt16) :
    Option (UInt32 × UInt16) × Tables :=
  let winner := t.newest (fun c => c.isUdp && !c.isIpv6 && c.origDestIp == origDestIp &&
    c.origDestPort == origDestPort) t.live.card (t.rev.head (revHashV4 origDestIp origDestPort)) none
  (winner.map (fun a => ((t.node a).srcIp, (t.node a).srcPort)), t.touch now winner)

def findV6UdpSender (t : Tables) (origDestIp6 : Ip6) (origDestPort : UInt16) :
    Option (Ip6 × UInt16) :=
  (t.newest (fun c => c.isUdp && c.isIpv6 && c.origDestPort == origDestPort &&
    c.origDestIp6 == origDestIp6) t.live.card (t.rev.head (revHashV6 origDestIp6 origDestPort)) none).map
    (fun a => ((t.node a).srcIp6, (t.node a).srcPort))

end Tables
end ProxyBridge.Windows
