import ProxyBridge.Windows.PidCache
import ProxyBridge.Windows.PolicyRecords

/-! The owner events of WinDivert beside the policy calls and the packet thread. Closing an endpoint
invalidates the UDP verdicts and clears its port out of the table fallback cache, once for each UDP
event of the endpoint that the owner cache still holds. -/
namespace ProxyBridge.Windows
open Runs

/-- `addr.Layer`, of which `owner_event_processor` tells two. -/
inductive DivertLayer where
  | flow
  | socket
  | other (layer : UInt8)
  deriving DecidableEq

def DivertLayer.code : DivertLayer → UInt8
  | .flow => 2
  | .socket => 3
  | .other layer => layer

/-- `addr.Event`, of which `owner_event_processor` tells two. -/
inductive DivertEvent where
  | socketClose
  | flowDeleted
  | other
  deriving DecidableEq

/-- What is read of a `WINDIVERT_ADDRESS`, with the addresses in network order. -/
structure DivertAddress where
  layer : DivertLayer
  event : DivertEvent
  localAddr : Ip6
  localPort : UInt16
  remoteAddr : Ip6
  remotePort : UInt16
  protocol : UInt8
  processId : UInt32
  endpointId : UInt64

def ipprotoTcp : UInt8 := 6
def ipprotoUdp : UInt8 := 17

/-- The arguments of `cache_owner_event`. -/
structure OwnerEvent where
  localAddr : Ip6
  localPort : UInt16
  remoteAddr : Ip6
  remotePort : UInt16
  isUdp : Bool
  pid : UInt32
  endpointId : UInt64
  sourceLayer : UInt8

/-- The call that `owner_event_processor` makes of an event. -/
inductive OwnerCall where
  | skip
  | remove (endpointId : UInt64) (sourceLayer : UInt8)
  | cache (e : OwnerEvent)

def DivertAddress.call (addr : DivertAddress) : OwnerCall :=
  let process (deleted : Bool) : OwnerCall :=
    if deleted then .remove addr.endpointId addr.layer.code
    else if addr.protocol != ipprotoTcp && addr.protocol != ipprotoUdp then .skip
    else .cache ⟨addr.localAddr, addr.localPort, addr.remoteAddr, addr.remotePort, addr.protocol == ipprotoUdp,
      addr.processId, addr.endpointId, addr.layer.code⟩
  match addr.layer with
  | .socket => process (addr.event = .socketClose)
  | .flow => process (addr.event = .flowDeleted)
  | .other _ => .skip

/-- A UDP port that an event reported for an endpoint. -/
structure ReportedPort where
  endpointId : UInt64
  sourceLayer : UInt8
  port : UInt16
  deriving DecidableEq

def OwnerEvent.reports (e : OwnerEvent) : ReportedPort := ⟨e.endpointId, e.sourceLayer, e.localPort⟩

def OwnerCacheEntry.reports (o : OwnerCacheEntry) : ReportedPort := ⟨o.endpointId, o.sourceLayer, o.localPort⟩

/-- How often `remove_owner_event_endpoint` calls `invalidate_udp_decisions`. -/
def OwnerCaches.udpEvents (s : OwnerCaches) (endpointId : UInt64) (sourceLayer : UInt8) : Nat :=
  ownerBuckets.foldl (fun n i => n + (s.owners i).countP (fun o =>
    (o.endpointId == endpointId && o.sourceLayer == sourceLayer) && o.isUdp)) 0

def PolicySystem.invalidated (s : PolicySystem) (n : Nat) : PolicySystem :=
  { s with invalidations := s.invalidations + n }

/-- The calls that `owner_event_processor` makes. -/
def OwnerOp.isEvent : OwnerOp → Bool
  | .cacheOwnerEvent .. | .removeOwnerEventEndpoint .. => true
  | _ => false

/-- The policy system and the caches of `pb_process.c`. An event is stored in a step of its own,
since `cache_owner_event` invalidates before it takes the lock. The ports that UDP events have ever
reported are kept for the specification. -/
structure OwnerSystem where
  verdicts : PolicySystem
  caches : OwnerCaches
  storing : List OwnerEvent
  reported : List ReportedPort

inductive OwnerAction where
  | verdict (a : PolicyAction)
  | receive (addr : DivertAddress)
  | store (n : Nat) (now : UInt64) (allocated : Bool)
  | cache (op : OwnerOp)

/-- The endpoint whose SOCKET_CLOSE or FLOW_DELETED event the action processes. -/
def OwnerAction.closes : OwnerAction → Option (UInt64 × UInt8)
  | .receive addr =>
    match addr.call with
    | .remove endpointId sourceLayer => some (endpointId, sourceLayer)
    | _ => none
  | _ => none

namespace OwnerSystem

def init (policy : PolicyState) : OwnerSystem := ⟨.init policy, .empty, [], []⟩

variable (s : OwnerSystem)

/-- The part of `cache_owner_event` before its lock. -/
def announce (e : OwnerEvent) : OwnerSystem :=
  let reported := if e.isUdp then e.reports :: s.reported else s.reported
  if e.pid == 0 || e.localPort == 0 then { s with reported := reported }
  else { s with
    verdicts := if e.isUdp then s.verdicts.invalidated 1 else s.verdicts
    storing := s.storing ++ [e]
    reported := reported }

def close (endpointId : UInt64) (sourceLayer : UInt8) : OwnerSystem :=
  { s with
    verdicts := s.verdicts.invalidated (s.caches.udpEvents endpointId sourceLayer)
    caches := s.caches.removeOwnerEventEndpoint endpointId sourceLayer }

def receive (addr : DivertAddress) : OwnerSystem :=
  match addr.call with
  | .skip => s
  | .remove endpointId sourceLayer => s.close endpointId sourceLayer
  | .cache e => s.announce e

/-- The owner events come in through `receive` only; the other calls are made by lookups, by the
cleanup thread and when the service stops. -/
def step : OwnerAction → Option OwnerSystem
  | .verdict a => (s.verdicts.step a).map (fun v => { s with verdicts := v })
  | .receive addr => some (s.receive addr)
  | .store n now allocated =>
    match s.storing[n]? with
    | none => none
    | some e => some { s with
        caches := s.caches.cacheOwnerEvent now allocated e.localAddr e.localPort e.remoteAddr e.remotePort e.isUdp
          e.pid e.endpointId e.sourceLayer
        storing := s.storing.eraseIdx n }
  | .cache op =>
    if op.isEvent = false ∧ ∀ a ∈ op.alloc, a ∉ s.caches.pids.live then
      some { s with caches := s.caches.apply op }
    else none

/-- How often an action invalidates the recorded verdicts. -/
def bumps : OwnerAction → Nat
  | .verdict a => s.verdicts.bumps a
  | .receive addr =>
    match addr.call with
    | .skip => 0
    | .remove endpointId sourceLayer => s.caches.udpEvents endpointId sourceLayer
    | .cache e => if !(e.pid == 0 || e.localPort == 0) && e.isUdp then 1 else 0
  | .store .. | .cache _ => 0

end OwnerSystem
end ProxyBridge.Windows
