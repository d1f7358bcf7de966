import ProxyBridge.Library.Runs
import ProxyBridge.Windows.PolicyPrograms
import ProxyBridge.Windows.UdpFlows

/-! The policy calls of the API and the packet thread as one system. Any number of calls may be
under way; each is a sequence of atomic steps, and the packet thread reads the policy between them.
A verdict is recorded under the generation that was sampled before the policy was read. -/
namespace ProxyBridge.Windows
open Runs ReadPrograms

/-- One atomic step of a policy call. A change of the rule list is made under `g_rules_lock`; where
the call does not find its rule it returns at once. -/
inductive ApiStep where
  | changeRules (change : List ProcessRule → Option (List ProcessRule))
  | setToggle (t : Toggle) (value : Bool)
  | changeConfigs (change : List ProxyConfig → List ProxyConfig)
  | invalidate
  | recompute
  | storeActive
  | storeDomain

/-- `update_has_active_rules`: the flags are stored after the invalidation. -/
def updateHasActiveRules : List ApiStep := [.invalidate, .recompute, .storeActive, .storeDomain]

/-- The calls by what they do. `changeRule` stands for `AddRule`, `EnableRule`, `DisableRule`,
`DeleteRule` and `EditRule`, and `changeConfigs` for `AddProxyConfig`, `EditProxyConfig` and
`DeleteProxyConfig`, whose stores are not under a lock. -/
inductive ApiCall where
  | changeRule (change : List ProcessRule → Option (List ProcessRule))
  | moveRuleToPosition (change : List ProcessRule → Option (List ProcessRule))
  | setToggle (t : Toggle) (value : Bool)
  | changeConfigs (stores : List (List ProxyConfig → List ProxyConfig))
  | ownerEvent
  | start

def ApiCall.steps : ApiCall → List ApiStep
  | .changeRule change => .changeRules change :: updateHasActiveRules
  | .moveRuleToPosition change => [.changeRules change, .invalidate]
  | .setToggle t value => [.setToggle t value, .invalidate]
  | .changeConfigs stores => stores.map .changeConfigs ++ [.invalidate]
  | .ownerEvent => [.invalidate]
  | .start => .invalidate :: updateHasActiveRules

/-- A call under way, with the flags that it has computed and not yet stored. -/
structure RunningCall where
  todo : List ApiStep
  flags : Bool × Bool

namespace UdpPacket

def source : UdpPacket → IpAddr
  | .v4 p => .v4 p.srcAddr
  | .v6 p => .v6 p.srcAddr

def dest : UdpPacket → IpAddr
  | .v4 p => .v4 p.dstAddr
  | .v6 p => .v6 p.dstAddr

def srcPort : UdpPacket → UInt16
  | .v4 p => p.srcPort
  | .v6 p => p.srcPort

def dstPort : UdpPacket → UInt16
  | .v4 p => p.dstPort
  | .v6 p => p.dstPort

def key (p : UdpPacket) : FlowKey := ⟨p.srcPort, true, p.source.isIpv6⟩

def slot (p : UdpPacket) : Fin 4096 := udpDirectSlot p.source p.srcPort p.dest p.dstPort

def validate (t : Tables) (generation : UInt32) (now : UInt64) : UdpPacket → Bool × Tables
  | .v4 p => udpV4.validate t generation now p.srcPort p.srcAddr p.dstAddr p.dstPort
  | .v6 p => udpV6.validate t generation now p.srcPort p.srcAddr p.dstAddr p.dstPort

def add (t : Tables) (generation : UInt32) (now : UInt64) (alloc : Option Addr) (id : UInt32) : UdpPacket → Tables
  | .v4 p => udpV4.add t generation now alloc p.srcPort p.srcAddr p.dstAddr p.dstPort id
  | .v6 p => udpV6.add t generation now alloc p.srcPort p.srcAddr p.dstAddr p.dstPort id

end UdpPacket

/-- A judgement with the number of invalidations that there had been when it began. -/
structure Judged where
  packet : UdpPacket
  env : RuleEnv
  owner : Owner
  currentProcessId : UInt32
  sampled : Nat
  execution : Execution PolicyItem.Value UdpDecision
  judges : execution.program = packet.program env owner currentProcessId

/-- The packet thread with a datagram in hand, before or after `add_connection`. -/
structure Judging where
  judged : Judged
  added : Bool

/-- Where a verdict is recorded. -/
inductive Place where
  | flow (k : FlowKey)
  | direct (slot : Fin 4096)
  deriving DecidableEq

/-- The judgement behind the entry at each place, the latest only. -/
abbrev Records := List (Place × Judged)

namespace Records

def lookup (l : Records) (place : Place) : Option Judged := (l.find? (fun x => x.1 = place)).map (·.2)

def erase (l : Records) (place : Place) : Records := l.filter (fun x => x.1 ≠ place)

def put (l : Records) (place : Place) (j : Judged) : Records := (place, j) :: l.erase place

end Records

structure PolicySystem where
  policy : PolicyState
  invalidations : Nat
  calls : List RunningCall
  judging : Option Judging
  core : Core
  recorded : Records

inductive PolicyAction where
  | call (c : ApiCall)
  | advance (n : Nat)
  | sample (packet : UdpPacket) (env : RuleEnv) (owner : Owner) (currentProcessId : UInt32)
  | ask (now : UInt64)
  | read
  | leave
  | remember (now : UInt64)
  | add (now : UInt64) (alloc : Option Addr)
  | stamp

/-- `g_udp_generation` after so many invalidations. -/
def generationAt (invalidations : Nat) : UInt32 := UInt32.ofNat (1 + invalidations)

namespace PolicySystem

def init (policy : PolicyState) : PolicySystem := ⟨policy, 0, [], none, .init, []⟩

variable (s : PolicySystem)

def generation : UInt32 := generationAt s.invalidations

/-- Go on with a call, or take it off the list when it is done. -/
def resume (n : Nat) (todo : List ApiStep) (flags : Bool × Bool) : List RunningCall :=
  s.calls.take n ++ (if todo.isEmpty then [] else [⟨todo, flags⟩]) ++ s.calls.drop (n + 1)

/-- The effect of the next step of the call at `n`. -/
def perform (n : Nat) (flags : Bool × Bool) (rest : List ApiStep) : ApiStep → PolicySystem
  | .changeRules change =>
    match change s.policy.rules with
    | none => { s with calls := s.resume n [] flags }
    | some rules => { s with calls := s.resume n rest flags, policy := { s.policy with rules := rules } }
  | .setToggle t value =>
    { s with
      calls := s.resume n rest flags
      policy := { s.policy with toggles := Function.update s.policy.toggles t value } }
  | .changeConfigs change =>
    { s with calls := s.resume n rest flags, policy := { s.policy with configs := change s.policy.configs } }
  | .invalidate => { s with calls := s.resume n rest flags, invalidations := s.invalidations + 1 }
  | .recompute => { s with calls := s.resume n rest (recomputeFlags s.policy.rules false) }
  | .storeActive =>
    { s with calls := s.resume n rest flags, policy := { s.policy with hasActiveRules := flags.1 } }
  | .storeDomain =>
    { s with calls := s.resume n rest flags, policy := { s.policy with hasDomainRules := flags.2 } }

/-- `udp_direct_cached` and `udp_flow_validate` for the datagram in hand, which ends there if one of
them accepts it. -/
def ask (j : Judging) (now : UInt64) : PolicySystem :=
  let p := j.judged.packet
  if udpDirectCached s.core.udpDirect s.generation now p.source p.srcPort p.dest p.dstPort then
    { s with judging := none }
  else
    let v := p.validate s.core.tables s.generation now
    let core := { s.core with tables := v.2 }
    if v.1 then { s with core := core, judging := none }
    else { s with core := core, recorded := s.recorded.erase (.flow p.key) }

/-- `udp_direct_remember` with the generation that was sampled. -/
def remember (j : Judged) (now : UInt64) : PolicySystem :=
  let p := j.packet
  { s with
    judging := none
    core := { s.core with
      udpDirect := udpDirectRemember s.core.udpDirect now p.source p.srcPort p.dest p.dstPort
        (generationAt j.sampled) }
    recorded := s.recorded.put (.direct p.slot) j }

/-- `udp_flow_stamp` with the generation that was sampled. -/
def stamp (j : Judged) : PolicySystem :=
  let p := j.packet
  { s with
    judging := none
    core := { s.core with
      tables := s.core.tables.udpFlowStamp p.srcPort p.source.isIpv6 (generationAt j.sampled) }
    recorded := s.recorded.put (.flow p.key) j }

/-- The packet thread has one datagram in hand at a time and nobody else validates flows, so nothing
asks between `add_connection`, which writes the current generation, and the stamp. -/
def step : PolicyAction → Option PolicySystem
  | .call c => some { s with calls := s.calls ++ [⟨c.steps, (false, false)⟩] }
  | .advance n =>
    match s.calls[n]? with
    | some ⟨next :: rest, flags⟩ => some (s.perform n flags rest next)
    | _ => none
  | .sample packet env owner self =>
    match s.judging with
    | some _ => none
    | none =>
      let program := packet.program env owner self
      some { s with judging := some ⟨⟨packet, env, owner, self, s.invalidations, .start program, rfl⟩, false⟩ }
  | .ask now =>
    match s.judging with
    | some ⟨j, false⟩ => some (s.ask ⟨j, false⟩ now)
    | _ => none
  | .read =>
    match s.judging with
    | some ⟨j, false⟩ =>
      some { s with judging := some ⟨{ j with
        execution := j.execution.read s.policy.get
        judges := j.execution.program_read s.policy.get ▸ j.judges }, false⟩ }
    | _ => none
  | .leave =>
    match s.judging with
    | some ⟨_, false⟩ => some { s with judging := none }
    | _ => none
  | .remember now =>
    match s.judging with
    | some ⟨j, false⟩ =>
      match j.execution.result with
      | some (.direct pid) => if pid = 0 then none else some (s.remember j now)
      | _ => none
    | _ => none
  | .add now alloc =>
    match s.judging with
    | some ⟨j, false⟩ =>
      match j.execution.result with
      | some (.proxy id) =>
        if s.core.tables.Fresh alloc then
          some { s with
            core := { s.core with tables := j.packet.add s.core.tables s.generation now alloc id }
            judging := some ⟨j, true⟩ }
        else none
      | _ => none
    | _ => none
  | .stamp =>
    match s.judging with
    | some ⟨j, true⟩ => some (s.stamp j)
    | _ => none

end PolicySystem
end ProxyBridge.Windows
