import ProxyBridge.Library.Runs
import ProxyBridge.Windows.ConntrackInvariant

/-! Whole histories of the connection tables: any sequence of operations from empty tables. -/
namespace ProxyBridge.Windows
open IntrusiveChains Runs

/-- One call into `pb_conntrack.c`, with its arguments and what the system returned to it. -/
inductive TableOp where
  | addConnection (generation : UInt32) (now : UInt64) (alloc : Option Addr) (srcPort : UInt16)
      (isUdp : Bool) (srcIp destIp : UInt32) (destPort : UInt16) (proxyConfigId : UInt32)
  | addConnectionV6 (generation : UInt32) (now : UInt64) (alloc : Option Addr) (srcPort : UInt16)
      (isUdp : Bool) (srcIp6 destIp6 : Ip6) (destPort : UInt16) (proxyConfigId : UInt32)
  | udpFlowStamp (port : UInt16) (ipv6 : Bool) (generation : UInt32)
  | udpFlowValidate (generation : UInt32) (now : UInt64) (port : UInt16) (ipv6 : Bool) (source : UInt32)
      (source6 : Ip6) (destination : UInt32) (destination6 : Ip6) (destinationPort : UInt16)
  | connectionFin (now : UInt64) (srcPort : UInt16) (isIpv6 : Bool) (bit : UInt8)
  | getConnection (now : UInt64) (srcPort : UInt16) (isUdp : Bool)
  | getConnectionFull (now : UInt64) (srcPort : UInt16) (isUdp : Bool)
  | getConnectionFullV6 (now : UInt64) (srcPort : UInt16) (isUdp : Bool)
  | findV4UdpSender (now : UInt64) (origDestIp : UInt32) (origDestPort : UInt16)
  | removeConnection (srcPort : UInt16) (isUdp isIpv6 : Bool)
  | cleanupStaleConnections (now : UInt64)
  | clearAll

/-- What `calloc` returned to the call, if it asked. -/
def TableOp.alloc : TableOp → Option Addr
  | .addConnection _ _ alloc .. => alloc
  | .addConnectionV6 _ _ alloc .. => alloc
  | _ => none

/-- `calloc` may fail, and otherwise returns memory that is not in use. -/
def TableOp.Admissible (t : Tables) (op : TableOp) : Prop := t.Fresh op.alloc

/-- The tables after a call. The lookups that write nothing are left out. -/
def Tables.apply (t : Tables) : TableOp → Tables
  | .addConnection generation now alloc srcPort isUdp srcIp destIp destPort proxyConfigId =>
    t.addConnection generation now alloc srcPort isUdp srcIp destIp destPort proxyConfigId
  | .addConnectionV6 generation now alloc srcPort isUdp srcIp6 destIp6 destPort proxyConfigId =>
    t.addConnectionV6 generation now alloc srcPort isUdp srcIp6 destIp6 destPort proxyConfigId
  | .udpFlowStamp port ipv6 generation => t.udpFlowStamp port ipv6 generation
  | .udpFlowValidate generation now port ipv6 source source6 destination destination6 destinationPort =>
    (t.udpFlowValidate generation now port ipv6 source source6 destination destination6 destinationPort).2
  | .connectionFin now srcPort isIpv6 bit => t.connectionFin now srcPort isIpv6 bit
  | .getConnection now srcPort isUdp => (t.getConnection now srcPort isUdp).2
  | .getConnectionFull now srcPort isUdp => (t.getConnectionFull now srcPort isUdp).2
  | .getConnectionFullV6 now srcPort isUdp => (t.getConnectionFullV6 now srcPort isUdp).2
  | .findV4UdpSender now origDestIp origDestPort => (t.findV4UdpSender now origDestIp origDestPort).2
  | .removeConnection srcPort isUdp isIpv6 => t.removeConnection srcPort isUdp isIpv6
  | .cleanupStaleConnections now => t.cleanupStaleConnections now
  | .clearAll => t.clearAll

/-- Tables reachable from empty ones. -/
def Tables.Reachable (t : Tables) : Prop :=
  Reach (fun t op => some (Tables.apply t op)) TableOp.Admissible .empty t

theorem Tables.Consistent.apply {t : Tables} (h : t.Consistent) {op : TableOp} (hop : op.Admissible t) :
    (t.apply op).Consistent := by
  cases op with
  | addConnection generation now alloc srcPort isUdp srcIp destIp destPort proxyConfigId =>
    exact h.addConnection hop generation now srcPort isUdp srcIp destIp destPort proxyConfigId
  | addConnectionV6 generation now alloc srcPort isUdp srcIp6 destIp6 destPort proxyConfigId =>
    exact h.addConnectionV6 hop generation now srcPort isUdp srcIp6 destIp6 destPort proxyConfigId
  | udpFlowStamp port ipv6 generation => exact h.udpFlowStamp port ipv6 generation
  | udpFlowValidate generation now port ipv6 source source6 destination destination6 destinationPort =>
    exact h.udpFlowValidate generation now port ipv6 source source6 destination destination6 destinationPort
  | connectionFin now srcPort isIpv6 bit => exact h.connectionFin now srcPort isIpv6 bit
  | getConnection now srcPort isUdp => exact h.touch now _
  | getConnectionFull now srcPort isUdp => exact h.touch now _
  | getConnectionFullV6 now srcPort isUdp => exact h.touch now _
  | findV4UdpSender now origDestIp origDestPort => exact h.touch now _
  | removeConnection srcPort isUdp isIpv6 => exact h.removeConnection srcPort isUdp isIpv6
  | cleanupStaleConnections now => exact h.cleanupStaleConnections now
  | clearAll => exact h.clearAll.2

theorem Tables.Reachable.consistent {t : Tables} (h : t.Reachable) : t.Consistent := by
  refine Reach.invariant consistent_empty (fun s op s' hs hop he => ?_) h
  rw [← Option.some.inj he]
  exact hs.apply hop

/-- In every reachable state the two tables are lists of the same nodes: the forward chains hold
each flow at most once, in the bucket of its port, and the reverse chains hold every such node
exactly once, in the bucket of the destination it has now. -/
theorem forward_and_reverse_chains_agree {t : Tables} (h : t.Reachable) :
    ∃ rows revRows : Bucket → List Addr,
      t.fwd.Represents rows ∧ t.rev.Represents revRows ∧
      (∀ a, a ∈ t.live ↔ ∃ i, a ∈ rows i) ∧
      (∀ i, ∀ a ∈ rows i, (t.node a).srcPort.toNat % 4096 = i.val) ∧
      (∀ i j, ∀ a ∈ rows i, ∀ b ∈ rows j, (t.node a).srcPort = (t.node b).srcPort →
        (t.node a).isUdp = (t.node b).isUdp → (t.node a).isIpv6 = (t.node b).isIpv6 → a = b) ∧
      (∀ j a, a ∈ revRows j ↔ (∃ i, a ∈ rows i) ∧ (t.node a).revHash = j) ∧
      (∀ i, ∀ a ∈ rows i, (t.node a).inRev = true ∧ (t.node a).revBucket = (t.node a).revHash) := by
  obtain ⟨rows, revRows, hl⟩ := h.consistent
  refine ⟨rows, revRows, hl.fwd, hl.rev, hl.mem_fwd, ?_, ?_, ?_, ?_⟩
  · intro i a ha
    exact congrArg Fin.val (hl.bucket i a ha)
  · intro i j a ha b hb hp hu hv
    apply hl.unique a (hl.live_of_mem ha) b (hl.live_of_mem hb)
    rw [ConnectionInfo.key, ConnectionInfo.key, hp, hu, hv]
  · intro j a
    rw [hl.mem_rev j a, hl.mem_fwd]
    simp
  · intro i a ha
    exact hl.inRev a (hl.live_of_mem ha) (by simp)

/-- One datagram tracked for port 5000, then sent to a second destination: the node is found
once in the reverse index, under the second destination. -/
theorem forward_and_reverse_chains_agree_rekeyed :
    ∃ t : Tables, t.Reachable ∧ t.live = {0} ∧ ∃ rows revRows : Bucket → List Addr,
      t.fwd.Represents rows ∧ t.rev.Represents revRows ∧ 0 ∈ rows 904 ∧
      0 ∈ revRows (revHashV4 0x08080808 53) ∧ ∀ j, j ≠ revHashV4 0x08080808 53 → 0 ∉ revRows j := by
  let first := Tables.empty.apply (.addConnection 1 100 (some 0) 5000 true 0x0100007f 0x01010101 443 1)
  let second := first.apply (.addConnection 1 200 none 5000 true 0x0100007f 0x08080808 53 1)
  have hfirst : first.Reachable :=
    .next (a := .addConnection 1 100 (some 0) 5000 true 0x0100007f 0x01010101 443 1) .start
      (fun a _ => Finset.notMem_empty a) rfl
  have hr : second.Reachable :=
    .next (a := .addConnection 1 200 none 5000 true 0x0100007f 0x08080808 53 1) hfirst
      (fun _ ha => nomatch ha) rfl
  have hlive : second.live = {0} := by decide +kernel
  have hport : (second.node 0).srcPort = 5000 := by decide +kernel
  have hhash : (second.node 0).revHash = revHashV4 0x08080808 53 := by decide +kernel
  obtain ⟨rows, revRows, hf, hrev, hmem, hbucket, _, hmemr, _⟩ := forward_and_reverse_chains_agree hr
  obtain ⟨i, hi⟩ := (hmem 0).mp (by rw [hlive]; exact Finset.mem_singleton_self 0)
  have hi' : i = 904 := by
    have hb := hbucket i 0 hi
    rw [hport] at hb
    exact Fin.ext hb.symm
  subst hi'
  refine ⟨second, hr, hlive, rows, revRows, hf, hrev, hi, (hmemr _ 0).mpr ⟨⟨_, hi⟩, hhash⟩, ?_⟩
  intro j hj hm
  exact hj (((hmemr j 0).mp hm).2.symm.trans hhash)

end ProxyBridge.Windows
