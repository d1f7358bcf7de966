import ProxyBridge.Library.ChainStores
import ProxyBridge.Windows.Conntrack

/-! The two caches of `pb_process.c`: process identifiers by local endpoint, chained in heap
nodes, and the owner events that closing an endpoint takes back. -/
namespace ProxyBridge.Windows
open IntrusiveChains

abbrev pidCacheSize : Nat := 1024
abbrev ownerCacheSize : Nat := 2048
abbrev PidBucket := Fin pidCacheSize
abbrev OwnerBucket := Fin ownerCacheSize

def pidCacheTtlMs : UInt64 := 30000
def ownerCacheTtlMs : UInt64 := 120000

structure PidCacheEntry where
  srcIp : UInt32
  srcPort : UInt16
  pid : UInt32
  timestamp : UInt64
  isUdp : Bool
  deriving DecidableEq

structure OwnerCacheEntry where
  localAddr : Ip6
  remoteAddr : Ip6
  localPort : UInt16
  remotePort : UInt16
  pid : UInt32
  endpointId : UInt64
  timestamp : UInt64
  isUdp : Bool
  sourceLayer : UInt8
  deriving DecidableEq

def pidCacheHash (srcIp : UInt32) (srcPort : UInt16) (isUdp : Bool) : PidBucket :=
  let hash := srcIp ^^^ (srcPort.toUInt32 <<< 16) ^^^ (if isUdp then 0x80000000 else 0)
  ⟨hash.toNat % pidCacheSize, Nat.mod_lt _ (by decide)⟩

def PidCacheEntry.hash (e : PidCacheEntry) : PidBucket := pidCacheHash e.srcIp e.srcPort e.isUdp

def ownerCacheHash (localPort : UInt16) (isUdp : Bool) : OwnerBucket :=
  let hash := (localPort.toUInt32 <<< 16) ^^^ (if isUdp then 0x9E3779B9 else 0x85EBCA6B)
  ⟨hash.toNat % ownerCacheSize, Nat.mod_lt _ (by decide)⟩

/-- The comparison made by the lookups and by `remove_cached_pid`. -/
def PidCacheEntry.isFor (srcIp : UInt32) (srcPort : UInt16) (isUdp : Bool) (e : PidCacheEntry) : Bool :=
  e.srcIp == srcIp && e.srcPort == srcPort && e.isUdp == isUdp

/-- A UDP event of the endpoint with this local port. -/
def OwnerCacheEntry.IsUdpAt (endpointId : UInt64) (sourceLayer : UInt8) (port : UInt16) (o : OwnerCacheEntry) : Prop :=
  o.endpointId = endpointId ∧ o.sourceLayer = sourceLayer ∧ o.isUdp = true ∧ o.localPort = port

/-- `pid_cache` with its heap nodes, and `owner_cache` as the rows of its buckets. -/
structure OwnerCaches where
  pids : ChainStore PidBucket Addr PidCacheEntry
  owners : OwnerBucket → List OwnerCacheEntry

namespace OwnerCaches

def empty : OwnerCaches := ⟨⟨∅, fun _ => ⟨0, 0, 0, 0, false⟩, .empty⟩, fun _ => []⟩

/-- Refresh the entry of the endpoint in place, or allocate one in front of its bucket. -/
def cachePid (s : OwnerCaches) (currentTime : UInt64) (alloc : Option Addr) (srcIp : UInt32)
    (srcPort : UInt16) (pid : UInt32) (isUdp : Bool) : OwnerCaches :=
  let hash := pidCacheHash srcIp srcPort isUdp
  match s.pids.links.search (fun a => (s.pids.node a).isFor srcIp srcPort isUdp) s.pids.live.card
      (s.pids.links.head hash) with
  | some entry => { s with pids := s.pids.modify entry (fun e => { e with pid := pid, timestamp := currentTime }) }
  | none =>
    match alloc with
    | none => s
    | some newEntry => { s with pids := s.pids.push hash newEntry ⟨srcIp, srcPort, pid, currentTime, isUdp⟩ }

@[irreducible] def pidBuckets : List PidBucket := List.finRange pidCacheSize

/-- Drop the entries that satisfy `p` from every bucket of `pid_cache`. -/
def dropPids (s : OwnerCaches) (p : PidCacheEntry → Bool) : OwnerCaches :=
  { s with pids := s.pids.dropBuckets p pidBuckets }

def clearPidCache (s : OwnerCaches) : OwnerCaches := s.dropPids (fun _ => true)

def cleanupStalePidCache (s : OwnerCaches) (now : UInt64) : OwnerCaches :=
  s.dropPids (fun e => decide (now - e.timestamp ≥ pidCacheTtlMs))

def removeCachedPid (s : OwnerCaches) (srcIp : UInt32) (srcPort : UInt16) (isUdp : Bool) : OwnerCaches :=
  let pp := s.pids.links.seek (fun a => (s.pids.node a).isFor srcIp srcPort isUdp) s.pids.live.card
    (.bucket (pidCacheHash srcIp srcPort isUdp))
  match s.pids.links.read pp with
  | none => s
  | some toFree => { s with pids := s.pids.removeAt pp toFree }

/-- Refresh the event of an endpoint in place, or put it in front of its row if `calloc` succeeds. -/
def cacheOwnerEvent (s : OwnerCaches) (now : UInt64) (allocated : Bool) (localAddr : Ip6) (localPort : UInt16)
    (remoteAddr : Ip6) (remotePort : UInt16) (isUdp : Bool) (pid : UInt32) (endpointId : UInt64)
    (sourceLayer : UInt8) : OwnerCaches :=
  if pid == 0 || localPort == 0 then s
  else
    let hash := ownerCacheHash localPort isUdp
    let same (e : OwnerCacheEntry) : Bool :=
      e.endpointId == endpointId && e.sourceLayer == sourceLayer && e.localPort == localPort &&
      e.remotePort == remotePort && e.isUdp == isUdp && e.localAddr == localAddr && e.remoteAddr == remoteAddr
    let fresh : OwnerCacheEntry :=
      ⟨localAddr, remoteAddr, localPort, remotePort, pid, endpointId, now, isUdp, sourceLayer⟩
    let row := s.owners hash
    let row' := match row.findIdx? same with
      | some i => row.modify i (fun e => { e with pid := pid, timestamp := now })
      | none => if allocated then fresh :: row else row
    { s with owners := Function.update s.owners hash row' }

/-- The nested loop of `remove_owner_event_endpoint` over `pid_cache`. -/
def dropUdpPort (s : OwnerCaches) (localPort : UInt16) : OwnerCaches :=
  s.dropPids (fun e => e.isUdp && e.srcPort == localPort)

def removeOwnerRow (s : OwnerCaches) (endpointId : UInt64) (sourceLayer : UInt8) (i : OwnerBucket) : OwnerCaches :=
  let closed (e : OwnerCacheEntry) : Bool := e.endpointId == endpointId && e.sourceLayer == sourceLayer
  let s' := (s.owners i).foldl (fun s e => if closed e && e.isUdp then s.dropUdpPort e.localPort else s) s
  { s' with owners := Function.update s'.owners i ((s.owners i).filter (fun e => !closed e)) }

@[irreducible] def ownerBuckets : List OwnerBucket := List.finRange ownerCacheSize

def removeOwnerEventEndpoint (s : OwnerCaches) (endpointId : UInt64) (sourceLayer : UInt8) : OwnerCaches :=
  ownerBuckets.foldl (fun s i => s.removeOwnerRow endpointId sourceLayer i) s

def clearOwnerEventCache (s : OwnerCaches) : OwnerCaches := { s with owners := fun _ => [] }

def cleanupStaleOwnerCache (s : OwnerCaches) (now : UInt64) : OwnerCaches :=
  { s with owners := fun i => (s.owners i).filter (fun e => !decide (now - e.timestamp ≥ ownerCacheTtlMs)) }

end OwnerCaches

/-- One call into `pb_process.c` that writes the caches, with what the system returned to it. -/
inductive OwnerOp where
  | cachePid (currentTime : UInt64) (alloc : Option Addr) (srcIp : UInt32) (srcPort : UInt16) (pid : UInt32)
      (isUdp : Bool)
  | clearPidCache
  | removeCachedPid (srcIp : UInt32) (srcPort : UInt16) (isUdp : Bool)
  | cleanupStalePidCache (now : UInt64)
  | cacheOwnerEvent (now : UInt64) (allocated : Bool) (localAddr : Ip6) (localPort : UInt16) (remoteAddr : Ip6)
      (remotePort : UInt16) (isUdp : Bool) (pid : UInt32) (endpointId : UInt64) (sourceLayer : UInt8)
  | removeOwnerEventEndpoint (endpointId : UInt64) (sourceLayer : UInt8)
  | clearOwnerEventCache
  | cleanupStaleOwnerCache (now : UInt64)

def OwnerOp.alloc : OwnerOp → Option Addr
  | .cachePid _ alloc .. => alloc
  | _ => none

namespace OwnerCaches

def apply (s : OwnerCaches) : OwnerOp → OwnerCaches
  | .cachePid currentTime alloc srcIp srcPort pid isUdp => s.cachePid currentTime alloc srcIp srcPort pid isUdp
  | .clearPidCache => s.clearPidCache
  | .removeCachedPid srcIp srcPort isUdp => s.removeCachedPid srcIp srcPort isUdp
  | .cleanupStalePidCache now => s.cleanupStalePidCache now
  | .cacheOwnerEvent now allocated localAddr localPort remoteAddr remotePort isUdp pid endpointId sourceLayer =>
    s.cacheOwnerEvent now allocated localAddr localPort remoteAddr remotePort isUdp pid endpointId sourceLayer
  | .removeOwnerEventEndpoint endpointId sourceLayer => s.removeOwnerEventEndpoint endpointId sourceLayer
  | .clearOwnerEventCache => s.clearOwnerEventCache
  | .cleanupStaleOwnerCache now => s.cleanupStaleOwnerCache now

def Consistent (s : OwnerCaches) : Prop := s.pids.WellChained PidCacheEntry.hash

theorem consistent_empty : empty.Consistent :=
  ⟨fun _ => [], Links.empty_represents, fun a => by simp [empty], fun i a ha => nomatch ha⟩

/-- The owner cache has a UDP event of the endpoint with this local port. -/
def HoldsUdp (s : OwnerCaches) (endpointId : UInt64) (sourceLayer : UInt8) (port : UInt16) : Prop :=
  ∃ i, ∃ o ∈ s.owners i, o.IsUdpAt endpointId sourceLayer port

/-- A call frees the node of an entry only if it asks for that entry, or closes its endpoint. -/
def Spares (s : OwnerCaches) (e : PidCacheEntry) : OwnerOp → Prop
  | .removeCachedPid srcIp srcPort isUdp => e.isFor srcIp srcPort isUdp = false
  | .removeOwnerEventEndpoint endpointId sourceLayer => e.isUdp = true → ∀ i, ∀ o ∈ s.owners i,
      o.endpointId = endpointId → o.sourceLayer = sourceLayer → o.isUdp = true → o.localPort ≠ e.srcPort
  | .clearPidCache => False
  | .cleanupStalePidCache now => now - e.timestamp < pidCacheTtlMs
  | _ => True

/-- The node is allocated after as before, for the same endpoint. -/
def Keeps (s s' : OwnerCaches) (a : Addr) : Prop :=
  a ∈ s'.pids.live ∧ (s'.pids.node a).hash = (s.pids.node a).hash

private theorem dropPids_eq (s : OwnerCaches) (p : PidCacheEntry → Bool) :
    (s.dropPids p).pids = s.pids.dropBuckets p pidBuckets ∧ (s.dropPids p).owners = s.owners := by
  rw [OwnerCaches.dropPids]
  exact ⟨rfl, rfl⟩

private theorem mem_pidBuckets (i : PidBucket) : i ∈ pidBuckets := by
  unfold pidBuckets
  exact List.mem_finRange i

theorem dropPids_spec {s : OwnerCaches} (h : s.Consistent) (p : PidCacheEntry → Bool) :
    (s.dropPids p).Consistent ∧ (s.dropPids p).owners = s.owners ∧ (s.dropPids p).pids.node = s.pids.node ∧
    ∀ a, a ∈ (s.dropPids p).pids.live ↔ a ∈ s.pids.live ∧ p (s.pids.node a) = false := by
  obtain ⟨hp, ho⟩ := dropPids_eq s p
  obtain ⟨hc, hn, hl⟩ := ChainStore.WellChained.dropBuckets_spec h p pidBuckets
  rw [Consistent, hp]
  exact ⟨hc, ho, hn, fun a => by rw [hl]; simp [mem_pidBuckets]⟩

/-- The walk over one row of `owner_cache` frees the nodes of the ports that UDP events of the
endpoint have there. -/
private theorem removeOwnerRow_drops (endpointId : UInt64) (sourceLayer : UInt8) (row : List OwnerCacheEntry) :
    ∀ s : OwnerCaches, s.Consistent →
      let s' := row.foldl (fun s e => if (e.endpointId == endpointId && e.sourceLayer == sourceLayer) && e.isUdp
        then s.dropUdpPort e.localPort else s) s
      s'.Consistent ∧ s'.owners = s.owners ∧ s'.pids.node = s.pids.node ∧
      ∀ a, a ∈ s'.pids.live ↔ a ∈ s.pids.live ∧ ¬ ((s.pids.node a).isUdp = true ∧
        ∃ o ∈ row, o.IsUdpAt endpointId sourceLayer (s.pids.node a).srcPort) := by
  induction row with
  | nil => exact fun s h => ⟨h, rfl, rfl, fun a => by simp⟩
  | cons e row ih =>
    intro s h
    simp only [List.foldl_cons]
    split
    · rename_i hclosed
      simp only [Bool.and_eq_true, beq_iff_eq] at hclosed
      obtain ⟨⟨hid, hlayer⟩, hudp⟩ := hclosed
      obtain ⟨hd, hown, hnode, hlive⟩ := dropPids_spec h (fun c => c.isUdp && c.srcPort == e.localPort)
      obtain ⟨hc, ho, hn, hl⟩ := ih (s.dropUdpPort e.localPort) hd
      refine ⟨hc, ho.trans hown, hn.trans hnode, fun a => (hl a).trans ?_⟩
      rw [OwnerCaches.dropUdpPort, hnode, hlive, and_assoc]
      refine and_congr_right fun _ => ?_
      have hhead : e.IsUdpAt endpointId sourceLayer (s.pids.node a).srcPort ↔ e.localPort = (s.pids.node a).srcPort :=
        ⟨fun he => he.2.2.2, fun hp => ⟨hid, hlayer, hudp, hp⟩⟩
      simp only [List.exists_mem_cons_iff, hhead, Bool.and_eq_false_iff, beq_eq_false_iff_ne]
      cases (s.pids.node a).isUdp with
      | false => simp
      | true => simp [eq_comm]
    · rename_i hclosed
      obtain ⟨hc, ho, hn, hl⟩ := ih s h
      refine ⟨hc, ho, hn, fun a => (hl a).trans ?_⟩
      have hhead : ¬ e.IsUdpAt endpointId sourceLayer (s.pids.node a).srcPort := by
        intro ⟨hid, hlayer, hudp, _⟩
        exact hclosed (by simp [hid, hlayer, hudp])
      rw [List.exists_mem_cons_iff, or_iff_right hhead]

private theorem removeOwnerRow_spec {s : OwnerCaches} (h : s.Consistent) (endpointId : UInt64) (sourceLayer : UInt8)
    (i : OwnerBucket) :
    let s' := s.removeOwnerRow endpointId sourceLayer i
    s'.Consistent ∧ s'.owners = Function.update s.owners i ((s.owners i).filter (fun o =>
        !(o.endpointId == endpointId && o.sourceLayer == sourceLayer))) ∧ s'.pids.node = s.pids.node ∧
      ∀ a, a ∈ s'.pids.live ↔ a ∈ s.pids.live ∧ ¬ ((s.pids.node a).isUdp = true ∧
        ∃ o ∈ s.owners i, o.IsUdpAt endpointId sourceLayer (s.pids.node a).srcPort) := by
  obtain ⟨hc, ho, hn, hl⟩ := removeOwnerRow_drops endpointId sourceLayer (s.owners i) s h
  refine ⟨hc, ?_, hn, hl⟩
  simp only [removeOwnerRow, ho]

/-- What closing an endpoint does to both caches, whichever owner rows are walked. -/
private theorem removeOwnerRows_spec (endpointId : UInt64) (sourceLayer : UInt8) (is : List OwnerBucket) :
    ∀ s : OwnerCaches, s.Consistent →
      let s' := is.foldl (fun s i => s.removeOwnerRow endpointId sourceLayer i) s
      s'.Consistent ∧ (∀ i ∈ is, s'.owners i = (s.owners i).filter (fun o =>
        !(o.endpointId == endpointId && o.sourceLayer == sourceLayer))) ∧
      (∀ i, i ∉ is → s'.owners i = s.owners i) ∧ s'.pids.node = s.pids.node ∧
      ∀ a, a ∈ s'.pids.live ↔ a ∈ s.pids.live ∧ ¬ ((s.pids.node a).isUdp = true ∧
        ∃ i ∈ is, ∃ o ∈ s.owners i, o.IsUdpAt endpointId sourceLayer (s.pids.node a).srcPort) := by
  induction is with
  | nil => exact fun s h => ⟨h, fun i hi => (nomatch hi), fun _ _ => rfl, rfl, fun a => by simp⟩
  | cons i is ih =>
    intro s h
    obtain ⟨hc, ho, hn, hl⟩ := removeOwnerRow_spec h endpointId sourceLayer i
    obtain ⟨hc', hin, hout, hn', hl'⟩ := ih (s.removeOwnerRow endpointId sourceLayer i) hc
    refine ⟨hc', fun j hj => ?_, fun j hj => ?_, hn'.trans hn, fun a => (hl' a).trans ?_⟩
    · rw [List.foldl_cons]
      by_cases hji : j = i
      · subst hji
        by_cases hmem : j ∈ is
        · rw [hin j hmem, ho, Function.update_self, List.filter_filter]
          simp only [Bool.and_self]
        · rw [hout j hmem, ho, Function.update_self]
      · have hmem : j ∈ is := (List.mem_cons.mp hj).resolve_left hji
        rw [hin j hmem, ho, Function.update_of_ne hji]
    · obtain ⟨hji, hmem⟩ := not_or.mp (fun hor => hj (List.mem_cons.mpr hor))
      rw [List.foldl_cons, hout j hmem, ho, Function.update_of_ne hji]
    · have hrow : ∀ j ∈ is, (∃ o ∈ (s.removeOwnerRow endpointId sourceLayer i).owners j,
          o.IsUdpAt endpointId sourceLayer (s.pids.node a).srcPort) →
          ∃ o ∈ s.owners j, o.IsUdpAt endpointId sourceLayer (s.pids.node a).srcPort := by
        rintro j _ ⟨o, hj, hat⟩
        rw [ho] at hj
        by_cases hji : j = i
        · subst hji
          rw [Function.update_self] at hj
          exact ⟨o, (List.mem_filter.mp hj).1, hat⟩
        · rw [Function.update_of_ne hji] at hj
          exact ⟨o, hj, hat⟩
      have hother : ∀ j, j ≠ i → (s.removeOwnerRow endpointId sourceLayer i).owners j = s.owners j := by
        intro j hji
        rw [ho, Function.update_of_ne hji]
      rw [hn, hl, List.exists_mem_cons_iff]
      constructor
      · rintro ⟨⟨ha, hfirst⟩, hrest⟩
        refine ⟨ha, fun ⟨hu, hat⟩ => ?_⟩
        rcases hat with hat | ⟨j, hj, hat⟩
        · exact hfirst ⟨hu, hat⟩
        · by_cases hji : j = i
          · exact hfirst ⟨hu, hji ▸ hat⟩
          · exact hrest ⟨hu, j, hj, (hother j hji).symm ▸ hat⟩
      · rintro ⟨ha, hnone⟩
        exact ⟨⟨ha, fun hf => hnone ⟨hf.1, .inl hf.2⟩⟩,
          fun ⟨hu, j, hj, hat⟩ => hnone ⟨hu, .inr ⟨j, hj, hrow j hj hat⟩⟩⟩

theorem mem_ownerBuckets (i : OwnerBucket) : i ∈ ownerBuckets := by
  unfold ownerBuckets
  exact List.mem_finRange i

/-- Closing an endpoint takes its events out of `owner_cache`, and frees the nodes of UDP for the
ports that its events are cached with. -/
theorem removeOwnerEventEndpoint_spec {s : OwnerCaches} (h : s.Consistent) (endpointId : UInt64)
    (sourceLayer : UInt8) :
    let s' := s.removeOwnerEventEndpoint endpointId sourceLayer
    s'.Consistent ∧ (∀ i, s'.owners i = (s.owners i).filter (fun o =>
      !(o.endpointId == endpointId && o.sourceLayer == sourceLayer))) ∧ s'.pids.node = s.pids.node ∧
    ∀ a, a ∈ s'.pids.live ↔ a ∈ s.pids.live ∧
      ¬ ((s.pids.node a).isUdp = true ∧ s.HoldsUdp endpointId sourceLayer (s.pids.node a).srcPort) := by
  obtain ⟨hc, ho, _, hn, hl⟩ := removeOwnerRows_spec endpointId sourceLayer ownerBuckets s h
  rw [removeOwnerEventEndpoint]
  refine ⟨hc, fun i => ho i (mem_ownerBuckets i), hn, fun a => (hl a).trans ?_⟩
  simp only [HoldsUdp, mem_ownerBuckets, true_and]

private theorem cachePid_spec {s : OwnerCaches} (h : s.Consistent) (currentTime : UInt64) {alloc : Option Addr}
    (hfresh : ∀ a, alloc = some a → a ∉ s.pids.live) (srcIp : UInt32) (srcPort : UInt16) (pid : UInt32)
    (isUdp : Bool) :
    (s.cachePid currentTime alloc srcIp srcPort pid isUdp).Consistent ∧
    ∀ a ∈ s.pids.live, Keeps s (s.cachePid currentTime alloc srcIp srcPort pid isUdp) a := by
  simp only [cachePid]
  split
  · rename_i entry _
    set f : PidCacheEntry → PidCacheEntry := fun e => { e with pid := pid, timestamp := currentTime } with hf
    have hhash : ∀ e, (f e).hash = e.hash := fun e => by rw [hf, PidCacheEntry.hash, PidCacheEntry.hash]
    refine ⟨ChainStore.WellChained.modify h entry f (hhash _), fun a ha => ⟨ha, ?_⟩⟩
    by_cases hae : a = entry
    · subst hae
      simp [ChainStore.modify, hhash]
    · simp [ChainStore.modify, hae]
  · split
    · exact ⟨h, fun a ha => ⟨ha, rfl⟩⟩
    · rename_i newEntry
      have hnew := hfresh newEntry rfl
      refine ⟨ChainStore.WellChained.push h hnew ⟨srcIp, srcPort, pid, currentTime, isUdp⟩, fun a ha => ?_⟩
      have hne : a ≠ newEntry := fun e => hnew (e ▸ ha)
      exact ⟨Finset.mem_insert_of_mem ha, by simp [ChainStore.push, hne]⟩

private theorem removeCachedPid_spec {s : OwnerCaches} (h : s.Consistent) (srcIp : UInt32) (srcPort : UInt16)
    (isUdp : Bool) :
    (s.removeCachedPid srcIp srcPort isUdp).Consistent ∧
    ∀ a ∈ s.pids.live, (s.pids.node a).isFor srcIp srcPort isUdp = false →
      Keeps s (s.removeCachedPid srcIp srcPort isUdp) a := by
  simp only [removeCachedPid]
  split
  · exact ⟨h, fun a ha _ => ⟨ha, rfl⟩⟩
  · rename_i toFree hread
    have hdes : s.pids.links.Designates s.pids.live (pidCacheHash srcIp srcPort isUdp) (.bucket _) := rfl
    refine ⟨(ChainStore.WellChained.removeAt h _ hdes hread).1, fun a ha hsp => ?_⟩
    obtain ⟨_, hfor⟩ := ChainStore.WellChained.of_read_seek h hdes hread
    refine ⟨Finset.mem_erase.mpr ⟨?_, ha⟩, rfl⟩
    rintro rfl
    exact Bool.false_ne_true (hsp.symm.trans hfor)

/-- Every call keeps the chains of `pid_cache` intact, and frees no node that it spares. -/
theorem Consistent.apply {s : OwnerCaches} (h : s.Consistent) {op : OwnerOp}
    (hfresh : ∀ a, op.alloc = some a → a ∉ s.pids.live) :
    (s.apply op).Consistent ∧ ∀ a ∈ s.pids.live, s.Spares (s.pids.node a) op → Keeps s (s.apply op) a := by
  have hdrop : ∀ p, (s.dropPids p).Consistent ∧ ∀ a ∈ s.pids.live, p (s.pids.node a) = false →
      Keeps s (s.dropPids p) a := by
    intro p
    obtain ⟨hc, _, hn, hl⟩ := dropPids_spec h p
    exact ⟨hc, fun a ha hp => ⟨(hl a).mpr ⟨ha, hp⟩, by rw [hn]⟩⟩
  cases op with
  | cachePid currentTime alloc srcIp srcPort pid isUdp =>
    obtain ⟨hc, hk⟩ := cachePid_spec h currentTime hfresh srcIp srcPort pid isUdp
    exact ⟨hc, fun a ha _ => hk a ha⟩
  | clearPidCache => exact ⟨(hdrop _).1, fun a _ hsp => hsp.elim⟩
  | removeCachedPid srcIp srcPort isUdp => exact removeCachedPid_spec h srcIp srcPort isUdp
  | cleanupStalePidCache now =>
    refine ⟨(hdrop _).1, fun a ha hsp => (hdrop _).2 a ha ?_⟩
    exact decide_eq_false (UInt64.not_le.mpr hsp)
  | cacheOwnerEvent now allocated localAddr localPort remoteAddr remotePort isUdp pid endpointId sourceLayer =>
    simp only [OwnerCaches.apply, cacheOwnerEvent]
    split
    · exact ⟨h, fun a ha _ => ⟨ha, rfl⟩⟩
    · exact ⟨h, fun a ha _ => ⟨ha, rfl⟩⟩
  | removeOwnerEventEndpoint endpointId sourceLayer =>
    obtain ⟨hc, _, hn, hl⟩ := removeOwnerEventEndpoint_spec h endpointId sourceLayer
    refine ⟨hc, fun a ha hsp => ⟨(hl a).mpr ⟨ha, ?_⟩, congrArg (fun node => (node a).hash) hn⟩⟩
    rintro ⟨hudp, i, o, ho, hid, hlayer, hu, hport⟩
    exact hsp hudp i o ho hid hlayer hu hport
  | clearOwnerEventCache => exact ⟨h, fun a ha _ => ⟨ha, rfl⟩⟩
  | cleanupStaleOwnerCache now => exact ⟨h, fun a ha _ => ⟨ha, rfl⟩⟩

end OwnerCaches
end ProxyBridge.Windows
