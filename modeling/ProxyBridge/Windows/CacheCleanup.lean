import ProxyBridge.Library.TickAges
import ProxyBridge.Windows.CacheContents
import ProxyBridge.Windows.CleanupCursor

/-! The passes that free entries of the two owner caches, next to caches that no pass ever cleans. A
pass reads the clock before it takes the lock, so that entries may be stamped after its sample, and
the second loop of `cleanup_stale_connections` does not wait for the time to live. -/
namespace ProxyBridge.Windows
open IntrusiveChains PrunedLists TickAges

/-- The lookups pass over an entry of this age. -/
def PidCacheEntry.Expired (clock : UInt64) (e : PidCacheEntry) : Prop := pidCacheTtlMs ≤ clock - e.timestamp

def OwnerCacheEntry.Expired (clock : UInt64) (e : OwnerCacheEntry) : Prop := ownerCacheTtlMs ≤ clock - e.timestamp

def OwnerOp.clockSample : OwnerOp → Option UInt64
  | .cachePid currentTime .. => some currentTime
  | .cleanupStalePidCache now => some now
  | .cacheOwnerEvent now .. => some now
  | .cleanupStaleOwnerCache now => some now
  | _ => none

/-- The calls that free what has expired. -/
def OwnerOp.cleans : OwnerOp → Bool
  | .cleanupStalePidCache _ | .cleanupStaleOwnerCache _ => true
  | _ => false

/-- The same call on other caches, where `malloc` returns a node of its own. -/
def OwnerOp.realloc (alloc : Option Addr) : OwnerOp → OwnerOp
  | .cachePid currentTime _ srcIp srcPort pid isUdp => .cachePid currentTime alloc srcIp srcPort pid isUdp
  | op => op

namespace OwnerCaches

/-- The first entry behind a cursor that the second loop takes for a stale one. -/
def nextStale (s : OwnerCaches) (nowCache : UInt64) (entryPtr : Cursor PidBucket Addr) : Option PidCacheEntry :=
  (s.pids.links.search (fun a => decide (nowCache - (s.pids.node a).timestamp > 10000)) (s.pids.live.card + 1)
    (s.pids.links.read entryPtr)).map s.pids.node

/-- No entry has been stamped later than the clock. -/
structure Stamped (clock : UInt64) (s : OwnerCaches) : Prop where
  pids : ∀ e, s.HoldsPid e → e.timestamp ≤ clock
  owners : ∀ i, ∀ e ∈ s.owners i, e.timestamp ≤ clock

/-- The entries that a pass finds are not younger than its sample, unless they have expired anyway. -/
def CleansInTime (s : OwnerCaches) (clock : UInt64) : OwnerOp → Prop
  | .cleanupStalePidCache now => ∀ e, s.HoldsPid e → e.timestamp ≤ now ∨ e.Expired clock
  | .cleanupStaleOwnerCache now => ∀ i, ∀ e ∈ s.owners i, e.timestamp ≤ now ∨ e.Expired clock
  | _ => True

/-- A call does not come upon the lack of an entry that is in the unpruned caches: it allocates no
entry for an event that they have one of, none that fails for an endpoint that they have one of, and
closes no endpoint of which only they have the UDP event. -/
def FindsTheSame (s u : OwnerCaches) : OwnerOp → Prop
  | .cachePid _ alloc srcIp srcPort _ isUdp => alloc = none →
    u.HasPid srcIp srcPort isUdp → s.HasPid srcIp srcPort isUdp
  | .cacheOwnerEvent _ _ localAddr localPort remoteAddr remotePort isUdp pid endpointId sourceLayer =>
    pid ≠ 0 ∧ localPort ≠ 0 →
    u.HasEvent ⟨endpointId, sourceLayer, localAddr, localPort, remoteAddr, remotePort, isUdp⟩ →
    s.HasEvent ⟨endpointId, sourceLayer, localAddr, localPort, remoteAddr, remotePort, isUdp⟩
  | .removeOwnerEventEndpoint endpointId sourceLayer => ∀ e, s.HoldsPid e → e.isUdp = true →
    u.HoldsUdp endpointId sourceLayer e.srcPort → s.HoldsUdp endpointId sourceLayer e.srcPort
  | _ => True

/-- Caches that differ from unpruned ones by the lack of expired entries. -/
structure PrunedFrom (clock : UInt64) (s u : OwnerCaches) : Prop where
  held : ∀ e, s.HoldsPid e → u.HoldsPid e
  missing : ∀ e, u.HoldsPid e → s.HoldsPid e ∨ e.Expired clock
  rows : ∀ i, Pruned (OwnerCacheEntry.Expired clock) (u.owners i) (s.owners i)

end OwnerCaches

/-- Bounded to the entries that fit, two scans of a row agree. -/
theorem OwnerQuery.scan_pruned {q : OwnerQuery} {now : UInt64} {l m : List OwnerCacheEntry}
    (h : Pruned (OwnerCacheEntry.Expired now) l m) (best : Int) (pid : UInt32) :
    q.scan now l best pid = q.scan now m best pid := by
  induction h generalizing best pid with
  | nil => rfl
  | @keep e l m _ ih =>
    by_cases hfits : q.Fits now e
    · rw [q.scan_cons_of_fits now hfits, q.scan_cons_of_fits now hfits, ih, ih]
    · rw [q.scan_cons_of_not_fits now hfits, q.scan_cons_of_not_fits now hfits, ih]
  | @drop e l m hold _ ih =>
    have hfits : ¬ q.Fits now e := fun hfits => UInt64.not_lt.mpr hold hfits.unexpired
    rw [q.scan_cons_of_not_fits now hfits, ih]

namespace OwnerCaches
variable {s u : OwnerCaches} {clock : UInt64}

namespace PrunedFrom

theorem hasPid (h : PrunedFrom clock s u) {srcIp : UInt32} {srcPort : UInt16} {isUdp : Bool}
    (hpid : s.HasPid srcIp srcPort isUdp) : u.HasPid srcIp srcPort isUdp := by
  obtain ⟨e, he, hfor⟩ := hpid
  exact ⟨e, h.held e he, hfor⟩

theorem holdsUdp (h : PrunedFrom clock s u) {endpointId : UInt64} {sourceLayer : UInt8} {port : UInt16}
    (hudp : s.HoldsUdp endpointId sourceLayer port) : u.HoldsUdp endpointId sourceLayer port := by
  obtain ⟨i, o, ho, hat⟩ := hudp
  exact ⟨i, o, (h.rows i).sublist.subset ho, hat⟩

/-- What has expired stays so. -/
theorem later (h : PrunedFrom clock s u) (hu : u.Stamped clock) {later : UInt64} (hle : clock ≤ later) :
    PrunedFrom later s u where
  held := h.held
  missing e he := (h.missing e he).imp_right fun hold => UInt64.le_trans hold (age_le (hu.pids e he) hle)
  rows i := (h.rows i).mono fun e he hold => UInt64.le_trans hold (age_le (hu.owners i e he) hle)

/-- The lookups find no difference. -/
theorem getCachedPid_eq (h : PrunedFrom clock s u) (hs : s.Sound) (hu : u.Sound) (srcIp : UInt32)
    (srcPort : UInt16) (isUdp : Bool) :
    s.getCachedPid clock srcIp srcPort isUdp = u.getCachedPid clock srcIp srcPort isUdp := by
  by_cases hpid : s.HasPid srcIp srcPort isUdp
  · obtain ⟨e, he, hfor⟩ := hpid
    rw [getCachedPid_of_holds hs.consistent hs.pids he hfor,
      getCachedPid_of_holds hu.consistent hu.pids (h.held e he) hfor]
  · have hmissing : ∀ e, s.HoldsPid e → e.isFor srcIp srcPort isUdp = false := by
      intro e he
      by_contra hfor
      exact hpid ⟨e, he, (Bool.not_eq_false _).mp hfor⟩
    rw [getCachedPid_of_missing hs.consistent hmissing]
    by_cases hpid' : u.HasPid srcIp srcPort isUdp
    · obtain ⟨e, he, hfor⟩ := hpid'
      have hold : e.Expired clock := (h.missing e he).resolve_left fun he' => hpid ⟨e, he', hfor⟩
      rw [getCachedPid_of_holds hu.consistent hu.pids he hfor, if_neg (UInt64.not_lt.mpr hold)]
    · refine (getCachedPid_of_missing hu.consistent (fun e he => ?_) clock).symm
      by_contra hfor
      exact hpid' ⟨e, he, (Bool.not_eq_false _).mp hfor⟩

theorem getOwnerEventPid_eq (h : PrunedFrom clock s u) (q : OwnerQuery) :
    s.getOwnerEventPid clock q = u.getOwnerEventPid clock q :=
  (q.scan_pruned (h.rows _) (-1) 0).symm

end PrunedFrom

private theorem cachePid_owners (s : OwnerCaches) (now : UInt64) (alloc : Option Addr) (srcIp : UInt32)
    (srcPort : UInt16) (pid : UInt32) (isUdp : Bool) :
    (s.cachePid now alloc srcIp srcPort pid isUdp).owners = s.owners := by
  simp only [cachePid]
  split
  · rfl
  · split <;> rfl

private theorem removeCachedPid_owners (s : OwnerCaches) (srcIp : UInt32) (srcPort : UInt16) (isUdp : Bool) :
    (s.removeCachedPid srcIp srcPort isUdp).owners = s.owners := by
  simp only [removeCachedPid]
  split <;> rfl

/-- A call makes no entry but one with the tick count it has read. -/
theorem holdsPid_of_apply (h : s.Sound) {op : OwnerOp} (hfresh : ∀ a, op.alloc = some a → a ∉ s.pids.live)
    {e : PidCacheEntry} (he : (s.apply op).HoldsPid e) : s.HoldsPid e ∨ op.clockSample = some e.timestamp := by
  have hdrop : ∀ p, (s.dropPids p).HoldsPid e → s.HoldsPid e :=
    fun p he => ((holdsPid_dropPids h.consistent p e).mp he).1
  cases op with
  | cachePid currentTime alloc srcIp srcPort pid isUdp =>
    by_cases hroom : alloc.isSome = true ∨ s.HasPid srcIp srcPort isUdp
    · obtain ⟨_, hheld⟩ := holdsPid_cachePid h.consistent h.pids currentTime hfresh pid hroom
      rcases (hheld e).mp he with rfl | ⟨he, _⟩
      · exact .inr rfl
      · exact .inl he
    · obtain ⟨hnone, hmissing⟩ := not_or.mp hroom
      obtain rfl := Option.not_isSome_iff_eq_none.mp hnone
      rw [OwnerCaches.apply, cachePid_of_no_room h.consistent currentTime pid hmissing] at he
      exact .inl he
  | clearPidCache => exact .inl (hdrop _ he)
  | removeCachedPid srcIp srcPort isUdp =>
    exact .inl ((holdsPid_removeCachedPid h.consistent h.pids srcIp srcPort isUdp e).mp he).1
  | cleanupStalePidCache now => exact .inl (hdrop _ he)
  | cacheOwnerEvent now allocated localAddr localPort remoteAddr remotePort isUdp pid endpointId sourceLayer =>
    simp only [OwnerCaches.apply, cacheOwnerEvent] at he
    split at he <;> exact .inl he
  | removeOwnerEventEndpoint endpointId sourceLayer =>
    exact .inl ((holdsPid_removeOwnerEventEndpoint h.consistent endpointId sourceLayer e).mp he).1
  | clearOwnerEventCache => exact .inl he
  | cleanupStaleOwnerCache now => exact .inl he

private theorem mem_cachedRow {allocated : Bool} {fresh e : OwnerCacheEntry} {row : List OwnerCacheEntry}
    (he : e ∈ cachedRow allocated fresh row) : e ∈ row ∨ e.timestamp = fresh.timestamp := by
  rw [cachedRow] at he
  split at he
  · obtain ⟨e₀, he₀, rfl⟩ := List.mem_map.mp he
    split
    · exact .inr rfl
    · exact .inl he₀
  · split at he
    · rcases List.mem_cons.mp he with rfl | he
      · exact .inr rfl
      · exact .inl he
    · exact .inl he

theorem mem_owners_of_apply (h : s.Sound) {op : OwnerOp} {i : OwnerBucket} {e : OwnerCacheEntry}
    (he : e ∈ (s.apply op).owners i) : e ∈ s.owners i ∨ op.clockSample = some e.timestamp := by
  have hdrop : ∀ p, (s.dropPids p).owners = s.owners := fun p => (dropPids_spec h.consistent p).2.1
  cases op with
  | cachePid currentTime alloc srcIp srcPort pid isUdp =>
    rw [OwnerCaches.apply, cachePid_owners] at he
    exact .inl he
  | clearPidCache =>
    rw [OwnerCaches.apply, clearPidCache, hdrop] at he
    exact .inl he
  | removeCachedPid srcIp srcPort isUdp =>
    rw [OwnerCaches.apply, removeCachedPid_owners] at he
    exact .inl he
  | cleanupStalePidCache now =>
    rw [OwnerCaches.apply, cleanupStalePidCache, hdrop] at he
    exact .inl he
  | cacheOwnerEvent now allocated localAddr localPort remoteAddr remotePort isUdp pid endpointId sourceLayer =>
    by_cases hcall : pid ≠ 0 ∧ localPort ≠ 0
    · rw [OwnerCaches.apply, cacheOwnerEvent_eq h.owners _ _ _ _ _ _ _ _ _ hcall.1 hcall.2] at he
      by_cases hi : i = ownerCacheHash localPort isUdp
      · subst hi
        simp only [Function.update_self] at he
        exact (mem_cachedRow he).imp_right fun hstamp => congrArg some hstamp.symm
      · simp only [Function.update_of_ne hi] at he
        exact .inl he
    · rw [OwnerCaches.apply, cacheOwnerEvent_of_no_owner hcall] at he
      exact .inl he
  | removeOwnerEventEndpoint endpointId sourceLayer =>
    rw [OwnerCaches.apply, (removeOwnerEventEndpoint_spec h.consistent endpointId sourceLayer).2.1 i] at he
    exact .inl (List.mem_filter.mp he).1
  | clearOwnerEventCache => exact absurd he List.not_mem_nil
  | cleanupStaleOwnerCache now => exact .inl (List.mem_filter.mp he).1

theorem stamped_empty (clock : UInt64) : empty.Stamped clock where
  pids e he := absurd he (not_holdsPid_of_empty rfl e)
  owners _ _ he := nomatch he

theorem Stamped.later (hst : s.Stamped clock) {later : UInt64} (hle : clock ≤ later) : s.Stamped later where
  pids e he := UInt64.le_trans (hst.pids e he) hle
  owners i e he := UInt64.le_trans (hst.owners i e he) hle

theorem Stamped.apply (hst : s.Stamped clock) (h : s.Sound) {op : OwnerOp}
    (hfresh : ∀ a, op.alloc = some a → a ∉ s.pids.live) (hsample : ∀ now, op.clockSample = some now → now ≤ clock) :
    (s.apply op).Stamped clock where
  pids e he := (holdsPid_of_apply h hfresh he).elim (hst.pids e) (hsample _)
  owners i e he := (mem_owners_of_apply h he).elim (hst.owners i e) (hsample _)

namespace PrunedFrom

/-- The two caches of one row, where the entry of the event is in both or in neither. -/
private theorem row {l m : List OwnerCacheEntry} (h : Pruned (OwnerCacheEntry.Expired clock) l m)
    (allocated : Bool) (fresh : OwnerCacheEntry)
    (hone : l.Pairwise fun a b => sameEvent fresh.key a = true → sameEvent fresh.key b = false)
    (hsame : l.any (sameEvent fresh.key) = true → m.any (sameEvent fresh.key) = true) :
    Pruned (OwnerCacheEntry.Expired clock) (cachedRow allocated fresh l) (cachedRow allocated fresh m) := by
  rw [cachedRow, cachedRow]
  by_cases hl : l.any (sameEvent fresh.key) = true
  · rw [if_pos hl, if_pos (hsame hl)]
    refine h.map (fun a ha => ?_) hone hsame
    rw [ha]
    exact if_neg Bool.false_ne_true
  · have hm : ¬ m.any (sameEvent fresh.key) = true := by
      intro hm
      obtain ⟨e, he, htest⟩ := List.any_eq_true.mp hm
      exact hl (List.any_eq_true.mpr ⟨e, h.sublist.subset he, htest⟩)
    rw [if_neg hl, if_neg hm]
    split
    · exact h.keep
    · exact h

/-- Both caches keep the entries that pass one test. -/
private theorem of_drops {s' u' : OwnerCaches} (h : PrunedFrom clock s u) {p : PidCacheEntry → Prop}
    (hs : ∀ e, s'.HoldsPid e ↔ s.HoldsPid e ∧ p e) (hu : ∀ e, u'.HoldsPid e ↔ u.HoldsPid e ∧ p e)
    (hrows : ∀ i, Pruned (OwnerCacheEntry.Expired clock) (u'.owners i) (s'.owners i)) : PrunedFrom clock s' u' where
  held e he := (hu e).mpr (((hs e).mp he).imp_left (h.held e))
  missing e he := by
    obtain ⟨he, hp⟩ := (hu e).mp he
    exact (h.missing e he).imp_left fun he => (hs e).mpr ⟨he, hp⟩
  rows := hrows

private theorem cachePid (h : PrunedFrom clock s u) (hs : s.Sound) (hu : u.Sound) (currentTime : UInt64)
    {alloc alloc' : Option Addr} (srcIp : UInt32) (srcPort : UInt16) (pid : UInt32) (isUdp : Bool)
    (hfresh : ∀ a, alloc = some a → a ∉ s.pids.live) (hfresh' : ∀ a, alloc' = some a → a ∉ u.pids.live)
    (hlike : alloc'.isSome = alloc.isSome)
    (hsame : alloc = none → u.HasPid srcIp srcPort isUdp → s.HasPid srcIp srcPort isUdp) :
    PrunedFrom clock (s.cachePid currentTime alloc srcIp srcPort pid isUdp)
      (u.cachePid currentTime alloc' srcIp srcPort pid isUdp) := by
  have hrows : ∀ i, Pruned (OwnerCacheEntry.Expired clock)
      ((u.cachePid currentTime alloc' srcIp srcPort pid isUdp).owners i)
      ((s.cachePid currentTime alloc srcIp srcPort pid isUdp).owners i) := by
    rw [cachePid_owners, cachePid_owners]
    exact h.rows
  by_cases hroom : alloc.isSome = true ∨ s.HasPid srcIp srcPort isUdp
  · have hroom' : alloc'.isSome = true ∨ u.HasPid srcIp srcPort isUdp :=
      hroom.imp (fun hsome => hlike.trans hsome) h.hasPid
    obtain ⟨_, hheld⟩ := holdsPid_cachePid hs.consistent hs.pids currentTime hfresh pid hroom
    obtain ⟨_, hheld'⟩ := holdsPid_cachePid hu.consistent hu.pids currentTime hfresh' pid hroom'
    refine ⟨fun e he => ?_, fun e he => ?_, hrows⟩
    · exact (hheld' e).mpr (((hheld e).mp he).imp_right (And.imp_left (h.held e)))
    · rcases (hheld' e).mp he with hnew | ⟨he, hfor⟩
      · exact .inl ((hheld e).mpr (.inl hnew))
      · exact (h.missing e he).imp_left fun he => (hheld e).mpr (.inr ⟨he, hfor⟩)
  · obtain ⟨hnone, hmissing⟩ := not_or.mp hroom
    obtain rfl := Option.not_isSome_iff_eq_none.mp hnone
    obtain rfl := Option.not_isSome_iff_eq_none.mp (hlike ▸ hnone)
    rw [cachePid_of_no_room hs.consistent currentTime pid hmissing,
      cachePid_of_no_room hu.consistent currentTime pid (fun hpid => hmissing (hsame rfl hpid))]
    exact h

private theorem cacheOwnerEvent (h : PrunedFrom clock s u) (hs : s.Sound) (hu : u.Sound) (now : UInt64)
    (allocated : Bool) (localAddr : Ip6) (localPort : UInt16) (remoteAddr : Ip6) (remotePort : UInt16) (isUdp : Bool)
    (pid : UInt32) (endpointId : UInt64) (sourceLayer : UInt8)
    (hsame : pid ≠ 0 ∧ localPort ≠ 0 →
      u.HasEvent ⟨endpointId, sourceLayer, localAddr, localPort, remoteAddr, remotePort, isUdp⟩ →
      s.HasEvent ⟨endpointId, sourceLayer, localAddr, localPort, remoteAddr, remotePort, isUdp⟩) :
    PrunedFrom clock
      (s.cacheOwnerEvent now allocated localAddr localPort remoteAddr remotePort isUdp pid endpointId sourceLayer)
      (u.cacheOwnerEvent now allocated localAddr localPort remoteAddr remotePort isUdp pid endpointId sourceLayer) := by
  by_cases hcall : pid ≠ 0 ∧ localPort ≠ 0
  · rw [cacheOwnerEvent_eq hs.owners _ _ _ _ _ _ _ _ _ hcall.1 hcall.2,
      cacheOwnerEvent_eq hu.owners _ _ _ _ _ _ _ _ _ hcall.1 hcall.2]
    refine ⟨h.held, h.missing, fun i => ?_⟩
    by_cases hi : i = ownerCacheHash localPort isUdp
    · subst hi
      simp only [Function.update_self]
      set k : OwnerKey := ⟨endpointId, sourceLayer, localAddr, localPort, remoteAddr, remotePort, isUdp⟩
      have hany : (u.owners (ownerCacheHash localPort isUdp)).any (sameEvent k) = true →
          (s.owners (ownerCacheHash localPort isUdp)).any (sameEvent k) = true :=
        fun hany => (hs.owners.any_iff k).mpr (hsame hcall ((hu.owners.any_iff k).mp hany))
      exact row (h.rows _) allocated ⟨localAddr, remoteAddr, localPort, remotePort, pid, endpointId, now, isUdp,
        sourceLayer⟩ (hu.owners.pairwise _ k) hany
    · simp only [Function.update_of_ne hi]
      exact h.rows i
  · rw [cacheOwnerEvent_of_no_owner hcall, cacheOwnerEvent_of_no_owner hcall]
    exact h

private theorem removeOwnerEventEndpoint (h : PrunedFrom clock s u) (hs : s.Sound) (hu : u.Sound)
    (endpointId : UInt64) (sourceLayer : UInt8) (hsame : ∀ e, s.HoldsPid e → e.isUdp = true →
      u.HoldsUdp endpointId sourceLayer e.srcPort → s.HoldsUdp endpointId sourceLayer e.srcPort) :
    PrunedFrom clock (s.removeOwnerEventEndpoint endpointId sourceLayer)
      (u.removeOwnerEventEndpoint endpointId sourceLayer) := by
  have hs' := holdsPid_removeOwnerEventEndpoint hs.consistent endpointId sourceLayer
  have hu' := holdsPid_removeOwnerEventEndpoint hu.consistent endpointId sourceLayer
  refine ⟨fun e he => ?_, fun e he => ?_, fun i => ?_⟩
  · obtain ⟨he, hopen⟩ := (hs' e).mp he
    exact (hu' e).mpr ⟨h.held e he, fun ⟨hudp, hevent⟩ => hopen ⟨hudp, hsame e he hudp hevent⟩⟩
  · obtain ⟨he, hopen⟩ := (hu' e).mp he
    exact (h.missing e he).imp_left fun he =>
      (hs' e).mpr ⟨he, fun ⟨hudp, hevent⟩ => hopen ⟨hudp, h.holdsUdp hevent⟩⟩
  · rw [(removeOwnerEventEndpoint_spec hs.consistent endpointId sourceLayer).2.1 i,
      (removeOwnerEventEndpoint_spec hu.consistent endpointId sourceLayer).2.1 i]
    exact (h.rows i).filter _

private theorem clearPidCache (h : PrunedFrom clock s u) (hs : s.Sound) (hu : u.Sound) :
    PrunedFrom clock s.clearPidCache u.clearPidCache := by
  refine h.of_drops (holdsPid_dropPids hs.consistent _) (holdsPid_dropPids hu.consistent _) fun i => ?_
  rw [OwnerCaches.clearPidCache, OwnerCaches.clearPidCache, (dropPids_spec hs.consistent _).2.1,
    (dropPids_spec hu.consistent _).2.1]
  exact h.rows i

private theorem removeCachedPid (h : PrunedFrom clock s u) (hs : s.Sound) (hu : u.Sound) (srcIp : UInt32)
    (srcPort : UInt16) (isUdp : Bool) :
    PrunedFrom clock (s.removeCachedPid srcIp srcPort isUdp) (u.removeCachedPid srcIp srcPort isUdp) := by
  refine h.of_drops (holdsPid_removeCachedPid hs.consistent hs.pids srcIp srcPort isUdp)
    (holdsPid_removeCachedPid hu.consistent hu.pids srcIp srcPort isUdp) fun i => ?_
  rw [removeCachedPid_owners, removeCachedPid_owners]
  exact h.rows i

private theorem cleanupStalePidCache (h : PrunedFrom clock s u) (hs : s.Sound) {now : UInt64} (hnow : now ≤ clock)
    (htime : s.CleansInTime clock (.cleanupStalePidCache now)) :
    PrunedFrom clock (s.cleanupStalePidCache now) u where
  held e he := h.held e ((holdsPid_dropPids hs.consistent _ e).mp he).1
  missing e he := by
    rcases h.missing e he with he' | hold
    · by_cases hage : pidCacheTtlMs ≤ now - e.timestamp
      · exact .inr (le_age_of_sampled hage hnow (htime e he'))
      · exact .inl ((holdsPid_dropPids hs.consistent _ e).mpr ⟨he', decide_eq_false hage⟩)
    · exact .inr hold
  rows i := by
    rw [OwnerCaches.cleanupStalePidCache, (dropPids_spec hs.consistent _).2.1]
    exact h.rows i

private theorem cleanupStaleOwnerCache (h : PrunedFrom clock s u) {now : UInt64} (hnow : now ≤ clock)
    (htime : s.CleansInTime clock (.cleanupStaleOwnerCache now)) :
    PrunedFrom clock (s.cleanupStaleOwnerCache now) u where
  held := h.held
  missing := h.missing
  rows i := by
    refine (h.rows i).sweep fun e he hgone => ?_
    have hage : ownerCacheTtlMs ≤ now - e.timestamp := by simpa using hgone
    exact le_age_of_sampled hage hnow (htime i e he)

/-- A call on both caches, unless it is a pass, leaves them apart by expired entries only. -/
theorem apply (h : PrunedFrom clock s u) (hs : s.Sound) (hu : u.Sound) {op : OwnerOp} {alloc : Option Addr}
    (hfresh : ∀ a, op.alloc = some a → a ∉ s.pids.live) (hfresh' : ∀ a, alloc = some a → a ∉ u.pids.live)
    (hlike : alloc.isSome = op.alloc.isSome) (hsample : ∀ now, op.clockSample = some now → now ≤ clock)
    (htime : s.CleansInTime clock op) (hsame : s.FindsTheSame u op) :
    PrunedFrom clock (s.apply op) (if op.cleans then u else u.apply (op.realloc alloc)) := by
  cases op with
  | cachePid currentTime alloc₀ srcIp srcPort pid isUdp =>
    exact h.cachePid hs hu currentTime srcIp srcPort pid isUdp hfresh hfresh' hlike hsame
  | clearPidCache => exact h.clearPidCache hs hu
  | removeCachedPid srcIp srcPort isUdp => exact h.removeCachedPid hs hu srcIp srcPort isUdp
  | cleanupStalePidCache now => exact h.cleanupStalePidCache hs (hsample now rfl) htime
  | cacheOwnerEvent now allocated localAddr localPort remoteAddr remotePort isUdp pid endpointId sourceLayer =>
    exact h.cacheOwnerEvent hs hu now allocated localAddr localPort remoteAddr remotePort isUdp pid endpointId
      sourceLayer hsame
  | removeOwnerEventEndpoint endpointId sourceLayer =>
    exact h.removeOwnerEventEndpoint hs hu endpointId sourceLayer hsame
  | clearOwnerEventCache => exact ⟨h.held, h.missing, fun _ => .nil⟩
  | cleanupStaleOwnerCache now => exact h.cleanupStaleOwnerCache (hsample now rfl) htime

end PrunedFrom
/-- A locked section of the second loop frees the next stale entry. -/
theorem examine_spec (h : s.Sound) (nowCache : UInt64) {i : PidBucket} {entryPtr : Cursor PidBucket Addr}
    (hc : s.pids.links.Designates s.pids.live i entryPtr) :
    (s.examine nowCache entryPtr).2.owners = s.owners ∧ (s.examine nowCache entryPtr).2.PidsUnique ∧
    (∀ e, s.nextStale nowCache entryPtr = some e → s.HoldsPid e) ∧
    ∀ e, (s.examine nowCache entryPtr).2.HoldsPid e ↔ s.HoldsPid e ∧ s.nextStale nowCache entryPtr ≠ some e := by
  have hstop := fun a => ChainStore.WellChained.of_read_seek h.consistent hc (a := a)
    (p := fun a => decide (nowCache - (s.pids.node a).timestamp > 10000))
  have hstale := Links.search_eq_read_seek fun a ha => (hstop a ha).2
  rw [nextStale, hstale]
  simp only [examine]
  cases hread : s.pids.links.read (s.pids.links.seek
      (fun a => decide (nowCache - (s.pids.node a).timestamp > 10000)) s.pids.live.card entryPtr) with
  | none =>
    refine ⟨rfl, h.pids, fun e he => ?_, fun e => ⟨fun he => ⟨he, fun hnone => ?_⟩, And.left⟩⟩
    · cases he
    · cases hnone
  | some a =>
    obtain ⟨ha, _⟩ := hstop a hread
    refine ⟨rfl, h.pids.of_subset rfl (Finset.erase_subset _ _), fun e he => ⟨a, ha, Option.some.inj he⟩, fun e => ?_⟩
    refine (holdsPid_removeAt h.pids ha _ e).trans (and_congr_right fun _ => ?_)
    simp [eq_comm]

end OwnerCaches

end ProxyBridge.Windows
