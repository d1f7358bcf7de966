import ProxyBridge.Library.PrunedLists
import ProxyBridge.Windows.CleanupCursor
import ProxyBridge.Windows.OwnerLookups
import ProxyBridge.Windows.OwnerTables

/-! What the calls on the two owner caches do to the entries they hold, apart from the nodes and the
links that hold them. -/
namespace ProxyBridge.Windows
open IntrusiveChains Runs PrunedLists

theorem PidCacheEntry.isFor_iff {srcIp : UInt32} {srcPort : UInt16} {isUdp : Bool} {e : PidCacheEntry} :
    e.isFor srcIp srcPort isUdp = true ↔ e.srcIp = srcIp ∧ e.srcPort = srcPort ∧ e.isUdp = isUdp := by
  simp [isFor, and_assoc]

namespace OwnerCaches

/-- `pid_cache` has an entry with this content. -/
def HoldsPid (s : OwnerCaches) (e : PidCacheEntry) : Prop := ∃ a ∈ s.pids.live, s.pids.node a = e

theorem not_holdsPid_of_empty {s : OwnerCaches} (h : s.pids.live = ∅) (e : PidCacheEntry) : ¬ s.HoldsPid e := by
  rintro ⟨a, ha, _⟩
  rw [h] at ha
  exact Finset.notMem_empty a ha

/-- `pid_cache` has an entry for the endpoint. -/
def HasPid (s : OwnerCaches) (srcIp : UInt32) (srcPort : UInt16) (isUdp : Bool) : Prop :=
  ∃ e, s.HoldsPid e ∧ e.isFor srcIp srcPort isUdp = true

/-- No two nodes of `pid_cache` are for one endpoint. -/
def PidsUnique (s : OwnerCaches) : Prop := ∀ a ∈ s.pids.live, ∀ b ∈ s.pids.live,
  (s.pids.node a).isFor (s.pids.node b).srcIp (s.pids.node b).srcPort (s.pids.node b).isUdp = true → a = b

/-- What every call keeps: intact chains, and one entry for each endpoint and for each event. -/
structure Sound (s : OwnerCaches) : Prop where
  consistent : s.Consistent
  pids : s.PidsUnique
  owners : s.OwnersPlaced

section Pids
variable {s : OwnerCaches} {srcIp : UInt32} {srcPort : UInt16} {isUdp : Bool}

private theorem hash_of_isFor {e : PidCacheEntry} (h : e.isFor srcIp srcPort isUdp = true) :
    e.hash = pidCacheHash srcIp srcPort isUdp := by
  obtain ⟨rfl, rfl, rfl⟩ := PidCacheEntry.isFor_iff.mp h
  rfl

/-- The search that the calls for one endpoint begin with. -/
def findPid (s : OwnerCaches) (srcIp : UInt32) (srcPort : UInt16) (isUdp : Bool) : Option Addr :=
  s.pids.links.search (fun a => (s.pids.node a).isFor srcIp srcPort isUdp) s.pids.live.card
    (s.pids.links.head (pidCacheHash srcIp srcPort isUdp))

theorem findPid_cases (h : s.Consistent) (srcIp : UInt32) (srcPort : UInt16) (isUdp : Bool) :
    (∃ a ∈ s.pids.live, s.findPid srcIp srcPort isUdp = some a ∧ (s.pids.node a).isFor srcIp srcPort isUdp = true) ∨
    (s.findPid srcIp srcPort isUdp = none ∧ ∀ e, s.HoldsPid e → e.isFor srcIp srcPort isUdp = false) := by
  obtain ⟨-, hsome, hnone⟩ := ChainStore.WellChained.search_spec h (i := pidCacheHash srcIp srcPort isUdp)
    (p := fun a => (s.pids.node a).isFor srcIp srcPort isUdp) (fun _ _ => hash_of_isFor)
  cases hfind : s.findPid srcIp srcPort isUdp with
  | none =>
    refine .inr ⟨rfl, ?_⟩
    rintro e ⟨a, ha, rfl⟩
    exact hnone hfind a ha
  | some a =>
    obtain ⟨ha, hfor⟩ := hsome a hfind
    exact .inl ⟨a, ha, rfl, hfor⟩

theorem read_seek_findPid (h : s.Consistent) (srcIp : UInt32) (srcPort : UInt16) (isUdp : Bool) :
    s.pids.links.read (s.pids.links.seek (fun a => (s.pids.node a).isFor srcIp srcPort isUdp) s.pids.live.card
      (.bucket (pidCacheHash srcIp srcPort isUdp))) = s.findPid srcIp srcPort isUdp :=
  (ChainStore.WellChained.search_spec h (fun _ _ => hash_of_isFor)).1

/-- Of two entries for one endpoint the cache holds one only. -/
theorem PidsUnique.eq (hu : s.PidsUnique) {e f : PidCacheEntry} (he : s.HoldsPid e) (hf : s.HoldsPid f)
    (hfor : e.isFor srcIp srcPort isUdp = true) (hfor' : f.isFor srcIp srcPort isUdp = true) : e = f := by
  obtain ⟨a, ha, rfl⟩ := he
  obtain ⟨b, hb, rfl⟩ := hf
  obtain ⟨rfl, rfl, rfl⟩ := PidCacheEntry.isFor_iff.mp hfor'
  rw [hu a ha b hb hfor]

theorem getCachedPid_of_holds (h : s.Consistent) (hu : s.PidsUnique) {e : PidCacheEntry} (he : s.HoldsPid e)
    (hfor : e.isFor srcIp srcPort isUdp = true) (now : UInt64) :
    s.getCachedPid now srcIp srcPort isUdp = if now - e.timestamp < pidCacheTtlMs then e.pid else 0 := by
  rcases findPid_cases h srcIp srcPort isUdp with ⟨a, ha, hfind, hfor'⟩ | ⟨-, hmissing⟩
  · rw [findPid] at hfind
    rw [getCachedPid, hfind, hu.eq he ⟨a, ha, rfl⟩ hfor hfor']
  · rw [hmissing e he] at hfor
    cases hfor

theorem getCachedPid_of_missing (h : s.Consistent)
    (hmissing : ∀ e, s.HoldsPid e → e.isFor srcIp srcPort isUdp = false) (now : UInt64) :
    s.getCachedPid now srcIp srcPort isUdp = 0 := by
  rcases findPid_cases h srcIp srcPort isUdp with ⟨a, ha, -, hfor⟩ | ⟨hfind, -⟩
  · rw [hmissing _ ⟨a, ha, rfl⟩] at hfor
    cases hfor
  · rw [findPid] at hfind
    rw [getCachedPid, hfind]

theorem PidsUnique.of_subset {s' : OwnerCaches} (hu : s.PidsUnique) (hnode : s'.pids.node = s.pids.node)
    (hlive : s'.pids.live ⊆ s.pids.live) : s'.PidsUnique := by
  intro a ha b hb
  rw [hnode]
  exact hu a (hlive ha) b (hlive hb)

theorem holdsPid_dropPids (h : s.Consistent) (p : PidCacheEntry → Bool) (e : PidCacheEntry) :
    (s.dropPids p).HoldsPid e ↔ s.HoldsPid e ∧ p e = false := by
  obtain ⟨_, _, hn, hl⟩ := dropPids_spec h p
  constructor
  · rintro ⟨a, ha, rfl⟩
    rw [hn]
    obtain ⟨ha, hp⟩ := (hl a).mp ha
    exact ⟨⟨a, ha, rfl⟩, hp⟩
  · rintro ⟨⟨a, ha, rfl⟩, hp⟩
    exact ⟨a, (hl a).mpr ⟨ha, hp⟩, by rw [hn]⟩

theorem holdsPid_removeOwnerEventEndpoint (h : s.Consistent) (endpointId : UInt64) (sourceLayer : UInt8)
    (e : PidCacheEntry) :
    (s.removeOwnerEventEndpoint endpointId sourceLayer).HoldsPid e ↔
      s.HoldsPid e ∧ ¬ (e.isUdp = true ∧ s.HoldsUdp endpointId sourceLayer e.srcPort) := by
  obtain ⟨_, _, hn, hl⟩ := removeOwnerEventEndpoint_spec h endpointId sourceLayer
  constructor
  · rintro ⟨a, ha, rfl⟩
    rw [hn]
    obtain ⟨ha, hp⟩ := (hl a).mp ha
    exact ⟨⟨a, ha, rfl⟩, hp⟩
  · rintro ⟨⟨a, ha, rfl⟩, hp⟩
    exact ⟨a, (hl a).mpr ⟨ha, hp⟩, by rw [hn]⟩

/-- Freeing one node takes one entry out. -/
theorem holdsPid_removeAt (hu : s.PidsUnique) {a : Addr} (ha : a ∈ s.pids.live) (c : Cursor PidBucket Addr)
    (e : PidCacheEntry) :
    HoldsPid { s with pids := s.pids.removeAt c a } e ↔ s.HoldsPid e ∧ e ≠ s.pids.node a := by
  constructor
  · rintro ⟨b, hb, rfl⟩
    obtain ⟨hne, hb⟩ := Finset.mem_erase.mp hb
    refine ⟨⟨b, hb, rfl⟩, fun heq => hne (hu b hb a ha ?_)⟩
    have hcontent : s.pids.node b = s.pids.node a := heq
    rw [hcontent]
    exact PidCacheEntry.isFor_iff.mpr ⟨rfl, rfl, rfl⟩
  · rintro ⟨⟨b, hb, rfl⟩, hne⟩
    exact ⟨b, Finset.mem_erase.mpr ⟨fun heq => hne (by rw [heq]), hb⟩, rfl⟩

theorem holdsPid_removeCachedPid (h : s.Consistent) (hu : s.PidsUnique) (srcIp : UInt32) (srcPort : UInt16)
    (isUdp : Bool) (e : PidCacheEntry) :
    (s.removeCachedPid srcIp srcPort isUdp).HoldsPid e ↔ s.HoldsPid e ∧ e.isFor srcIp srcPort isUdp = false := by
  have hread := read_seek_findPid h srcIp srcPort isUdp
  rw [removeCachedPid]
  rcases findPid_cases h srcIp srcPort isUdp with ⟨a, ha, hfind, hfor⟩ | ⟨hfind, hmissing⟩
  · simp only [hread, hfind]
    refine (holdsPid_removeAt hu ha _ e).trans (and_congr_right fun he => ?_)
    constructor
    · intro hne
      by_contra hnot
      exact hne (hu.eq he ⟨a, ha, rfl⟩ ((Bool.not_eq_false _).mp hnot) hfor)
    · rintro hnot rfl
      rw [hfor] at hnot
      cases hnot
  · simp only [hread, hfind]
    exact (and_iff_left_of_imp (hmissing e)).symm

/-- One node is given the content of an endpoint that no other node is for. -/
private theorem holdsPid_put {s' : OwnerCaches} (x : Addr) (fresh : PidCacheEntry) (hu : s.PidsUnique)
    (hx : x ∈ s'.pids.live) (hfresh : s'.pids.node x = fresh) (hnode : ∀ c, c ≠ x → s'.pids.node c = s.pids.node c)
    (hlive : ∀ c, c ≠ x → (c ∈ s'.pids.live ↔ c ∈ s.pids.live))
    (hself : x ∈ s.pids.live → (s.pids.node x).isFor fresh.srcIp fresh.srcPort fresh.isUdp = true)
    (hother : ∀ c ∈ s.pids.live, c ≠ x → (s.pids.node c).isFor fresh.srcIp fresh.srcPort fresh.isUdp = false) :
    s'.PidsUnique ∧
      ∀ e, s'.HoldsPid e ↔ e = fresh ∨ (s.HoldsPid e ∧ e.isFor fresh.srcIp fresh.srcPort fresh.isUdp = false) := by
  constructor
  · intro c hc d hd hsame
    by_cases hcx : c = x
    · by_cases hdx : d = x
      · rw [hcx, hdx]
      · have hnot := hother d ((hlive d hdx).mp hd) hdx
        rw [hcx, hfresh, hnode d hdx] at hsame
        obtain ⟨hip, hport, hudp⟩ := PidCacheEntry.isFor_iff.mp hsame
        rw [PidCacheEntry.isFor_iff.mpr ⟨hip.symm, hport.symm, hudp.symm⟩] at hnot
        cases hnot
    · by_cases hdx : d = x
      · have hnot := hother c ((hlive c hcx).mp hc) hcx
        rw [hdx, hfresh, hnode c hcx] at hsame
        rw [hsame] at hnot
        cases hnot
      · rw [hnode c hcx, hnode d hdx] at hsame
        exact hu c ((hlive c hcx).mp hc) d ((hlive d hdx).mp hd) hsame
  · intro e
    constructor
    · rintro ⟨c, hc, rfl⟩
      by_cases hcx : c = x
      · rw [hcx]
        exact .inl hfresh
      · rw [hnode c hcx]
        have hc' := (hlive c hcx).mp hc
        exact .inr ⟨⟨c, hc', rfl⟩, hother c hc' hcx⟩
    · rintro (rfl | ⟨⟨c, hc, rfl⟩, hfor⟩)
      · exact ⟨x, hx, hfresh⟩
      · have hcx : c ≠ x := by
          rintro rfl
          rw [hself hc] at hfor
          cases hfor
        exact ⟨c, (hlive c hcx).mpr hc, hnode c hcx⟩

/-- Caching a process leaves one entry for its endpoint, if there was one or memory for it. -/
theorem holdsPid_cachePid (h : s.Consistent) (hu : s.PidsUnique) (now : UInt64) {alloc : Option Addr}
    (hfresh : ∀ a, alloc = some a → a ∉ s.pids.live) (pid : UInt32)
    (hroom : alloc.isSome = true ∨ s.HasPid srcIp srcPort isUdp) :
    (s.cachePid now alloc srcIp srcPort pid isUdp).PidsUnique ∧
    ∀ e, (s.cachePid now alloc srcIp srcPort pid isUdp).HoldsPid e ↔
      e = ⟨srcIp, srcPort, pid, now, isUdp⟩ ∨ (s.HoldsPid e ∧ e.isFor srcIp srcPort isUdp = false) := by
  rcases findPid_cases h srcIp srcPort isUdp with ⟨b, hb, hfind, hfor⟩ | ⟨hfind, hmissing⟩
  · rw [findPid] at hfind
    simp only [cachePid, hfind]
    obtain ⟨hip, hport, hudp⟩ := PidCacheEntry.isFor_iff.mp hfor
    refine holdsPid_put b ⟨srcIp, srcPort, pid, now, isUdp⟩ hu hb ?_ ?_ (fun _ _ => Iff.rfl)
      (fun _ => hfor) ?_
    · simp [ChainStore.modify, hip, hport, hudp]
    · intro c hc
      simp [ChainStore.modify, hc]
    · intro c hc hcb
      by_contra hnot
      refine hcb (hu c hc b hb ?_)
      rw [hip, hport, hudp]
      exact (Bool.not_eq_false _).mp hnot
  · have hsome : alloc.isSome = true := by
      refine hroom.resolve_right ?_
      rintro ⟨e, he, hfor⟩
      rw [hmissing e he] at hfor
      cases hfor
    obtain ⟨a, rfl⟩ := Option.isSome_iff_exists.mp hsome
    rw [findPid] at hfind
    rw [cachePid, hfind]
    refine holdsPid_put a ⟨srcIp, srcPort, pid, now, isUdp⟩ hu (Finset.mem_insert_self ..) ?_ ?_ ?_
      (fun hmem => absurd hmem (hfresh a rfl)) (fun c hc _ => hmissing _ ⟨c, hc, rfl⟩)
    · simp [ChainStore.push]
    · intro c hc
      simp [ChainStore.push, hc]
    · intro c hc
      simp [ChainStore.push, hc]

/-- Without either, nothing is cached. -/
theorem cachePid_of_no_room (h : s.Consistent) (now : UInt64) (pid : UInt32)
    (hmissing : ¬ s.HasPid srcIp srcPort isUdp) : s.cachePid now none srcIp srcPort pid isUdp = s := by
  rcases findPid_cases h srcIp srcPort isUdp with ⟨b, hb, -, hfor⟩ | ⟨hfind, -⟩
  · exact absurd ⟨_, ⟨b, hb, rfl⟩, hfor⟩ hmissing
  · rw [findPid] at hfind
    rw [cachePid, hfind]

theorem PidsUnique.apply (hu : s.PidsUnique) (h : s.Consistent) {op : OwnerOp}
    (hfresh : ∀ a, op.alloc = some a → a ∉ s.pids.live) : (s.apply op).PidsUnique := by
  have hdrop : ∀ p, (s.dropPids p).PidsUnique := by
    intro p
    obtain ⟨_, _, hn, hl⟩ := dropPids_spec h p
    exact hu.of_subset hn (fun a ha => ((hl a).mp ha).1)
  cases op with
  | cachePid currentTime alloc srcIp srcPort pid isUdp =>
    by_cases hroom : alloc.isSome = true ∨ s.HasPid srcIp srcPort isUdp
    · exact (holdsPid_cachePid h hu currentTime hfresh pid hroom).1
    · obtain ⟨hnone, hmissing⟩ := not_or.mp hroom
      obtain rfl := Option.not_isSome_iff_eq_none.mp hnone
      rw [OwnerCaches.apply, cachePid_of_no_room h currentTime pid hmissing]
      exact hu
  | clearPidCache => exact hdrop _
  | removeCachedPid srcIp srcPort isUdp =>
    simp only [OwnerCaches.apply, removeCachedPid]
    split
    · exact hu
    · exact hu.of_subset rfl (Finset.erase_subset _ _)
  | cleanupStalePidCache now => exact hdrop _
  | cacheOwnerEvent now allocated localAddr localPort remoteAddr remotePort isUdp pid endpointId sourceLayer =>
    simp only [OwnerCaches.apply, cacheOwnerEvent]
    split <;> exact hu
  | removeOwnerEventEndpoint endpointId sourceLayer =>
    obtain ⟨_, _, hn, hl⟩ := removeOwnerEventEndpoint_spec h endpointId sourceLayer
    exact hu.of_subset hn (fun a ha => ((hl a).mp ha).1)
  | clearOwnerEventCache => exact hu
  | cleanupStaleOwnerCache now => exact hu

theorem sound_empty : empty.Sound where
  consistent := consistent_empty
  pids a ha := absurd ha (Finset.notMem_empty a)
  owners := ⟨fun _ _ he => (nomatch he), fun _ => .nil⟩

theorem Sound.apply (h : s.Sound) {op : OwnerOp} (hfresh : ∀ a, op.alloc = some a → a ∉ s.pids.live) :
    (s.apply op).Sound where
  consistent := (h.consistent.apply hfresh).1
  pids := h.pids.apply h.consistent hfresh
  owners := h.owners.apply h.consistent op

end Pids

section Rows
variable {s : OwnerCaches}

/-- The comparison of `cache_owner_event` with the entries of a bucket. -/
def sameEvent (k : OwnerKey) (e : OwnerCacheEntry) : Bool :=
  e.endpointId == k.endpointId && e.sourceLayer == k.sourceLayer && e.localPort == k.localPort &&
    e.remotePort == k.remotePort && e.isUdp == k.isUdp && e.localAddr == k.localAddr && e.remoteAddr == k.remoteAddr

theorem sameEvent_iff {k : OwnerKey} {e : OwnerCacheEntry} : sameEvent k e = true ↔ e.key = k := by
  simp only [sameEvent, OwnerCacheEntry.key, Bool.and_eq_true, beq_iff_eq]
  cases k
  simp only [OwnerKey.mk.injEq]
  tauto

/-- What caching an event makes of its bucket: the entry is refreshed where it stands, or a new one
is put in front. -/
def cachedRow (allocated : Bool) (fresh : OwnerCacheEntry) (row : List OwnerCacheEntry) : List OwnerCacheEntry :=
  if row.any (sameEvent fresh.key) then
    row.map (fun e => if sameEvent fresh.key e then { e with pid := fresh.pid, timestamp := fresh.timestamp } else e)
  else if allocated then fresh :: row else row

theorem OwnersPlaced.pairwise (h : s.OwnersPlaced) (i : OwnerBucket) (k : OwnerKey) :
    (s.owners i).Pairwise fun a b => sameEvent k a = true → sameEvent k b = false := by
  refine (List.pairwise_map.mp (h.nodup i)).imp fun {a b} hne ha => ?_
  by_contra hb
  exact hne ((sameEvent_iff.mp ha).trans (sameEvent_iff.mp ((Bool.not_eq_false _).mp hb)).symm)

/-- `owner_cache` has an entry of this event. -/
def HasEvent (s : OwnerCaches) (k : OwnerKey) : Prop := ∃ i, ∃ e ∈ s.owners i, e.key = k

theorem OwnersPlaced.any_iff (h : s.OwnersPlaced) (k : OwnerKey) :
    (s.owners (ownerCacheHash k.localPort k.isUdp)).any (sameEvent k) = true ↔ s.HasEvent k := by
  rw [List.any_eq_true]
  constructor
  · rintro ⟨e, he, hsame⟩
    exact ⟨_, e, he, sameEvent_iff.mp hsame⟩
  · rintro ⟨i, e, he, rfl⟩
    have hi : ownerCacheHash e.key.localPort e.key.isUdp = i := h.bucket i e he
    rw [hi]
    exact ⟨e, he, sameEvent_iff.mpr rfl⟩

theorem cacheOwnerEvent_of_no_owner {pid : UInt32} {localPort : UInt16} (hnone : ¬ (pid ≠ 0 ∧ localPort ≠ 0))
    (now : UInt64) (allocated : Bool) (localAddr remoteAddr : Ip6) (remotePort : UInt16) (isUdp : Bool)
    (endpointId : UInt64) (sourceLayer : UInt8) :
    s.cacheOwnerEvent now allocated localAddr localPort remoteAddr remotePort isUdp pid endpointId sourceLayer = s := by
  have hcall : (pid == 0 || localPort == 0) = true := by
    simp only [Bool.or_eq_true, beq_iff_eq]
    tauto
  simp only [cacheOwnerEvent, hcall, if_true]

theorem cacheOwnerEvent_eq (h : s.OwnersPlaced) (now : UInt64) (allocated : Bool) (localAddr : Ip6)
    (localPort : UInt16) (remoteAddr : Ip6) (remotePort : UInt16) (isUdp : Bool) {pid : UInt32} (endpointId : UInt64)
    (sourceLayer : UInt8) (hpid : pid ≠ 0) (hport : localPort ≠ 0) :
    s.cacheOwnerEvent now allocated localAddr localPort remoteAddr remotePort isUdp pid endpointId sourceLayer =
      ⟨s.pids, Function.update s.owners (ownerCacheHash localPort isUdp) (cachedRow allocated
        ⟨localAddr, remoteAddr, localPort, remotePort, pid, endpointId, now, isUdp, sourceLayer⟩
        (s.owners (ownerCacheHash localPort isUdp)))⟩ := by
  have hcall : (pid == 0 || localPort == 0) = false := by simp [hpid, hport]
  simp only [cacheOwnerEvent, hcall, Bool.false_eq_true, if_false]
  congr 2
  set fresh : OwnerCacheEntry :=
    ⟨localAddr, remoteAddr, localPort, remotePort, pid, endpointId, now, isUdp, sourceLayer⟩
  have hone := h.pairwise (ownerCacheHash localPort isUdp) fresh.key
  rw [cachedRow]
  cases hfind : (s.owners (ownerCacheHash localPort isUdp)).findIdx? (sameEvent fresh.key) with
  | none =>
    have hany : (s.owners (ownerCacheHash localPort isUdp)).any (sameEvent fresh.key) = false := by
      rw [List.any_eq_false]
      intro e he
      simpa using List.findIdx?_eq_none_iff.mp hfind e he
    rw [hany]
    unfold sameEvent at hfind
    simp only [fresh, OwnerCacheEntry.key] at hfind
    simp only [hfind, Bool.false_eq_true, if_false]
  | some i =>
    have hany : (s.owners (ownerCacheHash localPort isUdp)).any (sameEvent fresh.key) = true := by
      rw [← List.findIdx?_isSome, hfind]
      rfl
    rw [if_pos hany, ← modify_findIdx_eq_map hfind hone]
    unfold sameEvent at hfind
    simp only [fresh, OwnerCacheEntry.key] at hfind
    simp only [hfind, fresh]

end Rows
end OwnerCaches
end ProxyBridge.Windows
