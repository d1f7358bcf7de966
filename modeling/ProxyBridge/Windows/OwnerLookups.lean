import ProxyBridge.Library.Runs
import ProxyBridge.Windows.PidCache

/-! The lookup in the cache of owner events. It scans one bucket for the best entry, and stops early
at one that is exact at both ends. -/
namespace ProxyBridge.Windows
open Runs

/-- What a cached event is told apart by. -/
structure OwnerKey where
  endpointId : UInt64
  sourceLayer : UInt8
  localAddr : Ip6
  localPort : UInt16
  remoteAddr : Ip6
  remotePort : UInt16
  isUdp : Bool

def OwnerCacheEntry.key (e : OwnerCacheEntry) : OwnerKey :=
  ⟨e.endpointId, e.sourceLayer, e.localAddr, e.localPort, e.remoteAddr, e.remotePort, e.isUdp⟩

/-- The arguments of `get_owner_event_pid`. -/
structure OwnerQuery where
  localAddr : Ip6
  localPort : UInt16
  remoteAddr : Ip6
  remotePort : UInt16
  isUdp : Bool

namespace OwnerQuery

/-- The loop over a bucket, with the best score so far and its process. -/
def scan (q : OwnerQuery) (now : UInt64) : List OwnerCacheEntry → Int → UInt32 → UInt32
  | [], _, pid => pid
  | entry :: next, bestScore, pid =>
    if entry.localPort != q.localPort || entry.isUdp != q.isUdp || decide (now - entry.timestamp ≥ ownerCacheTtlMs) then
      scan q now next bestScore pid
    else
      let localExact := entry.localAddr == q.localAddr
      let localWildcard := entry.localAddr == .zero
      if !localExact && !localWildcard then scan q now next bestScore pid
      else
        let remoteExact := entry.remotePort == q.remotePort && entry.remoteAddr == q.remoteAddr
        let remoteWildcard := entry.remotePort == 0 && entry.remoteAddr == .zero
        if !remoteExact && !remoteWildcard then scan q now next bestScore pid
        else
          let score : Int := (if localExact then 2 else 0) + (if remoteExact then 2 else 0)
          if score > bestScore then
            if score == 4 then entry.pid else scan q now next score entry.pid
          else scan q now next bestScore pid

/-- An unexpired entry for the local port and the protocol, with each end equal or unspecified. -/
structure Fits (q : OwnerQuery) (now : UInt64) (e : OwnerCacheEntry) : Prop where
  localPort : e.localPort = q.localPort
  isUdp : e.isUdp = q.isUdp
  unexpired : now - e.timestamp < ownerCacheTtlMs
  localAddr : e.localAddr = q.localAddr ∨ e.localAddr = .zero
  remote : (e.remotePort = q.remotePort ∧ e.remoteAddr = q.remoteAddr) ∨ (e.remotePort = 0 ∧ e.remoteAddr = .zero)

def score (q : OwnerQuery) (e : OwnerCacheEntry) : Int :=
  (if e.localAddr = q.localAddr then 2 else 0) +
    (if e.remotePort = q.remotePort ∧ e.remoteAddr = q.remoteAddr then 2 else 0)

variable (q : OwnerQuery) (now : UInt64)

theorem score_bounds (e : OwnerCacheEntry) : 0 ≤ q.score e ∧ q.score e ≤ 4 := by
  unfold score
  split <;> split <;> decide

/-- One turn of the loop. -/
theorem scan_cons_of_fits {e : OwnerCacheEntry} (h : q.Fits now e) (row : List OwnerCacheEntry) (best : Int)
    (pid : UInt32) : q.scan now (e :: row) best pid =
      if q.score e > best then if q.score e = 4 then e.pid else q.scan now row (q.score e) e.pid
      else q.scan now row best pid := by
  obtain ⟨hport, hudp, hage, hlocal, hremote⟩ := h
  have hlocal' : (!(e.localAddr == q.localAddr) && !(e.localAddr == .zero)) = false := by
    rcases hlocal with h | h <;> simp [h]
  have hremote' : (!(e.remotePort == q.remotePort && e.remoteAddr == q.remoteAddr) &&
      !(e.remotePort == 0 && e.remoteAddr == .zero)) = false := by
    rcases hremote with ⟨h, h'⟩ | ⟨h, h'⟩ <;> simp [h, h']
  have hold : (e.localPort != q.localPort || e.isUdp != q.isUdp || decide (now - e.timestamp ≥ ownerCacheTtlMs)) =
      false := by
    simp [hport, hudp, hage]
  have hscore : ((if e.localAddr == q.localAddr then 2 else 0) +
      (if e.remotePort == q.remotePort && e.remoteAddr == q.remoteAddr then 2 else 0) : Int) = q.score e := by
    simp [score]
  rw [scan]
  simp only [hold, hlocal', hremote', Bool.false_eq_true, if_false, hscore]
  simp only [beq_iff_eq]

theorem scan_cons_of_not_fits {e : OwnerCacheEntry} (h : ¬ q.Fits now e) (row : List OwnerCacheEntry) (best : Int)
    (pid : UInt32) : q.scan now (e :: row) best pid = q.scan now row best pid := by
  rw [scan]
  split
  · rfl
  · rename_i hold
    simp only
    split
    · rfl
    · rename_i hlocal
      split
      · rfl
      · rename_i hremote
        exfalso
        apply h
        simp only [Bool.or_eq_true, bne_iff_ne, ne_eq, decide_eq_true_eq, not_or, Decidable.not_not, ge_iff_le,
          UInt64.not_le] at hold
        refine ⟨hold.1.1, hold.1.2, hold.2, ?_, ?_⟩
        · simpa only [← Bool.not_or, Bool.not_eq_true', Bool.not_eq_false, Bool.or_eq_true, beq_iff_eq] using hlocal
        · simpa only [← Bool.not_or, Bool.not_eq_true', Bool.not_eq_false, Bool.or_eq_true, Bool.and_eq_true,
            beq_iff_eq] using hremote

/-- What the loop finds: nothing better than what it has, or the best of the entries that fit. -/
theorem scan_spec (row : List OwnerCacheEntry) (best : Int) (pid : UInt32) :
    (q.scan now row best pid = pid ∧ ∀ e ∈ row, q.Fits now e → q.score e ≤ best) ∨
    ∃ e ∈ row, q.Fits now e ∧ q.scan now row best pid = e.pid ∧ best < q.score e ∧
      ∀ f ∈ row, q.Fits now f → q.score f ≤ q.score e := by
  induction row generalizing best pid with
  | nil => exact .inl ⟨rfl, fun e he => nomatch he⟩
  | cons e row ih =>
    by_cases hfits : q.Fits now e
    · rw [q.scan_cons_of_fits now hfits]
      split
      · rename_i hbetter
        split
        · rename_i htop
          refine .inr ⟨e, List.mem_cons_self, hfits, rfl, hbetter, fun f _ _ => ?_⟩
          rw [htop]
          exact (q.score_bounds f).2
        · rcases ih (q.score e) e.pid with ⟨hpid, hmax⟩ | ⟨e', he', hfits', hpid, hlt, hmax⟩
          · exact .inr ⟨e, List.mem_cons_self, hfits, hpid, hbetter,
              List.forall_mem_cons.mpr ⟨fun _ => Int.le_refl _, hmax⟩⟩
          · exact .inr ⟨e', List.mem_cons_of_mem _ he', hfits', hpid, Int.lt_trans hbetter hlt,
              List.forall_mem_cons.mpr ⟨fun _ => Int.le_of_lt hlt, hmax⟩⟩
      · rename_i hworse
        have hle : q.score e ≤ best := Int.not_lt.mp hworse
        rcases ih best pid with ⟨hpid, hmax⟩ | ⟨e', he', hfits', hpid, hlt, hmax⟩
        · exact .inl ⟨hpid, List.forall_mem_cons.mpr ⟨fun _ => hle, hmax⟩⟩
        · exact .inr ⟨e', List.mem_cons_of_mem _ he', hfits', hpid, hlt,
            List.forall_mem_cons.mpr ⟨fun _ => Int.le_trans hle (Int.le_of_lt hlt), hmax⟩⟩
    · rw [q.scan_cons_of_not_fits now hfits]
      rcases ih best pid with ⟨hpid, hmax⟩ | ⟨e', he', hfits', hpid, hlt, hmax⟩
      · exact .inl ⟨hpid, List.forall_mem_cons.mpr ⟨fun h => absurd h hfits, hmax⟩⟩
      · exact .inr ⟨e', List.mem_cons_of_mem _ he', hfits', hpid, hlt,
          List.forall_mem_cons.mpr ⟨fun h => absurd h hfits, hmax⟩⟩

end OwnerQuery

namespace OwnerCaches

def getOwnerEventPid (s : OwnerCaches) (now : UInt64) (q : OwnerQuery) : UInt32 :=
  q.scan now (s.owners (ownerCacheHash q.localPort q.isUdp)) (-1) 0

/-- A call with a node to allocate is given one that is not in use. -/
def Admissible (s : OwnerCaches) (op : OwnerOp) : Prop := ∀ a, op.alloc = some a → a ∉ s.pids.live

/-- The caches that the calls build up from empty ones. -/
def Built (s : OwnerCaches) : Prop := Reach (fun s op => some (s.apply op)) Admissible .empty s

/-- Every event lies in the bucket of its local port and protocol, and no bucket has two of one key. -/
structure OwnersPlaced (s : OwnerCaches) : Prop where
  bucket : ∀ i, ∀ e ∈ s.owners i, ownerCacheHash e.localPort e.isUdp = i
  nodup : ∀ i, ((s.owners i).map (·.key)).Nodup

variable {s s' : OwnerCaches}

theorem OwnersPlaced.of_sublist (h : s.OwnersPlaced) (hsub : ∀ i, (s'.owners i).Sublist (s.owners i)) :
    s'.OwnersPlaced :=
  ⟨fun i e he => h.bucket i e ((hsub i).subset he), fun i => (h.nodup i).sublist ((hsub i).map _)⟩

/-- A bucket holds at most one event of a key, and no other bucket holds one. -/
theorem OwnersPlaced.unique (h : s.OwnersPlaced) {i j : OwnerBucket} {e f : OwnerCacheEntry} (he : e ∈ s.owners i)
    (hf : f ∈ s.owners j) (hkey : e.key = f.key) : i = j := by
  rw [← h.bucket i e he, ← h.bucket j f hf, show e.localPort = f.localPort from congrArg OwnerKey.localPort hkey,
    show e.isUdp = f.isUdp from congrArg OwnerKey.isUdp hkey]

theorem OwnersPlaced.update (h : s.OwnersPlaced) {i : OwnerBucket} {row : List OwnerCacheEntry}
    (hbucket : ∀ e ∈ row, ownerCacheHash e.localPort e.isUdp = i) (hnodup : (row.map (·.key)).Nodup) :
    OwnersPlaced { s with owners := Function.update s.owners i row } := by
  constructor
  · intro j e he
    by_cases hj : j = i
    · subst hj
      exact hbucket e (by simpa using he)
    · exact h.bucket j e (by simpa [Function.update_of_ne hj] using he)
  · intro j
    by_cases hj : j = i
    · subst hj
      simpa using hnodup
    · simpa [Function.update_of_ne hj] using h.nodup j

/-- Refreshing an entry leaves the keys of its row. -/
private theorem keys_refresh (row : List OwnerCacheEntry) (n : Nat) (pid : UInt32) (now : UInt64) :
    (row.modify n (fun e => { e with pid := pid, timestamp := now })).map (·.key) = row.map (·.key) := by
  apply List.ext_getElem?
  intro m
  rw [List.getElem?_map, List.getElem?_map, List.getElem?_modify]
  cases row[m]? with
  | none => rfl
  | some e => split <;> rfl

private theorem bucket_refresh {row : List OwnerCacheEntry} {i : OwnerBucket}
    (hbucket : ∀ e ∈ row, ownerCacheHash e.localPort e.isUdp = i) (n : Nat) (pid : UInt32) (now : UInt64) :
    ∀ e ∈ row.modify n (fun e => { e with pid := pid, timestamp := now }),
      ownerCacheHash e.localPort e.isUdp = i := by
  intro e he
  obtain ⟨m, hm⟩ := List.getElem?_of_mem he
  rw [List.getElem?_modify] at hm
  obtain ⟨e₀, he₀, rfl⟩ := Option.map_eq_some_iff.mp hm
  split <;> exact hbucket e₀ (List.mem_of_getElem? he₀)

theorem OwnersPlaced.cacheOwnerEvent (h : s.OwnersPlaced) (now : UInt64) (allocated : Bool) (localAddr : Ip6)
    (localPort : UInt16) (remoteAddr : Ip6) (remotePort : UInt16) (isUdp : Bool) (pid : UInt32) (endpointId : UInt64)
    (sourceLayer : UInt8) : (s.cacheOwnerEvent now allocated localAddr localPort remoteAddr remotePort isUdp pid
      endpointId sourceLayer).OwnersPlaced := by
  simp only [OwnerCaches.cacheOwnerEvent]
  split
  · exact h
  set row := s.owners (ownerCacheHash localPort isUdp)
  have hbucket : ∀ e ∈ row, ownerCacheHash e.localPort e.isUdp = ownerCacheHash localPort isUdp := h.bucket _
  have hnodup : (row.map (·.key)).Nodup := h.nodup _
  split
  · rename_i n _
    refine h.update (bucket_refresh hbucket n pid now) ?_
    rw [keys_refresh]
    exact hnodup
  · rename_i hnone
    split
    · refine h.update (List.forall_mem_cons.mpr ⟨rfl, hbucket⟩) (List.nodup_cons.mpr ⟨fun hmem => ?_, hnodup⟩)
      obtain ⟨e, he, hkey⟩ := List.mem_map.mp hmem
      have hdiffers := List.findIdx?_eq_none_iff.mp hnone e he
      simp only [OwnerCacheEntry.key, OwnerKey.mk.injEq] at hkey
      obtain ⟨hid, hlayer, hla, hlp, hra, hrp, hudp⟩ := hkey
      simp [hid, hlayer, hla, hlp, hra, hrp, hudp] at hdiffers
    · exact h.update hbucket hnodup

theorem OwnersPlaced.apply (h : s.OwnersPlaced) (hc : s.Consistent) (op : OwnerOp) : (s.apply op).OwnersPlaced := by
  have hdrop : ∀ p, (s.dropPids p).OwnersPlaced := by
    intro p
    exact h.of_sublist (fun i => by rw [(dropPids_spec hc p).2.1])
  cases op with
  | cachePid currentTime alloc srcIp srcPort pid isUdp =>
    simp only [OwnerCaches.apply, cachePid]
    split
    · exact h.of_sublist (fun i => .refl _)
    · split <;> exact h.of_sublist (fun i => .refl _)
  | clearPidCache => exact hdrop _
  | removeCachedPid srcIp srcPort isUdp =>
    simp only [OwnerCaches.apply, removeCachedPid]
    split <;> exact h.of_sublist (fun i => .refl _)
  | cleanupStalePidCache now => exact hdrop _
  | cacheOwnerEvent now allocated localAddr localPort remoteAddr remotePort isUdp pid endpointId sourceLayer =>
    exact h.cacheOwnerEvent now allocated localAddr localPort remoteAddr remotePort isUdp pid endpointId sourceLayer
  | removeOwnerEventEndpoint endpointId sourceLayer =>
    refine h.of_sublist (fun i => ?_)
    rw [OwnerCaches.apply, (removeOwnerEventEndpoint_spec hc endpointId sourceLayer).2.1 i]
    exact List.filter_sublist
  | clearOwnerEventCache => exact h.of_sublist (fun i => List.nil_sublist _)
  | cleanupStaleOwnerCache now => exact h.of_sublist (fun i => List.filter_sublist)

theorem Built.invariant (h : s.Built) : s.Consistent ∧ s.OwnersPlaced := by
  induction h with
  | start => exact ⟨consistent_empty, fun i e he => (nomatch he), fun i => .nil⟩
  | next _ hop hs ih =>
    obtain ⟨hc, hp⟩ := ih
    obtain rfl := Option.some.inj hs
    exact ⟨(hc.apply hop).1, hp.apply hc _⟩

/-- The scan of one bucket answers for the whole cache: 0 if nothing fits, and else the process of an
entry with the best score of all. No two entries have one key. -/
theorem owner_event_pid_maximal (h : s.Built) (now : UInt64) (q : OwnerQuery) :
    ((∀ i, ∀ e ∈ s.owners i, ¬ q.Fits now e) → s.getOwnerEventPid now q = 0) ∧
    ((∃ i, ∃ e ∈ s.owners i, q.Fits now e) → ∃ i, ∃ e ∈ s.owners i, q.Fits now e ∧
      s.getOwnerEventPid now q = e.pid ∧ ∀ j, ∀ f ∈ s.owners j, q.Fits now f → q.score f ≤ q.score e) ∧
    (∀ i, ((s.owners i).map (·.key)).Nodup) ∧
    ∀ i j, ∀ e ∈ s.owners i, ∀ f ∈ s.owners j, e.key = f.key → i = j ∧ e = f := by
  obtain ⟨_, hplaced⟩ := h.invariant
  have hbucket : ∀ i, ∀ e ∈ s.owners i, q.Fits now e → e ∈ s.owners (ownerCacheHash q.localPort q.isUdp) := by
    intro i e he hfits
    rw [← hfits.localPort, ← hfits.isUdp, hplaced.bucket i e he]
    exact he
  refine ⟨fun hnone => ?_, fun ⟨i, e, he, hfits⟩ => ?_, hplaced.nodup, fun i j e he f hf hkey => ?_⟩
  · rcases q.scan_spec now (s.owners (ownerCacheHash q.localPort q.isUdp)) (-1) 0 with
      ⟨hpid, _⟩ | ⟨e, he, hfits, _⟩
    · exact hpid
    · exact absurd hfits (hnone _ e he)
  · rcases q.scan_spec now (s.owners (ownerCacheHash q.localPort q.isUdp)) (-1) 0 with
      ⟨_, hmax⟩ | ⟨e', he', hfits', hpid, _, hmax⟩
    · have hle := hmax e (hbucket i e he hfits) hfits
      have hpos := (q.score_bounds e).1
      omega
    · exact ⟨_, e', he', hfits', hpid, fun j f hf hfits => hmax f (hbucket j f hf hfits) hfits⟩
  · obtain rfl := hplaced.unique he hf hkey
    exact ⟨rfl, List.inj_on_of_nodup_map (hplaced.nodup i) he hf hkey⟩

theorem owner_event_pid_maximal_wildcard :
    let s := OwnerCaches.empty.apply (.cacheOwnerEvent 5 true .zero 53 .zero 0 true 7 1 3)
    ∃ i, ∃ e ∈ s.owners i, s.getOwnerEventPid 6 ⟨Vector.replicate 16 1, 53, .zero, 443, true⟩ = e.pid := by
  intro s
  have hbuilt : s.Built :=
    Reach.start.next (a := .cacheOwnerEvent 5 true .zero 53 .zero 0 true 7 1 3) (fun a ha => nomatch ha) rfl
  obtain ⟨i, e, he, _, hpid, _⟩ := (owner_event_pid_maximal hbuilt 6 ⟨Vector.replicate 16 1, 53, .zero, 443, true⟩).2.1
    ⟨ownerCacheHash 53 true, ⟨.zero, .zero, 53, 0, 7, 1, 5, true, 3⟩, by simp [s, apply, cacheOwnerEvent, empty],
      rfl, rfl, by decide, .inr rfl, .inr ⟨rfl, rfl⟩⟩
  exact ⟨i, e, he, hpid⟩

end OwnerCaches

end ProxyBridge.Windows
