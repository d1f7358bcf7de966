import ProxyBridge.Library.TimedMaps
import ProxyBridge.Windows.DnsSnoop

/-! The DNS snoop cache over whole histories of stores, cleanup passes and ticks of the clock: two
tables of chains which together are one timed map from addresses to names. -/
namespace ProxyBridge.Windows
open CStrings TimedMaps

abbrev dnsCacheBuckets : Nat := 1024

/-- The body of the loop of `cleanup_stale_dns_cache`, for one bucket of both tables. -/
def DnsCaches.cleanupBucket (now : UInt64) (s : DnsCaches) (i : Nat) : DnsCaches :=
  let bucket := UInt32.ofNat i
  ⟨Function.update s.v4 bucket ((s.v4 bucket).filter (fun e => !decide (e.expireTick ≤ now))),
    Function.update s.v6 bucket ((s.v6 bucket).filter (fun e => !decide (e.expireTick ≤ now)))⟩

def DnsCaches.cleanupBuckets (s : DnsCaches) (now : UInt64) : DnsCaches :=
  (List.range dnsCacheBuckets).foldl (cleanupBucket now) s

/-- The calls that change the caches. `malloc` succeeds in a store. -/
inductive DnsCall where
  | store (answer : DnsAnswer) (domain : List UInt8)
  | cleanup
  | advance (ms : UInt64)

def DnsCall.isCleanup : DnsCall → Bool
  | .cleanup => true
  | _ => false

def DnsCall.elapsed : DnsCall → Nat
  | .advance ms => ms.toNat
  | _ => 0

/-- The milliseconds that pass during the calls. -/
def DnsCall.elapsedOver (calls : List DnsCall) : Nat := calls.foldr (fun c n => c.elapsed + n) 0

namespace DnsCall

@[simp] theorem elapsedOver_cons (c : DnsCall) (calls : List DnsCall) :
    elapsedOver (c :: calls) = c.elapsed + elapsedOver calls := rfl

@[simp] theorem isCleanup_store (answer : DnsAnswer) (domain : List UInt8) : (store answer domain).isCleanup = false :=
  rfl

@[simp] theorem isCleanup_cleanup : cleanup.isCleanup = true := rfl

@[simp] theorem isCleanup_advance (ms : UInt64) : (advance ms).isCleanup = false := rfl

end DnsCall

structure DnsHistory where
  caches : DnsCaches
  clock : UInt64

namespace DnsHistory

def init (clock : UInt64) : DnsHistory := ⟨.empty, clock⟩

def step (s : DnsHistory) : DnsCall → DnsHistory
  | .store answer domain => { s with caches := s.caches.store s.clock true domain answer }
  | .cleanup => { s with caches := s.caches.cleanupBuckets s.clock }
  | .advance ms => { s with clock := s.clock + ms }

def run (s : DnsHistory) (calls : List DnsCall) : DnsHistory := calls.foldl step s

def lookup (s : DnsHistory) (answer : DnsAnswer) : Option (List UInt8) := s.caches.lookup s.clock answer

end DnsHistory

/-! One table, of either family. -/
section Table
variable {α : Type} [BEq α] [LawfulBEq α]

/-- The entry that a chain holds for an address, with its name and the tick at which it expires. -/
def dnsChainEntry (chain : List (DnsCacheEntry α)) (ip : α) : Option (List UInt8 × Nat) :=
  (chain.find? (fun e => e.ip == ip)).map (fun e => (e.domain, e.expireTick.toNat))

/-- Each address has at most one entry of a table, in its own bucket. -/
structure DnsCache.Placed (bucket : α → UInt32) (cache : DnsCache α) : Prop where
  bucket : ∀ i, ∀ e ∈ cache i, bucket e.ip = i
  nodup : ∀ i, ((cache i).map (·.ip)).Nodup

/-- With one entry for each address, a condition on the entry may be tested before or after it is found. -/
private theorem find?_filter_of_nodup {chain : List (DnsCacheEntry α)} (h : (chain.map (·.ip)).Nodup)
    (p : DnsCacheEntry α → Bool) (ip : α) :
    (chain.filter p).find? (fun e => e.ip == ip) = (chain.find? (fun e => e.ip == ip)).filter p := by
  induction chain with
  | nil => rfl
  | cons e chain ih =>
    rw [List.map_cons, List.nodup_cons] at h
    by_cases hip : e.ip = ip
    · subst hip
      have hnone : (chain.filter p).find? (fun x => x.ip == e.ip) = none := by
        rw [List.find?_eq_none]
        intro x hx hxe
        exact h.1 (List.mem_map.mpr ⟨x, (List.mem_filter.mp hx).1, by simpa using hxe⟩)
      cases hp : p e with
      | true => simp [Option.filter_some, hp]
      | false => simp [Option.filter_some, hp, hnone]
    · have hskip : (chain.find? (fun x => x.ip == ip)).filter p =
          ((e :: chain).find? (fun x => x.ip == ip)).filter p := by simp [hip]
      rw [← hskip, ← ih h.2]
      cases hp : p e with
      | true => simp [hp, hip]
      | false => simp [hp]

theorem dnsChainLookup_eq {chain : List (DnsCacheEntry α)} (h : (chain.map (·.ip)).Nodup) (now : UInt64) (ip : α) :
    dnsChainLookup chain now ip =
      ((dnsChainEntry chain ip).filter (fun e => decide (now.toNat < e.2))).map (fun e => strncpyTruncate 256 e.1) := by
  have hfind : chain.find? (fun e => e.ip == ip && decide (e.expireTick > now)) =
      (chain.find? (fun e => e.ip == ip)).filter (fun e => decide (e.expireTick > now)) := by
    rw [← find?_filter_of_nodup h, List.find?_filter]
    congr 1
    funext e
    rw [Bool.and_comm]
    simp
  rw [dnsChainLookup, hfind, dnsChainEntry]
  cases chain.find? (fun e => e.ip == ip) with
  | none => rfl
  | some e =>
    simp only [Option.map_some, Option.filter_some, gt_iff_lt, UInt64.lt_iff_toNat_lt]
    split <;> rfl

/-- What a store does to the entries of a chain. -/
theorem dnsChainEntry_store (chain : List (DnsCacheEntry α)) (now : UInt64) (ip other : α) {domain : List UInt8}
    (hd : domain ≠ []) :
    dnsChainEntry (dnsChainStore chain now true ip domain) other =
      if other == ip then some (strncpyTruncate 256 domain, (now + dnsCacheTtlMs).toNat)
      else dnsChainEntry chain other := by
  unfold dnsChainEntry
  rcases dnsChainStore_cases chain now true ip hd with ⟨pre, e, post, hchain, hip, hpre, hstore⟩ | ⟨hnone, hstore⟩
  · rw [hstore, hchain, List.find?_append, List.find?_append]
    by_cases ho : other = ip
    · subst ho
      have hfind : pre.find? (fun x => x.ip == other) = none :=
        List.find?_eq_none.mpr (fun x hx => by simpa using hpre x hx)
      simp [hfind]
    · have hne : ip ≠ other := Ne.symm ho
      simp [ho, hne, hip]
  · rw [hstore]
    by_cases ho : other = ip
    · simp [ho]
    · have hne : ip ≠ other := Ne.symm ho
      simp [ho, hne]

/-- The same in the table, where the other addresses may lie in the same bucket. -/
theorem dnsTableEntry_store (bucket : α → UInt32) (cache : DnsCache α) (now : UInt64) (ip other : α)
    {domain : List UInt8} (hd : domain ≠ []) :
    dnsChainEntry (Function.update cache (bucket ip) (dnsChainStore (cache (bucket ip)) now true ip domain)
      (bucket other)) other =
      if other == ip then some (strncpyTruncate 256 domain, (now + dnsCacheTtlMs).toNat)
      else dnsChainEntry (cache (bucket other)) other := by
  by_cases hb : bucket other = bucket ip
  · rw [hb, Function.update_self]
    exact dnsChainEntry_store _ now ip other hd
  · have hne : other ≠ ip := fun e => hb (congrArg bucket e)
    rw [Function.update_of_ne hb, if_neg (by simpa using hne)]

theorem dnsChainEntry_cleanup {chain : List (DnsCacheEntry α)} (h : (chain.map (·.ip)).Nodup) (now : UInt64) (ip : α) :
    dnsChainEntry (chain.filter (fun e => !decide (e.expireTick ≤ now))) ip =
      (dnsChainEntry chain ip).filter (fun e => decide (now.toNat < e.2)) := by
  rw [dnsChainEntry, dnsChainEntry, find?_filter_of_nodup h]
  cases chain.find? (fun e => e.ip == ip) with
  | none => rfl
  | some e =>
    simp only [Option.map_some, Option.filter_some, UInt64.le_iff_toNat_le, ← Nat.not_lt, decide_not, Bool.not_not]
    split <;> rfl

/-- The addresses of a chain after a store. -/
private theorem dnsChainStore_ips (chain : List (DnsCacheEntry α)) (now : UInt64) (ip : α) (domain : List UInt8) :
    (dnsChainStore chain now true ip domain).map (·.ip) = chain.map (·.ip) ∨
    (ip ∉ chain.map (·.ip) ∧ (dnsChainStore chain now true ip domain).map (·.ip) = ip :: chain.map (·.ip)) := by
  by_cases hd : domain = []
  · exact .inl (by simp [dnsChainStore, hd])
  rcases dnsChainStore_cases chain now true ip hd with ⟨pre, e, post, hchain, hip, _, hstore⟩ | ⟨hnone, hstore⟩
  · exact .inl (by rw [hstore, hchain, List.map_append, List.map_append, List.map_cons, List.map_cons, hip])
  · refine .inr ⟨fun hmem => ?_, by simp [hstore]⟩
    obtain ⟨x, hx, hxip⟩ := List.mem_map.mp hmem
    exact hnone x hx hxip

namespace DnsCache.Placed
variable {bucket : α → UInt32} {cache : DnsCache α}

theorem store (h : cache.Placed bucket) (now : UInt64) (ip : α) (domain : List UInt8) :
    DnsCache.Placed bucket
      (Function.update cache (bucket ip) (dnsChainStore (cache (bucket ip)) now true ip domain)) := by
  have hips := dnsChainStore_ips (cache (bucket ip)) now ip domain
  constructor
  · intro i e he
    by_cases hi : i = bucket ip
    · subst hi
      rw [Function.update_self] at he
      have hmem := List.mem_map_of_mem (f := (·.ip)) he
      have hold : ∀ j ∈ (cache (bucket ip)).map (·.ip), bucket j = bucket ip := by
        intro j hj
        obtain ⟨x, hx, rfl⟩ := List.mem_map.mp hj
        exact h.bucket _ x hx
      rcases hips with heq | ⟨_, heq⟩
      · exact hold _ (heq ▸ hmem)
      · rw [heq] at hmem
        rcases List.mem_cons.mp hmem with hhead | htail
        · rw [hhead]
        · exact hold _ htail
    · rw [Function.update_of_ne hi] at he
      exact h.bucket i e he
  · intro i
    by_cases hi : i = bucket ip
    · subst hi
      rw [Function.update_self]
      rcases hips with heq | ⟨hnot, heq⟩
      · exact heq ▸ h.nodup _
      · exact heq ▸ List.nodup_cons.mpr ⟨hnot, h.nodup _⟩
    · rw [Function.update_of_ne hi]
      exact h.nodup i

omit [BEq α] [LawfulBEq α] in
theorem filter (h : cache.Placed bucket) (p : DnsCacheEntry α → Bool) :
    DnsCache.Placed bucket (fun i => (cache i).filter p) :=
  ⟨fun i e he => h.bucket i e (List.mem_filter.mp he).1, fun i => (h.nodup i).sublist (List.filter_sublist.map _)⟩

omit [BEq α] [LawfulBEq α] in
/-- No entry lies outside of the buckets that the hash of its family reaches. -/
theorem eq_nil (h : cache.Placed bucket) {n : Nat} (hn : ∀ ip, (bucket ip).toNat < n) {i : UInt32} (hi : n ≤ i.toNat) :
    cache i = [] := by
  rw [List.eq_nil_iff_forall_not_mem]
  intro e he
  have hlt := hn e.ip
  rw [h.bucket i e he] at hlt
  omega

end DnsCache.Placed
end Table

theorem dnsBucket_lt (ip : UInt32) : (dnsBucket ip).toNat < dnsCacheBuckets := by
  have hlt := (ip * 2654435761).toNat_lt
  simp only [dnsBucket, dnsCacheBuckets, UInt32.toNat_shiftRight, Nat.shiftRight_eq_div_pow]
  have hshift : (32 - 10 : UInt32).toNat % 32 = 22 := rfl
  rw [hshift]
  omega

theorem dnsBucketV6_lt (ip6 : Ip6) : (dnsBucketV6 ip6).toNat < dnsCacheBuckets := by
  have hle : ∀ h : UInt32, (h &&& (1024 - 1)).toNat < 1024 := by
    intro h
    rw [UInt32.toNat_and]
    exact Nat.lt_of_le_of_lt Nat.and_le_right (by decide)
  exact hle _

namespace DnsCaches

/-- Both tables hold their entries in the buckets of their addresses. -/
structure Placed (s : DnsCaches) : Prop where
  v4 : s.v4.Placed dnsBucket
  v6 : s.v6.Placed dnsBucketV6

def entry (s : DnsCaches) : DnsAnswer → Option (List UInt8 × Nat)
  | .a ip => dnsChainEntry (s.v4 (dnsBucket ip)) ip
  | .aaaa ip6 => dnsChainEntry (s.v6 (dnsBucketV6 ip6)) ip6

private theorem foldl_cleanupBucket (now : UInt64) (n : Nat) (hn : n ≤ dnsCacheBuckets) (s : DnsCaches) :
    (List.range n).foldl (cleanupBucket now) s =
      ⟨fun i => if i.toNat < n then (s.v4 i).filter (fun e => !decide (e.expireTick ≤ now)) else s.v4 i,
        fun i => if i.toNat < n then (s.v6 i).filter (fun e => !decide (e.expireTick ≤ now)) else s.v6 i⟩ := by
  induction n with
  | zero => simp
  | succ n ih =>
    have hlt : n < 4294967296 := by simp only [dnsCacheBuckets] at hn; omega
    have hofNat : (UInt32.ofNat n).toNat = n := UInt32.toNat_ofNat_of_lt' hlt
    have hsplit : ∀ i : UInt32, i ≠ UInt32.ofNat n → (i.toNat < n + 1 ↔ i.toNat < n) := by
      intro i hi
      have hne : i.toNat ≠ n := fun e => hi (UInt32.toNat_inj.mp (e.trans hofNat.symm))
      omega
    rw [List.range_succ, List.foldl_append, ih (by omega)]
    simp only [List.foldl_cons, List.foldl_nil, cleanupBucket, hofNat, Nat.lt_irrefl, if_false, DnsCaches.mk.injEq]
    constructor
    all_goals
      funext i
      by_cases hi : i = UInt32.ofNat n
      · subst hi
        rw [Function.update_self, hofNat, if_pos (Nat.lt_succ_self n)]
      · rw [Function.update_of_ne hi]
        simp only [hsplit i hi]

/-- The loop over the buckets reaches every entry. -/
theorem Placed.cleanupBuckets_eq {s : DnsCaches} (h : s.Placed) (now : UInt64) :
    s.cleanupBuckets now = s.cleanupStaleDnsCache now := by
  rw [cleanupBuckets, foldl_cleanupBucket now _ (Nat.le_refl _), cleanupStaleDnsCache, DnsCaches.mk.injEq]
  constructor
  · funext i
    split
    · rfl
    · rename_i hi
      rw [h.v4.eq_nil dnsBucket_lt (Nat.le_of_not_lt hi), List.filter_nil]
  · funext i
    split
    · rfl
    · rename_i hi
      rw [h.v6.eq_nil dnsBucketV6_lt (Nat.le_of_not_lt hi), List.filter_nil]

theorem empty_placed : empty.Placed :=
  ⟨⟨fun _ _ he => (nomatch he), fun _ => .nil⟩, ⟨fun _ _ he => (nomatch he), fun _ => .nil⟩⟩

theorem Placed.store {s : DnsCaches} (h : s.Placed) (now : UInt64) (domain : List UInt8) (answer : DnsAnswer) :
    (s.store now true domain answer).Placed := by
  cases answer with
  | a ip => exact ⟨h.v4.store now ip domain, h.v6⟩
  | aaaa ip6 => exact ⟨h.v4, h.v6.store now ip6 domain⟩

theorem Placed.cleanup {s : DnsCaches} (h : s.Placed) (now : UInt64) : (s.cleanupStaleDnsCache now).Placed :=
  ⟨h.v4.filter _, h.v6.filter _⟩

theorem Placed.lookup_eq {s : DnsCaches} (h : s.Placed) (now : UInt64) (answer : DnsAnswer) :
    s.lookup now answer =
      ((s.entry answer).filter (fun e => decide (now.toNat < e.2))).map (fun e => strncpyTruncate 256 e.1) := by
  cases answer with
  | a ip => exact dnsChainLookup_eq (h.v4.nodup _) now ip
  | aaaa ip6 => exact dnsChainLookup_eq (h.v6.nodup _) now ip6

theorem Placed.entry_cleanup {s : DnsCaches} (h : s.Placed) (now : UInt64) (answer : DnsAnswer) :
    (s.cleanupStaleDnsCache now).entry answer = (s.entry answer).filter (fun e => decide (now.toNat < e.2)) := by
  cases answer with
  | a ip => exact dnsChainEntry_cleanup (h.v4.nodup _) now ip
  | aaaa ip6 => exact dnsChainEntry_cleanup (h.v6.nodup _) now ip6

/-- A store for an address of either family changes the entry of that address. -/
theorem entry_store (s : DnsCaches) (now : UInt64) {domain : List UInt8} (hd : domain ≠ []) (answer : DnsAnswer) :
    (s.store now true domain answer).entry = Function.update s.entry answer
      (some (strncpyTruncate 256 domain, (now + dnsCacheTtlMs).toNat)) := by
  funext other
  cases answer with
  | a ip =>
    cases other with
    | a ip' =>
      have hstore := dnsTableEntry_store dnsBucket s.v4 now ip ip' hd
      simp only [DnsCaches.entry, DnsCaches.store]
      rw [hstore, Function.update_apply]
      simp only [beq_iff_eq, DnsAnswer.a.injEq]
      rfl
    | aaaa ip6' => rw [Function.update_of_ne (by simp)]; rfl
  | aaaa ip6 =>
    cases other with
    | a ip' => rw [Function.update_of_ne (by simp)]; rfl
    | aaaa ip6' =>
      have hstore := dnsTableEntry_store dnsBucketV6 s.v6 now ip6 ip6' hd
      simp only [DnsCaches.entry, DnsCaches.store]
      rw [hstore, Function.update_apply]
      simp only [beq_iff_eq, DnsAnswer.aaaa.injEq]
      rfl

end DnsCaches

/-- What a call does to the timed map of addresses; a store without a name does nothing. -/
def DnsCall.op : DnsCall → Option (Op DnsAnswer (List UInt8))
  | .store answer domain => if domain = [] then none else some (.put answer (strncpyTruncate 256 domain))
  | .cleanup => some .prune
  | .advance ms => some (.advance ms.toNat)

namespace DnsHistory

/-- The caches stand for a timed map at the same time. -/
structure Refines (s : DnsHistory) (m : TimedMap DnsAnswer (List UInt8)) : Prop where
  clock : s.clock.toNat = m.clock
  placed : s.caches.Placed
  entry : ∀ answer, s.caches.entry answer = m.entry answer

namespace Refines
variable {s : DnsHistory} {m : TimedMap DnsAnswer (List UInt8)}

theorem lookup_eq (h : s.Refines m) (answer : DnsAnswer) :
    s.lookup answer = (m.get answer).map (strncpyTruncate 256) := by
  rw [DnsHistory.lookup, h.placed.lookup_eq, h.entry, h.clock, TimedMap.get, Option.map_map]
  rfl

theorem step (h : s.Refines m) (c : DnsCall) (hclock : s.clock.toNat + c.elapsed + 300000 < 18446744073709551616) :
    (s.step c).Refines (m.run 300000 c.op.toList) := by
  cases c with
  | store answer domain =>
    by_cases hd : domain = []
    · subst hd
      have hsame : s.caches.store s.clock true [] answer = s.caches := by
        cases answer <;> simp [DnsCaches.store, dnsChainStore, Function.update_eq_self]
      simpa [DnsHistory.step, DnsCall.op, hsame] using h
    · have hexpire : (s.clock + dnsCacheTtlMs).toNat = m.clock + 300000 := by
        simp only [DnsCall.elapsed] at hclock
        have httl : dnsCacheTtlMs.toNat = 300000 := rfl
        rw [UInt64.toNat_add, httl, h.clock]
        rw [h.clock] at hclock
        exact Nat.mod_eq_of_lt hclock
      refine ⟨by simpa [DnsHistory.step, DnsCall.op, hd, TimedMap.step] using h.clock,
        h.placed.store s.clock domain answer, fun other => ?_⟩
      simp only [DnsHistory.step, DnsCall.op, if_neg hd, Option.toList_some, TimedMap.run_cons, TimedMap.run_nil,
        TimedMap.step, DnsCaches.entry_store _ _ hd, hexpire]
      rw [funext h.entry]
  | cleanup =>
    have heq := h.placed.cleanupBuckets_eq s.clock
    have hstep : s.step .cleanup = ⟨s.caches.cleanupStaleDnsCache s.clock, s.clock⟩ := by
      simp only [DnsHistory.step, heq]
    rw [hstep]
    refine ⟨h.clock, h.placed.cleanup s.clock, fun other => ?_⟩
    rw [h.placed.entry_cleanup, h.entry, h.clock]
    rfl
  | advance ms =>
    simp only [DnsCall.elapsed] at hclock
    refine ⟨?_, h.placed, h.entry⟩
    have hsum : (s.clock + ms).toNat = s.clock.toNat + ms.toNat := by
      rw [UInt64.toNat_add]
      exact Nat.mod_eq_of_lt (by omega)
    exact hsum.trans (congrArg (· + ms.toNat) h.clock)

theorem run (h : s.Refines m) (calls : List DnsCall)
    (hclock : s.clock.toNat + DnsCall.elapsedOver calls + 300000 < 18446744073709551616) :
    (s.run calls).Refines (m.run 300000 (calls.filterMap DnsCall.op)) := by
  induction calls generalizing s m with
  | nil => exact h
  | cons c calls ih =>
    have hsum := DnsCall.elapsedOver_cons c calls
    have hstep := h.step c (by omega)
    have htick : (s.step c).clock.toNat = s.clock.toNat + c.elapsed := by
      cases c with
      | advance ms =>
        simp only [DnsCall.elapsed] at hsum ⊢
        exact (UInt64.toNat_add ..).trans (Nat.mod_eq_of_lt (by omega))
      | _ => rfl
    have hrun := ih hstep (by omega)
    have hops : (c :: calls).filterMap DnsCall.op = c.op.toList ++ calls.filterMap DnsCall.op := by
      rw [List.filterMap_cons]
      cases c.op <;> rfl
    rw [hops, TimedMap.run_append]
    exact hrun

end Refines

theorem init_refines (clock : UInt64) : (init clock).Refines (.empty clock.toNat) := by
  refine ⟨rfl, DnsCaches.empty_placed, fun answer => ?_⟩
  cases answer <;> rfl

private theorem elapsedOver_op (calls : List DnsCall) :
    Op.elapsedOver (calls.filterMap DnsCall.op) = DnsCall.elapsedOver calls := by
  induction calls with
  | nil => rfl
  | cons c calls ih =>
    cases c with
    | store answer domain =>
      by_cases hd : domain = []
      · simp [DnsCall.op, hd, ih, DnsCall.elapsed]
      · simp [DnsCall.op, hd, ih, DnsCall.elapsed, Op.elapsed]
    | cleanup => simp [DnsCall.op, ih, DnsCall.elapsed, Op.elapsed]
    | advance ms => simp [DnsCall.op, ih, DnsCall.elapsed, Op.elapsed]

private theorem put_mem_iff (calls : List DnsCall) (answer : DnsAnswer) :
    (∀ name, .put answer name ∉ calls.filterMap DnsCall.op) ↔ ∀ domain, .store answer domain ∈ calls → domain = [] := by
  constructor
  · intro h domain hmem
    by_contra hd
    exact h _ (List.mem_filterMap.mpr ⟨_, hmem, by rw [DnsCall.op, if_neg hd]⟩)
  · intro h name hmem
    obtain ⟨c, hc, hop⟩ := List.mem_filterMap.mp hmem
    cases c with
    | store answer' domain =>
      rw [DnsCall.op] at hop
      split at hop
      · cases hop
      · rename_i hd
        obtain ⟨rfl, _⟩ := Op.put.inj (Option.some.inj hop)
        exact hd (h domain hc)
    | cleanup => cases hop
    | advance ms => cases hop

/-- A put of the map comes from a store of the calls that names it. -/
private theorem exists_put_iff (calls : List DnsCall) (answer : DnsAnswer) (name : List UInt8) :
    (∃ before after, calls.filterMap DnsCall.op = before ++ .put answer name :: after ∧
      (∀ w, .put answer w ∉ after) ∧ Op.elapsedOver after < 300000) ↔
    ∃ before domain after, calls = before ++ .store answer domain :: after ∧ domain ≠ [] ∧
      (∀ d, .store answer d ∈ after → d = []) ∧ DnsCall.elapsedOver after < 300000 ∧
      name = strncpyTruncate 256 domain := by
  constructor
  · rintro ⟨before, after, heq, hafter, htime⟩
    obtain ⟨front, rest, rfl, rfl, hrest⟩ := List.filterMap_eq_append_iff.mp heq
    obtain ⟨skipped, c, back, rfl, _, hop, rfl⟩ := List.filterMap_eq_cons_iff.mp hrest
    rw [elapsedOver_op] at htime
    rw [put_mem_iff] at hafter
    cases c with
    | store answer' domain =>
      rw [DnsCall.op] at hop
      split at hop
      · cases hop
      · rename_i hd
        obtain ⟨rfl, rfl⟩ := Op.put.inj (Option.some.inj hop)
        exact ⟨front ++ skipped, domain, back, by simp, hd, hafter, htime, rfl⟩
    | cleanup => cases hop
    | advance ms => cases hop
  · rintro ⟨before, domain, after, rfl, hd, hafter, htime, rfl⟩
    refine ⟨before.filterMap DnsCall.op, after.filterMap DnsCall.op, ?_, (put_mem_iff after answer).mpr hafter, ?_⟩
    · rw [List.filterMap_append, List.filterMap_cons_some (by rw [DnsCall.op, if_neg hd])]
    · rwa [elapsedOver_op]

private theorem op_filter (calls : List DnsCall) :
    (calls.filterMap DnsCall.op).filter (fun o => !o.isPrune) =
      (calls.filter (fun c => !c.isCleanup)).filterMap DnsCall.op := by
  induction calls with
  | nil => rfl
  | cons c calls ih =>
    cases c with
    | store answer domain =>
      by_cases hd : domain = []
      · simp [DnsCall.op, hd, ih]
      · simp [DnsCall.op, hd, ih]
    | cleanup => simp [DnsCall.op, ih]
    | advance ms => simp [DnsCall.op, ih]

private theorem elapsedOver_filter (calls : List DnsCall) :
    DnsCall.elapsedOver (calls.filter (fun c => !c.isCleanup)) = DnsCall.elapsedOver calls := by
  induction calls with
  | nil => rfl
  | cons c calls ih =>
    cases c with
    | store answer domain => simpa [DnsCall.elapsed] using ih
    | cleanup => simpa [DnsCall.elapsed] using ih
    | advance ms => simpa using ih

/-- After any calls an address is looked up as the name that was stored for it last, for the time to
live of the cache. Each address has at most one entry, in its bucket of the 1024, and calls that
differ only in cleanup passes leave every lookup as it is. -/
theorem dns_lookup_exact (clock : UInt64) (calls : List DnsCall)
    (hclock : clock.toNat + DnsCall.elapsedOver calls + dnsCacheTtlMs.toNat < UInt64.size) :
    let final := (init clock).run calls
    (∀ answer name, final.lookup answer = some name ↔
      ∃ before domain after, calls = before ++ .store answer domain :: after ∧ domain ≠ [] ∧
        (∀ d, .store answer d ∈ after → d = []) ∧ DnsCall.elapsedOver after < 300000 ∧
        name = strncpyTruncate 256 domain) ∧
    final.caches.Placed ∧ (∀ ip, (dnsBucket ip).toNat < 1024) ∧ (∀ ip6, (dnsBucketV6 ip6).toNat < 1024) ∧
    ∀ calls', calls'.filter (fun c => !c.isCleanup) = calls.filter (fun c => !c.isCleanup) →
      ∀ answer, ((init clock).run calls').lookup answer = final.lookup answer := by
  intro final
  have hrefines : ∀ calls', DnsCall.elapsedOver calls' = DnsCall.elapsedOver calls →
      ((init clock).run calls').Refines
        ((TimedMap.empty clock.toNat).run 300000 (calls'.filterMap DnsCall.op)) := by
    intro calls' helapsed
    apply (init_refines clock).run
    rw [helapsed]
    exact hclock
  have hfinal := hrefines calls rfl
  refine ⟨fun answer name => ?_, hfinal.placed, dnsBucket_lt, dnsBucketV6_lt, fun calls' hsame answer => ?_⟩
  · have htwice : ∀ d, strncpyTruncate 256 (strncpyTruncate 256 d) = strncpyTruncate 256 d := by
      intro d
      simp [strncpyTruncate, List.take_take]
    rw [hfinal.lookup_eq, Option.map_eq_some_iff]
    simp only [TimedMap.get_run_iff, exists_put_iff]
    constructor
    · rintro ⟨_, ⟨before, domain, after, hcalls, hd, hafter, htime, rfl⟩, rfl⟩
      exact ⟨before, domain, after, hcalls, hd, hafter, htime, htwice domain⟩
    · rintro ⟨before, domain, after, hcalls, hd, hafter, htime, rfl⟩
      exact ⟨_, ⟨before, domain, after, hcalls, hd, hafter, htime, rfl⟩, htwice domain⟩
  · have helapsed : DnsCall.elapsedOver calls' = DnsCall.elapsedOver calls := by
      rw [← elapsedOver_filter calls', hsame, elapsedOver_filter]
    rw [(hrefines calls' helapsed).lookup_eq, hfinal.lookup_eq, ← TimedMap.get_run_filter clock.toNat,
      ← TimedMap.get_run_filter clock.toNat (calls.filterMap DnsCall.op), op_filter, op_filter, hsame]

theorem dns_lookup_exact_at_299999 :
    ((init 7).run [.store (.a 1) [97], .cleanup, .store (.a 1) [], .advance 299999]).lookup (.a 1) = some [97] := by
  have hexact := dns_lookup_exact 7 [.store (.a 1) [97], .cleanup, .store (.a 1) [], .advance 299999] (by decide)
  refine (hexact.1 (.a 1) [97]).mpr ⟨[], [97], [.cleanup, .store (.a 1) [], .advance 299999], rfl, by simp,
    fun d hd => ?_, by decide, rfl⟩
  simpa using hd

end DnsHistory
end ProxyBridge.Windows
