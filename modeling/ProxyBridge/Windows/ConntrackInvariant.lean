import ProxyBridge.Windows.ConntrackLinked

/-! Every operation of the connection tables, from any arguments, keeps them consistent. -/
namespace ProxyBridge.Windows
open IntrusiveChains IntrusiveChains.Links

private theorem hasKey_iff (c : ConnectionInfo) (k : FlowKey) :
    (c.srcPort == k.srcPort && c.isUdp == k.isUdp && c.isIpv6 == k.isIpv6) = true ↔ c.key = k := by
  cases k
  simp only [ConnectionInfo.key, Bool.and_eq_true, beq_iff_eq, FlowKey.mk.injEq, and_assoc]

namespace Linked
variable {t : Tables} {rows revRows : Bucket → List Addr} {out : Option Addr}

private theorem find_unique (h : Linked t rows revRows out) (p : ConnectionInfo → Bool) (k : FlowKey)
    (hp : ∀ c, p c = true → c.key = k) (a : Addr) :
    (rows (bucketOf k.srcPort)).find? (fun b => p (t.node b)) = some a ↔
      a ∈ t.live ∧ p (t.node a) = true := by
  constructor
  · intro he
    exact ⟨h.live_of_mem (List.mem_of_find?_eq_some he),
      List.find?_some (p := fun b => p (t.node b)) he⟩
  · rintro ⟨ha, hpa⟩
    have hmem : a ∈ rows (bucketOf k.srcPort) := by
      have hrow := h.row_of_live ha
      rwa [show (t.node a).srcPort = k.srcPort from congrArg FlowKey.srcPort (hp _ hpa)] at hrow
    cases hf : (rows (bucketOf k.srcPort)).find? (fun b => p (t.node b)) with
    | none => exact (List.find?_eq_none.mp hf a hmem hpa).elim
    | some b =>
      have hb := h.live_of_mem (List.mem_of_find?_eq_some hf)
      have hkb : (t.node b).key = k := hp _ (List.find?_some (p := fun b => p (t.node b)) hf)
      rw [h.unique b hb a ha (hkb.trans (hp _ hpa).symm)]

/-- A lookup finds the one live node with the key, whatever the order of its bucket. -/
theorem lookup_eq_some (h : Linked t rows revRows out) (k : FlowKey) (a : Addr) :
    t.lookup k.srcPort k.isUdp k.isIpv6 = some a ↔ a ∈ t.live ∧ (t.node a).key = k := by
  have hf := h.find_unique (fun c => c.srcPort == k.srcPort && c.isUdp == k.isUdp && c.isIpv6 == k.isIpv6) k
    (fun c hc => (hasKey_iff c k).mp hc) a
  rw [hasKey_iff] at hf
  rw [← hf, Tables.lookup, h.fwd.search_eq _ _ _ (h.fuel_fwd _)]

/-- `is_connection_tracked` also reads the `is_tracked` flag. -/
theorem isConnectionTracked_iff (h : Linked t rows revRows out) (k : FlowKey) :
    t.isConnectionTracked k.srcPort k.isUdp k.isIpv6 = true ↔
      ∃ a ∈ t.live, (t.node a).key = k ∧ (t.node a).isTracked = true := by
  have hf := h.find_unique (fun c => c.srcPort == k.srcPort && c.isUdp == k.isUdp && c.isIpv6 == k.isIpv6 &&
    c.isTracked) k (fun c hc => (hasKey_iff c k).mp (Bool.and_eq_true_iff.mp hc).1)
  rw [Tables.isConnectionTracked, h.fwd.search_eq _ _ _ (h.fuel_fwd _), Option.isSome_iff_exists]
  refine exists_congr fun a => ?_
  rw [hf a, Bool.and_eq_true_iff, hasKey_iff]

/-- The cursor walk stops at the link of the node a lookup finds. -/
theorem cursorOf_read (h : Linked t rows revRows out) (k : FlowKey) :
    t.fwd.read (t.cursorOf k.srcPort k.isUdp k.isIpv6) = t.lookup k.srcPort k.isUdp k.isIpv6 := by
  rw [Tables.cursorOf, h.fwd.read_seek _ _ _ (h.fuel_fwd _), Tables.lookup,
    h.fwd.search_eq _ _ _ (h.fuel_fwd _)]

theorem cursorOf_split (h : Linked t rows revRows out) (k : FlowKey) {a : Addr}
    (ha : t.fwd.read (t.cursorOf k.srcPort k.isUdp k.isIpv6) = some a) :
    ∃ done rest, rows (bucketOf k.srcPort) = done ++ a :: rest ∧
      t.cursorOf k.srcPort k.isUdp k.isIpv6 = .after (bucketOf k.srcPort) done := by
  have hs := h.fwd.seek_bucket (fun a => (t.node a).srcPort == k.srcPort && (t.node a).isUdp == k.isUdp &&
    (t.node a).isIpv6 == k.isIpv6) (bucketOf k.srcPort) t.live.card (h.fuel_fwd _)
  have hc : t.cursorOf k.srcPort k.isUdp k.isIpv6 = _ := hs
  rw [hc] at ha ⊢
  set done := (rows (bucketOf k.srcPort)).takeWhile _
  have hsplit := (List.takeWhile_append_dropWhile (p := fun a => !((t.node a).srcPort == k.srcPort &&
    (t.node a).isUdp == k.isUdp && (t.node a).isIpv6 == k.isIpv6)) (l := rows (bucketOf k.srcPort))).symm
  rw [h.fwd.read_after _ done _ hsplit] at ha
  obtain ⟨rest, hr⟩ := List.head?_eq_some_iff.mp ha
  exact ⟨done, rest, by rw [← hr]; exact hsplit, rfl⟩

end Linked

/-- Both tables link exactly the live nodes, each node once and in its own buckets. -/
def Tables.Consistent (t : Tables) : Prop := ∃ rows revRows, Linked t rows revRows none

/-- The address `calloc` hands out is not one of a live node. -/
def Tables.Fresh (t : Tables) (alloc : Option Addr) : Prop := ∀ a, alloc = some a → a ∉ t.live

instance (t : Tables) (alloc : Option Addr) : Decidable (t.Fresh alloc) :=
  match alloc with
  | none => isTrue (fun _ h => nomatch h)
  | some a => decidable_of_iff (a ∉ t.live) ⟨fun h _ he => Option.some.inj he ▸ h, fun h => h a rfl⟩

theorem consistent_empty : Tables.empty.Consistent := ⟨_, _, linked_empty⟩

namespace Tables.Consistent
variable {t : Tables}

theorem lookup_eq_some (h : t.Consistent) (k : FlowKey) (a : Addr) :
    t.lookup k.srcPort k.isUdp k.isIpv6 = some a ↔ a ∈ t.live ∧ (t.node a).key = k := by
  obtain ⟨_, _, hl⟩ := h
  exact hl.lookup_eq_some k a

theorem lookup_eq_none (h : t.Consistent) (k : FlowKey) :
    t.lookup k.srcPort k.isUdp k.isIpv6 = none ↔ ∀ a ∈ t.live, (t.node a).key ≠ k := by
  rw [Option.eq_none_iff_forall_ne_some]
  constructor
  · intro hn a ha he
    exact hn a ((h.lookup_eq_some k a).mpr ⟨ha, he⟩)
  · intro hn a he
    obtain ⟨ha, hk⟩ := (h.lookup_eq_some k a).mp he
    exact hn a ha hk

theorem unique (h : t.Consistent) {a b : Addr} (ha : a ∈ t.live) (hb : b ∈ t.live)
    (he : (t.node a).key = (t.node b).key) : a = b := by
  obtain ⟨_, _, hl⟩ := h
  exact hl.unique a ha b hb he

/-- Rewriting fields that neither table is keyed by. -/
theorem modify (h : t.Consistent) (a : Addr) (f : ConnectionInfo → ConnectionInfo)
    (hk : (f (t.node a)).key = (t.node a).key) (hr : (f (t.node a)).revHash = (t.node a).revHash)
    (hi : (f (t.node a)).inRev = (t.node a).inRev)
    (hb : (f (t.node a)).revBucket = (t.node a).revBucket) : (t.modify a f).Consistent := by
  obtain ⟨_, _, hl⟩ := h
  exact ⟨_, _, hl.modify a f hk (.inr ⟨hr, hi, hb⟩)⟩

theorem touch (h : t.Consistent) (now : UInt64) (found : Option Addr) :
    (t.touch now found).Consistent := by
  cases found with
  | none => exact h
  | some a => exact h.modify a (fun e => { e with lastActivity := now }) rfl rfl rfl rfl

theorem connectionFin (h : t.Consistent) (now : UInt64) (srcPort : UInt16) (isIpv6 : Bool) (bit : UInt8) :
    (t.connectionFin now srcPort isIpv6 bit).Consistent := by
  unfold Tables.connectionFin
  split
  · exact h
  · exact h.modify _ (fun e => { e with finFlags := e.finFlags ||| bit, lastActivity := now })
      rfl rfl rfl rfl

theorem udpFlowStamp (h : t.Consistent) (port : UInt16) (ipv6 : Bool) (generation : UInt32) :
    (t.udpFlowStamp port ipv6 generation).Consistent := by
  unfold Tables.udpFlowStamp
  split
  · exact h
  · exact h.modify _ (fun e => { e with policyGeneration := generation }) rfl rfl rfl rfl

/-- The re-key and the allocation of an add both end with the node under its new destination. -/
theorem upsert (h : t.Consistent) {alloc : Option Addr} (hfresh : t.Fresh alloc) (k : FlowKey)
    (rekey fresh : ConnectionInfo → ConnectionInfo) (hr : ∀ e, e.key = k → (rekey e).key = k)
    (hf : (fresh .zeroed).key = k) : (t.upsert alloc k rekey fresh).Consistent := by
  obtain ⟨rows, revRows, hl⟩ := h
  unfold Tables.upsert
  split
  · rename_i a ha
    obtain ⟨hlive, hk⟩ := (hl.lookup_eq_some k a).mp ha
    have h1 := hl.revUnlink hlive
    have hkey : ((t.revUnlink a).node a).key = k := by
      rw [(Linked.revUnlink_frame t a).2.2 a]
      split
      · exact hk
      · exact hk
    have h2 := h1.modify a rekey ((hr _ hkey).trans hkey.symm) (.inl rfl)
    have hlive' : a ∈ ((t.revUnlink a).modify a rekey).live := by
      rw [show ((t.revUnlink a).modify a rekey).live = t.live from (Linked.revUnlink_frame t a).1]
      exact hlive
    exact ⟨_, _, h2.revInsert hlive'⟩
  · rename_i hn
    cases alloc with
    | none => exact ⟨rows, revRows, hl⟩
    | some a =>
      have hnone := (Tables.Consistent.lookup_eq_none ⟨rows, revRows, hl⟩ k).mp hn
      have h1 := hl.insert (hfresh a rfl) fresh (by rw [hf]; exact hnone)
      have hp : (fresh .zeroed).srcPort = k.srcPort := congrArg FlowKey.srcPort hf
      rw [hp] at h1
      exact ⟨_, _, h1.revInsert (by simp [Tables.modify, Tables.calloc])⟩

theorem addConnection (h : t.Consistent) {alloc : Option Addr} (hfresh : t.Fresh alloc)
    (generation : UInt32) (now : UInt64) (srcPort : UInt16) (isUdp : Bool) (srcIp destIp : UInt32)
    (destPort : UInt16) (proxyConfigId : UInt32) :
    (t.addConnection generation now alloc srcPort isUdp srcIp destIp destPort proxyConfigId).Consistent := by
  apply h.upsert hfresh
  · rintro e he
    simp only [ConnectionInfo.key, FlowKey.mk.injEq] at he ⊢
    exact ⟨he.1, he.2.1, trivial⟩
  · rfl

theorem addConnectionV6 (h : t.Consistent) {alloc : Option Addr} (hfresh : t.Fresh alloc)
    (generation : UInt32) (now : UInt64) (srcPort : UInt16) (isUdp : Bool) (srcIp6 destIp6 : Ip6)
    (destPort : UInt16) (proxyConfigId : UInt32) :
    (t.addConnectionV6 generation now alloc srcPort isUdp srcIp6 destIp6 destPort
      proxyConfigId).Consistent := by
  apply h.upsert hfresh
  · rintro e he
    simp only [ConnectionInfo.key, FlowKey.mk.injEq] at he ⊢
    exact ⟨he.1, he.2.1, trivial⟩
  · rfl

theorem removeAt (h : t.Consistent) (k : FlowKey) {a : Addr}
    (ha : t.fwd.read (t.cursorOf k.srcPort k.isUdp k.isIpv6) = some a) :
    (t.removeAt (t.cursorOf k.srcPort k.isUdp k.isIpv6) a).Consistent := by
  obtain ⟨rows, revRows, hl⟩ := h
  obtain ⟨done, rest, hr, hc⟩ := hl.cursorOf_split k ha
  rw [hc]
  exact ⟨_, _, hl.removeAt hr⟩

theorem removeConnection (h : t.Consistent) (srcPort : UInt16) (isUdp isIpv6 : Bool) :
    (t.removeConnection srcPort isUdp isIpv6).Consistent := by
  simp only [Tables.removeConnection]
  split
  · exact h
  · rename_i a ha
    exact h.removeAt ⟨srcPort, isUdp, isIpv6⟩ ha

theorem udpFlowValidate (h : t.Consistent) (generation : UInt32) (now : UInt64) (port : UInt16)
    (ipv6 : Bool) (source : UInt32) (source6 : Ip6) (destination : UInt32) (destination6 : Ip6)
    (destinationPort : UInt16) :
    (t.udpFlowValidate generation now port ipv6 source source6 destination destination6
      destinationPort).2.Consistent := by
  simp only [Tables.udpFlowValidate]
  split
  · exact h
  · rename_i a ha
    split
    · exact h.modify a (fun e => { e with lastActivity := now }) rfl rfl rfl rfl
    · exact h.removeAt ⟨port, true, ipv6⟩ ha

end Tables.Consistent

theorem removeAt_frame (t : Tables) (cursor : Cursor Bucket Addr) (a : Addr) :
    (t.removeAt cursor a).live = t.live.erase a ∧
    ∀ b, b ≠ a → (t.removeAt cursor a).node b = t.node b := by
  obtain ⟨hl, _, hn⟩ := Linked.revUnlink_frame { t with fwd := t.fwd.unlink cursor } a
  exact ⟨congrArg (Finset.erase · a) hl, fun b hb => (hn b).trans (if_neg (fun e => hb e.1))⟩

/-- Whatever a sweep leaves was there before, unchanged. -/
theorem sweepFrom_frame (now : UInt64) (fuel : Nat) (c : Cursor Bucket Addr) (t : Tables) :
    ∀ b ∈ (Tables.sweepFrom now fuel c t).live,
      b ∈ t.live ∧ (Tables.sweepFrom now fuel c t).node b = t.node b := by
  induction fuel generalizing c t with
  | zero => exact fun b hb => ⟨hb, rfl⟩
  | succ fuel ih =>
    simp only [Tables.sweepFrom]
    split
    · exact fun b hb => ⟨hb, rfl⟩
    · rename_i a _
      split
      · intro b hb
        obtain ⟨hl, hn⟩ := ih c (t.removeAt c a) b hb
        obtain ⟨hl', hn'⟩ := removeAt_frame t c a
        rw [hl'] at hl
        rw [hn]
        exact ⟨Finset.mem_of_mem_erase hl, hn' b (Finset.ne_of_mem_erase hl)⟩
      · exact ih (.field a) t

/-- A sweep from inside a row keeps the nodes already passed and drops the stale ones after. -/
theorem Linked.sweepFrom (now : UInt64) (i : Bucket) (rest : List Addr) :
    ∀ (done : List Addr) (fuel : Nat) (t : Tables) (rows revRows : Bucket → List Addr),
      Linked t rows revRows none → rows i = done ++ rest → rest.length ≤ fuel →
      ∃ revRows', Linked (Tables.sweepFrom now fuel (.after i done) t)
        (Function.update rows i (done ++ rest.filter (fun a => !(t.node a).isStale now))) revRows' none := by
  induction rest with
  | nil =>
    intro done fuel t rows revRows h hr _
    have hread := h.fwd.read_after i done [] hr
    have hs : Tables.sweepFrom now fuel (.after i done) t = t := by
      cases fuel <;> simp [Tables.sweepFrom, hread]
    rw [hs]
    refine ⟨revRows, ?_⟩
    rw [List.filter_nil, ← hr, Function.update_eq_self]
    exact h
  | cons a rest ih =>
    intro done fuel t rows revRows h hr hf
    have hread := h.fwd.read_after i done (a :: rest) hr
    cases fuel with
    | zero => simp at hf
    | succ fuel =>
      have hf' : rest.length ≤ fuel := by simpa using hf
      have hnd : (done ++ a :: rest).Nodup := hr ▸ h.fwd.nodup i
      simp only [Tables.sweepFrom, hread, List.head?_cons]
      cases hst : (t.node a).isStale now with
      | true =>
        obtain ⟨revRows', hl⟩ := ih done fuel _ _ _ (h.removeAt hr) (by rw [Function.update_self]) hf'
        have hfilter : rest.filter (fun b => !((t.removeAt (.after i done) a).node b).isStale now) =
            rest.filter (fun b => !(t.node b).isStale now) := by
          apply List.filter_congr
          intro b hb
          have hba : b ≠ a := by
            rintro rfl
            exact (List.nodup_cons.mp (List.nodup_append.mp hnd).2.1).1 hb
          rw [(removeAt_frame t _ a).2 b hba]
        rw [Function.update_idem, hfilter] at hl
        exact ⟨revRows', by simpa [hst] using hl⟩
      | false =>
        have hn := ih (done ++ [a]) fuel t rows revRows h (by simpa using hr) hf'
        rw [Represents.after_append_singleton] at hn
        simpa [hst] using hn

/-- One locked section of a cleanup pass filters one row. -/
theorem Linked.sweepBucket {t : Tables} {rows revRows : Bucket → List Addr}
    (h : Linked t rows revRows none) (now : UInt64) (i : Bucket) :
    ∃ revRows', Linked (Tables.sweepBucket now t i)
      (Function.update rows i ((rows i).filter (fun a => !(t.node a).isStale now))) revRows' none :=
  Linked.sweepFrom now i (rows i) [] t.live.card t rows revRows h rfl (h.fuel_fwd i)

theorem Tables.Consistent.sweepBucket {t : Tables} (h : t.Consistent) (now : UInt64) (i : Bucket) :
    (Tables.sweepBucket now t i).Consistent := by
  obtain ⟨rows, revRows, hl⟩ := h
  obtain ⟨revRows', hl'⟩ := hl.sweepBucket now i
  exact ⟨_, revRows', hl'⟩

theorem Tables.Consistent.cleanupStaleConnections {t : Tables} (h : t.Consistent) (now : UInt64) :
    (t.cleanupStaleConnections now).Consistent := by
  unfold Tables.cleanupStaleConnections
  induction List.finRange connectionHashSize generalizing t with
  | nil => exact h
  | cons i is ih => exact ih (h.sweepBucket now i)

/-- The forward half of the invariant: all that holds while the tables are being cleared. -/
structure ForwardLinked (t : Tables) (rows : Bucket → List Addr) : Prop where
  fwd : t.fwd.Represents rows
  mem_fwd : ∀ a, a ∈ t.live ↔ ∃ i, a ∈ rows i

private theorem clear_head {t : Tables} {rows : Bucket → List Addr} (h : ForwardLinked t rows)
    {i : Bucket} {a : Addr} {rest : List Addr} (hr : rows i = a :: rest) :
    ForwardLinked (({ t with fwd := t.fwd.unlink (.bucket i) } : Tables).free a)
      (Function.update rows i rest) where
  fwd := h.fwd.unlink_after i [] rest a hr
  mem_fwd b := by
    have hnd : (a :: rest).Nodup := hr ▸ h.fwd.nodup i
    have hai : a ∈ rows i := by rw [hr]; simp
    simp only [Tables.free, Finset.mem_erase, h.mem_fwd]
    constructor
    · rintro ⟨hba, j, hj⟩
      refine ⟨j, ?_⟩
      by_cases hji : j = i
      · subst hji
        rw [hr] at hj
        rw [Function.update_self]
        exact (List.mem_cons.mp hj).resolve_left hba
      · rwa [Function.update_of_ne hji]
    · rintro ⟨j, hj⟩
      by_cases hji : j = i
      · subst hji
        rw [Function.update_self] at hj
        refine ⟨?_, j, by rw [hr]; exact List.mem_cons_of_mem a hj⟩
        rintro rfl
        exact (List.nodup_cons.mp hnd).1 hj
      · rw [Function.update_of_ne hji] at hj
        refine ⟨?_, j, hj⟩
        rintro rfl
        exact hji (h.fwd.disjoint j i b hj hai)

private theorem clearBucket_linked (row : List Addr) (i : Bucket) :
    ∀ (fuel : Nat) (t : Tables) (rows : Bucket → List Addr), ForwardLinked t rows → rows i = row →
      row.length ≤ fuel → ForwardLinked (Tables.clearBucket fuel t i) (Function.update rows i []) := by
  induction row with
  | nil =>
    intro fuel t rows h hr _
    have hread : t.fwd.head i = none := h.fwd.read_after i [] [] hr
    have hs : Tables.clearBucket fuel t i = t := by cases fuel <;> simp [Tables.clearBucket, hread]
    rw [hs, ← hr, Function.update_eq_self]
    exact h
  | cons a row ih =>
    intro fuel t rows h hr hf
    have hread : t.fwd.head i = some a := h.fwd.read_after i [] (a :: row) hr
    cases fuel with
    | zero => simp at hf
    | succ fuel =>
      simp only [Tables.clearBucket, hread]
      have hn := ih fuel _ _ (clear_head h hr) (by rw [Function.update_self]) (by simpa using hf)
      rwa [Function.update_idem] at hn

private theorem clearBuckets_linked (is : List Bucket) :
    ∀ (t : Tables) (rows : Bucket → List Addr), ForwardLinked t rows →
      ∃ rows', ForwardLinked (Tables.clearBuckets is t) rows' ∧
        ∀ i, rows' i = [] ∨ (i ∉ is ∧ rows' i = rows i) := by
  induction is with
  | nil => exact fun t rows h => ⟨rows, h, fun i => .inr ⟨by simp, rfl⟩⟩
  | cons j is ih =>
    intro t rows h
    have hfuel := h.fwd.row_length_le j t.live (fun a ha => (h.mem_fwd a).mpr ⟨j, ha⟩)
    obtain ⟨rows', h', hrow⟩ := ih _ _ (clearBucket_linked (rows j) j t.live.card t rows h rfl hfuel)
    refine ⟨rows', h', fun i => ?_⟩
    rcases hrow i with he | ⟨hi, he⟩
    · exact .inl he
    · by_cases hij : i = j
      · subst hij
        rw [Function.update_self] at he
        exact .inl he
      · rw [Function.update_of_ne hij] at he
        exact .inr ⟨by simp [hij, hi], he⟩

/-- Zeroed reverse heads agree with a forward table that was walked empty. -/
private theorem zeroReverse_consistent {t : Tables} (h : ForwardLinked t (fun _ => [])) :
    t.zeroReverse.live = ∅ ∧ t.zeroReverse.Consistent := by
  have hnone : ∀ a, a ∉ t.zeroReverse.live := by
    intro a ha
    obtain ⟨i, hi⟩ := (h.mem_fwd a).mp ha
    cases hi
  refine ⟨Finset.eq_empty_of_forall_notMem hnone, (fun _ => []), (fun _ => []), h.fwd, ?_, h.mem_fwd,
    ?_, ?_, ?_, ?_⟩
  · exact ⟨fun _ => rfl, fun _ => List.nodup_nil, fun i j a ha => by cases ha⟩
  · intro i a ha
    cases ha
  · intro a ha
    exact (hnone a ha).elim
  · intro i a
    simp [hnone]
  · intro a ha
    exact (hnone a ha).elim

private theorem clearEvery_consistent (is : List Bucket) (hall : ∀ i, i ∈ is) {t : Tables}
    (h : t.Consistent) :
    (Tables.clearBuckets is t).zeroReverse.live = ∅ ∧ (Tables.clearBuckets is t).zeroReverse.Consistent := by
  obtain ⟨rows, _, hl⟩ := h
  obtain ⟨rows', h', hrow⟩ := clearBuckets_linked is t rows ⟨hl.fwd, hl.mem_fwd⟩
  have hnil : rows' = fun _ => [] := by
    funext i
    exact (hrow i).resolve_right (fun hi => hi.1 (hall i))
  subst hnil
  exact zeroReverse_consistent h'

/-- After `ProxyBridge_Stop` both tables are empty, although only one was walked. -/
theorem Tables.Consistent.clearAll {t : Tables} (h : t.Consistent) :
    t.clearAll.live = ∅ ∧ t.clearAll.Consistent := by
  unfold Tables.clearAll
  exact clearEvery_consistent _ List.mem_finRange h

end ProxyBridge.Windows
