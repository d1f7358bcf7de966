import ProxyBridge.Windows.CleanupPass
import ProxyBridge.Windows.PidCache

/-! The cursor of `cleanup_stale_connections`. After each entry it unlinks, the pass gives up the
lock to free the node, and takes the lock again with the cursor it had before. The calls of the
other threads fall into that window. -/
namespace ProxyBridge.Windows
open IntrusiveChains IntrusiveChains.Links Runs

/-- Whether a call leaves the node of an entry allocated. -/
def TableOp.Spares (c : ConnectionInfo) : TableOp → Prop
  | .removeConnection srcPort isUdp isIpv6 => c.key ≠ ⟨srcPort, isUdp, isIpv6⟩
  | .udpFlowValidate generation now port ipv6 source source6 destination destination6 destinationPort =>
    c.key = ⟨port, true, ipv6⟩ →
      c.udpValid generation now ipv6 source destination source6 destination6 destinationPort = true
  | .cleanupStaleConnections _ => False
  | .clearAll => False
  | _ => True

namespace Tables

/-- The node is allocated after as before, for the same flow. -/
def Keeps (t t' : Tables) (a : Addr) : Prop := a ∈ t'.live ∧ (t'.node a).key = (t.node a).key

theorem modify_keeps {t : Tables} {a : Addr} (ha : a ∈ t.live) (b : Addr) (f : ConnectionInfo → ConnectionInfo)
    (hf : (f (t.node b)).key = (t.node b).key) : t.Keeps (t.modify b f) a := by
  refine ⟨ha, ?_⟩
  by_cases hab : a = b
  · subst hab
    simpa [Tables.modify] using hf
  · simp [Tables.modify, hab]

private theorem touch_keeps {t : Tables} {a : Addr} (ha : a ∈ t.live) (now : UInt64) (found : Option Addr) :
    t.Keeps (t.touch now found) a := by
  cases found with
  | none => exact ⟨ha, rfl⟩
  | some b => exact modify_keeps ha b _ rfl

namespace Consistent
variable {t : Tables}

private theorem upsert_keeps (h : t.Consistent) {alloc : Option Addr} (hfresh : t.Fresh alloc) (k : FlowKey)
    (rekey fresh : ConnectionInfo → ConnectionInfo) (hr : ∀ e, e.key = k → (rekey e).key = k) {a : Addr}
    (ha : a ∈ t.live) : t.Keeps (t.upsert alloc k rekey fresh) a := by
  unfold Tables.upsert
  split
  · rename_i b hb
    obtain ⟨_, hk⟩ := (h.lookup_eq_some k b).mp hb
    obtain ⟨hl, _, hn⟩ := Linked.revUnlink_frame t b
    obtain ⟨hl', _, _, hn'⟩ := Linked.revInsert_frame ((t.revUnlink b).modify b rekey) b
    have hkey : ∀ c, ((t.revUnlink b).node c).key = (t.node c).key := by
      intro c
      rw [hn]
      split <;> rfl
    obtain ⟨_, hm⟩ := modify_keeps (hl ▸ ha) b rekey
      ((hr _ ((hkey b).trans hk)).trans ((hkey b).trans hk).symm)
    refine ⟨by rw [hl']; exact hl ▸ ha, ?_⟩
    rw [hn']
    split <;> exact hm.trans (hkey a)
  · cases alloc with
    | none => exact ⟨ha, rfl⟩
    | some b =>
      have hab : a ≠ b := fun e => hfresh b rfl (e ▸ ha)
      obtain ⟨hl, _, _, hn⟩ := Linked.revInsert_frame
        { (t.calloc b).modify b fresh with fwd := ((t.calloc b).modify b fresh).fwd.push (bucketOf k.srcPort) b } b
      refine ⟨by rw [hl]; exact Finset.mem_insert_of_mem ha, ?_⟩
      rw [hn, if_neg hab]
      simp [Tables.modify, Tables.calloc, hab]

/-- The removals free the node that a lookup of their key finds. -/
private theorem removeAt_keeps (h : t.Consistent) (k : FlowKey) {a c : Addr}
    (hc : t.fwd.read (t.cursorOf k.srcPort k.isUdp k.isIpv6) = some c) (ha : a ∈ t.live)
    (hk : (t.node a).key ≠ k) : t.Keeps (t.removeAt (t.cursorOf k.srcPort k.isUdp k.isIpv6) c) a := by
  obtain ⟨hl, hn⟩ := removeAt_frame t (t.cursorOf k.srcPort k.isUdp k.isIpv6) c
  have hck : (t.node c).key = k := by
    obtain ⟨_, _, hlink⟩ := h
    rw [hlink.cursorOf_read] at hc
    exact ((hlink.lookup_eq_some k c).mp hc).2
  have hac : a ≠ c := by
    rintro rfl
    exact hk hck
  exact ⟨by rw [hl]; exact Finset.mem_erase.mpr ⟨hac, ha⟩, by rw [hn a hac]⟩

/-- A call that spares an entry leaves its node where it is. -/
theorem keeps (h : t.Consistent) {op : TableOp} (hop : op.Admissible t) {a : Addr} (ha : a ∈ t.live)
    (hs : op.Spares (t.node a)) : t.Keeps (t.apply op) a := by
  cases op with
  | addConnection generation now alloc srcPort isUdp srcIp destIp destPort proxyConfigId =>
    refine h.upsert_keeps hop _ _ _ (fun e he => ?_) ha
    simp only [ConnectionInfo.key, FlowKey.mk.injEq] at he ⊢
    exact ⟨he.1, he.2.1, trivial⟩
  | addConnectionV6 generation now alloc srcPort isUdp srcIp6 destIp6 destPort proxyConfigId =>
    refine h.upsert_keeps hop _ _ _ (fun e he => ?_) ha
    simp only [ConnectionInfo.key, FlowKey.mk.injEq] at he ⊢
    exact ⟨he.1, he.2.1, trivial⟩
  | udpFlowStamp port ipv6 generation =>
    simp only [Tables.apply, Tables.udpFlowStamp]
    split
    · exact ⟨ha, rfl⟩
    · exact modify_keeps ha _ _ rfl
  | udpFlowValidate generation now port ipv6 source source6 destination destination6 destinationPort =>
    simp only [Tables.apply, Tables.udpFlowValidate]
    split
    · exact ⟨ha, rfl⟩
    · rename_i c hc
      split
      · exact modify_keeps ha c _ rfl
      · rename_i hv
        refine h.removeAt_keeps ⟨port, true, ipv6⟩ hc ha (fun hk => hv ?_)
        have hac : a = c := by
          obtain ⟨_, _, hlink⟩ := h
          have hread := hlink.cursorOf_read ⟨port, true, ipv6⟩
          rw [hc] at hread
          obtain ⟨hc, hck⟩ := (hlink.lookup_eq_some ⟨port, true, ipv6⟩ c).mp hread.symm
          exact hlink.unique a ha c hc (hk.trans hck.symm)
        exact hac ▸ hs hk
  | connectionFin now srcPort isIpv6 bit =>
    simp only [Tables.apply, Tables.connectionFin]
    split
    · exact ⟨ha, rfl⟩
    · exact modify_keeps ha _ _ rfl
  | getConnection now srcPort isUdp => exact touch_keeps ha now _
  | getConnectionFull now srcPort isUdp => exact touch_keeps ha now _
  | getConnectionFullV6 now srcPort isUdp => exact touch_keeps ha now _
  | findV4UdpSender now origDestIp origDestPort => exact touch_keeps ha now _
  | removeConnection srcPort isUdp isIpv6 =>
    simp only [Tables.apply, Tables.removeConnection]
    split
    · exact ⟨ha, rfl⟩
    · rename_i c hc
      exact h.removeAt_keeps ⟨srcPort, isUdp, isIpv6⟩ hc ha hs
  | cleanupStaleConnections now => exact hs.elim
  | clearAll => exact hs.elim

end Consistent
end Tables

/-- The test of the first loop stops the walk at the next stale entry, which is unlinked from both
tables; the result is the cursor and the node that is still to be freed. -/
def Tables.examine (t : Tables) (now : UInt64) (connPtr : Cursor Bucket Addr) :
    Option (Cursor Bucket Addr × Addr) × Tables :=
  let connPtr := t.fwd.seek (fun a => (t.node a).isStale now) t.live.card connPtr
  match t.fwd.read connPtr with
  | none => (none, t)
  | some toFree => (some (connPtr, toFree), t.removeAt connPtr toFree)

/-- The same for the second loop, whose entries expire after ten seconds. -/
def OwnerCaches.examine (s : OwnerCaches) (nowCache : UInt64) (entryPtr : Cursor PidBucket Addr) :
    Option (Cursor PidBucket Addr × Addr) × OwnerCaches :=
  let entryPtr := s.pids.links.seek (fun a => decide (nowCache - (s.pids.node a).timestamp > 10000))
    s.pids.live.card entryPtr
  match s.pids.links.read entryPtr with
  | none => (none, s)
  | some toFree => (some (entryPtr, toFree), { s with pids := s.pids.removeAt entryPtr toFree })

/-- Where one of the loops stands while the lock is free: about to lock a bucket, about to free
the node it unlinked, or about to lock again. -/
inductive LoopPlace (n : Nat) where
  | enter (i : Nat)
  | freeing (i : Fin n) (cursor : Cursor (Fin n) Addr) (toFree : Addr)
  | waiting (i : Fin n) (cursor : Cursor (Fin n) Addr)
  deriving DecidableEq

namespace LoopPlace
variable {n : Nat}

/-- The bucket and the cursor that the loop goes on with once it has the lock again. -/
def held : LoopPlace n → Option (Fin n × Cursor (Fin n) Addr)
  | .enter _ => none
  | .freeing i cursor _ => some (i, cursor)
  | .waiting i cursor => some (i, cursor)

/-- The node whose next link the cursor designates. -/
def heldNode (p : LoopPlace n) : Option Addr :=
  match p.held with
  | some (_, .field a) => some a
  | _ => none

def unfreed : LoopPlace n → Option Addr
  | .freeing _ _ toFree => some toFree
  | _ => none

/-- A locked section ends with a node to free, or at the end of its bucket. -/
def leave (i : Fin n) : Option (Cursor (Fin n) Addr × Addr) → LoopPlace n
  | some (cursor, toFree) => .freeing i cursor toFree
  | none => .enter (i.val + 1)

end LoopPlace

inductive PassStage where
  | idle
  | connections (now : UInt64) (place : LoopPlace connectionHashSize)
  | pids (nowCache : UInt64) (place : LoopPlace pidCacheSize)
  deriving DecidableEq

def PassStage.unfreed : PassStage → Option Addr
  | .idle => none
  | .connections _ place => place.unfreed
  | .pids _ place => place.unfreed

/-- `advance` takes the pass to the end of its next locked section, or through the `free` between
two of them; its argument is what `GetTickCount64` would return. -/
inductive CursorAction where
  | beginPass (now : UInt64)
  | advance (clock : UInt64)
  | tableCall (op : TableOp)
  | ownerCall (op : OwnerOp)

/-- The calls that are made once the workers have ended, or by the cleanup worker itself. -/
def OwnerOp.outsidePass : OwnerOp → Bool
  | .clearPidCache | .cleanupStalePidCache _ | .clearOwnerEventCache | .cleanupStaleOwnerCache _ => true
  | _ => false

def TableOp.outsidePass : TableOp → Bool
  | .clearAll => true
  | _ => false

structure CursorState where
  tables : Tables
  caches : OwnerCaches
  stage : PassStage

namespace CursorState

def init : CursorState := ⟨.empty, .empty, .idle⟩

/-- `calloc` returns no node that one of the tables or the pass still holds. -/
def Fresh (s : CursorState) (alloc : Option Addr) : Prop :=
  ∀ a, alloc = some a → a ∉ s.tables.live ∧ a ∉ s.caches.pids.live ∧ s.stage.unfreed ≠ some a

instance (s : CursorState) (alloc : Option Addr) : Decidable (s.Fresh alloc) :=
  match alloc with
  | none => isTrue (fun _ h => nomatch h)
  | some a => decidable_of_iff (a ∉ s.tables.live ∧ a ∉ s.caches.pids.live ∧ s.stage.unfreed ≠ some a)
    ⟨fun h _ he => Option.some.inj he ▸ h, fun h => h a rfl⟩

def lockConnections (s : CursorState) (now : UInt64) (i : Bucket) (connPtr : Cursor Bucket Addr) : CursorState :=
  let r := s.tables.examine now connPtr
  ⟨r.2, s.caches, .connections now (.leave i r.1)⟩

def lockPids (s : CursorState) (nowCache : UInt64) (i : PidBucket) (entryPtr : Cursor PidBucket Addr) :
    CursorState :=
  let r := s.caches.examine nowCache entryPtr
  ⟨s.tables, r.2, .pids nowCache (.leave i r.1)⟩

def advance (s : CursorState) (clock : UInt64) : Option CursorState :=
  match s.stage with
  | .idle => none
  | .connections now (.enter i) =>
    if h : i < connectionHashSize then some (s.lockConnections now ⟨i, h⟩ (.bucket ⟨i, h⟩))
    else some { s with stage := .pids clock (.enter 0) }
  | .connections now (.freeing i connPtr _) => some { s with stage := .connections now (.waiting i connPtr) }
  | .connections now (.waiting i connPtr) => some (s.lockConnections now i connPtr)
  | .pids nowCache (.enter i) =>
    if h : i < pidCacheSize then some (s.lockPids nowCache ⟨i, h⟩ (.bucket ⟨i, h⟩))
    else some { s with stage := .idle }
  | .pids nowCache (.freeing i entryPtr _) => some { s with stage := .pids nowCache (.waiting i entryPtr) }
  | .pids nowCache (.waiting i entryPtr) => some (s.lockPids nowCache i entryPtr)

def step (s : CursorState) : CursorAction → Option CursorState
  | .beginPass now => if s.stage = .idle then some { s with stage := .connections now (.enter 0) } else none
  | .advance clock => s.advance clock
  | .tableCall op =>
    if s.Fresh op.alloc ∧ op.isPass = false ∧ (op.outsidePass = true → s.stage = .idle)
    then some { s with tables := s.tables.apply op } else none
  | .ownerCall op =>
    if s.Fresh op.alloc ∧ (op.outsidePass = true → s.stage = .idle)
    then some { s with caches := s.caches.apply op } else none

/-- The cursor that the pass goes on with designates the bucket head, or the next link of a node
that is allocated and linked in that bucket. -/
def CursorValid (s : CursorState) : Prop :=
  match s.stage with
  | .idle => True
  | .connections _ place => ∀ i cursor, place.held = some (i, cursor) →
      s.tables.fwd.Designates s.tables.live i cursor
  | .pids _ place => ∀ i cursor, place.held = some (i, cursor) →
      s.caches.pids.links.Designates s.caches.pids.live i cursor

/-- No call frees the node whose next link the cursor of the pass designates. -/
def SparesCursor (s : CursorState) : CursorAction → Prop
  | .tableCall op => ∀ now place a, s.stage = .connections now place → place.heldNode = some a →
      op.Spares (s.tables.node a)
  | .ownerCall op => ∀ nowCache place a, s.stage = .pids nowCache place → place.heldNode = some a →
      s.caches.Spares (s.caches.pids.node a) op
  | _ => True

/-- What holds in every run in which the cursor's node is spared. -/
structure CursorInv (s : CursorState) : Prop where
  tables : s.tables.Consistent
  caches : s.caches.Consistent
  cursor : s.CursorValid

theorem cursorInv_init : init.CursorInv := ⟨consistent_empty, OwnerCaches.consistent_empty, trivial⟩

/-- A bucket head is designated whatever happens to the chain behind it. -/
private theorem designates_of_keeps {ι : Type} {L L' : Links ι Addr} {live live' : Finset Addr} {i : ι}
    {cursor : Cursor ι Addr} (h : L.Designates live i cursor)
    (hkeep : ∀ a, cursor = .field a → a ∈ live → L.Reaches i a → a ∈ live' ∧ L'.Reaches i a) :
    L'.Designates live' i cursor := by
  cases cursor with
  | bucket j => exact h
  | field a => exact hkeep a rfl h.1 h.2

private theorem heldNode_of_held {n : Nat} {p : LoopPlace n} {i : Fin n} {a : Addr}
    (h : p.held = some (i, .field a)) : p.heldNode = some a := by
  rw [LoopPlace.heldNode, h]

/-- Reaching a node of the connection table is the same as finding it in the bucket of its port. -/
private theorem reaches_iff {t : Tables} (h : t.Consistent) {a : Addr} (ha : a ∈ t.live) (i : Bucket) :
    t.fwd.Reaches i a ↔ bucketOf (t.node a).srcPort = i := by
  obtain ⟨rows, _, hl⟩ := h
  rw [hl.fwd.reaches_iff]
  constructor
  · exact hl.bucket i a
  · rintro rfl
    exact hl.row_of_live ha

private theorem tables_examine {t : Tables} (h : t.Consistent) (now : UInt64) {i : Bucket}
    {connPtr : Cursor Bucket Addr} (hc : t.fwd.Designates t.live i connPtr) :
    (t.examine now connPtr).2.Consistent ∧
    ∀ cursor toFree, (t.examine now connPtr).1 = some (cursor, toFree) →
      (t.examine now connPtr).2.fwd.Designates (t.examine now connPtr).2.live i cursor := by
  obtain ⟨rows, revRows, hl⟩ := h
  simp only [Tables.examine]
  split
  · exact ⟨⟨rows, revRows, hl⟩, fun cursor toFree he => nomatch he⟩
  · rename_i a ha
    obtain ⟨done, rest, hr, he, _⟩ := hl.fwd.seek_split (fun _ _ => hl.live_of_mem) _ hc ha
    rw [he]
    have hl' := hl.removeAt hr
    refine ⟨⟨_, _, hl'⟩, fun cursor toFree hres => ?_⟩
    obtain ⟨rfl, rfl⟩ := Prod.mk.inj (Option.some.inj hres)
    exact hl'.fwd.designates_after (fun _ _ => hl'.live_of_mem) (Function.update_self ..)

private theorem caches_examine {s : OwnerCaches} (h : s.Consistent) (nowCache : UInt64) {i : PidBucket}
    {entryPtr : Cursor PidBucket Addr} (hc : s.pids.links.Designates s.pids.live i entryPtr) :
    (s.examine nowCache entryPtr).2.Consistent ∧
    ∀ cursor toFree, (s.examine nowCache entryPtr).1 = some (cursor, toFree) →
      (s.examine nowCache entryPtr).2.pids.links.Designates (s.examine nowCache entryPtr).2.pids.live i cursor := by
  simp only [OwnerCaches.examine]
  split
  · exact ⟨h, fun cursor toFree he => nomatch he⟩
  · rename_i a ha
    obtain ⟨hc', hd⟩ := ChainStore.WellChained.removeAt h _ hc ha
    refine ⟨hc', fun cursor toFree hres => ?_⟩
    obtain ⟨rfl, rfl⟩ := Prod.mk.inj (Option.some.inj hres)
    exact hd

private theorem held_leave {n : Nat} {i j : Fin n} {r : Option (Cursor (Fin n) Addr × Addr)}
    {cursor : Cursor (Fin n) Addr} (h : (LoopPlace.leave i r).held = some (j, cursor)) :
    j = i ∧ ∃ toFree, r = some (cursor, toFree) := by
  cases r with
  | none => cases h
  | some p =>
    obtain ⟨rfl, rfl⟩ := Prod.mk.inj (Option.some.inj h)
    exact ⟨rfl, p.2, rfl⟩

namespace CursorInv
variable {s : CursorState}

private theorem lockConnections (h : s.CursorInv) (now : UInt64) {i : Bucket} {connPtr : Cursor Bucket Addr}
    (hc : s.tables.fwd.Designates s.tables.live i connPtr) : (s.lockConnections now i connPtr).CursorInv := by
  obtain ⟨ht, hd⟩ := tables_examine h.tables now hc
  refine ⟨ht, h.caches, fun j cursor hh => ?_⟩
  obtain ⟨rfl, toFree, hr⟩ := held_leave hh
  exact hd cursor toFree hr

private theorem lockPids (h : s.CursorInv) (nowCache : UInt64) {i : PidBucket} {entryPtr : Cursor PidBucket Addr}
    (hc : s.caches.pids.links.Designates s.caches.pids.live i entryPtr) :
    (s.lockPids nowCache i entryPtr).CursorInv := by
  obtain ⟨ht, hd⟩ := caches_examine h.caches nowCache hc
  refine ⟨h.tables, ht, fun j cursor hh => ?_⟩
  obtain ⟨rfl, toFree, hr⟩ := held_leave hh
  exact hd cursor toFree hr

private theorem advance {s' : CursorState} (h : s.CursorInv) {clock : UInt64} (hs : s.advance clock = some s') :
    s'.CursorInv := by
  have hcursor := h.cursor
  unfold CursorValid at hcursor
  unfold CursorState.advance at hs
  split at hs
  · cases hs
  · split at hs
    · rw [← Option.some.inj hs]
      exact h.lockConnections _ rfl
    · rw [← Option.some.inj hs]
      exact ⟨h.tables, h.caches, fun _ _ hh => nomatch hh⟩
  · rename_i now i connPtr toFree hst
    rw [hst] at hcursor
    rw [← Option.some.inj hs]
    exact ⟨h.tables, h.caches, hcursor⟩
  · rename_i now i connPtr hst
    rw [hst] at hcursor
    rw [← Option.some.inj hs]
    exact h.lockConnections now (hcursor i connPtr rfl)
  · split at hs
    · rw [← Option.some.inj hs]
      exact h.lockPids _ rfl
    · rw [← Option.some.inj hs]
      exact ⟨h.tables, h.caches, trivial⟩
  · rename_i nowCache i entryPtr toFree hst
    rw [hst] at hcursor
    rw [← Option.some.inj hs]
    exact ⟨h.tables, h.caches, hcursor⟩
  · rename_i nowCache i entryPtr hst
    rw [hst] at hcursor
    rw [← Option.some.inj hs]
    exact h.lockPids nowCache (hcursor i entryPtr rfl)

private theorem tableCall (h : s.CursorInv) {op : TableOp} (hf : s.Fresh op.alloc)
    (hok : s.SparesCursor (.tableCall op)) : ({ s with tables := s.tables.apply op } : CursorState).CursorInv := by
  have hop : op.Admissible s.tables := fun a ha => (hf a ha).1
  have ht := h.tables.apply hop
  have hcursor := h.cursor
  refine ⟨ht, h.caches, ?_⟩
  unfold CursorValid at hcursor ⊢
  cases hst : s.stage with
  | idle => trivial
  | pids nowCache place => simpa only [hst] using hcursor
  | connections now place =>
    simp only [hst] at hcursor ⊢
    intro i cursor hh
    refine designates_of_keeps (hcursor i cursor hh) (fun a he ha hr => ?_)
    subst he
    obtain ⟨ha', hk⟩ := h.tables.keeps hop ha (hok now place a hst (heldNode_of_held hh))
    refine ⟨ha', (reaches_iff ht ha' i).mpr ?_⟩
    rw [show ((s.tables.apply op).node a).srcPort = (s.tables.node a).srcPort from congrArg FlowKey.srcPort hk]
    exact (reaches_iff h.tables ha i).mp hr

private theorem ownerCall (h : s.CursorInv) {op : OwnerOp} (hf : s.Fresh op.alloc)
    (hok : s.SparesCursor (.ownerCall op)) : ({ s with caches := s.caches.apply op } : CursorState).CursorInv := by
  obtain ⟨ht, hkeep⟩ := h.caches.apply (fun a ha => (hf a ha).2.1)
  have hcursor := h.cursor
  refine ⟨h.tables, ht, ?_⟩
  unfold CursorValid at hcursor ⊢
  cases hst : s.stage with
  | idle => trivial
  | connections now place => simpa only [hst] using hcursor
  | pids nowCache place =>
    simp only [hst] at hcursor ⊢
    intro i cursor hh
    refine designates_of_keeps (hcursor i cursor hh) (fun a he ha hr => ?_)
    subst he
    obtain ⟨ha', hk⟩ := hkeep a ha (hok nowCache place a hst (heldNode_of_held hh))
    rw [← ChainStore.WellChained.hash_of_reaches h.caches hr, ← hk]
    exact ⟨ha', ChainStore.WellChained.reaches ht ha'⟩

theorem step {s' : CursorState} {a : CursorAction} (h : s.CursorInv) (hok : s.SparesCursor a)
    (hs : s.step a = some s') : s'.CursorInv := by
  cases a with
  | beginPass now =>
    simp only [CursorState.step] at hs
    split at hs
    · rw [← Option.some.inj hs]
      exact ⟨h.tables, h.caches, fun _ _ hh => nomatch hh⟩
    · cases hs
  | advance clock => exact h.advance hs
  | tableCall op =>
    simp only [CursorState.step] at hs
    split at hs
    · rename_i hg
      rw [← Option.some.inj hs]
      exact h.tableCall hg.1 hok
    · cases hs
  | ownerCall op =>
    simp only [CursorState.step] at hs
    split at hs
    · rename_i hg
      rw [← Option.some.inj hs]
      exact h.ownerCall hg.1 hok
    · cases hs

end CursorInv

/-- In every run in which no other thread frees the node whose next link the pass holds on to
while it has given up the lock, the cursor is valid in every state reached. -/
theorem cleanup_cursor_valid_while_spared {s : CursorState} (h : Reach step SparesCursor init s) :
    s.CursorValid :=
  (h.invariant cursorInv_init (fun _ _ _ hi hok hs => hi.step hok hs)).cursor

/-- Three tracked connections: node 0 has gone stale behind node 1, in the bucket the pass locks first. -/
private def tracked : Tables :=
  ((Tables.empty.addConnection 1 0 (some 0) 4096 false 1 2 443 1).addConnection 1 2000000 (some 1) 8192 false 1 2 443
    1).addConnection 1 2000000 (some 2) 5000 false 1 2 443 1

/-- The pass has unlinked node 0 and given up the lock. -/
private def unlocked : CursorState :=
  lockConnections ⟨tracked, .empty, .idle⟩ 2000000 (toBucket 0) (.bucket (toBucket 0))

private theorem unlocked_facts :
    unlocked.stage = .connections 2000000 (.freeing 0 (.field 1) 0) ∧
    (unlocked.tables.node 1).key ≠ ⟨5000, false, false⟩ ∧
    (unlocked.tables.removeConnection 5000 false false).live = {1} ∧
    1 ∉ (unlocked.tables.removeConnection 8192 false false).live := by
  decide +kernel

private theorem reach_unlocked (ok : CursorState → CursorAction → Prop)
    (hpass : ∀ s now, ok s (.beginPass now) ∧ ok s (.advance now))
    (hidle : ∀ t c op, ok ⟨t, c, .idle⟩ (.tableCall op)) : Reach step ok init unlocked := by
  refine .next (a := .advance 2000000) (.next (a := .beginPass 2000000)
    (.next (a := .tableCall (.addConnection 1 2000000 (some 2) 5000 false 1 2 443 1))
      (.next (a := .tableCall (.addConnection 1 2000000 (some 1) 8192 false 1 2 443 1))
        (.next (a := .tableCall (.addConnection 1 0 (some 0) 4096 false 1 2 443 1)) .start (hidle ..) rfl)
        (hidle ..) rfl) (hidle ..) rfl) (hpass _ _).1 rfl) (hpass _ _).2 rfl

/-- Another thread removes an entry in the window, and the pass goes on to take the lock again. -/
theorem cleanup_cursor_valid_while_spared_window :
    ∃ s : CursorState, Reach step SparesCursor init s ∧
      s.stage = .connections 2000000 (.waiting 0 (.field 1)) ∧ s.tables.live = {1} ∧ s.CursorValid := by
  obtain ⟨hstage, hkey, hlive, _⟩ := unlocked_facts
  let removed : CursorState := { unlocked with tables := unlocked.tables.removeConnection 5000 false false }
  have hreach := reach_unlocked SparesCursor (fun _ _ => ⟨trivial, trivial⟩)
    (fun _ _ _ _ _ _ he => nomatch he)
  have hspare : unlocked.SparesCursor (.tableCall (.removeConnection 5000 false false)) := by
    intro now place a hst ha
    rw [hstage] at hst
    obtain ⟨rfl, rfl⟩ := PassStage.connections.inj hst
    obtain rfl : 1 = a := Option.some.inj ha
    exact hkey
  have hremoved : Reach step SparesCursor init removed :=
    hreach.next (a := .tableCall (.removeConnection 5000 false false)) hspare rfl
  have hadvance : removed.step (.advance 0) =
      some { removed with stage := .connections 2000000 (.waiting 0 (.field 1)) } := by
    simp only [step, advance, removed, hstage]
  have hspare' : removed.SparesCursor (.advance 0) := trivial
  have hlast := hremoved.next hspare' hadvance
  exact ⟨_, hlast, rfl, hlive, cleanup_cursor_valid_while_spared hlast⟩

/-- The first loop walks over a table without entries. -/
theorem advance_empty_connections (caches : OwnerCaches) (now clock : UInt64) {i : Nat} (hi : i < connectionHashSize) :
    advance ⟨.empty, caches, .connections now (.enter i)⟩ clock =
      some ⟨.empty, caches, .connections now (.enter (i + 1))⟩ := by
  simp only [advance, dif_pos hi]
  rfl

/-- The second loop walks over a bucket without entries. -/
theorem advance_empty_pids (t : Tables) {caches : OwnerCaches} (now clock : UInt64) {i : Nat} (hi : i < pidCacheSize)
    (hempty : caches.pids.links.head ⟨i, hi⟩ = none) :
    advance ⟨t, caches, .pids now (.enter i)⟩ clock = some ⟨t, caches, .pids now (.enter (i + 1))⟩ := by
  have hread : caches.pids.links.read (.bucket ⟨i, hi⟩) = none := hempty
  have hseek : ∀ p fuel, caches.pids.links.seek p fuel (.bucket ⟨i, hi⟩) = .bucket ⟨i, hi⟩ := by
    intro p fuel
    cases fuel with
    | zero => rfl
    | succ fuel => rw [Links.seek, hread]
  simp only [advance, dif_pos hi, lockPids, OwnerCaches.examine, hseek, hread]
  rfl

section Walks
variable {ok : CursorState → CursorAction → Prop} {caches : OwnerCaches} {now : UInt64}

private theorem reach_enter_connections (hok : ∀ s clock, ok s (.advance clock))
    (h : Reach step ok init ⟨.empty, caches, .connections now (.enter 0)⟩) (n : Nat) (hn : n ≤ connectionHashSize) :
    Reach step ok init ⟨.empty, caches, .connections now (.enter n)⟩ := by
  induction n with
  | zero => exact h
  | succ n ih =>
    exact (ih (Nat.le_of_lt hn)).next (a := .advance now) (hok _ _) (advance_empty_connections _ now now hn)

private theorem reach_enter_pids (hok : ∀ s clock, ok s (.advance clock))
    (h : Reach step ok init ⟨.empty, caches, .pids now (.enter 0)⟩) (n : Nat) (hn : n ≤ pidCacheSize)
    (hempty : ∀ i : PidBucket, i.val < n → caches.pids.links.head i = none) :
    Reach step ok init ⟨.empty, caches, .pids now (.enter n)⟩ := by
  induction n with
  | zero => exact h
  | succ n ih =>
    have hreach := ih (Nat.le_of_lt hn) fun i hi => hempty i (Nat.lt_succ_of_lt hi)
    refine hreach.next (a := .advance now) (hok _ _) ?_
    exact advance_empty_pids _ now now hn (hempty ⟨n, hn⟩ (Nat.lt_succ_self n))

end Walks

/-- Two identifiers cached for connections of one host, in one bucket: node 0 has expired behind node 1. -/
private def cached : OwnerCaches :=
  (OwnerCaches.empty.cachePid 0 (some 0) 0x0500000A 5000 7 false).cachePid 20000 (some 1) 0x0500000A 5001 7 false

private def unlockedPids : CursorState :=
  lockPids ⟨.empty, cached, .idle⟩ 20000 ⟨10, by decide⟩ (.bucket ⟨10, by decide⟩)

private theorem unlockedPids_facts :
    unlockedPids.stage = .pids 20000 (.freeing ⟨10, by decide⟩ (.field 1) 0) ∧
    1 ∉ (unlockedPids.caches.removeCachedPid 0x0500000A 5001 false).pids.live := by
  decide +kernel

private theorem cached_head {i : PidBucket} (hi : i.val < 10) : cached.pids.links.head i = none := by
  have hold : i ≠ pidCacheHash 0x0500000A 5000 false := by
    rintro rfl
    exact absurd hi (by decide)
  have hnew : i ≠ pidCacheHash 0x0500000A 5001 false := by
    rintro rfl
    exact absurd hi (by decide)
  exact (Function.update_of_ne hnew (some 1) _).trans (Function.update_of_ne hold (some 0) fun _ => none)

private theorem reach_unlockedPids : Reach step (fun _ _ => True) init unlockedPids := by
  have henter : Reach step (fun _ _ => True) init ⟨.empty, cached, .connections 20000 (.enter 0)⟩ :=
    .next (a := .beginPass 20000) (.next (a := .ownerCall (.cachePid 20000 (some 1) 0x0500000A 5001 7 false))
      (.next (a := .ownerCall (.cachePid 0 (some 0) 0x0500000A 5000 7 false)) .start trivial rfl) trivial rfl) trivial
      rfl
  have hend := reach_enter_connections (fun _ _ => trivial) henter connectionHashSize (Nat.le_refl _)
  have hpids : Reach step (fun _ _ => True) init ⟨.empty, cached, .pids 20000 (.enter 0)⟩ := by
    refine hend.next (a := .advance 20000) trivial ?_
    simp only [step, advance, dif_neg (Nat.lt_irrefl connectionHashSize)]
  have hbucket := reach_enter_pids (fun _ _ => trivial) hpids 10 (by decide) (fun _ => cached_head)
  exact hbucket.next (a := .advance 20000) trivial rfl

/-- In both loops: a call in the window frees the node whose next link the pass then follows. -/
theorem cleanup_cursor_freed_in_window :
    (∃ s : CursorState, Reach step (fun _ _ => True) init s ∧ ¬ s.CursorValid ∧
      ∃ now i a, s.stage = .connections now (.waiting i (.field a)) ∧ a ∉ s.tables.live) ∧
    (∃ s : CursorState, Reach step (fun _ _ => True) init s ∧ ¬ s.CursorValid ∧
      ∃ now i a, s.stage = .pids now (.waiting i (.field a)) ∧ a ∉ s.caches.pids.live) := by
  constructor
  · obtain ⟨hstage, _, _, hgone⟩ := unlocked_facts
    let removed : CursorState := { unlocked with tables := unlocked.tables.removeConnection 8192 false false }
    have hremoved : Reach step (fun _ _ => True) init removed :=
      (reach_unlocked _ (fun _ _ => ⟨trivial, trivial⟩) (fun _ _ _ => trivial)).next
        (a := .tableCall (.removeConnection 8192 false false)) trivial rfl
    have hadvance : removed.step (.advance 0) =
        some { removed with stage := .connections 2000000 (.waiting 0 (.field 1)) } := by
      simp only [step, advance, removed, hstage]
    exact ⟨_, hremoved.next trivial hadvance, fun hv => hgone (hv 0 (.field 1) rfl).1, 2000000, 0, 1, rfl, hgone⟩
  · obtain ⟨hstage, hgone⟩ := unlockedPids_facts
    let removed : CursorState :=
      { unlockedPids with caches := unlockedPids.caches.removeCachedPid 0x0500000A 5001 false }
    have hremoved : Reach step (fun _ _ => True) init removed :=
      reach_unlockedPids.next (a := .ownerCall (.removeCachedPid 0x0500000A 5001 false)) trivial rfl
    have hadvance : removed.step (.advance 0) =
        some { removed with stage := .pids 20000 (.waiting ⟨10, by decide⟩ (.field 1)) } := by
      simp only [step, advance, removed, hstage]
    exact ⟨_, hremoved.next trivial hadvance, fun hv => hgone (hv ⟨10, by decide⟩ (.field 1) rfl).1, 20000,
      ⟨10, by decide⟩, 1, rfl, hgone⟩

end CursorState
end ProxyBridge.Windows
