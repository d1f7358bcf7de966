import ProxyBridge.Windows.CacheCleanup

/-! Runs of the cleanup passes among the calls of the other threads, with a clock that only grows.
Every call on the owner caches is made on unpruned ones too, save the passes. -/
namespace ProxyBridge.Windows
open IntrusiveChains Runs TickAges

namespace CursorState

/-- The section of the second loop that the pass enters next. -/
def pidSection (s : CursorState) : Option (UInt64 × PidBucket × Cursor PidBucket Addr) :=
  match s.stage with
  | .pids nowCache (.enter i) => if h : i < pidCacheSize then some (nowCache, ⟨i, h⟩, .bucket ⟨i, h⟩) else none
  | .pids nowCache (.waiting i entryPtr) => some (nowCache, i, entryPtr)
  | _ => none

theorem CursorInv.designates {s : CursorState} (h : s.CursorInv) {nowCache : UInt64} {i : PidBucket}
    {entryPtr : Cursor PidBucket Addr} (hs : s.pidSection = some (nowCache, i, entryPtr)) :
    s.caches.pids.links.Designates s.caches.pids.live i entryPtr := by
  have hcursor := h.cursor
  unfold CursorValid at hcursor
  unfold pidSection at hs
  split at hs
  · split at hs
    · obtain ⟨-, rfl, rfl⟩ := by simpa using hs
      rfl
    · cases hs
  · rename_i now j ptr hst
    rw [hst] at hcursor
    obtain ⟨-, rfl, rfl⟩ := by simpa using hs
    exact hcursor _ _ rfl
  · cases hs

/-- What a step does to the caches of owners. -/
theorem step_caches {s s' : CursorState} {a : CursorAction} (hs : s.step a = some s') :
    (∃ op, a = .ownerCall op ∧ s.Fresh op.alloc ∧ s'.caches = s.caches.apply op) ∨
    (∃ clock nowCache i entryPtr, a = .advance clock ∧ s.pidSection = some (nowCache, i, entryPtr) ∧
      s'.caches = (s.caches.examine nowCache entryPtr).2) ∨
    ((∀ op, a ≠ .ownerCall op) ∧ (∀ clock, a = .advance clock → s.pidSection = none) ∧ s'.caches = s.caches) := by
  cases a with
  | beginPass now =>
    simp only [step] at hs
    split at hs
    · rw [← Option.some.inj hs]
      exact .inr (.inr ⟨(fun _ h => by cases h), (fun _ h => by cases h), rfl⟩)
    · cases hs
  | advance clock =>
    simp only [step, advance] at hs
    unfold pidSection
    split at hs
    · cases hs
    · rename_i hst
      refine .inr (.inr ⟨(fun _ h => by cases h), fun _ _ => ?_, ?_⟩)
      · rw [hst]
      · split at hs <;> exact Option.some.inj hs ▸ rfl
    · rename_i hst
      rw [← Option.some.inj hs, hst]
      exact .inr (.inr ⟨(fun _ h => by cases h), fun _ _ => rfl, rfl⟩)
    · rename_i hst
      rw [← Option.some.inj hs, hst]
      exact .inr (.inr ⟨(fun _ h => by cases h), fun _ _ => rfl, rfl⟩)
    · rename_i nowCache i hst
      rw [hst]
      split at hs
      · rename_i hi
        rw [← Option.some.inj hs]
        exact .inr (.inl ⟨clock, nowCache, ⟨i, hi⟩, .bucket ⟨i, hi⟩, rfl, dif_pos hi, rfl⟩)
      · rename_i hi
        rw [← Option.some.inj hs]
        exact .inr (.inr ⟨(fun _ h => by cases h), fun _ _ => dif_neg hi, rfl⟩)
    · rename_i hst
      rw [← Option.some.inj hs, hst]
      exact .inr (.inr ⟨(fun _ h => by cases h), fun _ _ => rfl, rfl⟩)
    · rename_i nowCache i entryPtr hst
      rw [← Option.some.inj hs, hst]
      exact .inr (.inl ⟨clock, nowCache, i, entryPtr, rfl, rfl, rfl⟩)
  | tableCall op =>
    simp only [step] at hs
    split at hs
    · rw [← Option.some.inj hs]
      exact .inr (.inr ⟨(fun _ h => by cases h), (fun _ h => by cases h), rfl⟩)
    · cases hs
  | ownerCall op =>
    simp only [step] at hs
    split at hs
    · rename_i hg
      rw [← Option.some.inj hs]
      exact .inl ⟨op, rfl, hg.1, rfl⟩
    · cases hs

end CursorState
/-- The tick count an action has read from the clock, if it reads it at all. -/
def CursorAction.clockSample : CursorAction → Option UInt64
  | .beginPass now => some now
  | .advance clock => some clock
  | .tableCall op => op.clockSample
  | .ownerCall op => op.clockSample

def CursorAction.ownerAlloc : CursorAction → Option Addr
  | .ownerCall op => op.alloc
  | _ => none

/-- Calls of the program, and the owner caches as they would be without its passes. -/
structure CacheRun where
  cursor : CursorState
  unpruned : OwnerCaches
  clock : UInt64

inductive CacheAction where
  | tick (clock : UInt64)
  | call (a : CursorAction) (alloc : Option Addr)

namespace CacheRun

def init (clock : UInt64) : CacheRun := ⟨.init, .empty, clock⟩

/-- What an action does to the unpruned caches. -/
def shadow (u : OwnerCaches) (alloc : Option Addr) : CursorAction → OwnerCaches
  | .ownerCall op => if op.cleans then u else u.apply (op.realloc alloc)
  | _ => u

/-- A call reads the clock now or has read it earlier. Memory for an entry of the unpruned caches is
granted when it is for the others. -/
def step (s : CacheRun) : CacheAction → Option CacheRun
  | .tick clock => if s.clock ≤ clock then some { s with clock := clock } else none
  | .call a alloc =>
    if a.clockSample.all (fun now => decide (now ≤ s.clock)) ∧ alloc.isSome = a.ownerAlloc.isSome ∧
        alloc.all (fun b => decide (b ∉ s.unpruned.pids.live))
    then (s.cursor.step a).map (fun cursor => ⟨cursor, shadow s.unpruned alloc a, s.clock⟩) else none

/-- The passes, and the steps of the pass over the connections. -/
def cleans : CacheAction → Bool
  | .call (.advance _) _ => true
  | .call (.ownerCall op) _ => op.cleans
  | _ => false

def SparesCursor (s : CacheRun) : CacheAction → Prop
  | .tick _ => True
  | .call a _ => s.cursor.SparesCursor a

/-- What a pass frees next has not been stamped after its sample, and the entry that the second loop
is about to take for a stale one has expired. -/
def CleansInTime (s : CacheRun) : CacheAction → Prop
  | .call (.advance _) _ => ∀ nowCache i entryPtr e, s.cursor.pidSection = some (nowCache, i, entryPtr) →
      s.cursor.caches.nextStale nowCache entryPtr = some e → e.Expired s.clock
  | .call (.ownerCall op) _ => s.cursor.caches.CleansInTime s.clock op
  | _ => True

def FindsTheSame (s : CacheRun) : CacheAction → Prop
  | .call (.ownerCall op) _ => s.cursor.caches.FindsTheSame s.unpruned op
  | _ => True

def Orderly (s : CacheRun) (a : CacheAction) : Prop := s.SparesCursor a ∧ s.CleansInTime a ∧ s.FindsTheSame a

/-- What a step frees is what the lookups pass over at that moment. -/
def RemovesOnlyExpired (s s' : CacheRun) : Prop :=
  (∀ e, s.cursor.caches.HoldsPid e → ¬ s'.cursor.caches.HoldsPid e → e.Expired s.clock) ∧
  ∀ i, ∀ e ∈ s.cursor.caches.owners i, e ∉ s'.cursor.caches.owners i → e.Expired s.clock

/-- From now on no lookup tells the caches from the unpruned ones. -/
def SameLookups (s : CacheRun) : Prop := ∀ later, s.clock ≤ later →
  (∀ srcIp srcPort isUdp, s.cursor.caches.getCachedPid later srcIp srcPort isUdp =
    s.unpruned.getCachedPid later srcIp srcPort isUdp) ∧
  ∀ q, s.cursor.caches.getOwnerEventPid later q = s.unpruned.getOwnerEventPid later q

/-- What holds in every run that spares the cursor. -/
structure Inv (s : CacheRun) : Prop where
  cursor : s.cursor.CursorInv
  caches : s.cursor.caches.Sound
  unpruned : s.unpruned.Sound
  stamped : s.cursor.caches.Stamped s.clock
  stampedUnpruned : s.unpruned.Stamped s.clock

theorem inv_init (clock : UInt64) : Inv (init clock) where
  cursor := CursorState.cursorInv_init
  caches := OwnerCaches.sound_empty
  unpruned := OwnerCaches.sound_empty
  stamped := OwnerCaches.stamped_empty clock
  stampedUnpruned := OwnerCaches.stamped_empty clock

theorem call_cases {s s' : CacheRun} {a : CursorAction} {alloc : Option Addr} (hs : s.step (.call a alloc) = some s') :
    (∀ now, a.clockSample = some now → now ≤ s.clock) ∧ alloc.isSome = a.ownerAlloc.isSome ∧
    (∀ b, alloc = some b → b ∉ s.unpruned.pids.live) ∧
    ∃ cursor, s.cursor.step a = some cursor ∧ s' = ⟨cursor, shadow s.unpruned alloc a, s.clock⟩ := by
  simp only [step] at hs
  split at hs
  · rename_i hg
    obtain ⟨hsample, hlike, hfresh⟩ := hg
    obtain ⟨cursor, hc, rfl⟩ := Option.map_eq_some_iff.mp hs
    refine ⟨fun now hnow => ?_, hlike, fun b hb => ?_, cursor, hc, rfl⟩
    · simpa [hnow] using hsample
    · simpa [hb] using hfresh
  · cases hs

/-- The unpruned caches have calls made on them only. -/
private theorem shadow_inv {u : OwnerCaches} {clock : UInt64} (hu : u.Sound) (hst : u.Stamped clock)
    {alloc : Option Addr} {a : CursorAction} (hfresh : ∀ b, alloc = some b → b ∉ u.pids.live)
    (hsample : ∀ now, a.clockSample = some now → now ≤ clock) :
    (shadow u alloc a).Sound ∧ (shadow u alloc a).Stamped clock := by
  cases a with
  | ownerCall op =>
    rw [shadow]
    split
    · exact ⟨hu, hst⟩
    · have hfresh' : ∀ b, (op.realloc alloc).alloc = some b → b ∉ u.pids.live := by
        intro b hb
        cases op with
        | cachePid currentTime alloc₀ srcIp srcPort pid isUdp => exact hfresh b hb
        | _ => cases hb
      refine ⟨hu.apply hfresh', hst.apply hu hfresh' fun now hnow => hsample now ?_⟩
      cases op with
      | _ => exact hnow
  | beginPass now => exact ⟨hu, hst⟩
  | advance clock' => exact ⟨hu, hst⟩
  | tableCall op => exact ⟨hu, hst⟩

theorem Inv.step {s s' : CacheRun} {a : CacheAction} (h : Inv s) (hok : s.SparesCursor a) (hs : s.step a = some s') :
    Inv s' := by
  cases a with
  | tick clock =>
    simp only [CacheRun.step] at hs
    split at hs
    · rename_i hle
      rw [← Option.some.inj hs]
      exact ⟨h.cursor, h.caches, h.unpruned, h.stamped.later hle, h.stampedUnpruned.later hle⟩
    · cases hs
  | call a alloc =>
    obtain ⟨hsample, hlike, hfresh, cursor, hc, rfl⟩ := call_cases hs
    have hcursor := h.cursor.step hok hc
    obtain ⟨hu, hstu⟩ := shadow_inv h.unpruned h.stampedUnpruned hfresh hsample
    rcases CursorState.step_caches hc with ⟨op, rfl, hop, hcaches⟩ |
      ⟨clock, nowCache, i, entryPtr, rfl, hsec, hcaches⟩ | ⟨_, _, hcaches⟩
    · have hfresh' : ∀ b, op.alloc = some b → b ∉ s.cursor.caches.pids.live := fun b hb => (hop b hb).2.1
      refine ⟨hcursor, ?_, hu, ?_, hstu⟩
      · simpa only [hcaches] using h.caches.apply hfresh'
      · simpa only [hcaches] using h.stamped.apply h.caches hfresh' hsample
    · obtain ⟨howners, hunique, _, hheld⟩ :=
        OwnerCaches.examine_spec h.caches nowCache (h.cursor.designates hsec)
      refine ⟨hcursor, ⟨hcursor.caches, ?_, ?_⟩, hu, ⟨fun e he => ?_, fun i e he => ?_⟩, hstu⟩
      · simpa only [hcaches] using hunique
      · exact h.caches.owners.of_sublist fun i => by rw [hcaches, howners]
      · rw [hcaches] at he
        exact h.stamped.pids e ((hheld e).mp he).1
      · rw [hcaches, howners] at he
        exact h.stamped.owners i e he
    · refine ⟨hcursor, ?_, hu, ?_, hstu⟩
      · simpa only [hcaches] using h.caches
      · simpa only [hcaches] using h.stamped

theorem reach_inv {clock : UInt64} {s : CacheRun} (h : Reach step SparesCursor (init clock) s) : Inv s :=
  h.invariant (inv_init clock) (fun _ _ _ hi hok hs => hi.step hok hs)

/-- Next to the unpruned caches, an orderly step lets only what has expired go missing. -/
theorem prunedFrom_step {s s' : CacheRun} {a : CacheAction} (h : Inv s)
    (hp : s.cursor.caches.PrunedFrom s.clock s.unpruned) (hok : s.Orderly a) (hs : s.step a = some s') :
    s'.cursor.caches.PrunedFrom s'.clock s'.unpruned := by
  obtain ⟨_, htime, hsame⟩ := hok
  cases a with
  | tick clock =>
    simp only [step] at hs
    split at hs
    · rename_i hle
      rw [← Option.some.inj hs]
      exact hp.later h.stampedUnpruned hle
    · cases hs
  | call a alloc =>
    obtain ⟨hsample, hlike, hfresh, cursor, hc, rfl⟩ := call_cases hs
    rcases CursorState.step_caches hc with ⟨op, rfl, hop, hcaches⟩ |
      ⟨clock, nowCache, i, entryPtr, rfl, hsec, hcaches⟩ | ⟨hcall, _, hcaches⟩
    · simp only [hcaches]
      exact hp.apply h.caches h.unpruned (fun b hb => (hop b hb).2.1) hfresh hlike hsample htime hsame
    · obtain ⟨howners, _, _, hheld⟩ := OwnerCaches.examine_spec h.caches nowCache (h.cursor.designates hsec)
      simp only [hcaches]
      refine ⟨fun e he => hp.held e ((hheld e).mp he).1, fun e he => ?_, fun j => ?_⟩
      · rcases hp.missing e he with he | hold
        · by_cases hnext : s.cursor.caches.nextStale nowCache entryPtr = some e
          · exact .inr (htime nowCache i entryPtr e hsec hnext)
          · exact .inl ((hheld e).mpr ⟨he, hnext⟩)
        · exact .inr hold
      · rw [howners]
        exact hp.rows j
    · simp only [hcaches]
      cases a with
      | ownerCall op => exact absurd rfl (hcall op)
      | _ => exact hp

theorem removesOnlyExpired_of_cleansInTime {s s' : CacheRun} {a : CacheAction} (h : Inv s) (hclean : cleans a = true)
    (htime : s.CleansInTime a) (hs : s.step a = some s') : s.RemovesOnlyExpired s' := by
  cases a with
  | tick clock => cases hclean
  | call a alloc =>
    obtain ⟨hsample, _, _, cursor, hc, rfl⟩ := call_cases hs
    rcases CursorState.step_caches hc with ⟨op, rfl, _, hcaches⟩ |
      ⟨clock, nowCache, i, entryPtr, rfl, hsec, hcaches⟩ | ⟨_, _, hcaches⟩
    · unfold RemovesOnlyExpired
      simp only [hcaches]
      cases op with
      | cleanupStalePidCache now =>
        refine ⟨fun e he hgone => ?_, fun i e he hgone => absurd ?_ hgone⟩
        · have hage : pidCacheTtlMs ≤ now - e.timestamp := by
            by_contra hage
            exact hgone ((OwnerCaches.holdsPid_dropPids h.caches.consistent _ e).mpr ⟨he, decide_eq_false hage⟩)
          exact le_age_of_sampled hage (hsample now rfl) (htime e he)
        · rw [OwnerCaches.apply, OwnerCaches.cleanupStalePidCache,
            (OwnerCaches.dropPids_spec h.caches.consistent _).2.1]
          exact he
      | cleanupStaleOwnerCache now =>
        refine ⟨fun e he hgone => absurd he hgone, fun i e he hgone => ?_⟩
        have hage : ownerCacheTtlMs ≤ now - e.timestamp := by
          by_contra hage
          refine hgone (List.mem_filter.mpr ⟨he, ?_⟩)
          rw [decide_eq_false hage]
          rfl
        exact le_age_of_sampled hage (hsample now rfl) (htime i e he)
      | _ => cases hclean
    · obtain ⟨howners, _, _, hheld⟩ := OwnerCaches.examine_spec h.caches nowCache (h.cursor.designates hsec)
      unfold RemovesOnlyExpired
      simp only [hcaches]
      refine ⟨fun e he hgone => ?_, fun j e he hgone => absurd (howners ▸ he) hgone⟩
      refine htime nowCache i entryPtr e hsec ?_
      by_contra hnext
      exact hgone ((hheld e).mpr ⟨he, hnext⟩)
    · unfold RemovesOnlyExpired
      simp only [hcaches]
      exact ⟨fun e he hgone => absurd he hgone, fun i e he hgone => absurd he hgone⟩

theorem cleansInTime_of_removesOnlyExpired {s s' : CacheRun} {a : CacheAction} (h : Inv s) (hclean : cleans a = true)
    (hclock : s.clock.toNat + 120000 < UInt64.size) (hs : s.step a = some s') (hr : s.RemovesOnlyExpired s') :
    s.CleansInTime a := by
  cases a with
  | tick clock => cases hclean
  | call a alloc =>
    obtain ⟨_, _, _, cursor, hc, rfl⟩ := call_cases hs
    obtain ⟨hpids, howned⟩ := hr
    rcases CursorState.step_caches hc with ⟨op, rfl, _, hcaches⟩ |
      ⟨clock, nowCache, i, entryPtr, rfl, hsec, hcaches⟩ | ⟨hcall, hnone, _⟩
    · simp only [hcaches] at hpids howned
      cases op with
      | cleanupStalePidCache now =>
        intro e he
        by_cases hle : e.timestamp ≤ now
        · exact .inl hle
        · refine .inr (hpids e he fun he' => ?_)
          have hyoung := ((OwnerCaches.holdsPid_dropPids h.caches.consistent _ e).mp he').2
          refine of_decide_eq_false hyoung (UInt64.le_of_lt (lt_age_of_later (UInt64.not_le.mp hle)
            (h.stamped.pids e he) ?_))
          exact Nat.lt_of_le_of_lt (Nat.add_le_add_left (by decide) _) hclock
      | cleanupStaleOwnerCache now =>
        intro i e he
        by_cases hle : e.timestamp ≤ now
        · exact .inl hle
        · refine .inr (howned i e he fun he' => ?_)
          have hyoung := (List.mem_filter.mp he').2
          rw [Bool.not_eq_true'] at hyoung
          exact of_decide_eq_false hyoung (UInt64.le_of_lt (lt_age_of_later (UInt64.not_le.mp hle)
            (h.stamped.owners i e he) hclock))
      | _ => cases hclean
    · simp only [hcaches] at hpids
      obtain ⟨_, _, hnext, hheld⟩ := OwnerCaches.examine_spec h.caches nowCache (h.cursor.designates hsec)
      intro now j ptr e hsec' hstale
      obtain ⟨rfl, rfl, rfl⟩ : nowCache = now ∧ i = j ∧ entryPtr = ptr := by
        simpa using hsec.symm.trans hsec'
      exact hpids e (hnext e hstale) fun he => ((hheld e).mp he).2 hstale
    · cases a with
      | ownerCall op => exact absurd rfl (hcall op)
      | advance clock =>
        intro now j ptr e hsec
        rw [hnone clock rfl] at hsec
        cases hsec
      | _ => cases hclean

/-- What holds in every run of orderly steps. -/
structure OrderlyInv (s : CacheRun) : Prop where
  inv : Inv s
  pruned : s.cursor.caches.PrunedFrom s.clock s.unpruned

theorem reach_orderly {clock : UInt64} {s : CacheRun} (h : Reach step Orderly (init clock) s) : OrderlyInv s :=
  h.invariant ⟨inv_init clock, fun _ he => he, fun _ he => .inl he, fun _ => .refl ..⟩
    (fun _ _ _ hi hok hs => ⟨hi.inv.step hok.1 hs, prunedFrom_step hi.inv hi.pruned hok hs⟩)

theorem sameLookups_of_prunedFrom {s : CacheRun} (h : Inv s) (hp : s.cursor.caches.PrunedFrom s.clock s.unpruned) :
    s.SameLookups := by
  intro later hle
  have hlater := hp.later h.stampedUnpruned hle
  exact ⟨hlater.getCachedPid_eq h.caches h.unpruned, hlater.getOwnerEventPid_eq⟩

/-- In a run whose steps are orderly the passes free only what the lookups pass over, and no lookup
tells that they ran. In any run that spares the cursor, while the clock is not about to wrap, a step
of a pass frees only what has expired exactly when it cleans in time. -/
theorem cleanup_invisible_while_orderly (clock : UInt64) :
    (∀ s, Reach step Orderly (init clock) s → s.SameLookups ∧
      ∀ a s', cleans a = true → s.Orderly a → s.step a = some s' → s.RemovesOnlyExpired s') ∧
    (∀ s a s', Reach step SparesCursor (init clock) s → cleans a = true → s.step a = some s' →
      s.clock.toNat + 120000 < UInt64.size → (s.RemovesOnlyExpired s' ↔ s.CleansInTime a)) := by
  constructor
  · intro s h
    obtain ⟨hi, hp⟩ := reach_orderly h
    exact ⟨sameLookups_of_prunedFrom hi hp,
      fun a s' hclean hok hs => removesOnlyExpired_of_cleansInTime hi hclean hok.2.1 hs⟩
  · intro s a s' h hclean hs hclock
    have hi := reach_inv h
    exact ⟨cleansInTime_of_removesOnlyExpired hi hclean hclock hs,
      fun htime => removesOnlyExpired_of_cleansInTime hi hclean htime hs⟩

/-- The event of a socket that process 7 binds to UDP port 5000. -/
def bindCall (now : UInt64) : OwnerOp := .cacheOwnerEvent now true .zero 5000 .zero 0 true 7 1 3

def bindCaches (now : UInt64) : OwnerCaches := OwnerCaches.empty.apply (bindCall now)

/-- The event expires and is freed, and is not missed. -/
theorem cleanup_invisible_while_orderly_expired :
    ∃ s s' : CacheRun, Reach step Orderly (init 1000) s ∧
      s.step (.call (.ownerCall (.cleanupStaleOwnerCache 121000)) none) = some s' ∧
      s.cursor.caches.owners (ownerCacheHash 5000 true) ≠ [] ∧ s'.cursor.caches.owners (ownerCacheHash 5000 true) = [] ∧
      s.RemovesOnlyExpired s' ∧ s'.SameLookups := by
  let bound : CacheRun := ⟨⟨.empty, bindCaches 1000, .idle⟩, bindCaches 1000, 121000⟩
  have hreach : Reach step Orderly (init 1000) bound := by
    refine .next (s := ⟨⟨.empty, bindCaches 1000, .idle⟩, bindCaches 1000, 1000⟩) (a := .tick 121000)
      (.next (a := .call (.ownerCall (bindCall 1000)) none) .start ⟨nofun, trivial, fun _ he => he⟩ ?_)
      ⟨trivial, trivial, trivial⟩ ?_
    · rfl
    · rfl
  have hok : bound.Orderly (.call (.ownerCall (.cleanupStaleOwnerCache 121000)) none) :=
    ⟨nofun, fun i e he => .inl ((reach_orderly hreach).inv.stamped.owners i e he), trivial⟩
  obtain ⟨hrun, _⟩ := cleanup_invisible_while_orderly 1000
  refine ⟨bound, _, hreach, rfl, ?_, ?_, (hrun bound hreach).2 _ _ rfl hok rfl, (hrun _ (hreach.next hok rfl)).1⟩
  · decide +kernel
  · decide +kernel

/-- A pass samples the clock, another thread caches an event 16 ms later, and the pass takes the lock:
the event is freed at once. -/
theorem cleanup_frees_fresh_event :
    ∃ s s' : CacheRun, Reach step SparesCursor (init 1000) s ∧
      s.step (.call (.ownerCall (.cleanupStaleOwnerCache 1000)) none) = some s' ∧
      ¬ s.RemovesOnlyExpired s' ∧ ¬ s'.SameLookups := by
  let bound : CacheRun := ⟨⟨.empty, bindCaches 1016, .idle⟩, bindCaches 1016, 1016⟩
  have hreach : Reach step SparesCursor (init 1000) bound := by
    refine .next (s := init 1016) (a := .call (.ownerCall (bindCall 1016)) none)
      (.next (a := .tick 1016) .start trivial ?_) nofun ?_
    · rfl
    · rfl
  refine ⟨bound, _, hreach, rfl, ?_, ?_⟩
  · rintro ⟨_, howned⟩
    refine absurd (howned (ownerCacheHash 5000 true) ⟨.zero, .zero, 5000, 0, 7, 1, 1016, true, 3⟩ ?_ ?_) ?_
    · decide +kernel
    · decide +kernel
    · exact fun hold => absurd hold (by decide : ¬ ownerCacheTtlMs ≤ (1016 : UInt64) - 1016)
  · intro hsame
    exact absurd ((hsame 1016 (by decide)).2 ⟨.zero, 5000, .zero, 0, true⟩) (by decide +kernel)

section Walks
variable {s₀ : CacheRun} {now clock : UInt64} {caches : OwnerCaches}

private theorem step_advance (cursor : CursorState) (u : OwnerCaches) (clock : UInt64) :
    step ⟨cursor, u, clock⟩ (.call (.advance clock) none) =
      (cursor.advance clock).map fun cursor => ⟨cursor, u, clock⟩ := by
  simp only [step, CursorAction.clockSample, CursorAction.ownerAlloc, Option.all_some, Option.all_none,
    Option.isSome_none, Std.le_refl, decide_true, and_self, if_true, CursorState.step, shadow]

/-- Nothing but the stage changes while the loops walk over empty buckets. -/
private theorem reach_enter_connections
    (h : Reach step SparesCursor s₀ ⟨⟨.empty, caches, .connections now (.enter 0)⟩, caches, clock⟩) (i : Nat)
    (hi : i ≤ connectionHashSize) :
    Reach step SparesCursor s₀ ⟨⟨.empty, caches, .connections now (.enter i)⟩, caches, clock⟩ := by
  induction i with
  | zero => exact h
  | succ i ih =>
    refine (ih (Nat.le_of_succ_le hi)).next (a := .call (.advance clock) none) trivial ?_
    rw [step_advance, CursorState.advance_empty_connections _ _ _ hi]
    rfl

private theorem reach_enter_pids
    (h : Reach step SparesCursor s₀ ⟨⟨.empty, caches, .pids now (.enter 0)⟩, caches, clock⟩) (i : Nat)
    (hi : i ≤ pidCacheSize) (hempty : ∀ j : PidBucket, j.val < i → caches.pids.links.head j = none) :
    Reach step SparesCursor s₀ ⟨⟨.empty, caches, .pids now (.enter i)⟩, caches, clock⟩ := by
  induction i with
  | zero => exact h
  | succ i ih =>
    have hreach := ih (Nat.le_of_succ_le hi) fun j hj => hempty j (Nat.lt_succ_of_lt hj)
    refine hreach.next (a := .call (.advance clock) none) trivial ?_
    rw [step_advance, CursorState.advance_empty_pids _ _ _ hi (hempty ⟨i, hi⟩ (Nat.lt_succ_self i))]
    rfl

end Walks

/-- The process of a connection is cached, and the second loop of a pass forgets it ten seconds later,
where the lookup would have answered for another twenty. -/
theorem second_loop_frees_cached_pid :
    ∃ s s' : CacheRun, Reach step SparesCursor (init 1000) s ∧ s.step (.call (.advance 11001) none) = some s' ∧
      ¬ s.RemovesOnlyExpired s' ∧ ¬ s'.SameLookups := by
  let caches : OwnerCaches := OwnerCaches.empty.apply (.cachePid 1000 (some 0) 0x0500000A 5000 7 false)
  let held : CacheRun := ⟨⟨.empty, caches, .pids 11001 (.enter 10)⟩, caches, 11001⟩
  have hbegin : Reach step SparesCursor (init 1000)
      ⟨⟨.empty, caches, .connections 11001 (.enter 0)⟩, caches, 11001⟩ := by
    refine .next (s := ⟨⟨.empty, caches, .idle⟩, caches, 11001⟩) (a := .call (.beginPass 11001) none)
      (.next (s := ⟨⟨.empty, caches, .idle⟩, caches, 1000⟩) (a := .tick 11001)
        (.next (a := .call (.ownerCall (.cachePid 1000 (some 0) 0x0500000A 5000 7 false)) (some 0)) .start nofun ?_)
        trivial ?_) trivial ?_
    · rfl
    · rfl
    · rfl
  have hloop : Reach step SparesCursor (init 1000) ⟨⟨.empty, caches, .pids 11001 (.enter 0)⟩, caches, 11001⟩ :=
    (reach_enter_connections hbegin connectionHashSize (Nat.le_refl _)).next (a := .call (.advance 11001) none) trivial
      rfl
  have hreach : Reach step SparesCursor (init 1000) held := by
    refine reach_enter_pids hloop 10 (by decide) fun j hj => ?_
    have hne : j ≠ pidCacheHash 0x0500000A 5000 false := by
      rintro rfl
      exact absurd hj (by decide)
    exact Function.update_of_ne hne (some 0) fun _ => none
  let freed : CacheRun := ⟨held.cursor.lockPids 11001 ⟨10, by decide⟩ (.bucket ⟨10, by decide⟩), caches, 11001⟩
  refine ⟨held, freed, hreach, rfl, ?_, ?_⟩
  · rintro ⟨hpids, _⟩
    refine absurd (hpids ⟨0x0500000A, 5000, 7, 1000, false⟩ ⟨0, by decide +kernel, by decide +kernel⟩
      (OwnerCaches.not_holdsPid_of_empty (by decide +kernel) _)) ?_
    exact fun hold => absurd hold (by decide : ¬ pidCacheTtlMs ≤ (11001 : UInt64) - 1000)
  · intro hsame
    exact absurd ((hsame 11001 (UInt64.le_refl _)).1 0x0500000A 5000 false) (by decide +kernel)

end CacheRun
end ProxyBridge.Windows
