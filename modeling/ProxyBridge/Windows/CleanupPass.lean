import ProxyBridge.Library.TickAges
import ProxyBridge.Windows.ConntrackRuns
import ProxyBridge.Windows.FlowMap

/-! A `cleanup_stale_connections` pass interleaved with the other threads. The pass samples the
clock once and then locks one bucket at a time; calls of other threads and ticks of the clock
fall between its sections. -/
namespace ProxyBridge.Windows
open Runs

/-- The clock value of the pass in progress and the bucket it locks next. -/
structure Pass where
  now : UInt64
  next : Nat

structure Cleanup where
  clock : UInt64
  tables : Tables
  pass : Option Pass

inductive CleanupAction where
  | tick (clock : UInt64)
  | call (op : TableOp)
  | beginPass
  | sweep
  | endPass

/-- The tick count a call has read from the clock, if it reads it at all. -/
def TableOp.clockSample : TableOp → Option UInt64
  | .addConnection _ now .. => some now
  | .addConnectionV6 _ now .. => some now
  | .udpFlowValidate _ now .. => some now
  | .connectionFin now .. => some now
  | .getConnection now .. => some now
  | .getConnectionFull now .. => some now
  | .getConnectionFullV6 now .. => some now
  | .findV4UdpSender now .. => some now
  | .udpFlowStamp .. => none
  | .removeConnection .. => none
  | .cleanupStaleConnections now => some now
  | .clearAll => none

def TableOp.isPass : TableOp → Bool
  | .cleanupStaleConnections _ => true
  | _ => false

instance (t : Tables) (op : TableOp) : Decidable (op.Admissible t) :=
  inferInstanceAs (Decidable (t.Fresh op.alloc))

namespace Cleanup

def init (clock : UInt64) : Cleanup := ⟨clock, .empty, none⟩

/-- Other threads call anything but the pass itself, with a clock value read now or earlier. -/
def step (s : Cleanup) : CleanupAction → Option Cleanup
  | .tick clock => if s.clock ≤ clock then some { s with clock := clock } else none
  | .call op =>
    if op.Admissible s.tables ∧ op.isPass = false ∧ op.clockSample.all (fun now => decide (now ≤ s.clock))
    then some { s with tables := s.tables.apply op } else none
  | .beginPass => if s.pass.isNone then some { s with pass := some ⟨s.clock, 0⟩ } else none
  | .sweep =>
    match s.pass with
    | none => none
    | some p =>
      if h : p.next < connectionHashSize then
        some { s with
          tables := Tables.sweepBucket p.now s.tables ⟨p.next, h⟩, pass := some { p with next := p.next + 1 } }
      else none
  | .endPass => some { s with pass := none }

/-- More than its timeout has elapsed since the entry was last active, in exact arithmetic. -/
def Expired (clock : UInt64) (e : FlowEntry) : Prop :=
  e.lastActivity.toNat + e.staleTimeout.toNat < clock.toNat

/-- What is asked of one locked section: an entry it unlinks has expired by the clock of that
moment, and was not touched after the pass sampled the clock. -/
def UnlinksOnlyExpired (s s' : Cleanup) : Prop :=
  ∀ k e, s.tables.flow k = some e → s'.tables.flow k = none →
    Expired s.clock e ∧ ∀ p, s.pass = some p → e.lastActivity ≤ p.now

/-- A section that locks its bucket finds no entry there that was touched after the sample. -/
def NoneTouched (s : Cleanup) : CleanupAction → Prop
  | .sweep => ∀ p, s.pass = some p → ∀ k e, s.tables.flow k = some e →
      (bucketOf k.srcPort).val = p.next → e.lastActivity ≤ p.now
  | _ => True

/-- What holds in every run, whatever the threads do. -/
structure Inv (s : Cleanup) : Prop where
  consistent : s.tables.Consistent
  activity : ∀ k e, s.tables.flow k = some e → e.lastActivity ≤ s.clock
  sample : ∀ p, s.pass = some p → p.now ≤ s.clock

end Cleanup

namespace Tables.Consistent
variable {t : Tables} {clock : UInt64}

private theorem update_activity (m : FlowMap) (k : FlowKey) (v : Option FlowEntry)
    (hm : ∀ j e, m j = some e → e.lastActivity ≤ clock)
    (hv : ∀ e, v = some e → e.lastActivity ≤ clock) :
    ∀ j e, Function.update m k v j = some e → e.lastActivity ≤ clock := by
  intro j e he
  by_cases hj : j = k
  · subst hj
    rw [Function.update_self] at he
    exact hv e he
  · rw [Function.update_of_ne hj] at he
    exact hm j e he

private theorem alter_activity (m : FlowMap) (k : FlowKey) (f : FlowEntry → FlowEntry)
    (hm : ∀ j e, m j = some e → e.lastActivity ≤ clock)
    (hf : ∀ e, e.lastActivity ≤ clock → (f e).lastActivity ≤ clock) :
    ∀ j e, m.alter k f j = some e → e.lastActivity ≤ clock := by
  apply update_activity m k _ hm
  intro e he
  obtain ⟨e₀, h₀, rfl⟩ := Option.map_eq_some_iff.mp he
  exact hf e₀ (hm k e₀ h₀)

/-- A call writes no activity later than the clock it read. -/
theorem apply_activity (h : t.Consistent) {op : TableOp} (hop : op.Admissible t) (hpass : op.isPass = false)
    (hnow : ∀ now, op.clockSample = some now → now ≤ clock)
    (hm : ∀ k e, t.flow k = some e → e.lastActivity ≤ clock) :
    ∀ k e, (t.apply op).flow k = some e → e.lastActivity ≤ clock := by
  have htouch : ∀ now, now ≤ clock → ∀ k j e, t.flow.alter k (FlowEntry.touch now) j = some e →
      e.lastActivity ≤ clock :=
    fun now hle k => alter_activity _ k _ hm (fun _ _ => hle)
  cases op with
  | addConnection generation now alloc srcPort isUdp srcIp destIp destPort proxyConfigId =>
    have hfresh : t.Fresh alloc := hop
    simp only [Tables.apply]
    rw [h.flow_addConnection hfresh]
    split
    · exact hm
    · exact update_activity _ _ _ hm (fun e he => Option.some.inj he ▸ hnow now rfl)
  | addConnectionV6 generation now alloc srcPort isUdp srcIp6 destIp6 destPort proxyConfigId =>
    have hfresh : t.Fresh alloc := hop
    simp only [Tables.apply]
    rw [h.flow_addConnectionV6 hfresh]
    split
    · exact hm
    · exact update_activity _ _ _ hm (fun e he => Option.some.inj he ▸ hnow now rfl)
  | udpFlowStamp port ipv6 generation =>
    simp only [Tables.apply]
    rw [h.flow_udpFlowStamp]
    exact alter_activity _ _ _ hm (fun _ he => he)
  | udpFlowValidate generation now port ipv6 source source6 destination destination6 destinationPort =>
    simp only [Tables.apply]
    rw [(h.flow_udpFlowValidate generation now port ipv6 source source6 destination destination6
      destinationPort).2]
    split
    · exact htouch now (hnow now rfl) _
    · exact update_activity _ _ _ hm (fun e he => nomatch he)
  | connectionFin now srcPort isIpv6 bit =>
    simp only [Tables.apply]
    rw [h.flow_connectionFin]
    exact alter_activity _ _ _ hm (fun _ _ => hnow now rfl)
  | getConnection now srcPort isUdp =>
    simp only [Tables.apply, Tables.getConnection]
    rw [h.flow_touch now ⟨srcPort, isUdp, false⟩]
    exact htouch now (hnow now rfl) _
  | getConnectionFull now srcPort isUdp =>
    simp only [Tables.apply, Tables.getConnectionFull]
    rw [h.flow_touch now ⟨srcPort, isUdp, false⟩]
    exact htouch now (hnow now rfl) _
  | getConnectionFullV6 now srcPort isUdp =>
    simp only [Tables.apply, Tables.getConnectionFullV6]
    rw [h.flow_touch now ⟨srcPort, isUdp, true⟩]
    exact htouch now (hnow now rfl) _
  | findV4UdpSender now origDestIp origDestPort =>
    have hf := h.flow_findV4UdpSender now origDestIp origDestPort
    simp only [Tables.apply]
    split at hf
    · rename_i he
      rw [he, hf]
      exact hm
    · rename_i he
      rw [he, hf.2]
      exact htouch now (hnow now rfl) _
  | removeConnection srcPort isUdp isIpv6 =>
    simp only [Tables.apply]
    rw [h.flow_removeConnection]
    exact update_activity _ _ _ hm (fun e he => nomatch he)
  | cleanupStaleConnections now => simp [TableOp.isPass] at hpass
  | clearAll =>
    intro k e he
    simp only [Tables.apply] at he
    rw [h.flow_clearAll] at he
    cases he

end Tables.Consistent

namespace Cleanup

theorem inv_init (clock : UInt64) : Inv (init clock) where
  consistent := consistent_empty
  activity k e he := by simp [init] at he
  sample p hp := by simp [init] at hp

/-- The unsigned age is the elapsed time when the sample is not older than the entry. -/
private theorem expired_of_isStale {now clock : UInt64} {e : FlowEntry} (hstale : e.isStale now = true)
    (hle : e.lastActivity ≤ now) (hclock : now ≤ clock) : Expired clock e := by
  have hs : e.staleTimeout < now - e.lastActivity := of_decide_eq_true hstale
  rw [UInt64.lt_iff_toNat_lt, UInt64.toNat_sub_of_le _ _ hle] at hs
  rw [UInt64.le_iff_toNat_le] at hle hclock
  unfold Expired
  omega

/-- An entry touched after the sample looks almost `2 ^ 64` milliseconds old. -/
private theorem isStale_of_touched {now clock : UInt64} {e : FlowEntry} (htouched : now < e.lastActivity)
    (hle : e.lastActivity ≤ clock) (hclock : clock.toNat + 1800000 < UInt64.size) : e.isStale now = true := by
  have ht : e.staleTimeout.toNat ≤ 1800000 := by
    unfold FlowEntry.staleTimeout
    split <;> decide
  apply decide_eq_true
  refine TickAges.lt_age_of_later htouched hle ?_
  exact Nat.lt_of_le_of_lt (Nat.add_le_add_left ht _) hclock

theorem sweep_cases {s s' : Cleanup} (hs : s.step .sweep = some s') :
    ∃ p, ∃ h : p.next < connectionHashSize, s.pass = some p ∧
      s' = { s with
        tables := Tables.sweepBucket p.now s.tables ⟨p.next, h⟩, pass := some { p with next := p.next + 1 } } := by
  simp only [step] at hs
  split at hs
  · cases hs
  · rename_i p hp
    split at hs
    · rename_i h
      exact ⟨p, h, hp, (Option.some.inj hs).symm⟩
    · cases hs

theorem Inv.step {s s' : Cleanup} {a : CleanupAction} (hi : Inv s) (hs : s.step a = some s') : Inv s' := by
  obtain ⟨hc, ha, hp⟩ := hi
  cases a with
  | tick clock =>
    simp only [Cleanup.step] at hs
    split at hs
    · rename_i hle
      rw [← Option.some.inj hs]
      exact ⟨hc, fun k e he => UInt64.le_trans (ha k e he) hle, fun p h => UInt64.le_trans (hp p h) hle⟩
    · cases hs
  | call op =>
    simp only [Cleanup.step] at hs
    split at hs
    · rename_i hg
      obtain ⟨hop, hpass, hnow⟩ := hg
      rw [← Option.some.inj hs]
      refine ⟨hc.apply hop, hc.apply_activity hop hpass ?_ ha, hp⟩
      intro now hn
      simpa [hn] using hnow
    · cases hs
  | beginPass =>
    simp only [Cleanup.step] at hs
    split at hs
    · rw [← Option.some.inj hs]
      refine ⟨hc, ha, fun p h => ?_⟩
      rw [← Option.some.inj h]
      exact UInt64.le_refl _
    · cases hs
  | sweep =>
    obtain ⟨p, hlt, hpass, rfl⟩ := sweep_cases hs
    refine ⟨hc.sweepBucket _ _, fun k e he => ?_, fun q hq => ?_⟩
    · simp only at he
      rw [hc.flow_sweepBucket, Option.filter_eq_some_iff] at he
      exact ha k e he.1
    · rw [← Option.some.inj hq]
      exact hp p hpass
  | endPass =>
    rw [← Option.some.inj hs]
    exact ⟨hc, ha, fun p h => nomatch h⟩

theorem reach_inv {clock : UInt64} {s : Cleanup} {ok : Cleanup → CleanupAction → Prop}
    (h : Reach step ok (init clock) s) : Inv s :=
  h.invariant (inv_init clock) (fun _ _ _ hi _ hs => hi.step hs)

theorem unlinksOnlyExpired_of_noneTouched {s s' : Cleanup} (hi : Inv s) (hok : NoneTouched s .sweep)
    (hs : s.step .sweep = some s') : UnlinksOnlyExpired s s' := by
  obtain ⟨p, hlt, hpass, rfl⟩ := sweep_cases hs
  intro k e he hnone
  simp only at hnone
  rw [hi.consistent.flow_sweepBucket, he, Option.filter_eq_none_iff] at hnone
  have hgone := hnone e rfl
  simp only [Bool.not_eq_true', Bool.and_eq_false_iff, decide_eq_false_iff_not, not_or, not_not,
    Bool.not_eq_false] at hgone
  have hle := hok p hpass k e he (congrArg Fin.val hgone.1)
  refine ⟨expired_of_isStale hgone.2 hle (hi.sample p hpass), fun q hq => ?_⟩
  rw [hpass] at hq
  rwa [← Option.some.inj hq]

theorem noneTouched_of_unlinksOnlyExpired {s s' : Cleanup} (hi : Inv s)
    (hclock : s.clock.toNat + 1800000 < UInt64.size) (hs : s.step .sweep = some s')
    (hu : UnlinksOnlyExpired s s') : NoneTouched s .sweep := by
  obtain ⟨p, hlt, hpass, rfl⟩ := sweep_cases hs
  intro q hq k e he hb
  rw [hpass] at hq
  obtain rfl := Option.some.inj hq
  by_contra htouched
  have hstale := isStale_of_touched (UInt64.not_le.mp htouched) (hi.activity k e he) hclock
  have hgone : (Tables.sweepBucket p.now s.tables ⟨p.next, hlt⟩).flow k = none := by
    rw [hi.consistent.flow_sweepBucket, he, Option.filter_eq_none_iff]
    intro e' he'
    rw [← Option.some.inj he', hstale, decide_eq_true (Fin.ext hb)]
    simp
  exact htouched ((hu k e he hgone).2 p hpass)

/-- In a run in which no section finds an entry that was touched after the pass sampled the clock,
every section unlinks only what has expired. In any run at all, while the clock is not about to
wrap, a section is sound exactly when it finds no such entry. -/
theorem cleanup_unlinks_only_expired_iff_none_touched (clock : UInt64) :
    (∀ s s', Reach step NoneTouched (init clock) s → NoneTouched s .sweep → s.step .sweep = some s' →
      UnlinksOnlyExpired s s') ∧
    (∀ s s', Reach step (fun _ _ => True) (init clock) s → s.step .sweep = some s' →
      s.clock.toNat + 1800000 < UInt64.size → (UnlinksOnlyExpired s s' ↔ NoneTouched s .sweep)) := by
  constructor
  · intro s s' h hok hs
    exact unlinksOnlyExpired_of_noneTouched (reach_inv h) hok hs
  · intro s s' h hs hclock
    exact ⟨noneTouched_of_unlinksOnlyExpired (reach_inv h) hclock hs,
      fun hok => unlinksOnlyExpired_of_noneTouched (reach_inv h) hok hs⟩

/-- An entry last active at tick 1000, examined thirty minutes and a tick later. -/
theorem cleanup_unlinks_only_expired_iff_none_touched_idle :
    ∃ s s' : Cleanup, Reach step NoneTouched (init 1000) s ∧ NoneTouched s .sweep ∧
      s.step .sweep = some s' ∧ (s.tables.flow ⟨0, true, false⟩).isSome = true ∧
      s'.tables.flow ⟨0, true, false⟩ = none ∧ UnlinksOnlyExpired s s' := by
  let tracked : Cleanup := ⟨1000, Tables.empty.addConnection 1 1000 (some 0) 0 true 1 2 443 1, none⟩
  let late : Cleanup := ⟨1801001, tracked.tables, some ⟨1801001, 0⟩⟩
  have hreach : Reach step NoneTouched (init 1000) late := by
    refine .next (s := ⟨1801001, tracked.tables, none⟩) (a := .beginPass)
      (.next (s := tracked) (a := .tick 1801001)
        (.next (a := .call (.addConnection 1 1000 (some 0) 0 true 1 2 443 1)) .start trivial ?_)
        trivial ?_) trivial ?_
    · rfl
    · rfl
    · rfl
  have hok : NoneTouched late .sweep := by
    intro p hp k e he _
    obtain rfl : (⟨1801001, 0⟩ : Pass) = p := Option.some.inj hp
    exact (reach_inv hreach).activity k e he
  refine ⟨late, _, hreach, hok, rfl, by decide +kernel, by decide +kernel, ?_⟩
  exact (cleanup_unlinks_only_expired_iff_none_touched 1000).1 late _ hreach hok rfl

/-- An entry that another thread refreshes between the sample of a pass and its bucket is unlinked
by that pass, no time at all after it was active. -/
theorem cleanup_unlinks_touched_entry :
    ∃ s s' : Cleanup, Reach step (fun _ _ => True) (init 1000) s ∧ s.step .sweep = some s' ∧
      ∃ e, s.tables.flow ⟨0, true, false⟩ = some e ∧ s'.tables.flow ⟨0, true, false⟩ = none ∧
        e.lastActivity = s.clock ∧ ¬ Expired s.clock e := by
  obtain ⟨s, hr, ht⟩ := exists_reach_of_exec step (fun _ _ => True) (init 1000)
    [.call (.addConnection 1 1000 (some 0) 0 true 1 2 443 1), .tick 5000, .beginPass, .tick 5016,
      .call (.getConnection 5016 0 true)]
    (fun s => (s.step .sweep).any (fun s' => (s'.tables.flow ⟨0, true, false⟩).isNone &&
      (s.tables.flow ⟨0, true, false⟩).any (fun e => e.lastActivity == s.clock)))
    (by decide +kernel)
  obtain ⟨s', hs, ht⟩ := (Option.any_eq_true ..).mp ht
  obtain ⟨hgone, ht⟩ := Bool.and_eq_true_iff.mp ht
  obtain ⟨e, he, ht⟩ := (Option.any_eq_true ..).mp ht
  have hlast : e.lastActivity = s.clock := beq_iff_eq.mp ht
  refine ⟨s, s', hr, hs, e, he, Option.isNone_iff_eq_none.mp hgone, hlast, ?_⟩
  unfold Expired
  rw [hlast]
  omega

end Cleanup
end ProxyBridge.Windows
