import ProxyBridge.Windows.PolicyRuns

/-! What the tables of the packet thread hold: every entry was written for the judgement that is
recorded for it, under the generation which that judgement sampled. This holds in every run,
whatever the policy calls and the owner events do in between. -/
namespace ProxyBridge.Windows
open Runs ReadPrograms

def ApiStep.isInvalidate : ApiStep → Bool
  | .invalidate => true
  | _ => false

/-! The operations of either family on the map of tracked flows. -/
namespace UdpPacket
variable (p : UdpPacket) {t : Tables}

theorem validate_spec (h : t.Consistent) (generation : UInt32) (now : UInt64) :
    let v := p.validate t generation now
    v.2.Consistent ∧
    v.1 = (t.flow p.key).any (fun e => e.udpValid generation now p.source p.dest p.dstPort) ∧
    v.2.flow = if v.1 then FlowMap.alter t.flow p.key (FlowEntry.touch now) else Function.update t.flow p.key none := by
  cases p with
  | v4 p =>
    obtain ⟨hv, hf⟩ := udpV4_lawful.validate_flow h generation now p.srcPort p.srcAddr p.dstAddr p.dstPort
    exact ⟨udpV4_lawful.validate_consistent h .., hv, hv ▸ hf⟩
  | v6 p =>
    obtain ⟨hv, hf⟩ := udpV6_lawful.validate_flow h generation now p.srcPort p.srcAddr p.dstAddr p.dstPort
    exact ⟨udpV6_lawful.validate_consistent h .., hv, hv ▸ hf⟩

theorem add_spec (h : t.Consistent) {alloc : Option Addr} (hfresh : t.Fresh alloc) (generation : UInt32)
    (now : UInt64) (id : UInt32) :
    (p.add t generation now alloc id).Consistent ∧
    (p.add t generation now alloc id).flow = if t.flow p.key = none ∧ alloc = none then t.flow
      else Function.update t.flow p.key (some ⟨p.source, p.dest, p.dstPort, id, true, 0, generation, now⟩) := by
  cases p with
  | v4 p => exact ⟨udpV4_lawful.add_consistent h hfresh .., udpV4_lawful.add_flow h hfresh ..⟩
  | v6 p => exact ⟨udpV6_lawful.add_consistent h hfresh .., udpV6_lawful.add_flow h hfresh ..⟩

/-- A judgement depends on the ends of a datagram only. -/
theorem program_congr {p p' : UdpPacket} (hs : p.source = p'.source) (hd : p.dest = p'.dest)
    (hp : p.dstPort = p'.dstPort) (env : RuleEnv) (owner : Owner) (self : UInt32) :
    p.program env owner self = p'.program env owner self := by
  cases p with
  | v4 p =>
    cases p' with
    | v4 p' =>
      simp only [source, dest, dstPort, IpAddr.v4.injEq] at hs hd hp
      have hdecision : decisionProgramV4 p = decisionProgramV4 p' := by
        funext v
        simp only [decisionProgramV4, hd, hp]
      simp only [program, hs, hd, hp, hdecision]
    | v6 p' => cases hs
  | v6 p =>
    cases p' with
    | v4 p' => cases hs
    | v6 p' =>
      simp only [source, dest, dstPort, IpAddr.v6.injEq] at hs hd hp
      have hdecision : decisionProgramV6 p = decisionProgramV6 p' := by
        funext v
        simp only [decisionProgramV6, hd, hp]
      simp only [program, hs, hd, hp, hdecision]

end UdpPacket

namespace Records
variable {l : Records} {place other : Place} {j : Judged}

theorem lookup_erase_ne (h : other ≠ place) : (l.erase place).lookup other = l.lookup other := by
  simp only [lookup, erase, List.find?_filter]
  congr 2
  funext x
  by_cases hx : x.1 = other
  · simp [hx, h]
  · simp [hx]

theorem lookup_put_self : (l.put place j).lookup place = some j := by simp [lookup, put]

theorem lookup_put_ne (h : other ≠ place) : (l.put place j).lookup other = l.lookup other := by
  have hhead : (l.put place j).lookup other = (l.erase place).lookup other := by simp [lookup, put, h.symm]
  rw [hhead, lookup_erase_ne h]

theorem mem_of_lookup (h : l.lookup place = some j) : j ∈ l.map (·.2) := by
  obtain ⟨x, hx, rfl⟩ := Option.map_eq_some_iff.mp h
  exact List.mem_map_of_mem (List.mem_of_find?_eq_some hx)

theorem mem_of_mem_erase (h : j ∈ (l.erase place).map (·.2)) : j ∈ l.map (·.2) := by
  obtain ⟨x, hx, rfl⟩ := List.mem_map.mp h
  exact List.mem_map_of_mem (List.mem_of_mem_filter hx)

end Records

namespace PolicySystem
variable {s : PolicySystem}

/-- The judgements that are recorded or under way. -/
def live (s : PolicySystem) : List Judged := (s.judging.map (·.judged)).toList ++ s.recorded.map (·.2)

/-- The entry was written for this judgement. -/
def EntryOf (j : Judged) (e : FlowEntry) : Prop :=
  e.source = j.packet.source ∧ e.dest = j.packet.dest ∧ e.destPort = j.packet.dstPort ∧
    j.execution.result = some (.proxy e.proxyConfigId)

def DirectOf (j : Judged) (e : UdpDirectEntry) : Prop :=
  e.source = j.packet.source ∧ e.destination = j.packet.dest ∧ e.destinationPort = j.packet.dstPort ∧
    e.generation = generationAt j.sampled ∧ ∃ pid, j.execution.result = some (.direct pid)

/-- How often an action invalidates the recorded verdicts. -/
def bumps (s : PolicySystem) : PolicyAction → Nat
  | .advance n => if s.calls[n]?.any (fun c => c.todo.head?.any (·.isInvalidate)) then 1 else 0
  | _ => 0

theorem bumps_le_one (a : PolicyAction) : s.bumps a ≤ 1 := by
  cases a with
  | advance n =>
    simp only [bumps]
    split <;> omega
  | _ => exact Nat.zero_le 1

/-- A step of a call touches neither the tables nor the packet thread. -/
theorem perform_frame (n : Nat) (flags : Bool × Bool) (rest : List ApiStep) (next : ApiStep) :
    let s' := s.perform n flags rest next
    s'.core = s.core ∧ s'.judging = s.judging ∧ s'.recorded = s.recorded ∧
      s'.invalidations = s.invalidations + if next.isInvalidate then 1 else 0 := by
  cases next with
  | changeRules change =>
    simp only [perform]
    split <;> exact ⟨rfl, rfl, rfl, rfl⟩
  | _ => exact ⟨rfl, rfl, rfl, rfl⟩

section PacketThread
variable {j : Judged}

theorem judging_live {added : Bool} (hj : s.judging = some ⟨j, added⟩) : j ∈ s.live := by
  simp [live, hj]

theorem recorded_live {i : Judged} (h : i ∈ s.recorded.map (·.2)) : i ∈ s.live :=
  List.mem_append_right _ h

/-- The judgements that are live once the one in hand has been recorded. -/
private theorem live_put {place : Place} {added : Bool} (hj : s.judging = some ⟨j, added⟩) {i : Judged}
    (hi : i ∈ (s.recorded.put place j).map (·.2)) : i ∈ s.live := by
  rw [Records.put, List.map_cons, List.mem_cons] at hi
  rcases hi with rfl | hi
  · exact judging_live hj
  · exact recorded_live (Records.mem_of_mem_erase hi)

theorem live_ask {j : Judging} {now : UInt64} {i : Judged} (hi : i ∈ (s.ask j now).live) : i ∈ s.live := by
  simp only [PolicySystem.ask] at hi
  split at hi
  · exact recorded_live hi
  split at hi
  · exact recorded_live hi
  · rcases List.mem_append.mp hi with hi | hi
    · exact List.mem_append_left _ hi
    · exact recorded_live (Records.mem_of_mem_erase hi)

theorem live_remember {added : Bool} (hj : s.judging = some ⟨j, added⟩) (now : UInt64) {i : Judged}
    (hi : i ∈ (s.remember j now).live) : i ∈ s.live :=
  live_put hj hi

theorem live_stamp {added : Bool} (hj : s.judging = some ⟨j, added⟩) {i : Judged} (hi : i ∈ (s.stamp j).live) :
    i ∈ s.live :=
  live_put hj hi

end PacketThread

/-- What an enabled action does. -/
inductive Effect (s : PolicySystem) : PolicyAction → PolicySystem → Prop where
  | call (c : ApiCall) : Effect s (.call c) { s with calls := s.calls ++ [⟨c.steps, (false, false)⟩] }
  | advance {n : Nat} {next : ApiStep} {rest : List ApiStep} {flags : Bool × Bool} :
      s.calls[n]? = some ⟨next :: rest, flags⟩ → Effect s (.advance n) (s.perform n flags rest next)
  | sample (packet : UdpPacket) (env : RuleEnv) (owner : Owner) (self : UInt32) : s.judging = none →
      Effect s (.sample packet env owner self) { s with
        judging := some ⟨⟨packet, env, owner, self, s.invalidations, .start (packet.program env owner self), rfl⟩,
          false⟩ }
  | ask {j : Judged} (now : UInt64) : s.judging = some ⟨j, false⟩ → Effect s (.ask now) (s.ask ⟨j, false⟩ now)
  | read {j : Judged} : s.judging = some ⟨j, false⟩ → Effect s .read { s with
      judging := some ⟨{ j with
        execution := j.execution.read s.policy.get
        judges := j.execution.program_read s.policy.get ▸ j.judges }, false⟩ }
  | leave {j : Judged} : s.judging = some ⟨j, false⟩ → Effect s .leave { s with judging := none }
  | remember {j : Judged} {pid : UInt32} (now : UInt64) : s.judging = some ⟨j, false⟩ →
      j.execution.result = some (.direct pid) → Effect s (.remember now) (s.remember j now)
  | add {j : Judged} {id : UInt32} (now : UInt64) {alloc : Option Addr} : s.judging = some ⟨j, false⟩ →
      j.execution.result = some (.proxy id) → s.core.tables.Fresh alloc → Effect s (.add now alloc) { s with
        core := { s.core with tables := j.packet.add s.core.tables s.generation now alloc id }
        judging := some ⟨j, true⟩ }
  | stamp {j : Judged} : s.judging = some ⟨j, true⟩ → Effect s .stamp (s.stamp j)

theorem effect_of_step {s' : PolicySystem} {a : PolicyAction} (hs : s.step a = some s') : s.Effect a s' := by
  cases a with
  | call c => exact Option.some.inj hs ▸ .call c
  | advance n =>
    simp only [step] at hs
    split at hs
    · rename_i hget
      exact Option.some.inj hs ▸ .advance hget
    · cases hs
  | sample packet env owner self =>
    simp only [step] at hs
    split at hs
    · cases hs
    · rename_i hj
      exact Option.some.inj hs ▸ .sample packet env owner self hj
  | ask now =>
    simp only [step] at hs
    split at hs
    · rename_i hj
      exact Option.some.inj hs ▸ .ask now hj
    · cases hs
  | read =>
    simp only [step] at hs
    split at hs
    · rename_i hj
      exact Option.some.inj hs ▸ .read hj
    · cases hs
  | leave =>
    simp only [step] at hs
    split at hs
    · rename_i hj
      exact Option.some.inj hs ▸ .leave hj
    · cases hs
  | remember now =>
    simp only [step] at hs
    split at hs
    · rename_i j hj
      split at hs
      · rename_i hr
        obtain ⟨_, hs⟩ := Option.ite_none_left_eq_some.mp hs
        exact Option.some.inj hs ▸ .remember now hj hr
      · cases hs
    · cases hs
  | add now alloc =>
    simp only [step] at hs
    split at hs
    · rename_i j hj
      split at hs
      · rename_i hr
        obtain ⟨hfresh, hs⟩ := Option.ite_none_right_eq_some.mp hs
        exact Option.some.inj hs ▸ .add now hj hr hfresh
      · cases hs
    · cases hs
  | stamp =>
    simp only [step] at hs
    split at hs
    · rename_i hj
      exact Option.some.inj hs ▸ .stamp hj
    · cases hs

theorem Effect.invalidations {s' : PolicySystem} {a : PolicyAction} (h : s.Effect a s') :
    s'.invalidations = s.invalidations + s.bumps a := by
  cases h with
  | advance hget => simp [bumps, hget, (s.perform_frame ..).2.2.2]
  | ask now hj =>
    simp only [PolicySystem.ask]
    split
    · rfl
    split <;> rfl
  | _ => rfl

/-- A judgement that is live after an action has sampled what one before it had, or just now. -/
theorem Effect.live {s' : PolicySystem} {a : PolicyAction} (h : s.Effect a s') {i : Judged} (hi : i ∈ s'.live) :
    (∃ j ∈ s.live, j.sampled = i.sampled) ∨ i.sampled = s.invalidations := by
  cases h with
  | call c => exact .inl ⟨i, hi, rfl⟩
  | advance hget =>
    obtain ⟨_, hj, hr, _⟩ := s.perform_frame _ _ _ _
    rw [PolicySystem.live, hj, hr] at hi
    exact .inl ⟨i, hi, rfl⟩
  | sample packet env owner self hj =>
    simp only [PolicySystem.live, Option.map_some, Option.toList_some, List.mem_append, List.mem_singleton] at hi
    rcases hi with rfl | hi
    · exact .inr rfl
    · exact .inl ⟨i, recorded_live hi, rfl⟩
  | ask now hj => exact .inl ⟨i, live_ask hi, rfl⟩
  | read hj =>
    simp only [PolicySystem.live, Option.map_some, Option.toList_some, List.mem_append, List.mem_singleton] at hi
    rcases hi with rfl | hi
    · exact .inl ⟨_, judging_live hj, rfl⟩
    · exact .inl ⟨i, recorded_live hi, rfl⟩
  | leave hj => exact .inl ⟨i, recorded_live hi, rfl⟩
  | remember now hj hr => exact .inl ⟨i, live_remember hj now hi, rfl⟩
  | add now hj hr hfresh =>
    refine .inl ⟨i, ?_, rfl⟩
    rw [PolicySystem.live, hj]
    exact hi
  | stamp hj => exact .inl ⟨i, live_stamp hj hi, rfl⟩

/-- Between `add_connection` and the stamp, the flow of the datagram in hand has no record yet. -/
structure Tracks (s : PolicySystem) : Prop where
  consistent : s.core.tables.Consistent
  adding : ∀ j, s.judging = some ⟨j, true⟩ → ∀ e, s.core.tables.flow j.packet.key = some e → EntryOf j e
  flows : ∀ k e, s.core.tables.flow k = some e → (∀ j, s.judging = some ⟨j, true⟩ → j.packet.key ≠ k) →
    ∃ r, s.recorded.lookup (.flow k) = some r ∧ e.policyGeneration = generationAt r.sampled ∧ EntryOf r e
  directs : ∀ slot, (s.core.udpDirect slot).expires ≠ 0 →
    ∃ r, s.recorded.lookup (.direct slot) = some r ∧ DirectOf r (s.core.udpDirect slot)

namespace Tracks
variable {j : Judged}

theorem init (policy : PolicyState) : Tracks (.init policy) where
  consistent := consistent_empty
  adding j hj := by cases hj
  flows k e he := by cases he
  directs slot h := (h rfl).elim

/-- The invariant is about the tables and the packet thread only. -/
theorem congr (h : s.Tracks) {s' : PolicySystem} (hcore : s'.core = s.core) (hjudging : s'.judging = s.judging)
    (hrecorded : s'.recorded = s.recorded) : s'.Tracks := by
  refine ⟨hcore ▸ h.consistent, ?_, ?_, ?_⟩
  · rw [hcore, hjudging]
    exact h.adding
  · rw [hcore, hjudging, hrecorded]
    exact h.flows
  · rw [hcore, hrecorded]
    exact h.directs

/-- Nothing is half recorded while the datagram in hand has not been added. -/
private theorem not_adding (hj : s.judging = some ⟨j, false⟩) (k : FlowKey) :
    ∀ i, s.judging = some ⟨i, true⟩ → i.packet.key ≠ k := by
  intro i hi
  rw [hj] at hi
  cases hi

/-- Before the datagram in hand is added, it can be exchanged for another, or let go. -/
private theorem exchange (h : s.Tracks) (hj : ∀ i, s.judging ≠ some ⟨i, true⟩) {judging : Option Judging}
    (hj' : ∀ i, judging ≠ some ⟨i, true⟩) : Tracks { s with judging := judging } where
  consistent := h.consistent
  adding i hi := (hj' i hi).elim
  flows k e he _ := h.flows k e he (fun i hi => (hj i hi).elim)
  directs := h.directs

/-- The datagram in hand is let go, and the tables and records may change with it. -/
private theorem release {core : Core} {recorded : Records} (hc : core.tables.Consistent)
    (hflows : ∀ k e, core.tables.flow k = some e →
      ∃ r, recorded.lookup (.flow k) = some r ∧ e.policyGeneration = generationAt r.sampled ∧ EntryOf r e)
    (hdirects : ∀ slot, (core.udpDirect slot).expires ≠ 0 →
      ∃ r, recorded.lookup (.direct slot) = some r ∧ DirectOf r (core.udpDirect slot)) :
    Tracks { s with core := core, judging := none, recorded := recorded } where
  consistent := hc
  adding i hi := by cases hi
  flows k e he _ := hflows k e he
  directs := hdirects

theorem ask (h : s.Tracks) (hj : s.judging = some ⟨j, false⟩) (now : UInt64) : Tracks (s.ask ⟨j, false⟩ now) := by
  obtain ⟨hc, _, hflow⟩ := j.packet.validate_spec h.consistent s.generation now
  simp only [PolicySystem.ask]
  split
  · exact h.exchange (by simp [hj]) (by simp)
  split
  · rename_i _ hv
    rw [if_pos hv] at hflow
    refine release hc (fun k e he => ?_) h.directs
    rw [hflow] at he
    by_cases hk : k = j.packet.key
    · rw [hk, FlowMap.alter, Function.update_self] at he
      obtain ⟨e', he', rfl⟩ := Option.map_eq_some_iff.mp he
      exact hk ▸ h.flows _ e' he' (not_adding hj _)
    · rw [FlowMap.alter, Function.update_of_ne hk] at he
      exact h.flows k e he (not_adding hj k)
  · rename_i _ hv
    rw [if_neg hv] at hflow
    refine ⟨hc, fun i hi => (by rw [hj] at hi; cases hi), fun k e he _ => ?_, fun slot hs => ?_⟩
    · rw [hflow] at he
      have hk : k ≠ j.packet.key := by
        intro hk
        rw [hk, Function.update_self] at he
        cases he
      rw [Function.update_of_ne hk] at he
      obtain ⟨r, hr, hrest⟩ := h.flows k e he (not_adding hj k)
      refine ⟨r, ?_, hrest⟩
      rw [Records.lookup_erase_ne (by simpa using hk)]
      exact hr
    · obtain ⟨r, hr, hrest⟩ := h.directs slot hs
      refine ⟨r, ?_, hrest⟩
      rw [Records.lookup_erase_ne (by simp)]
      exact hr

theorem remember (h : s.Tracks) (hj : s.judging = some ⟨j, false⟩) {pid : UInt32}
    (hr : j.execution.result = some (.direct pid)) (now : UInt64) : Tracks (s.remember j now) := by
  refine release h.consistent (fun k e he => ?_) (fun slot hs => ?_)
  · obtain ⟨r, hl, hrest⟩ := h.flows k e he (not_adding hj k)
    refine ⟨r, ?_, hrest⟩
    rw [Records.lookup_put_ne (by simp)]
    exact hl
  · by_cases hslot : slot = j.packet.slot
    · subst hslot
      refine ⟨j, Records.lookup_put_self, ?_⟩
      simp only [udpDirectRemember, UdpPacket.slot, Function.update_self]
      exact ⟨rfl, rfl, rfl, rfl, pid, hr⟩
    · have hne : slot ≠ udpDirectSlot j.packet.source j.packet.srcPort j.packet.dest j.packet.dstPort := hslot
      simp only [udpDirectRemember, Function.update_of_ne hne] at hs ⊢
      obtain ⟨r, hl, hrest⟩ := h.directs slot hs
      refine ⟨r, ?_, hrest⟩
      rw [Records.lookup_put_ne (by simpa using hslot)]
      exact hl

theorem add (h : s.Tracks) (hj : s.judging = some ⟨j, false⟩) {id : UInt32}
    (hr : j.execution.result = some (.proxy id)) {alloc : Option Addr} (hfresh : s.core.tables.Fresh alloc)
    (now : UInt64) :
    Tracks { s with
      core := { s.core with tables := j.packet.add s.core.tables s.generation now alloc id }
      judging := some ⟨j, true⟩ } := by
  obtain ⟨hc, hflow⟩ := j.packet.add_spec h.consistent hfresh s.generation now id
  refine ⟨hc, fun i hi e he => ?_, fun k e he hk => ?_, h.directs⟩
  · cases hi
    rw [hflow] at he
    split at he
    · rename_i hn
      rw [hn.1] at he
      cases he
    · rw [Function.update_self] at he
      obtain rfl := Option.some.inj he
      exact ⟨rfl, rfl, rfl, hr⟩
  · have hne : k ≠ j.packet.key := fun he => hk j rfl he.symm
    rw [hflow] at he
    split at he
    · exact h.flows k e he (not_adding hj k)
    · rw [Function.update_of_ne hne] at he
      exact h.flows k e he (not_adding hj k)

theorem stamp (h : s.Tracks) (hj : s.judging = some ⟨j, true⟩) : Tracks (s.stamp j) := by
  have hflow := h.consistent.flow_udpFlowStamp j.packet.srcPort j.packet.source.isIpv6 (generationAt j.sampled)
  refine release (h.consistent.udpFlowStamp ..) (fun k e he => ?_) (fun slot hs => ?_)
  · rw [hflow] at he
    change FlowMap.alter s.core.tables.flow j.packet.key _ k = some e at he
    by_cases hk : k = j.packet.key
    · rw [hk, FlowMap.alter, Function.update_self] at he
      obtain ⟨e', he', rfl⟩ := Option.map_eq_some_iff.mp he
      exact ⟨j, hk ▸ Records.lookup_put_self, rfl, h.adding j hj e' he'⟩
    · rw [FlowMap.alter, Function.update_of_ne hk] at he
      have hother : ∀ i, s.judging = some ⟨i, true⟩ → i.packet.key ≠ k := by
        intro i hi
        rw [hj] at hi
        cases hi
        exact fun he => hk he.symm
      obtain ⟨r, hl, hrest⟩ := h.flows k e he hother
      refine ⟨r, ?_, hrest⟩
      rw [Records.lookup_put_ne (by simpa using hk)]
      exact hl
  · obtain ⟨r, hl, hrest⟩ := h.directs slot hs
    refine ⟨r, ?_, hrest⟩
    rw [Records.lookup_put_ne (by simp)]
    exact hl

theorem step {s' : PolicySystem} {a : PolicyAction} (h : s.Tracks) (hs : s.step a = some s') : s'.Tracks := by
  cases effect_of_step hs with
  | call c => exact h.congr rfl rfl rfl
  | advance hget =>
    obtain ⟨hcore, hjudging, hrecorded, _⟩ := s.perform_frame _ _ _ _
    exact h.congr hcore hjudging hrecorded
  | sample packet env owner self hj => exact h.exchange (by simp [hj]) (by simp)
  | ask now hj => exact h.ask hj now
  | read hj => exact h.exchange (by simp [hj]) (by simp)
  | leave hj => exact h.exchange (by simp [hj]) (by simp)
  | remember now hj hr => exact h.remember hj hr now
  | add now hj hr hfresh => exact h.add hj hr hfresh now
  | stamp hj => exact h.stamp hj

end Tracks

/-- Equal generations are equal counts of invalidations, as long as these do not wrap around. -/
theorem eq_of_generationAt_eq {a b : Nat} (h : generationAt a = generationAt b) (hle : a ≤ b)
    (hlt : b < a + UInt32.size) : a = b := by
  have hn := congrArg UInt32.toNat h
  simp only [generationAt, UInt32.toNat_ofNat'] at hn
  simp only [UInt32.size] at hlt
  omega

/-- What `udp_direct_cached` and `udp_flow_validate` accept, when the packet thread may ask them, is
recorded under the current generation. -/
theorem Tracks.accepted (h : s.Tracks) (hasking : ∀ j ∈ s.judging, j.added = false) (p : UdpPacket) (now : UInt64) :
    (udpDirectCached s.core.udpDirect s.generation now p.source p.srcPort p.dest p.dstPort = true →
      ∃ r, s.recorded.lookup (.direct p.slot) = some r ∧ generationAt r.sampled = s.generation ∧
        r.packet.source = p.source ∧ r.packet.dest = p.dest ∧ r.packet.dstPort = p.dstPort ∧
        r.execution.result.isSome = true) ∧
    ((p.validate s.core.tables s.generation now).1 = true →
      ∃ r, s.recorded.lookup (.flow p.key) = some r ∧ generationAt r.sampled = s.generation ∧
        r.packet.source = p.source ∧ r.packet.dest = p.dest ∧ r.packet.dstPort = p.dstPort ∧
        r.execution.result.isSome = true) := by
  constructor
  · intro hc
    simp only [udpDirectCached, Bool.and_eq_true, decide_eq_true_eq, beq_iff_eq] at hc
    obtain ⟨⟨⟨⟨⟨hexp, hgen⟩, _⟩, hdp⟩, hsrc⟩, hdst⟩ := hc
    have hlive : (s.core.udpDirect p.slot).expires ≠ 0 := by
      intro hz
      rw [UdpPacket.slot] at hz
      rw [hz] at hexp
      exact absurd hexp (by simp)
    obtain ⟨r, hr, hs, hd, hp, hg, pid, hres⟩ := h.directs p.slot hlive
    refine ⟨r, hr, hg.symm.trans hgen, hs.symm.trans hsrc, hd.symm.trans hdst, hp.symm.trans hdp, ?_⟩
    rw [hres]
    rfl
  · intro hv
    rw [(p.validate_spec h.consistent s.generation now).2.1] at hv
    obtain ⟨e, he, hval⟩ := (Option.any_eq_true ..).mp hv
    have hnot : ∀ j, s.judging = some ⟨j, true⟩ → j.packet.key ≠ p.key := by
      intro j hj
      have := hasking _ hj
      cases this
    obtain ⟨r, hr, hg, hs, hd, hp, hres⟩ := h.flows p.key e he hnot
    simp only [FlowEntry.udpValid, Bool.and_eq_true, beq_iff_eq] at hval
    obtain ⟨⟨⟨hdp, hsrc, hdst⟩, hgen⟩, _⟩ := hval
    refine ⟨r, hr, hg.symm.trans hgen, hs.symm.trans hsrc, hd.symm.trans hdst, hp.symm.trans hdp, ?_⟩
    rw [hres]
    rfl

end PolicySystem
end ProxyBridge.Windows
