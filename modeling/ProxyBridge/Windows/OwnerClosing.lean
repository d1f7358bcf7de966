import ProxyBridge.Windows.OwnerEvents
import ProxyBridge.Windows.PolicyFreshness

/-! What is left of a UDP endpoint once it has been closed. -/
namespace ProxyBridge.Windows
open Runs

namespace OwnerCaches
variable {s : OwnerCaches}

private theorem le_foldl_add {ι : Type} (f : ι → Nat) (is : List ι) (n : Nat) :
    n ≤ is.foldl (fun n i => n + f i) n := by
  induction is generalizing n with
  | nil => exact Nat.le_refl n
  | cons i is ih => exact Nat.le_trans (Nat.le_add_right n (f i)) (ih (n + f i))

private theorem lt_foldl_add {ι : Type} (f : ι → Nat) {is : List ι} {i : ι} (hi : i ∈ is) (hf : 0 < f i) (n : Nat) :
    n < is.foldl (fun n i => n + f i) n := by
  induction is generalizing n with
  | nil => cases hi
  | cons j is ih =>
    rw [List.foldl_cons]
    rcases List.mem_cons.mp hi with rfl | hi
    · exact Nat.lt_of_lt_of_le (Nat.lt_add_of_pos_right hf) (le_foldl_add f is _)
    · exact Nat.lt_of_le_of_lt (Nat.le_add_right n (f j)) (ih hi (n + f j))

private theorem foldl_add_zero {ι : Type} (f : ι → Nat) {is : List ι} (h : ∀ i ∈ is, f i = 0) (n : Nat) :
    is.foldl (fun n i => n + f i) n = n := by
  induction is generalizing n with
  | nil => rfl
  | cons i is ih =>
    rw [List.foldl_cons, h i List.mem_cons_self, Nat.add_zero]
    exact ih (fun j hj => h j (List.mem_cons_of_mem i hj)) n

theorem udpEvents_of_empty (h : ∀ i, s.owners i = []) (endpointId : UInt64) (sourceLayer : UInt8) :
    s.udpEvents endpointId sourceLayer = 0 :=
  foldl_add_zero _ (fun i _ => by rw [h i, List.countP_nil]) 0

private theorem foldl_add_single {ι : Type} (f : ι → Nat) {is : List ι} (hnd : is.Nodup) {i : ι} (hi : i ∈ is)
    (h : ∀ j, j ≠ i → f j = 0) (n : Nat) : is.foldl (fun n i => n + f i) n = n + f i := by
  induction is generalizing n with
  | nil => cases hi
  | cons j is ih =>
    obtain ⟨hj, hnd⟩ := List.nodup_cons.mp hnd
    rw [List.foldl_cons]
    rcases List.mem_cons.mp hi with rfl | hi
    · exact foldl_add_zero f (fun k hk => h k (fun e => hj (e ▸ hk))) (n + f i)
    · have hji : j ≠ i := fun e => hj (e ▸ hi)
      rw [h j hji, Nat.add_zero]
      exact ih hnd hi n

theorem udpEvents_of_single {i : OwnerBucket} {o : OwnerCacheEntry}
    (h : s.owners = Function.update (fun _ => []) i [o]) (endpointId : UInt64) (sourceLayer : UInt8) :
    s.udpEvents endpointId sourceLayer ≤ 1 := by
  have hnd : ownerBuckets.Nodup := by
    unfold ownerBuckets
    exact List.nodup_finRange _
  unfold udpEvents
  rw [foldl_add_single _ hnd (mem_ownerBuckets i), h, Function.update_self, Nat.zero_add]
  · exact List.countP_le_length
  · intro j hj
    rw [h, Function.update_of_ne hj, List.countP_nil]

/-- A UDP event that is held is an invalidation when its endpoint is closed. -/
theorem udpEvents_pos {endpointId : UInt64} {sourceLayer : UInt8} {port : UInt16}
    (h : s.HoldsUdp endpointId sourceLayer port) : 0 < s.udpEvents endpointId sourceLayer := by
  obtain ⟨i, o, ho, hid, hlayer, hudp, _⟩ := h
  refine lt_foldl_add _ (mem_ownerBuckets i) ?_ 0
  exact List.countP_pos_iff.mpr ⟨o, ho, by simp [hid, hlayer, hudp]⟩

private theorem mem_modify {β : Type} {f : β → β} {l : List β} {n : Nat} {x : β} (h : x ∈ l.modify n f) :
    x ∈ l ∨ ∃ y ∈ l, x = f y := by
  obtain ⟨m, hm⟩ := List.getElem?_of_mem h
  rw [List.getElem?_modify] at hm
  obtain ⟨y, hy, rfl⟩ := Option.map_eq_some_iff.mp hm
  split
  · exact .inr ⟨y, List.mem_of_getElem? hy, rfl⟩
  · exact .inl (List.mem_of_getElem? hy)

/-- An entry of the owner cache is of the event that was stored last, or of one that was there. -/
theorem reports_cacheOwnerEvent (now : UInt64) (allocated : Bool) (e : OwnerEvent) {i : OwnerBucket}
    {o : OwnerCacheEntry} (ho : o ∈ (s.cacheOwnerEvent now allocated e.localAddr e.localPort e.remoteAddr e.remotePort
      e.isUdp e.pid e.endpointId e.sourceLayer).owners i) :
    (∃ o' ∈ s.owners i, o'.reports = o.reports ∧ o'.isUdp = o.isUdp) ∨ (e.reports = o.reports ∧ e.isUdp = o.isUdp) := by
  simp only [cacheOwnerEvent] at ho
  split at ho
  · exact .inl ⟨o, ho, rfl, rfl⟩
  by_cases hi : i = ownerCacheHash e.localPort e.isUdp
  · subst hi
    simp only [Function.update_self] at ho
    split at ho
    · rcases mem_modify ho with ho | ⟨o', ho', rfl⟩
      · exact .inl ⟨o, ho, rfl, rfl⟩
      · exact .inl ⟨o', ho', rfl, rfl⟩
    · split at ho
      · rcases List.mem_cons.mp ho with rfl | ho
        · exact .inr ⟨rfl, rfl⟩
        · exact .inl ⟨o, ho, rfl, rfl⟩
      · exact .inl ⟨o, ho, rfl, rfl⟩
  · simp only [Function.update_of_ne hi] at ho
    exact .inl ⟨o, ho, rfl, rfl⟩

/-- No other call writes an event. -/
theorem owners_apply (h : s.Consistent) (op : OwnerOp) (hop : op.isEvent = false) {i : OwnerBucket}
    {o : OwnerCacheEntry} (ho : o ∈ (s.apply op).owners i) : o ∈ s.owners i := by
  have hdrop : ∀ p, o ∈ (s.dropPids p).owners i → o ∈ s.owners i := by
    intro p hp
    rw [(dropPids_spec h p).2.1] at hp
    exact hp
  cases op with
  | cachePid currentTime alloc srcIp srcPort pid isUdp =>
    simp only [apply, cachePid] at ho
    split at ho
    · exact ho
    split at ho <;> exact ho
  | clearPidCache => exact hdrop _ ho
  | removeCachedPid srcIp srcPort isUdp =>
    simp only [apply, removeCachedPid] at ho
    split at ho <;> exact ho
  | cleanupStalePidCache now => exact hdrop _ ho
  | cacheOwnerEvent => cases hop
  | removeOwnerEventEndpoint => cases hop
  | clearOwnerEventCache => cases ho
  | cleanupStaleOwnerCache now => exact List.mem_of_mem_filter ho

end OwnerCaches

namespace OwnerSystem
variable {s s' : OwnerSystem} {a : OwnerAction}

/-- When an endpoint is closed, the owner cache still holds a UDP event of it for every port that one
has reported. And no verdict is kept or under way while the generation goes all the way round. -/
structure Covered (s : OwnerSystem) (a : OwnerAction) : Prop where
  held : ∀ endpointId sourceLayer port, a.closes = some (endpointId, sourceLayer) →
    ⟨endpointId, sourceLayer, port⟩ ∈ s.reported → s.caches.HoldsUdp endpointId sourceLayer port
  recent : ∀ j ∈ s.verdicts.live, s.verdicts.invalidations + s.bumps a < j.sampled + UInt32.size

structure Inv (s : OwnerSystem) : Prop where
  tracks : s.verdicts.Tracks
  consistent : s.caches.Consistent
  sampled : ∀ j ∈ s.verdicts.live, j.sampled ≤ s.verdicts.invalidations ∧
    s.verdicts.invalidations < j.sampled + UInt32.size
  storing : ∀ e ∈ s.storing, e.isUdp = true → e.reports ∈ s.reported
  reported : ∀ i, ∀ o ∈ s.caches.owners i, o.isUdp = true → o.reports ∈ s.reported

/-- What an action does to the verdicts: one step of the policy system, or invalidations only. -/
private theorem verdicts_of_step (hs : s.step a = some s') :
    (∃ b, a = .verdict b ∧ s.verdicts.step b = some s'.verdicts ∧ s'.caches = s.caches ∧ s'.storing = s.storing ∧
      s'.reported = s.reported) ∨ s'.verdicts = s.verdicts.invalidated (s.bumps a) := by
  cases a with
  | verdict b =>
    obtain ⟨v, hv, rfl⟩ := Option.map_eq_some_iff.mp hs
    exact .inl ⟨b, rfl, hv, rfl, rfl, rfl⟩
  | receive addr =>
    right
    rw [← Option.some.inj hs]
    simp only [receive, bumps]
    split
    · rfl
    · rfl
    · simp only [announce]
      split
      · rename_i hskip
        simp [hskip, PolicySystem.invalidated]
      · rename_i e _ hskip
        cases e.isUdp <;> simp [hskip, PolicySystem.invalidated]
  | store n now allocated =>
    simp only [step] at hs
    split at hs
    · cases hs
    · right
      rw [← Option.some.inj hs]
      rfl
  | cache op =>
    obtain ⟨_, hs⟩ := Option.ite_none_right_eq_some.mp hs
    right
    rw [← Option.some.inj hs]
    rfl

private theorem closes_eq {addr : DivertAddress} {endpointId : UInt64} {sourceLayer : UInt8}
    (h : (OwnerAction.receive addr).closes = some (endpointId, sourceLayer)) :
    addr.call = .remove endpointId sourceLayer := by
  simp only [OwnerAction.closes] at h
  split at h
  · rename_i hcall
    cases h
    exact hcall
  · cases h

/-- The step that closes an endpoint. -/
theorem step_closes {endpointId : UInt64} {sourceLayer : UInt8} (hclose : a.closes = some (endpointId, sourceLayer))
    (hs : s.step a = some s') :
    s'.caches = s.caches.removeOwnerEventEndpoint endpointId sourceLayer ∧
      s'.verdicts = s.verdicts.invalidated (s.caches.udpEvents endpointId sourceLayer) := by
  cases a with
  | receive addr =>
    have hreceive : s.receive addr = s.close endpointId sourceLayer := by
      simp only [receive, closes_eq hclose]
    rw [← Option.some.inj hs, hreceive, close]
    exact ⟨rfl, rfl⟩
  | _ => cases hclose

private theorem announce_frame (s : OwnerSystem) (e : OwnerEvent) :
    let s' := s.announce e
    s'.caches = s.caches ∧ (∀ e' ∈ s'.storing, e' ∈ s.storing ∨ e' = e) ∧ s.reported ⊆ s'.reported ∧
      (e.isUdp = true → e.reports ∈ s'.reported) := by
  have hreported : s.reported ⊆ (if e.isUdp then e.reports :: s.reported else s.reported) ∧
      (e.isUdp = true → e.reports ∈ if e.isUdp then e.reports :: s.reported else s.reported) := by
    cases e.isUdp with
    | false => exact ⟨fun _ hx => hx, fun hu => by cases hu⟩
    | true => exact ⟨fun _ hx => List.mem_cons_of_mem _ hx, fun _ => List.mem_cons_self⟩
  simp only [announce]
  split
  · exact ⟨rfl, fun e' he' => .inl he', hreported⟩
  · refine ⟨rfl, fun e' he' => ?_, hreported⟩
    rcases List.mem_append.mp he' with he' | he'
    · exact .inl he'
    · exact .inr (List.mem_singleton.mp he')

namespace Inv

theorem init (policy : PolicyState) : Inv (.init policy) where
  tracks := .init policy
  consistent := OwnerCaches.consistent_empty
  sampled j hj := by cases hj
  storing e he := by cases he
  reported i o ho := by cases ho

private theorem tracks_step (h : s.Inv) (hs : s.step a = some s') : s'.verdicts.Tracks := by
  rcases verdicts_of_step hs with ⟨b, _, hb, _⟩ | hv
  · exact h.tracks.step hb
  · rw [hv]
    exact h.tracks.congr rfl rfl rfl

private theorem sampled_step (h : s.Inv) (hok : s.Covered a) (hs : s.step a = some s') :
    ∀ j ∈ s'.verdicts.live, j.sampled ≤ s'.verdicts.invalidations ∧
      s'.verdicts.invalidations < j.sampled + UInt32.size := by
  intro j hj
  rcases verdicts_of_step hs with ⟨b, rfl, hb, _⟩ | hv
  · have he := PolicySystem.effect_of_step hb
    have hinv := he.invalidations
    rcases he.live hj with ⟨i, hi, hsame⟩ | hnow
    · have hle := (h.sampled i hi).1
      have hlt := hok.recent i hi
      simp only [bumps] at hlt
      omega
    · have hone := s.verdicts.bumps_le_one b
      have hsize : 1 < UInt32.size := by decide
      omega
  · rw [hv] at hj ⊢
    have hle := (h.sampled j hj).1
    exact ⟨Nat.le_trans hle (Nat.le_add_right ..), hok.recent j hj⟩

theorem step (h : s.Inv) (hok : s.Covered a) (hs : s.step a = some s') : s'.Inv := by
  have htracks := h.tracks_step hs
  have hsampled := h.sampled_step hok hs
  cases a with
  | verdict b =>
    obtain ⟨v, _, rfl⟩ := Option.map_eq_some_iff.mp hs
    exact ⟨htracks, h.consistent, hsampled, h.storing, h.reported⟩
  | receive addr =>
    obtain rfl := Option.some.inj hs
    cases hcall : addr.call with
    | skip =>
      simp only [receive, hcall]
      exact h
    | remove endpointId sourceLayer =>
      simp only [receive, hcall] at htracks hsampled ⊢
      obtain ⟨hc, ho, _⟩ := OwnerCaches.removeOwnerEventEndpoint_spec h.consistent endpointId sourceLayer
      refine ⟨htracks, hc, hsampled, h.storing, fun i o hi => ?_⟩
      simp only [close, ho] at hi
      exact h.reported i o (List.mem_of_mem_filter hi)
    | cache e =>
      simp only [receive, hcall] at htracks hsampled ⊢
      obtain ⟨hcaches, hstoring, hreported, hnew⟩ := announce_frame s e
      refine ⟨htracks, hcaches ▸ h.consistent, hsampled, fun e' he' hu => ?_, fun i o hi hu => ?_⟩
      · rcases hstoring e' he' with he' | rfl
        · exact hreported (h.storing e' he' hu)
        · exact hnew hu
      · rw [hcaches] at hi
        exact hreported (h.reported i o hi hu)
  | store n now allocated =>
    simp only [OwnerSystem.step] at hs
    split at hs
    · cases hs
    rename_i e he
    obtain rfl := Option.some.inj hs
    refine ⟨htracks, ?_, hsampled, fun e' he' => h.storing e' (List.mem_of_mem_eraseIdx he'), fun i o ho hu => ?_⟩
    · simp only [OwnerCaches.cacheOwnerEvent]
      split <;> exact h.consistent
    · rcases OwnerCaches.reports_cacheOwnerEvent now allocated e ho with ⟨o', ho', hr, hu'⟩ | ⟨hr, hu'⟩
      · exact hr ▸ h.reported i o' ho' (hu'.trans hu)
      · exact hr ▸ h.storing e (List.mem_of_getElem? he) (hu'.trans hu)
  | cache op =>
    obtain ⟨⟨hop, hfresh⟩, hs⟩ := Option.ite_none_right_eq_some.mp hs
    obtain rfl := Option.some.inj hs
    exact ⟨htracks, (h.consistent.apply hfresh).1, hsampled, h.storing,
      fun i o ho => h.reported i o (OwnerCaches.owners_apply h.consistent op hop ho)⟩

end Inv

/-- Neither `udp_direct_cached` nor `udp_flow_validate` accepts a verdict for one of these judgements. -/
def Rejects (s : OwnerSystem) (old : List Judged) : Prop :=
  ∀ (p : UdpPacket) (now : UInt64),
    (udpDirectCached s.verdicts.core.udpDirect s.verdicts.generation now p.source p.srcPort p.dest p.dstPort = true →
      ∃ r, s.verdicts.recorded.lookup (.direct p.slot) = some r ∧ r ∉ old) ∧
    ((p.validate s.verdicts.core.tables s.verdicts.generation now).1 = true →
      ∃ r, s.verdicts.recorded.lookup (.flow p.key) = some r ∧ r ∉ old)

/-- The verdicts have been invalidated more than `n` times. -/
private structure Beyond (n : Nat) (s : OwnerSystem) : Prop where
  inv : s.Inv
  more : n < s.verdicts.invalidations

private theorem Beyond.step {n : Nat} (h : s.Beyond n) (hok : s.Covered a) (hs : s.step a = some s') : s'.Beyond n := by
  refine ⟨h.inv.step hok hs, Nat.lt_of_lt_of_le h.more ?_⟩
  rcases verdicts_of_step hs with ⟨b, _, hb, _⟩ | hv
  · rw [(PolicySystem.effect_of_step hb).invalidations]
    exact Nat.le_add_right ..
  · rw [hv]
    exact Nat.le_add_right ..

private theorem Beyond.rejects {n : Nat} (h : s.Beyond n) (hasking : ∀ j ∈ s.verdicts.judging, j.added = false)
    {old : List Judged} (hold : ∀ j ∈ old, j.sampled ≤ n) : s.Rejects old := by
  have hnew : ∀ place r, s.verdicts.recorded.lookup place = some r → generationAt r.sampled = s.verdicts.generation →
      r ∉ old := by
    intro place r hl hg hr
    obtain ⟨hle, hlt⟩ := h.inv.sampled r (PolicySystem.recorded_live (Records.mem_of_lookup hl))
    have hcurrent := PolicySystem.eq_of_generationAt_eq hg hle hlt
    have hbefore := hold r hr
    have hmore := h.more
    omega
  intro p now
  obtain ⟨hdirect, hflow⟩ := h.inv.tracks.accepted hasking p now
  constructor
  · intro hc
    obtain ⟨r, hl, hg, _⟩ := hdirect hc
    exact ⟨r, hl, hnew _ r hl hg⟩
  · intro hv
    obtain ⟨r, hl, hg, _⟩ := hflow hv
    exact ⟨r, hl, hnew _ r hl hg⟩

/-- In a run whose closing steps all find the events of the endpoint in the owner cache, closing an
endpoint takes its events out of the owner cache and its ports out of the table fallback cache, and
leaves the rest of both. No verdict recorded or under way by then is accepted from there on. -/
theorem closed_endpoint_forgotten {policy : PolicyState} {s s' : OwnerSystem} {a : OwnerAction}
    (h : Reach step Covered (init policy) s) (hok : s.Covered a) (hs : s.step a = some s') {endpointId : UInt64}
    {sourceLayer : UInt8} (hclose : a.closes = some (endpointId, sourceLayer)) {port : UInt16}
    (hport : ⟨endpointId, sourceLayer, port⟩ ∈ s.reported) :
    (∀ i, s'.caches.owners i = (s.caches.owners i).filter (fun o =>
      !(o.endpointId == endpointId && o.sourceLayer == sourceLayer))) ∧
    (∀ n ∈ s'.caches.pids.live, (s'.caches.pids.node n).isUdp = true → (s'.caches.pids.node n).srcPort ≠ port) ∧
    (∀ n ∈ s.caches.pids.live, ((s.caches.pids.node n).isUdp = true →
        ⟨endpointId, sourceLayer, (s.caches.pids.node n).srcPort⟩ ∉ s.reported) →
      n ∈ s'.caches.pids.live ∧ s'.caches.pids.node n = s.caches.pids.node n) ∧
    ∀ t, Reach step Covered s' t → (∀ j ∈ t.verdicts.judging, j.added = false) → t.Rejects s.verdicts.live := by
  have hinv : s.Inv := h.invariant (Inv.init policy) (fun _ _ _ hi hok hs => hi.step hok hs)
  have hinv' : s'.Inv := hinv.step hok hs
  obtain ⟨hcaches, hverdicts⟩ := step_closes hclose hs
  obtain ⟨_, howners, hnode, hlive⟩ :=
    OwnerCaches.removeOwnerEventEndpoint_spec hinv.consistent endpointId sourceLayer
  rw [← hcaches] at howners hnode hlive
  have hheld := hok.held endpointId sourceLayer port hclose hport
  refine ⟨howners, fun n hn hu hp => ?_, fun n hn hother => ?_, fun t ht hasking => ?_⟩
  · rw [hnode] at hu hp
    exact ((hlive n).mp hn).2 ⟨hu, hp ▸ hheld⟩
  · refine ⟨(hlive n).mpr ⟨hn, ?_⟩, by rw [hnode]⟩
    rintro ⟨hu, i, o, ho, rfl, rfl, hudp, hp⟩
    apply hother hu
    rw [← hp]
    exact hinv.reported i o ho hudp
  · have hbeyond : s'.Beyond s.verdicts.invalidations := by
      refine ⟨hinv', ?_⟩
      rw [hverdicts]
      exact Nat.lt_add_of_pos_right (OwnerCaches.udpEvents_pos hheld)
    have hlater : t.Beyond s.verdicts.invalidations :=
      ht.invariant hbeyond (fun _ _ _ hb hok hs => hb.step hok hs)
    exact hlater.rejects hasking (fun j hj => (hinv.sampled j hj).1)

/-- A run of the policy system is a run here, with the caches as they are. -/
private theorem reach_verdicts {okv : PolicySystem → PolicyAction → Prop} {ok : OwnerSystem → OwnerAction → Prop}
    {start : OwnerSystem} {v v' : PolicySystem} (s : OwnerSystem) (h : Reach PolicySystem.step okv v v')
    (hok : ∀ v b, okv v b → ok { s with verdicts := v } (.verdict b))
    (hs : Reach step ok start { s with verdicts := v }) : Reach step ok start { s with verdicts := v' } := by
  induction h with
  | start => exact hs
  | next _ hb hstep ih =>
    refine ih.next (hok _ _ hb) ?_
    simp only [step, hstep, Option.map_some]

/-- A socket of process 7 is bound to port 5000. -/
def bindEvent : DivertAddress := ⟨.socket, .other, .zero, 5000, .zero, 0, ipprotoUdp, 7, 9⟩

def closeEvent : DivertAddress := { bindEvent with event := .socketClose }

def boundEntry : OwnerCacheEntry := ⟨.zero, .zero, 5000, 0, 7, 9, 1000, true, 3⟩

/-- The event has been received and stored. -/
def bound : OwnerSystem :=
  ⟨(PolicySystem.init PolicySystem.noRules).invalidated 1,
    OwnerCaches.empty.cacheOwnerEvent 1000 true .zero 5000 .zero 0 true 7 9 3, [], [⟨9, 3, 5000⟩]⟩

private theorem reach_bound {ok : OwnerSystem → OwnerAction → Prop}
    (hok : ∀ s a, s.verdicts.live = [] → a.closes = none → ok s a) :
    Reach step ok (init PolicySystem.noRules) bound := by
  have hreceived : Reach step ok (init PolicySystem.noRules)
      ⟨(PolicySystem.init PolicySystem.noRules).invalidated 1, .empty, [⟨.zero, 5000, .zero, 0, true, 7, 9, 3⟩],
        [⟨9, 3, 5000⟩]⟩ :=
    Reach.start.next (hok _ (.receive bindEvent) rfl rfl) rfl
  exact hreceived.next (hok _ (.store 0 1000 true) rfl rfl) rfl

/-- The table fallback caches process 7 for the port. -/
def lookup : OwnerOp := .cachePid 121040 (some 0) 0x0A00A8C0 5000 7 true

/-- The event was reaped, and then the owner was looked up in the table. -/
def reaped : OwnerSystem :=
  { bound with caches := (bound.caches.cleanupStaleOwnerCache 121000).apply lookup }

private theorem reach_reaped : Reach step (fun _ _ => True) (init PolicySystem.noRules) reaped := by
  have hcleaned : Reach step (fun _ _ => True) (init PolicySystem.noRules)
      { bound with caches := bound.caches.cleanupStaleOwnerCache 121000 } :=
    (reach_bound (fun _ _ _ _ => trivial)).next (a := .cache (.cleanupStaleOwnerCache 121000)) trivial rfl
  exact hcleaned.next (a := .cache lookup) trivial rfl

private theorem owners_bound : bound.caches.owners = Function.update (fun _ => []) (ownerCacheHash 5000 true)
    [boundEntry] := rfl

private theorem consistent_lookup {c : OwnerCaches} (h : c.Consistent) (hlive : c.pids.live = ∅) :
    (c.apply lookup).Consistent := by
  refine (h.apply fun a _ => ?_).1
  rw [hlive]
  exact Finset.notMem_empty a

private theorem owners_reaped (i : OwnerBucket) : reaped.caches.owners i = [] := by
  have hconsistent : (bound.caches.cleanupStaleOwnerCache 121000).Consistent := OwnerCaches.consistent_empty
  refine List.eq_nil_iff_forall_not_mem.mpr fun o ho => ?_
  have hcleaned : o ∈ (bound.caches.cleanupStaleOwnerCache 121000).owners i :=
    OwnerCaches.owners_apply hconsistent lookup rfl ho
  rw [OwnerCaches.cleanupStaleOwnerCache, owners_bound] at hcleaned
  obtain ⟨hrow, hfresh⟩ := List.mem_filter.mp hcleaned
  by_cases hi : i = ownerCacheHash 5000 true
  · subst hi
    rw [Function.update_self, List.mem_singleton] at hrow
    subst hrow
    exact absurd hfresh (by decide)
  · rw [Function.update_of_ne hi] at hrow
    cases hrow

/-- A datagram is judged at this time and remembered as DIRECT. -/
def rememberDirect (now : UInt64) : List PolicyAction :=
  [PolicySystem.sampleDatagram, .read, .read, .read, .remember now]

/-- The owner is looked up while the event is held. -/
def looked : OwnerSystem := { bound with caches := bound.caches.apply lookup }

private theorem owners_looked : looked.caches.owners = Function.update (fun _ => []) (ownerCacheHash 5000 true)
    [boundEntry] := rfl

private theorem reach_looked : Reach step Covered (init PolicySystem.noRules) looked := by
  have hquiet : ∀ (s : OwnerSystem) (a : OwnerAction), s.verdicts.live = [] → a.closes = none → s.Covered a := by
    intro s a hlive hopen
    refine ⟨fun endpointId sourceLayer port hclose => ?_, fun j hj => ?_⟩
    · rw [hopen] at hclose
      cases hclose
    · rw [hlive] at hj
      cases hj
  exact (reach_bound hquiet).next (a := .cache lookup) (hquiet _ _ rfl rfl) rfl

/-- The event of port 5000 is held when its endpoint is closed. -/
theorem closed_endpoint_forgotten_bound :
    ∃ s s', Reach step Covered (init PolicySystem.noRules) s ∧ s.step (.receive closeEvent) = some s' ∧
      s.verdicts.live ≠ [] ∧
      (∀ n ∈ s'.caches.pids.live, (s'.caches.pids.node n).isUdp = true → (s'.caches.pids.node n).srcPort ≠ 5000) ∧
      s'.Rejects s.verdicts.live := by
  obtain ⟨v, hv, ht⟩ := exists_reach_of_exec PolicySystem.step
    (fun v a => ∀ j ∈ v.live, v.invalidations + v.bumps a < j.sampled + UInt32.size) looked.verdicts
    (rememberDirect 2000)
    (fun v => v.judging.isNone && !v.live.isEmpty &&
      v.live.all (fun j => v.invalidations + 1 < j.sampled + UInt32.size))
    (by decide +kernel)
  simp only [Bool.and_eq_true, Option.isNone_iff_eq_none] at ht
  obtain ⟨⟨hidle, hlive⟩, hrecent⟩ := ht
  have hreach : Reach step Covered (init PolicySystem.noRules) { looked with verdicts := v } := by
    refine reach_verdicts looked hv (fun v b hrecent => ⟨fun _ _ _ hclose => ?_, hrecent⟩) reach_looked
    cases hclose
  obtain ⟨s', hs⟩ : ∃ s', step { looked with verdicts := v } (.receive closeEvent) = some s' := ⟨_, rfl⟩
  have hclose : (OwnerAction.receive closeEvent).closes = some (9, 3) := rfl
  have hok : Covered { looked with verdicts := v } (.receive closeEvent) := by
    refine ⟨fun endpointId sourceLayer port hclose' hport => ?_, fun j hj => ?_⟩
    · obtain ⟨rfl, rfl, rfl⟩ := ReportedPort.mk.inj (List.mem_singleton.mp hport)
      refine ⟨ownerCacheHash 5000 true, boundEntry, ?_, rfl, rfl, rfl, rfl⟩
      rw [owners_looked, Function.update_self]
      exact List.mem_singleton_self _
    · have hone := OwnerCaches.udpEvents_of_single owners_looked 9 3
      have hj' := of_decide_eq_true (List.all_eq_true.mp hrecent j hj)
      have hbumps : bumps { looked with verdicts := v } (.receive closeEvent) = looked.caches.udpEvents 9 3 := rfl
      rw [hbumps]
      exact Nat.lt_of_le_of_lt (Nat.add_le_add_left hone _) hj'
  obtain ⟨_, hpids, _, hrejects⟩ := closed_endpoint_forgotten hreach hok hs hclose List.mem_cons_self
  refine ⟨_, s', hreach, hs, by simpa using hlive, hpids, hrejects s' .start ?_⟩
  rw [(step_closes hclose hs).2]
  intro j hj
  rw [PolicySystem.invalidated, hidle] at hj
  cases hj

/-- The cleanup thread has reaped the event after 120 s: closing the endpoint then leaves the cached
process of its port, and a verdict recorded for it is still accepted. -/
theorem reaped_endpoint_survives_close :
    ∃ s s', Reach step (fun _ _ => True) (init PolicySystem.noRules) s ∧ s.step (.receive closeEvent) = some s' ∧
      (OwnerAction.receive closeEvent).closes = some (9, 3) ∧ ⟨9, 3, 5000⟩ ∈ s.reported ∧
      (∃ n ∈ s'.caches.pids.live, (s'.caches.pids.node n).isUdp = true ∧ (s'.caches.pids.node n).srcPort = 5000) ∧
      (∀ j ∈ s'.verdicts.judging, j.added = false) ∧ ¬ s'.Rejects s.verdicts.live := by
  obtain ⟨v, hv, ht⟩ := exists_reach_of_exec PolicySystem.step (fun _ _ => True) reaped.verdicts (rememberDirect 121050)
    (fun v => v.judging.isNone && (v.recorded.lookup (.direct PolicySystem.datagramTo443.slot)).isSome &&
      udpDirectCached v.core.udpDirect v.generation 121060 PolicySystem.datagramTo443.source
        PolicySystem.datagramTo443.srcPort PolicySystem.datagramTo443.dest PolicySystem.datagramTo443.dstPort)
    (by decide +kernel)
  simp only [Bool.and_eq_true, Option.isNone_iff_eq_none, Option.isSome_iff_exists] at ht
  obtain ⟨⟨hidle, r, hr⟩, haccept⟩ := ht
  have hreach : Reach step (fun _ _ => True) (init PolicySystem.noRules) { reaped with verdicts := v } :=
    reach_verdicts reaped hv (fun _ _ _ => trivial) reach_reaped
  obtain ⟨s', hs⟩ : ∃ s', step { reaped with verdicts := v } (.receive closeEvent) = some s' := ⟨_, rfl⟩
  have hclose : (OwnerAction.receive closeEvent).closes = some (9, 3) := rfl
  obtain ⟨hcaches, hverdicts⟩ := step_closes hclose hs
  have hsame : s'.verdicts = v := by
    rw [hverdicts, OwnerCaches.udpEvents_of_empty owners_reaped]
    rfl
  have hconsistent : reaped.caches.Consistent := consistent_lookup OwnerCaches.consistent_empty rfl
  obtain ⟨_, _, hnode, hlive⟩ := OwnerCaches.removeOwnerEventEndpoint_spec hconsistent 9 3
  refine ⟨_, s', hreach, hs, hclose, List.mem_cons_self, ⟨0, ?_, ?_⟩, ?_, fun hrejects => ?_⟩
  · rw [hcaches]
    refine (hlive 0).mpr ⟨by decide, ?_⟩
    rintro ⟨_, i, o, ho, _⟩
    rw [owners_reaped] at ho
    cases ho
  · rw [hcaches, hnode]
    decide
  · rw [hsame, hidle]
    exact fun _ hj => (nomatch hj)
  · obtain ⟨r', hr', hnew⟩ := (hrejects PolicySystem.datagramTo443 121060).1 (by rw [hsame]; exact haccept)
    rw [hsame, hr] at hr'
    obtain rfl := Option.some.inj hr'
    exact hnew (PolicySystem.recorded_live (Records.mem_of_lookup hr))

end OwnerSystem
end ProxyBridge.Windows
