import ProxyBridge.Windows.PolicyRecords

/-! Whether a recorded verdict is that of the current policy when it is accepted. Every change of
the policy but one is followed by an invalidation of the same call; the domain flag is stored after
it. -/
namespace ProxyBridge.Windows
open Runs ReadPrograms

namespace ApiStep

def isChangeRules : ApiStep → Bool
  | .changeRules _ => true
  | _ => false

def isStoreDomain : ApiStep → Bool
  | .storeDomain => true
  | _ => false

/-- Changes of the policy that an invalidation has to follow. -/
def isChange : ApiStep → Bool
  | .changeRules _ | .setToggle .. | .changeConfigs _ => true
  | _ => false

end ApiStep

/-- An invalidation follows every change, and the rule list is changed first or not at all. -/
def Ordered : List ApiStep → Prop
  | [] => True
  | next :: rest => (next.isChange = true → rest.any (·.isInvalidate) = true) ∧
      rest.any (·.isChangeRules) = false ∧ Ordered rest

theorem ApiCall.ordered_steps (c : ApiCall) : Ordered c.steps := by
  cases c with
  | changeConfigs stores =>
    have hlast : ∀ l : List (List ProxyConfig → List ProxyConfig),
        (l.map ApiStep.changeConfigs ++ [ApiStep.invalidate]).any (·.isInvalidate) = true ∧
        (l.map ApiStep.changeConfigs ++ [ApiStep.invalidate]).any (·.isChangeRules) = false := by
      intro l
      simp [ApiStep.isInvalidate, ApiStep.isChangeRules]
    rw [steps]
    induction stores with
    | nil => simp [Ordered, ApiStep.isChange]
    | cons store stores ih => exact ⟨fun _ => (hlast stores).1, (hlast stores).2, ih⟩
  | _ => simp [steps, updateHasActiveRules, Ordered, ApiStep.isChange, ApiStep.isInvalidate, ApiStep.isChangeRules]

/-- The call is certain to invalidate: it does not depend on finding a rule any more. -/
def RunningCall.armed (c : RunningCall) : Bool :=
  c.todo.any (·.isInvalidate) && !c.todo.head?.any (·.isChangeRules)

namespace PolicySystem

def Armed (s : PolicySystem) : Prop := ∃ c ∈ s.calls, c.armed = true

/-- No call stores another value of the domain flag while a judgement of the current generation has
read the flag, unless a call is certain to invalidate after that. -/
def KeepsDomainFlag (s : PolicySystem) : PolicyAction → Prop
  | .advance n => ∀ c ∈ s.calls[n]?, c.todo.head?.any (·.isStoreDomain) = true →
      c.flags.2 ≠ s.policy.hasDomainRules →
      s.Armed ∨ ∀ j ∈ s.live, j.sampled = s.invalidations → ∀ x ∈ j.execution.reads, x.1 ≠ .hasDomainRules
  | _ => True

/-- A judgement of the current generation has read what is there, or an invalidation is due. -/
def Sound (s : PolicySystem) (j : Judged) : Prop :=
  j.sampled ≤ s.invalidations ∧
    (j.sampled = s.invalidations → s.Armed ∨ Agrees s.policy.get j.execution.reads)

section Calls
variable {s : PolicySystem} {n : Nat} {c : RunningCall}

private theorem mem_calls (h : s.calls[n]? = some c) {d : RunningCall} (hd : d ∈ s.calls) :
    d = c ∨ d ∈ s.calls.take n ++ s.calls.drop (n + 1) := by
  obtain ⟨hn, rfl⟩ := List.getElem?_eq_some_iff.mp h
  rw [← List.take_append_drop n s.calls, List.drop_eq_getElem_cons hn] at hd
  simp only [List.mem_append, List.mem_cons] at hd ⊢
  tauto

private theorem mem_resume {todo : List ApiStep} {flags : Bool × Bool} {d : RunningCall}
    (h : d ∈ s.calls.take n ++ s.calls.drop (n + 1)) : d ∈ s.resume n todo flags := by
  simp only [resume, List.mem_append] at h ⊢
  tauto

private theorem of_mem_resume {todo : List ApiStep} {flags : Bool × Bool} {d : RunningCall}
    (h : d ∈ s.resume n todo flags) : d ∈ s.calls ∨ (todo ≠ [] ∧ d = ⟨todo, flags⟩) := by
  simp only [resume, List.mem_append] at h
  rcases h with (h | h) | h
  · exact .inl (List.mem_of_mem_take h)
  · split at h
    · cases h
    · rename_i hne
      exact .inr ⟨by simpa using hne, List.mem_singleton.mp h⟩
  · exact .inl (List.mem_of_mem_drop h)

private theorem armed_of_any {next : ApiStep} {rest : List ApiStep} (ho : Ordered (next :: rest))
    (h : rest.any (·.isInvalidate) = true) (flags : Bool × Bool) : (RunningCall.mk rest flags).armed = true := by
  cases rest with
  | nil => cases h
  | cons r rest =>
    have hr : r.isChangeRules = false := by
      have hn := ho.2.1
      simp only [List.any_cons, Bool.or_eq_false_iff] at hn
      exact hn.1
    simp [RunningCall.armed, h, hr]

/-- The call goes on with an invalidation still to come. -/
private theorem armed_resume {next : ApiStep} {rest : List ApiStep} (ho : Ordered (next :: rest))
    (h : rest.any (·.isInvalidate) = true) (flags : Bool × Bool) :
    ∃ d ∈ s.resume n rest flags, d.armed = true := by
  refine ⟨⟨rest, flags⟩, ?_, armed_of_any ho h flags⟩
  cases rest with
  | nil => cases h
  | cons r rest => simp [resume]

/-- A step that is neither the invalidation nor the change of the rules disarms nobody. -/
private theorem armed_pass {next : ApiStep} {rest : List ApiStep} {flags : Bool × Bool}
    (hget : s.calls[n]? = some ⟨next :: rest, flags⟩) (ho : Ordered (next :: rest))
    (hnext : next.isInvalidate = false) (ha : s.Armed) (flags' : Bool × Bool) :
    ∃ d ∈ s.resume n rest flags', d.armed = true := by
  obtain ⟨d, hd, harmed⟩ := ha
  rcases mem_calls hget hd with rfl | hd
  · refine armed_resume ho ?_ flags'
    simp only [RunningCall.armed, List.any_cons, hnext, Bool.false_or, Bool.and_eq_true] at harmed
    exact harmed.1
  · exact ⟨d, mem_resume hd, harmed⟩

end Calls

private theorem get_storeDomain (st : PolicyState) (b : Bool) {i : PolicyItem} (h : i ≠ .hasDomainRules) :
    PolicyState.get { st with hasDomainRules := b } i = st.get i := by
  cases i with
  | hasDomainRules => exact (h rfl).elim
  | _ => rfl

/-- Every step of a call keeps the judgements sound, where the store of the domain flag meets its
condition. -/
theorem Sound.perform {s : PolicySystem} {n : Nat} {next : ApiStep} {rest : List ApiStep} {flags : Bool × Bool}
    (hget : s.calls[n]? = some ⟨next :: rest, flags⟩) (ho : Ordered (next :: rest)) {j : Judged}
    (hlive : j ∈ s.live) (hok : s.KeepsDomainFlag (.advance n)) (h : s.Sound j) :
    Sound (s.perform n flags rest next) j := by
  obtain ⟨hle, hfresh⟩ := h
  cases next with
  | changeRules change =>
    simp only [PolicySystem.perform]
    split
    · refine ⟨hle, fun hs => (hfresh hs).imp_left ?_⟩
      rintro ⟨d, hd, harmed⟩
      rcases mem_calls hget hd with rfl | hd
      · simp [RunningCall.armed, ApiStep.isChangeRules] at harmed
      · exact ⟨d, mem_resume hd, harmed⟩
    · exact ⟨hle, fun _ => .inl (armed_resume ho (ho.1 rfl) flags)⟩
  | setToggle t value => exact ⟨hle, fun _ => .inl (armed_resume ho (ho.1 rfl) flags)⟩
  | changeConfigs change => exact ⟨hle, fun _ => .inl (armed_resume ho (ho.1 rfl) flags)⟩
  | invalidate =>
    refine ⟨Nat.le_succ_of_le hle, fun hs => ?_⟩
    simp only [PolicySystem.perform] at hs
    omega
  | recompute => exact ⟨hle, fun hs => (hfresh hs).imp_left (fun ha => armed_pass hget ho rfl ha _)⟩
  | storeActive =>
    refine ⟨hle, fun hs => (hfresh hs).imp (fun ha => armed_pass hget ho rfl ha flags) (fun hag x hx => ?_)⟩
    rw [← hag x hx]
    simp only [PolicySystem.perform]
    cases x.1 <;> rfl
  | storeDomain =>
    refine ⟨hle, fun hs => ?_⟩
    rcases hfresh hs with ha | hag
    · exact .inl (armed_pass hget ho rfl ha flags)
    by_cases hsame : flags.2 = s.policy.hasDomainRules
    · right
      simp only [PolicySystem.perform, hsame]
      exact hag
    · rcases hok _ hget rfl hsame with ha | hunread
      · exact .inl (armed_pass hget ho rfl ha flags)
      · right
        intro x hx
        rw [← hag x hx]
        exact get_storeDomain s.policy flags.2 (hunread j hlive hs x hx)

end PolicySystem

namespace PolicySystem
variable {s : PolicySystem}

/-- The tables follow the records, the calls under way keep their order, and what is live was judged
soundly. -/
structure Inv (s : PolicySystem) : Prop where
  tracks : s.Tracks
  ordered : ∀ c ∈ s.calls, Ordered c.todo
  sound : ∀ j ∈ s.live, s.Sound j

namespace Inv

theorem init (policy : PolicyState) : Inv (.init policy) where
  tracks := .init policy
  ordered c hc := by cases hc
  sound j hj := by cases hj

/-- The calls under way go through their steps in the order in which they have them. -/
private theorem ordered_effect {s' : PolicySystem} {a : PolicyAction} (h : ∀ c ∈ s.calls, Ordered c.todo)
    (he : s.Effect a s') : ∀ c ∈ s'.calls, Ordered c.todo := by
  cases he with
  | call c =>
    intro d hd
    rcases List.mem_append.mp hd with hd | hd
    · exact h d hd
    · rw [List.mem_singleton.mp hd]
      exact c.ordered_steps
  | @advance n next rest flags hget =>
    have ho : Ordered (next :: rest) := h _ (List.mem_of_getElem? hget)
    have hresume : ∀ todo flags', Ordered todo → ∀ c ∈ s.resume n todo flags', Ordered c.todo := by
      intro todo flags' htodo c hc
      rcases of_mem_resume hc with hc | ⟨_, rfl⟩
      · exact h c hc
      · exact htodo
    cases next with
    | changeRules change =>
      simp only [PolicySystem.perform]
      split
      · exact hresume [] flags trivial
      · exact hresume rest flags ho.2.2
    | recompute => exact hresume rest _ ho.2.2
    | _ => exact hresume rest flags ho.2.2
  | ask now hj =>
    simp only [PolicySystem.ask]
    split
    · exact h
    split <;> exact h
  | _ => exact h

/-- The packet thread changes neither the policy nor the calls, so a judgement that was live stays
sound. -/
private theorem sound_effect (h : s.Inv) {s' : PolicySystem} {a : PolicyAction} (hok : s.KeepsDomainFlag a)
    (he : s.Effect a s') : ∀ j ∈ s'.live, s'.Sound j := by
  cases he with
  | call c =>
    intro j hj
    obtain ⟨hle, hfresh⟩ := h.sound j hj
    refine ⟨hle, fun he => (hfresh he).imp_left ?_⟩
    rintro ⟨d, hd, ha⟩
    exact ⟨d, List.mem_append_left _ hd, ha⟩
  | advance hget =>
    intro j hj
    obtain ⟨_, hjudging, hrecorded, _⟩ := s.perform_frame _ _ _ _
    have hlive : j ∈ s.live := by
      rw [live, hjudging, hrecorded] at hj
      exact hj
    exact (h.sound j hlive).perform hget (h.ordered _ (List.mem_of_getElem? hget)) hlive hok
  | sample packet env owner self hj =>
    intro i hi
    simp only [live, Option.map_some, Option.toList_some, List.mem_append, List.mem_singleton] at hi
    rcases hi with rfl | hi
    · exact ⟨Nat.le_refl _, fun _ => .inr (fun x hx => by cases hx)⟩
    · exact h.sound i (recorded_live hi)
  | @read j hj =>
    intro i hi
    simp only [live, Option.map_some, Option.toList_some, List.mem_append, List.mem_singleton] at hi
    rcases hi with rfl | hi
    · obtain ⟨hle, hfresh⟩ := h.sound j (judging_live hj)
      exact ⟨hle, fun he => (hfresh he).imp_right j.execution.agrees_read⟩
    · exact h.sound i (recorded_live hi)
  | ask now hj =>
    intro i hi
    have hs := h.sound i (live_ask hi)
    simp only [PolicySystem.ask]
    split
    · exact hs
    split <;> exact hs
  | leave hj => exact fun i hi => h.sound i (recorded_live hi)
  | remember now hj hr => exact fun i hi => h.sound i (live_remember hj now hi)
  | add now hj hr hfresh =>
    intro i hi
    apply h.sound i
    rw [live, hj]
    exact hi
  | stamp hj => exact fun i hi => h.sound i (live_stamp hj hi)

theorem step {s' : PolicySystem} {a : PolicyAction} (h : s.Inv) (hok : s.KeepsDomainFlag a)
    (hs : s.step a = some s') : s'.Inv := by
  have heffect := effect_of_step hs
  exact ⟨h.tracks.step hs, ordered_effect h.ordered heffect, sound_effect h hok heffect⟩

end Inv

/-- Everything the verdict was computed from is so in the current policy, and the verdict is the one
that judging this datagram would give now. -/
structure UpToDate (s : PolicySystem) (p : UdpPacket) (r : Judged) : Prop where
  current : Agrees s.policy.get r.execution.reads
  verdict : r.execution.result = some ((p.program r.env r.owner r.currentProcessId).run s.policy.get)

private theorem upToDate (h : s.Inv) (hcalls : s.calls = []) {p : UdpPacket} {r : Judged} {place : Place}
    (hl : s.recorded.lookup place = some r) (hg : generationAt r.sampled = s.generation)
    (hs : r.packet.source = p.source) (hd : r.packet.dest = p.dest) (hp : r.packet.dstPort = p.dstPort)
    (hres : r.execution.result.isSome = true) (hlt : s.invalidations < r.sampled + UInt32.size) : s.UpToDate p r := by
  obtain ⟨d, hr⟩ := Option.isSome_iff_exists.mp hres
  obtain ⟨hle, hfresh⟩ := h.sound r (recorded_live (Records.mem_of_lookup hl))
  have hag : Agrees s.policy.get r.execution.reads := by
    rcases hfresh (eq_of_generationAt_eq hg hle hlt) with ⟨c, hc, _⟩ | hag
    · rw [hcalls] at hc
      cases hc
    · exact hag
  refine ⟨hag, ?_⟩
  rw [UdpPacket.program_congr hs.symm hd.symm hp.symm, ← r.judges, r.execution.run_of_result hr hag, hr]

/-- In a run in which the domain flag is never changed under a verdict that has read it, whatever
`udp_direct_cached` or `udp_flow_validate` accepts while no call is under way was computed from
the policy as it is now. -/
theorem accepted_verdicts_up_to_date {policy : PolicyState} {s : PolicySystem}
    (h : Reach step KeepsDomainFlag (init policy) s) (hcalls : s.calls = [])
    (hasking : ∀ j ∈ s.judging, j.added = false) (p : UdpPacket) (now : UInt64) :
    (udpDirectCached s.core.udpDirect s.generation now p.source p.srcPort p.dest p.dstPort = true →
      ∃ r, s.recorded.lookup (.direct p.slot) = some r ∧
        (s.invalidations < r.sampled + UInt32.size → s.UpToDate p r)) ∧
    ((p.validate s.core.tables s.generation now).1 = true →
      ∃ r, s.recorded.lookup (.flow p.key) = some r ∧
        (s.invalidations < r.sampled + UInt32.size → s.UpToDate p r)) := by
  have hinv : s.Inv := h.invariant (Inv.init policy) (fun _ _ _ hi hok hs => hi.step hok hs)
  obtain ⟨hdirect, hflow⟩ := hinv.tracks.accepted hasking p now
  constructor
  · intro hc
    obtain ⟨r, hr, hg, hs, hd, hp, hres⟩ := hdirect hc
    exact ⟨r, hr, upToDate hinv hcalls hr hg hs hd hp hres⟩
  · intro hv
    obtain ⟨r, hr, hg, hs, hd, hp, hres⟩ := hflow hv
    exact ⟨r, hr, upToDate hinv hcalls hr hg hs hd hp hres⟩

instance (s : PolicySystem) : Decidable s.Armed := inferInstanceAs (Decidable (∃ c ∈ s.calls, c.armed = true))

instance (s : PolicySystem) (a : PolicyAction) : Decidable (s.KeepsDomainFlag a) :=
  match a with
  | .advance n => inferInstanceAs (Decidable (∀ c ∈ s.calls[n]?, c.todo.head?.any (·.isStoreDomain) = true →
      c.flags.2 ≠ s.policy.hasDomainRules →
      s.Armed ∨ ∀ j ∈ s.live, j.sampled = s.invalidations → ∀ x ∈ j.execution.reads, x.1 ≠ .hasDomainRules))
  | .call _ | .sample .. | .ask _ | .read | .leave | .remember _ | .add .. | .stamp => isTrue trivial

/-- One SOCKS5 configuration and no rules. -/
def noRules : PolicyState := ⟨[], false, false, fun _ => false, [localSocks5 1]⟩

/-- The call that adds a PROXY rule for the hostname `a`. -/
def addDomainRule : ApiCall :=
  .changeRule (fun rules =>
    some (rules ++ [⟨1, wildcard, wildcard, wildcard, CStrings.lit ['a'], .both, .proxy, 1, true⟩]))

/-- 1.1.1.1 is known to be `a`. -/
def namedEnv : RuleEnv := { emptyRuleEnv with dnsCache := fun _ => [⟨0x01010101, CStrings.lit ['a'], 5000⟩] }

def datagramTo443 : UdpPacket := .v4 ⟨0x0A00A8C0, 0x01010101, 5000, 443, true⟩

/-- Process 7 is the owner of the datagram. -/
def sampleDatagram : PolicyAction := .sample datagramTo443 namedEnv ⟨7, some (CStrings.lit ['p'])⟩ 1

/-- The rule is there before the datagram is judged. -/
theorem accepted_verdicts_up_to_date_after_call :
    ∃ s, Reach step KeepsDomainFlag (init noRules) s ∧ s.calls = [] ∧
      ∃ r, s.recorded.lookup (.flow datagramTo443.key) = some r ∧ s.UpToDate datagramTo443 r := by
  obtain ⟨s, hr, ht⟩ := exists_reach_of_exec step KeepsDomainFlag (init noRules)
    [.call addDomainRule, .advance 0, .advance 0, .advance 0, .advance 0, .advance 0, sampleDatagram, .read, .read,
      .read, .read, .read, .add 1000 (some 0), .stamp]
    (fun s => s.calls.isEmpty && s.judging.isNone && (datagramTo443.validate s.core.tables s.generation 1001).1 &&
      (s.recorded.lookup (.flow datagramTo443.key)).all (fun r => s.invalidations < r.sampled + UInt32.size))
    (by decide +kernel)
  simp only [Bool.and_eq_true, List.isEmpty_iff, Option.isNone_iff_eq_none] at ht
  obtain ⟨⟨⟨hcalls, hidle⟩, hv⟩, hlt⟩ := ht
  have hasking : ∀ j ∈ s.judging, j.added = false := by
    rw [hidle]
    exact fun _ hj => (nomatch hj)
  obtain ⟨r, hl, hup⟩ := (accepted_verdicts_up_to_date hr hcalls hasking datagramTo443 1001).2 hv
  rw [hl, Option.all_some, decide_eq_true_eq] at hlt
  exact ⟨s, hr, hcalls, r, hl, hup hlt⟩

/-- The datagram is judged between the invalidation and the store of the domain flag: the DIRECT
verdict stays accepted although the rule asks for PROXY. -/
theorem stale_verdict_accepted :
    ∃ s, Reach step (fun _ _ => True) (init noRules) s ∧ s.calls = [] ∧ s.judging = none ∧
      udpDirectCached s.core.udpDirect s.generation 1001 datagramTo443.source datagramTo443.srcPort
        datagramTo443.dest datagramTo443.dstPort = true ∧
      ∃ r, s.recorded.lookup (.direct datagramTo443.slot) = some r ∧ s.invalidations < r.sampled + UInt32.size ∧
        r.execution.result = some (.direct 7) ∧
        (datagramTo443.program r.env r.owner r.currentProcessId).run s.policy.get = .proxy 1 ∧
        ¬ s.UpToDate datagramTo443 r := by
  obtain ⟨s, hr, ht⟩ := exists_reach_of_exec step (fun _ _ => True) (init noRules)
    [.call addDomainRule, .advance 0, .advance 0, sampleDatagram, .read, .read, .read, .remember 1000, .advance 0,
      .advance 0, .advance 0]
    (fun s => s.calls.isEmpty && s.judging.isNone &&
      udpDirectCached s.core.udpDirect s.generation 1001 datagramTo443.source datagramTo443.srcPort
        datagramTo443.dest datagramTo443.dstPort &&
      (s.recorded.lookup (.direct datagramTo443.slot)).any (fun r : Judged =>
        decide (s.invalidations < r.sampled + UInt32.size) && decide (r.execution.result = some (.direct 7)) &&
        decide ((datagramTo443.program r.env r.owner r.currentProcessId).run s.policy.get = .proxy 1)))
    (by decide +kernel)
  simp only [Bool.and_eq_true, List.isEmpty_iff, Option.isNone_iff_eq_none] at ht
  obtain ⟨⟨⟨hcalls, hidle⟩, hc⟩, hrec⟩ := ht
  obtain ⟨r, hl, hrest⟩ := (Option.any_eq_true ..).mp hrec
  simp only [Bool.and_eq_true, decide_eq_true_eq] at hrest
  obtain ⟨⟨hlt, hres⟩, hrun⟩ := hrest
  refine ⟨s, hr, hcalls, hidle, hc, r, hl, hlt, hres, hrun, fun hup => ?_⟩
  have hsame := hres.symm.trans hup.verdict
  rw [hrun] at hsame
  cases hsame

end PolicySystem
end ProxyBridge.Windows
