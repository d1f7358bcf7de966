import ProxyBridge.MacOS.FlowAssociations

/-! Whole runs of a provider: what holds in every state, and that after the sections of `stopProxy` its
threads can finish what they have to do. -/
namespace ProxyBridge.MacOS
open Runs ThreadScripts
namespace AppProxyProvider
variable {UUID : Type} {uuid : Nat → UUID} {s s' : AppProxyProvider UUID}

/-- Who has cancelled a channel so far, the latest first. -/
def performed (s : AppProxyProvider UUID) (ch : Channel) : List (Canceller UUID) :=
  (s.log.filterMap Event.effect?).filterMap (Effect.canceller? ch)

theorem cancellers_of_drained (h : s.queued = 0) (ch : Channel) : s.cancellers ch = s.performed ch := by
  rw [cancellers, due, h, add_zero, cancelsOf, Multiset.filterMap_coe]
  rfl

/-- What holds in every state of every run. A connection passes `completeHandshake` once, and neither after its timer
nor after `stopProxy` has cancelled it; a timer cancels the connection of its own attempt and leaves other pending
handshakes alone; an inserted association is in the dictionary, uncancelled, or is cancelled by one place alone. -/
structure Sound [DecidableEq UUID] (s : AppProxyProvider UUID) : Prop where
  passes : s.log.Pairwise Permitted
  passed : ∀ c, (s.connection c).live = true → .passed c ∈ s.log → (s.completeHandshake c).2 = false
  refused : ∀ c who, (s.connection c).live = true → who ∈ s.cancellers (.connection c) →
    who ≠ .closeRelay → who ≠ .failHandshake → (s.completeHandshake c).2 = false
  timers : ∀ c t, .timer t ∈ s.cancellers (.connection c) → (s.connection c).token = some t ∧
    ∀ c', (s.connection c').token = some t → c' = c
  spared : ∀ id t id' p, s.pendingHandshakes.lookup id' = some p → p.token ≠ t →
    (s.handshakeTimer id t).pendingHandshakes.lookup id' = some p
  associations : ∀ a ∈ s.inserted, (s.udpAssociations.lookup (s.association a).clientFlow = some a ∧
      ∀ ch ∈ (s.association a).channels, s.cancellers ch = 0) ∨
    (s.udpAssociations.lookup (s.association a).clientFlow ≠ some a ∧ ∃ who, who.Removes ∧ s.CancelledBy a who)
  stopped : s.stopCall.sectionsRun = true → s.pendingHandshakes = ∅ ∧ s.udpAssociations = ∅

private theorem Settled.completeHandshake_eq_false {c : Nat} (h : s.Settled c) (hr : s.Registry uuid)
    (hlive : (s.connection c).live = true) : (s.completeHandshake c).2 = false := by
  cases hp : s.pendingHandshakes.lookup (s.connection c).identifier with
  | none => simp [completeHandshake, hp]
  | some p => exact (hr.pending_not_settled hlive hp h).elim

private theorem lookup_handshakeTimer [DecidableEq UUID] {id id' : ObjectIdentifier} {t : UUID}
    {p : PendingHandshake UUID} (hp : s.pendingHandshakes.lookup id' = some p) (ht : p.token ≠ t) :
    (s.handshakeTimer id t).pendingHandshakes.lookup id' = some p := by
  simp only [handshakeTimer]
  split
  · exact hp
  · rename_i q hq
    split
    · rename_i htoken
      refine (AList.lookup_erase_ne ?_).trans hp
      rintro rfl
      obtain rfl := Option.some.inj (hp.symm.trans hq)
      exact ht htoken
    · exact hp

theorem Inv.sound [DecidableEq UUID] (h : s.Inv uuid) : s.Sound where
  passes := h.ledger.order
  passed c hlive hc := (h.ledger.passed c hc).completeHandshake_eq_false h.registry hlive
  refused c who hlive hwho hclose hfail := by
    rcases (h.ledger.cancelled c who hwho).2 with ⟨hwho, _⟩ | ⟨hwho, _⟩ | hsettled
    · exact (hclose hwho).elim
    · exact (hfail hwho).elim
    · exact hsettled.completeHandshake_eq_false h.registry hlive
  timers c t ht := by
    have htoken := h.ledger.timed c t ht
    exact ⟨htoken, fun c' hc' => h.registry.tokens c' c t hc' htoken⟩
  spared _ _ _ _ := lookup_handshakeTimer
  associations a ha := by
    by_cases hmap : s.udpAssociations.lookup (s.association a).clientFlow = some a
    · exact .inl ⟨hmap, (h.custody.mapped _ a hmap).2.2⟩
    · exact .inr ⟨hmap, h.custody.removed a ha hmap⟩
  stopped hrun := ⟨h.stops.handshakes (Stops.called_of_sectionsRun hrun), h.stops.associations hrun⟩

/-- The tasks of all threads and of `stopProxy` that are still to come. -/
private def workload (s : AppProxyProvider UUID) : Nat :=
  Multiset.card (remaining s.threads) + s.stopCall.script.length

private theorem exists_thread {threads : List (List (Task UUID))} (h : remaining threads ≠ 0) :
    ∃ (i : Nat) (t : Task UUID) (rest : List (Task UUID)), threads[i]? = some (t :: rest) := by
  obtain ⟨t, ht⟩ := Multiset.exists_mem_of_ne_zero h
  obtain ⟨script, hscript, ht⟩ := List.mem_flatten.mp (Multiset.mem_coe.mp ht)
  obtain ⟨i, hi⟩ := List.mem_iff_getElem?.mp hscript
  cases script with
  | nil => cases ht
  | cons t rest => exact ⟨i, t, rest, hi⟩

private theorem card_resume {threads : List (List (Task UUID))} {i : Nat} {t : Task UUID} {rest : List (Task UUID)}
    (h : threads[i]? = some (t :: rest)) :
    Multiset.card (remaining (threads.set i rest)) + 1 = Multiset.card (remaining threads) := by
  rw [remaining_resume h, Multiset.card_add, Multiset.card_singleton, Nat.add_comm]

/-- Where the dictionary is empty, a thread with work left takes a step. -/
private theorem exists_step [DecidableEq UUID] (uuid : Nat → UUID) (hempty : s.udpAssociations = ∅)
    (hwork : s.workload ≠ 0) (hrun : s.stopCall.sectionsRun = true) :
    ∃ a s', s.step uuid a = some s' ∧ s'.workload < s.workload := by
  by_cases hthreads : remaining s.threads = 0
  · cases hcall : s.stopCall with
    | notCalled =>
      rw [hcall] at hrun
      cases hrun
    | handshakes script =>
      rw [hcall] at hrun
      cases hrun
    | associations script =>
      cases script with
      | nil => simp [workload, hthreads, hcall] at hwork
      | cons effect rest =>
        refine ⟨.resumeStop, { s with stopCall := .associations rest, log := .did effect :: s.log }, ?_, ?_⟩
        · simp only [step, resumeStop, hcall]
        · simp [workload, hcall]
  · obtain ⟨i, t, rest, hi⟩ := exists_thread hthreads
    have hcard := card_resume hi
    cases t with
    | perform effect =>
      refine ⟨.resume i, { s with threads := s.threads.set i rest, log := .did effect :: s.log }, ?_, ?_⟩
      · simp only [step, resume, hi]
      · simp only [workload]
        omega
    | teardownUDP flow onlyIfIdle expected =>
      have hnothing : s.teardownUDP flow onlyIfIdle expected = (s, []) := by
        rw [teardownUDP, hempty]
        rfl
      refine ⟨.resume i, { s with threads := s.threads.set i rest }, ?_, ?_⟩
      · simp only [step, resume, hi, hnothing]
        rfl
      · simp only [workload]
        omega

private theorem queued_of_workload (h : s.workload = 0) : s.queued = 0 := by
  obtain ⟨hcard, hlen⟩ := Nat.add_eq_zero_iff.mp h
  rw [queued, Multiset.card_eq_zero.mp hcard, List.length_eq_zero_iff.mp hlen]
  rfl

/-- After the sections of `stopProxy` the threads can do all that is left. -/
private theorem exists_drained [DecidableEq UUID] (huuid : Function.Injective uuid) (h : s.Inv uuid)
    (hrun : s.stopCall.sectionsRun = true) :
    ∃ t, Reach (step uuid) (fun _ _ => True) s t ∧ t.Inv uuid ∧ t.queued = 0 := by
  induction hn : s.workload using Nat.strong_induction_on generalizing s with
  | h n ih =>
    subst hn
    by_cases hwork : s.workload = 0
    · exact ⟨s, .start, h, queued_of_workload hwork⟩
    · obtain ⟨a, m, hstep, hless⟩ := exists_step uuid (h.stops.associations hrun) hwork hrun
      have hm := step_cases hstep
      obtain ⟨t, ht, htinv, htqueued⟩ := ih m.workload hless (h.step huuid hm) (hm.sectionsRun hrun) rfl
      exact ⟨t, ht.head trivial hstep, htinv, htqueued⟩

/-- The sections of `stopProxy` have run. -/
private structure SectionsRun (uuid : Nat → UUID) (s : AppProxyProvider UUID) : Prop where
  inv : s.Inv uuid
  run : s.stopCall.sectionsRun = true

/-- In every run of handshakes, timers, relays, teardowns and sweeps with one `stopProxy`. -/
theorem flow_teardown_sound [DecidableEq UUID] (huuid : Function.Injective uuid)
    (h : Reach (step uuid) (fun _ _ => True) initial s) :
    s.Sound ∧ (s.stopCall.sectionsRun = true → ∀ s', Reach (step uuid) (fun _ _ => True) s s' →
      s'.pendingHandshakes = ∅ ∧ s'.udpAssociations = ∅ ∧
        (∀ a ∈ s'.inserted, ∃ who, who.Removes ∧ s'.CancelledBy a who) ∧
        (s'.queued = 0 → ∀ a ∈ s'.inserted, ∃ who, who.Removes ∧
          ∀ ch ∈ (s'.association a).channels, s'.performed ch = [who]) ∧
        ∃ t, Reach (step uuid) (fun _ _ => True) s' t ∧ t.queued = 0) := by
  have hinv : s.Inv uuid := h.invariant Inv.initial (fun _ _ _ hi _ hs => hi.step huuid (step_cases hs))
  refine ⟨hinv.sound, fun hrun s' hs' => ?_⟩
  have hstart : s.SectionsRun uuid := ⟨hinv, hrun⟩
  obtain ⟨hinv', hrun'⟩ : s'.SectionsRun uuid := by
    refine hs'.invariant hstart (fun _ _ _ hi _ hs => ?_)
    have hstep := step_cases hs
    exact ⟨hi.inv.step huuid hstep, hstep.sectionsRun hi.run⟩
  obtain ⟨hpending, hmap⟩ := hinv'.sound.stopped hrun'
  have hcancelled : ∀ a ∈ s'.inserted, ∃ who, who.Removes ∧ s'.CancelledBy a who := by
    intro a ha
    refine hinv'.custody.removed a ha (fun hlookup => ?_)
    rw [hmap] at hlookup
    cases hlookup
  refine ⟨hpending, hmap, hcancelled, fun hqueued a ha => ?_, ?_⟩
  · obtain ⟨who, hwho, hby⟩ := hcancelled a ha
    refine ⟨who, hwho, fun ch hch => ?_⟩
    have hone := hby ch hch
    rw [cancellers_of_drained hqueued] at hone
    exact Multiset.coe_eq_singleton.mp hone
  · obtain ⟨t, ht, _, hqueued⟩ := exists_drained huuid hinv' hrun'
    exact ⟨t, ht, hqueued⟩

/-- One association replaces another, an identifier is used again while the timer of its first connection runs, and
`stopProxy` finds one association and one handshake. -/
theorem flow_teardown_sound_identifier_reused :
    ∃ s : AppProxyProvider Nat, Reach (step id) (fun _ _ => True) initial s ∧ s.inserted = {20, 21} ∧
      s.performed (.connection 4) = [.stop] ∧ s.queued = 0 ∧ s.Sound ∧ s.pendingHandshakes = ∅ ∧
      s.udpAssociations = ∅ ∧ ∀ a ∈ s.inserted, ∃ who, who.Removes ∧
        ∀ ch ∈ (s.association a).channels, s.performed ch = [who] := by
  obtain ⟨s, hr, ht⟩ := exists_reach_of_exec (step id) (fun _ _ => True) (initial : AppProxyProvider Nat)
    [.createTCPConnection 1 50 true 10, .armHandshakeTimeout 1, .relayUDPThroughSOCKS5 1, .insertAssociation 0 20 true,
      .createTCPConnection 2 60 true 10, .armHandshakeTimeout 2, .relayUDPThroughSOCKS5 2,
      .insertAssociation 0 21 false,
      .createTCPConnection 3 70 false 11, .armHandshakeTimeout 3, .closeRelay 3, .resume 0, .resume 0, .resume 0,
      .release 3, .createTCPConnection 4 70 false 12, .armHandshakeTimeout 4, .handshakeTimer 1,
      .stopHandshakes [⟨3, 12, 4⟩], .resumeStop, .resumeStop, .resumeStop, .stopAssociations [21],
      .resumeStop, .resumeStop, .resumeStop, .resumeStop, .resume 1, .resume 1, .resume 1]
    (fun s => decide (s.inserted = {20, 21}) && decide (s.performed (.connection 4) = [.stop]) &&
      s.stopCall.sectionsRun && decide (s.queued = 0))
    (by decide +kernel)
  simp only [Bool.and_eq_true, decide_eq_true_eq] at ht
  obtain ⟨⟨⟨hinserted, hstop⟩, hrun⟩, hqueued⟩ := ht
  obtain ⟨hsound, hstopped⟩ := flow_teardown_sound Function.injective_id hr
  obtain ⟨hpending, hmap, _, hperformed, _⟩ := hstopped hrun s .start
  exact ⟨s, hr, hinserted, hstop, hqueued, hsound, hpending, hmap, hperformed hqueued⟩

end AppProxyProvider
end ProxyBridge.MacOS
