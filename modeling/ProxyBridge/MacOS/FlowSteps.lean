import ProxyBridge.MacOS.FlowTeardown

/-! What one step can do to the handshakes and the associations, and which channels it has cancelled. -/
namespace ProxyBridge.MacOS
open ThreadScripts
variable {UUID : Type}

@[simp] theorem StopCall.script_notCalled : (StopCall.notCalled : StopCall UUID).script = [] := rfl
@[simp] theorem StopCall.script_handshakes (l : List (Effect UUID)) : (StopCall.handshakes l).script = l := rfl
@[simp] theorem StopCall.script_associations (l : List (Effect UUID)) : (StopCall.associations l).script = l := rfl

/-- `stopProxy` has run its first section. -/
def StopCall.called : StopCall UUID → Bool
  | .notCalled => false
  | _ => true

/-- `stopProxy` has run both its sections. -/
def StopCall.sectionsRun : StopCall UUID → Bool
  | .associations _ => true
  | _ => false

/-- Who cancels a channel by these effects. -/
def cancelsOf (ch : Channel) (effects : Multiset (Effect UUID)) : Multiset (Canceller UUID) :=
  effects.filterMap (Effect.canceller? ch)

theorem cancelsOf_add (ch : Channel) (effects effects' : Multiset (Effect UUID)) :
    cancelsOf ch (effects + effects') = cancelsOf ch effects + cancelsOf ch effects' :=
  Multiset.filterMap_add ..

theorem mem_cancelsOf {ch : Channel} {who : Canceller UUID} {effects : Multiset (Effect UUID)} :
    who ∈ cancelsOf ch effects ↔ .cancel ch who ∈ effects := by
  rw [cancelsOf, Multiset.mem_filterMap]
  constructor
  · rintro ⟨effect, hmem, heffect⟩
    cases effect with
    | cancel c who' =>
      obtain ⟨rfl, rfl⟩ : c = ch ∧ who' = who := by simpa [Effect.canceller?] using heffect
      exact hmem
    | closeReadWithError flow => cases heffect
    | closeWriteWithError flow => cases heffect
  · exact fun hmem => ⟨_, hmem, if_pos rfl⟩

theorem cancelsOf_eq_zero {ch : Channel} {effects : Multiset (Effect UUID)}
    (h : ∀ who, .cancel ch who ∉ effects) : cancelsOf ch effects = 0 :=
  Multiset.eq_zero_of_forall_notMem (fun who hwho => h who (mem_cancelsOf.mp hwho))

@[simp] theorem mem_closeFlow {flow : Nat} {ch : Channel} {who : Canceller UUID} :
    .cancel ch who ∉ (closeFlow flow : List (Effect UUID)) := by simp [closeFlow]

@[simp] theorem mem_cancelAll {ch : Channel} {who who' : Canceller UUID} {channels : List Channel} :
    .cancel ch who ∈ cancelAll who' channels ↔ ch ∈ channels ∧ who' = who := by
  simp only [cancelAll, List.mem_map, Effect.cancel.injEq]
  constructor
  · rintro ⟨c, hc, rfl, rfl⟩
    exact ⟨hc, rfl⟩
  · rintro ⟨hc, rfl⟩
    exact ⟨ch, hc, rfl, rfl⟩

/-- Each of the channels is cancelled once. -/
theorem cancelsOf_cancelAll {ch : Channel} {who : Canceller UUID} {channels : List Channel} (hnodup : channels.Nodup)
    (hch : ch ∈ channels) : cancelsOf ch (cancelAll who channels : List (Effect UUID)) = {who} := by
  induction channels with
  | nil => cases hch
  | cons c channels ih =>
    obtain ⟨hc, hnodup⟩ := List.nodup_cons.mp hnodup
    have hsplit : ((cancelAll who (c :: channels) : List (Effect UUID)) : Multiset (Effect UUID)) =
        {Effect.cancel c who} + ↑(cancelAll who channels : List (Effect UUID)) := rfl
    rw [hsplit, cancelsOf_add]
    rcases List.mem_cons.mp hch with rfl | hch
    · have hrest : cancelsOf ch ((cancelAll who channels : List (Effect UUID)) : Multiset (Effect UUID)) = 0 := by
        refine cancelsOf_eq_zero (fun who' hmem => hc ?_)
        exact (mem_cancelAll.mp (Multiset.mem_coe.mp hmem)).1
      rw [hrest, add_zero]
      exact Multiset.filterMap_cons_some _ _ 0 (if_pos rfl)
    · have hne : c ≠ ch := fun heq => hc (heq ▸ hch)
      have hfirst : cancelsOf ch {Effect.cancel c who} = 0 := by
        refine cancelsOf_eq_zero (fun who' hmem => hne ?_)
        obtain ⟨heq, _⟩ := Effect.cancel.inj (Multiset.mem_singleton.mp hmem)
        exact heq.symm
      rw [hfirst, ih hnodup hch, zero_add]

namespace AppProxyProvider
variable {s s' : AppProxyProvider UUID}

/-- The effects that have taken place or are still to come. -/
def due (s : AppProxyProvider UUID) : Multiset (Effect UUID) :=
  (s.log.filterMap Event.effect? : List (Effect UUID)) + s.queued

/-- Who has cancelled a channel or is about to. -/
def cancellers (s : AppProxyProvider UUID) (ch : Channel) : Multiset (Canceller UUID) :=
  cancelsOf ch s.due

theorem cancellers_of_due {new : List (Effect UUID)} (h : s'.due = new + s.due) (ch : Channel) :
    s'.cancellers ch = cancelsOf ch new + s.cancellers ch := by
  rw [cancellers, h, cancelsOf_add]
  rfl

theorem cancellers_of_due_of_notMem {new : List (Effect UUID)} (h : s'.due = new + s.due) {ch : Channel}
    (hch : ∀ who, .cancel ch who ∉ new) : s'.cancellers ch = s.cancellers ch := by
  rw [cancellers_of_due h, cancelsOf_eq_zero hch, zero_add]

theorem mem_cancellers_of_did {ch : Channel} {who : Canceller UUID} (h : .did (.cancel ch who) ∈ s.log) :
    who ∈ s.cancellers ch := by
  have hmem : Effect.cancel ch who ∈ s.log.filterMap Event.effect? := List.mem_filterMap.mpr ⟨_, h, rfl⟩
  exact mem_cancelsOf.mpr (Multiset.mem_add.mpr (.inl hmem))

private theorem filterMap_perform (effects : List (Effect UUID)) :
    (effects.map Task.perform).filterMap Task.effect? = effects := by
  induction effects with
  | nil => rfl
  | cons effect effects ih => simp only [List.map_cons, List.filterMap_cons, Task.effect?, ih]

theorem due_spawn_perform (s : AppProxyProvider UUID) (effects : List (Effect UUID)) :
    (s.spawn (effects.map .perform)).due = effects + s.due := by
  simp only [due, queued, spawn, remaining_cons, Multiset.filterMap_add, Multiset.filterMap_coe, filterMap_perform]
  ac_rfl

theorem due_spawn_calls (s : AppProxyProvider UUID) (tasks : List (Task UUID))
    (h : ∀ task ∈ tasks, task.effect? = none) : (s.spawn tasks).due = s.due := by
  simp only [due, queued, spawn, remaining_cons, Multiset.filterMap_add, Multiset.filterMap_coe,
    List.filterMap_eq_nil_iff.mpr h, Multiset.coe_nil, zero_add]

/-- `stopProxy` leaves a section with new effects to come. -/
theorem due_of_stop {stop : StopCall UUID} (h : s.stopCall = stop) (hdone : stop.script = [])
    (hthreads : s'.threads = s.threads) (hlog : s'.log = s.log) : s'.due = s'.stopCall.script + s.due := by
  simp only [due, queued, h, hdone, hthreads, hlog, Multiset.coe_nil, add_zero]
  ac_rfl

/-- An attempt has been made on the connection, and no pending handshake is for it. -/
def Settled (s : AppProxyProvider UUID) (c : Nat) : Prop :=
  (s.connection c).token.isSome ∧ ∀ id p, s.pendingHandshakes.lookup id = some p → p.connection ≠ c

/-- What the handshakes and the associations do not notice. -/
structure Quiet (s s' : AppProxyProvider UUID) : Prop where
  connection : s'.connection = s.connection
  created : s'.created = s.created
  channels : ∀ a, (s'.association a).channels = (s.association a).channels
  clientFlow : ∀ a, (s'.association a).clientFlow = (s.association a).clientFlow
  inserted : s'.inserted = s.inserted
  sessions : s'.sessions = s.sessions
  uuids : s'.uuids = s.uuids
  pendingHandshakes : s'.pendingHandshakes = s.pendingHandshakes
  inserting : s'.inserting = s.inserting
  udpAssociations : s'.udpAssociations = s.udpAssociations
  proxyStopping : s'.proxyStopping = s.proxyStopping
  called : s'.stopCall.called = s.stopCall.called
  sectionsRun : s'.stopCall.sectionsRun = s.stopCall.sectionsRun
  due : s'.due = s.due
  log : s'.log = s.log ∨ ∃ effect, s'.log = .did effect :: s.log

/-- What one step can do. -/
inductive Step (uuid : Nat → UUID) (s : AppProxyProvider UUID) : AppProxyProvider UUID → Prop where
  | quiet {s' : AppProxyProvider UUID} (h : s.Quiet s') : Step uuid s s'
  | created {c identifier : Nat} (udp : Bool) (flow : Nat) (hc : c ∉ s.created)
      (hid : ∀ c' ∈ s.created, (s.connection c').live = true → (s.connection c').identifier ≠ identifier) :
      Step uuid s (s.createTCPConnection c identifier udp flow)
  | armed {c : Nat} (hlive : (s.connection c).live = true) (htoken : (s.connection c).token = none)
      (hgo : s.proxyStopping = false) :
      Step uuid s { s.setConnection c { s.connection c with token := some (uuid s.uuids) } with
        uuids := s.uuids + 1
        pendingHandshakes :=
          s.pendingHandshakes.insert (s.connection c).identifier ⟨uuid s.uuids, (s.connection c).flow, c⟩
        timers := ((s.connection c).identifier, uuid s.uuids) :: s.timers }
  | armRefused {c : Nat} (hlive : (s.connection c).live = true) (htoken : (s.connection c).token = none)
      (hstop : s.proxyStopping = true) :
      Step uuid s ({ s.setConnection c { s.connection c with token := some (uuid s.uuids) } with
        uuids := s.uuids + 1 }.spawn
          ((cancelAll .armRefused [.connection c] ++ closeFlow (s.connection c).flow).map .perform))
  | timedOut {id : Nat} {p : PendingHandshake UUID} (timers : List (ObjectIdentifier × UUID))
      (hp : s.pendingHandshakes.lookup id = some p) :
      Step uuid s ({ s with timers := timers, pendingHandshakes := s.pendingHandshakes.erase id }.spawn
        ((cancelAll (.timer p.token) [.connection p.connection] ++ closeFlow p.flow).map .perform))
  | notPassed {c : Nat} (hlive : (s.connection c).live = true) (hcall : (s.connection c).call ≠ .failed) :
      Step uuid s ((s.completeHandshake c).1.setConnection c { s.connection c with call := .relayed })
  | passed {c : Nat} {p : PendingHandshake UUID} (hlive : (s.connection c).live = true)
      (hcall : (s.connection c).call ≠ .failed)
      (hp : s.pendingHandshakes.lookup (s.connection c).identifier = some p) :
      Step uuid s { (s.completeHandshake c).1.setConnection c { s.connection c with call := .relayed } with
        log := .passed c :: s.log
        inserting := if (s.connection c).udp then c :: s.inserting else s.inserting }
  | closed {c : Nat} (hlive : (s.connection c).live = true) (hudp : (s.connection c).udp = false) :
      Step uuid s (s.closeRelay c)
  | failed {c : Nat} (hlive : (s.connection c).live = true) (hcall : (s.connection c).call = .running) :
      Step uuid s (s.failHandshake c)
  | insertRefused {i c : Nat} (dns : Bool) (hi : s.inserting[i]? = some c) (hstop : s.proxyStopping = true) :
      Step uuid s ({ s with inserting := s.inserting.eraseIdx i, sessions := s.sessions + 2 }.spawn
        ((cancelAll .insertionRefused (s.newAssociation c dns).channels ++ closeFlow (s.connection c).flow).map
          .perform))
  | inserted {i c a : Nat} (dns : Bool) (hi : s.inserting[i]? = some c) (ha : a ∉ s.inserted)
      (hgo : s.proxyStopping = false) :
      Step uuid s ({ s with
        inserting := s.inserting.eraseIdx i
        sessions := s.sessions + 2
        association := Function.update s.association a (s.newAssociation c dns)
        inserted := insert a s.inserted
        udpAssociations := s.udpAssociations.insert (s.connection c).flow a }.spawn
          (((s.udpAssociations.lookup (s.connection c).flow).toList.flatMap fun b =>
            cancelAll .replacement (s.association b).channels).map .perform))
  | tornDown {flow a : Nat} {threads : List (List (Task UUID))} (ha : s.udpAssociations.lookup flow = some a)
      (hdue : { s with threads := threads }.due =
        (cancelAll .teardown (s.association a).channels ++ closeFlow flow : List (Effect UUID)) + s.due) :
      Step uuid s { s with
        threads := threads
        udpAssociations := s.udpAssociations.erase flow
        association := Function.update s.association a { s.association a with isTornDown := true } }
  | stoppedHandshakes {order : List (PendingHandshake UUID)} (hcall : s.stopCall = .notCalled)
      (horder : order.Perm (s.pendingHandshakes.entries.map (·.2))) : Step uuid s (s.stopHandshakes order)
  | stoppedAssociations {order : List Nat} (hcall : s.stopCall = .handshakes [])
      (horder : order.Perm (s.udpAssociations.entries.map (·.2))) : Step uuid s (s.stopAssociations order)
  | released {c : Nat} (hlive : (s.connection c).live = true) (hretained : s.retains c = false) :
      Step uuid s (s.setConnection c { s.connection c with live := false })

/-- Only work that is still to come, clocks and timers have changed. -/
private theorem Quiet.of_work {timers : List (ObjectIdentifier × UUID)} {threads : List (List (Task UUID))}
    {stopCall : StopCall UUID} {systemUptime : Nat} {log : List (Event UUID)}
    (hcalled : stopCall.called = s.stopCall.called) (hrun : stopCall.sectionsRun = s.stopCall.sectionsRun)
    (hdue : { s with
      timers := timers, threads := threads, stopCall := stopCall, systemUptime := systemUptime,
      log := log }.due = s.due)
    (hlog : log = s.log ∨ ∃ effect, log = .did effect :: s.log) :
    s.Quiet { s with
      timers := timers, threads := threads, stopCall := stopCall, systemUptime := systemUptime, log := log } :=
  ⟨rfl, rfl, fun _ => rfl, fun _ => rfl, rfl, rfl, rfl, rfl, rfl, rfl, rfl, hcalled, hrun, hdue, hlog⟩

theorem Quiet.of_spawn_calls (s : AppProxyProvider UUID) (tasks : List (Task UUID))
    (h : ∀ task ∈ tasks, task.effect? = none) : s.Quiet (s.spawn tasks) :=
  .of_work rfl rfl (due_spawn_calls s tasks h) (.inl rfl)

private theorem due_perform {i : Nat} {effect : Effect UUID} {rest : List (Task UUID)}
    (h : s.threads[i]? = some (.perform effect :: rest)) :
    { s with threads := s.threads.set i rest, log := .did effect :: s.log }.due = s.due := by
  have hone : Multiset.filterMap Task.effect? {Task.perform effect} = {effect} := rfl
  have hlog : ((Event.did effect :: s.log).filterMap Event.effect? : Multiset (Effect UUID)) =
      {effect} + (s.log.filterMap Event.effect? : List (Effect UUID)) := rfl
  simp only [due, queued, remaining_resume h, Multiset.filterMap_add, hone, hlog]
  ac_rfl

private theorem due_call {i flow : Nat} {onlyIfIdle : Bool} {expected : Option Nat} {rest : List (Task UUID)}
    (h : s.threads[i]? = some (.teardownUDP flow onlyIfIdle expected :: rest)) (effects : List (Effect UUID)) :
    { s with threads := s.threads.set i (effects.map Task.perform ++ rest) }.due = effects + s.due := by
  have hcall := congrArg (Multiset.filterMap Task.effect?) (remaining_call h (effects.map Task.perform))
  have hnone : Multiset.filterMap Task.effect? {(Task.teardownUDP flow onlyIfIdle expected : Task UUID)} = 0 := rfl
  rw [Multiset.filterMap_add, Multiset.filterMap_add, hnone, add_zero, Multiset.filterMap_coe,
    filterMap_perform] at hcall
  simp only [due, queued, hcall]
  ac_rfl

theorem Step.of_resume (uuid : Nat → UUID) {i : Nat} (h : s.resume i = some s') : Step uuid s s' := by
  simp only [resume] at h
  split at h
  · rename_i effect rest hi
    obtain rfl := Option.some.inj h
    exact .quiet (.of_work rfl rfl (due_perform hi) (.inr ⟨effect, rfl⟩))
  · rename_i flow onlyIfIdle expected rest hi
    have hrefused : s.Quiet { s with
        threads := s.threads.set i (([] : List (Effect UUID)).map Task.perform ++ rest) } :=
      .of_work rfl rfl (due_call hi []) (.inl rfl)
    obtain rfl := Option.some.inj h
    simp only [teardownUDP]
    split
    · exact .quiet hrefused
    · rename_i a ha
      split
      · exact .tornDown ha (due_call hi _)
      · exact .quiet hrefused
  · cases h

theorem Step.of_resumeStop (uuid : Nat → UUID) (h : s.resumeStop = some s') : Step uuid s s' := by
  have hperform : ∀ (effect : Effect UUID) (rest : List (Effect UUID)) (called : StopCall UUID),
      s.stopCall.script = effect :: rest → called.script = rest →
      { s with stopCall := called, log := .did effect :: s.log }.due = s.due := by
    intro effect rest called hscript hrest
    have hlog : ((Event.did effect :: s.log).filterMap Event.effect? : Multiset (Effect UUID)) =
        {effect} + (s.log.filterMap Event.effect? : List (Effect UUID)) := rfl
    simp only [due, queued, hscript, hrest, hlog, ← Multiset.cons_coe, ← Multiset.singleton_add]
    ac_rfl
  simp only [resumeStop] at h
  split at h
  · rename_i effect rest hcall
    obtain rfl := Option.some.inj h
    have hscript : s.stopCall.script = effect :: rest := congrArg StopCall.script hcall
    exact .quiet (.of_work (congrArg StopCall.called hcall).symm (congrArg StopCall.sectionsRun hcall).symm
      (hperform effect rest _ hscript rfl) (.inr ⟨effect, rfl⟩))
  · rename_i effect rest hcall
    obtain rfl := Option.some.inj h
    have hscript : s.stopCall.script = effect :: rest := congrArg StopCall.script hcall
    exact .quiet (.of_work (congrArg StopCall.called hcall).symm (congrArg StopCall.sectionsRun hcall).symm
      (hperform effect rest _ hscript rfl) (.inr ⟨effect, rfl⟩))
  · cases h

private theorem Quiet.of_timers (s : AppProxyProvider UUID) (timers : List (ObjectIdentifier × UUID)) :
    s.Quiet { s with timers := timers } :=
  .of_work rfl rfl rfl (.inl rfl)

/-- An object of a heap is changed in a way that `f` does not see. -/
theorem apply_update_same {α β : Type} {heap : Nat → α} {a : Nat} {new : α} (f : α → β) (h : f new = f (heap a))
    (b : Nat) : f (Function.update heap a new b) = f (heap b) := by
  by_cases hb : b = a
  · rw [hb, Function.update_self, h]
  · rw [Function.update_of_ne hb]

private theorem Quiet.of_touch (s : AppProxyProvider UUID) (a : Nat) :
    s.Quiet { s with
      association := Function.update s.association a { s.association a with lastActivity := s.systemUptime } } :=
  ⟨rfl, rfl, apply_update_same UDPAssociation.channels rfl, apply_update_same UDPAssociation.clientFlow rfl, rfl, rfl,
    rfl, rfl, rfl, rfl, rfl, rfl, rfl, rfl, .inl rfl⟩

theorem Step.of_handshakeTimer [DecidableEq UUID] (uuid : Nat → UUID) (s : AppProxyProvider UUID)
    (timers : List (ObjectIdentifier × UUID)) (id : ObjectIdentifier) (token : UUID) :
    Step uuid s ({ s with timers := timers }.handshakeTimer id token) := by
  simp only [handshakeTimer]
  split
  · exact .quiet (Quiet.of_timers s timers)
  · rename_i p hp
    split
    · rename_i htoken
      subst htoken
      exact .timedOut timers hp
    · exact .quiet (Quiet.of_timers s timers)

private theorem notPassed_or_passed {c : Nat} (h : (s.completeHandshake c).2 = true) :
    ∃ p, s.pendingHandshakes.lookup (s.connection c).identifier = some p := by
  obtain ⟨hsome, _⟩ := Bool.and_eq_true_iff.mp h
  exact Option.isSome_iff_exists.mp hsome

theorem step_cases [DecidableEq UUID] {uuid : Nat → UUID} {a : Action UUID} (h : s.step uuid a = some s') :
    Step uuid s s' := by
  cases a with
  | createTCPConnection c identifier udp flow =>
    obtain ⟨⟨hc, hid⟩, h⟩ := Option.ite_none_right_eq_some.mp h
    exact Option.some.inj h ▸ .created udp flow hc hid
  | armHandshakeTimeout c =>
    obtain ⟨⟨hlive, htoken⟩, h⟩ := Option.ite_none_right_eq_some.mp h
    obtain rfl := Option.some.inj h
    have hnone := Option.isNone_iff_eq_none.mp htoken
    simp only [armHandshakeTimeout]
    split
    · rename_i hstop
      exact .armRefused hlive hnone hstop
    · rename_i hgo
      exact .armed hlive hnone (Bool.eq_false_of_not_eq_true hgo)
  | handshakeTimer i =>
    simp only [step] at h
    split at h
    · exact Option.some.inj h ▸ .of_handshakeTimer uuid s _ _ _
    · cases h
  | relayData c =>
    obtain ⟨⟨hlive, hudp, hcall⟩, h⟩ := Option.ite_none_right_eq_some.mp h
    obtain rfl := Option.some.inj h
    simp only [relayData, finishHandshake]
    split
    · rename_i hpassed
      obtain ⟨p, hp⟩ := notPassed_or_passed hpassed
      have hstep : Step uuid s _ := .passed hlive hcall hp
      rwa [hudp] at hstep
    · exact .notPassed hlive hcall
  | relayUDPThroughSOCKS5 c =>
    obtain ⟨⟨hlive, hudp, hcall⟩, h⟩ := Option.ite_none_right_eq_some.mp h
    obtain rfl := Option.some.inj h
    simp only [relayUDPThroughSOCKS5, finishHandshake]
    split
    · rename_i hpassed
      obtain ⟨p, hp⟩ := notPassed_or_passed hpassed
      have hstep : Step uuid s _ := .passed hlive hcall hp
      rwa [hudp] at hstep
    · exact .notPassed hlive hcall
  | insertAssociation i a dns =>
    simp only [step] at h
    split at h
    · rename_i c hi
      obtain ⟨ha, h⟩ := Option.ite_none_right_eq_some.mp h
      obtain rfl := Option.some.inj h
      simp only [insertAssociation]
      split
      · rename_i hstop
        exact .insertRefused dns hi hstop
      · rename_i hgo
        exact .inserted dns hi ha (Bool.eq_false_of_not_eq_true hgo)
    · cases h
  | closeRelay c =>
    obtain ⟨⟨hlive, hudp⟩, h⟩ := Option.ite_none_right_eq_some.mp h
    exact Option.some.inj h ▸ .closed hlive hudp
  | failHandshake c =>
    obtain ⟨⟨hlive, hcall⟩, h⟩ := Option.ite_none_right_eq_some.mp h
    exact Option.some.inj h ▸ .failed hlive hcall
  | teardownUDP flow onlyIfIdle expected =>
    refine Option.some.inj h ▸ .quiet (Quiet.of_spawn_calls s _ (fun task htask => ?_))
    obtain rfl := List.mem_singleton.mp htask
    rfl
  | sweep order =>
    obtain ⟨_, h⟩ := Option.ite_none_right_eq_some.mp h
    refine Option.some.inj h ▸ .quiet (Quiet.of_spawn_calls s _ (fun task htask => ?_))
    obtain ⟨flow, _, rfl⟩ := List.mem_map.mp htask
    rfl
  | stopHandshakes order =>
    simp only [step] at h
    split at h
    · rename_i hcall
      obtain ⟨horder, h⟩ := Option.ite_none_right_eq_some.mp h
      exact Option.some.inj h ▸ .stoppedHandshakes hcall horder
    · cases h
  | stopAssociations order =>
    simp only [step] at h
    split at h
    · rename_i hcall
      obtain ⟨horder, h⟩ := Option.ite_none_right_eq_some.mp h
      exact Option.some.inj h ▸ .stoppedAssociations hcall horder
    · cases h
  | resume i => exact .of_resume uuid h
  | resumeStop => exact .of_resumeStop uuid h
  | touch a => exact Option.some.inj h ▸ .quiet (Quiet.of_touch s a)
  | clock systemUptime =>
    obtain ⟨_, h⟩ := Option.ite_none_right_eq_some.mp h
    exact Option.some.inj h ▸ .quiet (.of_work rfl rfl rfl (.inl rfl))
  | release c =>
    obtain ⟨⟨hlive, hretained⟩, h⟩ := Option.ite_none_right_eq_some.mp h
    exact Option.some.inj h ▸ .released hlive hretained

end AppProxyProvider
end ProxyBridge.MacOS
