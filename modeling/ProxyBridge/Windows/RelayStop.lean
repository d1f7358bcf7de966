import ProxyBridge.Windows.RelayPairs

/-! What a stop does to the blocking relay. `running` is cleared and the event set before the list is walked,
so a pair is either in the list for the walk or is refused by `register_relay_pair`; after the walk every call
has only a few steps left. -/
namespace ProxyBridge.Windows
open Runs

namespace Transfer

/-- Both sockets are shut down. -/
def Shut (t : Transfer) : Prop := ∀ s, (t.socket s).shut = true

variable {t : Transfer} {side : RelaySide} {admits signalled : Bool} {input : RelayInput} {r : Transfer × ListOp}

private theorem shutdown_shut (t : Transfer) (s s' : RelaySocket) :
    ((t.shutdown s).socket s').shut = ((t.socket s').shut || decide (s' = s)) := by
  by_cases hs : s' = s
  · subst hs
    simp [shutdown]
  · simp [shutdown, hs]

private theorem closesocket_shut (t : Transfer) (s s' : RelaySocket) :
    ((t.closesocket s).socket s').shut = (t.socket s').shut := by
  by_cases hs : s' = s
  · subst hs
    simp [closesocket]
  · simp [closesocket, hs]

/-- Sockets stay shut down. -/
private theorem Shut.wayStep (h : t.Shut) (hs : WayStep t side signalled input r) : r.1.Shut := by
  intro s
  cases hs with
  | broken hpc =>
    exact (shutdown_shut t.deref .client s).trans (by rw [show (t.deref.socket s).shut = true from h s]; rfl)
  | abortProxy hpc =>
    exact (shutdown_shut t.deref .proxy s).trans (by rw [show (t.deref.socket s).shut = true from h s]; rfl)
  | closeClient hpc => exact (closesocket_shut t.deref .client s).trans (h s)
  | closeProxy hpc => exact (closesocket_shut t.deref .proxy s).trans (h s)
  | _ => exact h s

private theorem Shut.handlerStep (h : t.Shut) (hs : t.handlerStep admits signalled input = some r) : r.1.Shut := by
  unfold Transfer.handlerStep at hs
  split at hs
  case h_3 | h_4 | h_5 | h_6 =>
    obtain rfl := Option.some.inj hs
    split <;> exact h
  case h_7 =>
    split at hs
    · split at hs
      · exact Option.some.inj hs ▸ h
      · cases hs
    · exact h.wayStep (wayStep_cases hs)
  case h_8 =>
    split at hs
    · exact Option.some.inj hs ▸ h
    · cases hs
  case h_11 | h_12 =>
    obtain rfl := Option.some.inj hs
    exact fun s => (closesocket_shut t _ s).trans (h s)
  case h_13 => cases hs
  all_goals exact Option.some.inj hs ▸ h

/-- A walk comes to the pair. -/
private theorem shut_shutdownPair (t : Transfer) : ((t.deref.shutdown .client).shutdown .proxy).Shut := by
  intro s
  rw [shutdown_shut, shutdown_shut]
  cases s <;> simp

private theorem unregister_ne_push (t : Transfer) : t.unregisterRelayPair.2 ≠ .push := by
  unfold unregisterRelayPair
  dsimp only
  split <;> nofun

/-- A pair is put on the list only if the test lets it. -/
private theorem admits_of_push (hs : t.handlerStep admits signalled input = some r) (hop : r.2 = .push) :
    admits = true := by
  unfold Transfer.handlerStep at hs
  split at hs
  case h_4 =>
    obtain rfl := Option.some.inj hs
    cases admits with
    | true => rfl
    | false => cases hop
  case h_7 =>
    split at hs
    · split at hs
      · obtain rfl := Option.some.inj hs
        cases hop
      · cases hs
    · cases wayStep_cases hs with
      | unregister hpc => exact (unregister_ne_push t hop).elim
      | _ => cases hop
  case h_8 =>
    split at hs
    · obtain rfl := Option.some.inj hs
      cases hop
    · cases hs
  case h_9 =>
    obtain rfl := Option.some.inj hs
    exact (unregister_ne_push t hop).elim
  case h_13 => cases hs
  all_goals obtain rfl := Option.some.inj hs; cases hop

private theorem wayStep_ne_push (hs : WayStep t side signalled input r) : r.2 ≠ .push := by
  cases hs with
  | unregister hpc => exact unregister_ne_push t
  | _ => nofun

end Transfer

namespace Relays
variable {s s' : Relays} {i : Nat}

/-- A stopping walk has come to every pair of the list or has it before it. -/
def WalksStop (s : Relays) : Prop :=
  ∀ w ∈ s.walks, w.stopping = true → s.admits = false ∧ ∀ i ∈ s.activeRelayPairs, i ∈ w.rest ∨ (s.transfer i).Shut

/-- The state after a stopping walk: no pair can be registered, the threads are told to end, and the sockets of
every pair are shut down. -/
structure Drained (s : Relays) : Prop where
  refuses : s.admits = false
  signalled : s.signalled = true
  shut : ∀ i ∈ s.activeRelayPairs, (s.transfer i).Shut

/-- What a thread of a call does to the list. -/
private theorem apply_cases {r : Transfer × ListOp} (hs : s.apply i r = some s') :
    s'.running = s.running ∧ s'.shutdownEvent = s.shutdownEvent ∧ s'.walks = s.walks ∧
      s'.transfer = Function.update s.transfer i r.1 ∧ (r.2 = .unlocked ∨ s.walks = []) ∧
      (r.2 ≠ .push → s'.activeRelayPairs ⊆ s.activeRelayPairs) ∧
        (r.2 = .unlocked → s'.activeRelayPairs = s.activeRelayPairs) := by
  unfold Relays.apply at hs
  split at hs
  · cases hs
  rename_i hlock
  obtain rfl := Option.some.inj hs
  obtain ⟨t, op⟩ := r
  refine ⟨rfl, rfl, rfl, rfl, ?_, fun hop => ?_, fun hop => ?_⟩
  · by_cases hop : op = .unlocked
    · exact .inl hop
    · exact .inr (by_contra fun hw => hlock ⟨hop, hw⟩)
  · cases op with
    | unlocked | look => exact List.Subset.refl _
    | push => exact (hop rfl).elim
    | unlink => exact List.erase_subset
  · cases hop
    rfl

private theorem shut_update {t : Transfer} {active : List Nat} (h : ∀ j ∈ active, (s.transfer j).Shut)
    (ht : (s.transfer i).Shut → t.Shut) : ∀ j ∈ active, (Function.update s.transfer i t j).Shut := by
  intro j hj
  by_cases hji : j = i
  · subst hji
    rw [Function.update_self]
    exact ht (h j hj)
  · rw [Function.update_of_ne hji]
    exact h j hj

private theorem Drained.apply (h : s.Drained) {r : Transfer × ListOp} (hpush : r.2 ≠ .push)
    (hshut : (s.transfer i).Shut → r.1.Shut) (hs : s.apply i r = some s') : s'.Drained := by
  obtain ⟨hrun, hevent, -, htransfer, -, hsub, -⟩ := apply_cases hs
  refine ⟨?_, ?_, fun j hj => ?_⟩
  · rw [admits, hrun, hevent]
    exact h.refuses
  · rw [Relays.signalled, hevent]
    exact h.signalled
  · rw [htransfer]
    exact shut_update h.shut hshut j (hsub hpush hj)

theorem Drained.step {a : RelaysAction} (h : s.Drained) (hs : s.step a = some s') : s'.Drained := by
  have hevent : s.shutdownEvent.isSome = true ∧ s.running = false := by
    have hrefuses := h.refuses
    rw [admits] at hrefuses
    simpa [Option.isSome_iff_ne_none] using hrefuses
  cases a with
  | handler i input =>
    obtain ⟨r, hr, hs⟩ := Option.bind_eq_some_iff.mp hs
    refine h.apply (fun hop => ?_) (fun ht => ht.handlerStep hr) hs
    have hadmits := Transfer.admits_of_push hr hop
    rw [h.refuses] at hadmits
    cases hadmits
  | upload i input =>
    obtain ⟨r, hr, hs⟩ := Option.bind_eq_some_iff.mp hs
    exact h.apply (Transfer.wayStep_ne_push (Transfer.wayStep_cases hr))
      (fun ht => ht.wayStep (Transfer.wayStep_cases hr)) hs
  | clearRunning =>
    obtain rfl := Option.some.inj hs
    exact ⟨by simpa [admits] using hevent.1, h.signalled, h.shut⟩
  | setEvent =>
    obtain ⟨b, hb, rfl⟩ := Option.map_eq_some_iff.mp hs
    exact ⟨by simpa [admits] using hevent.2, rfl, h.shut⟩
  | walk =>
    obtain rfl := Option.some.inj hs
    exact ⟨h.refuses, h.signalled, h.shut⟩
  | shutdownPair k =>
    simp only [Relays.step] at hs
    split at hs
    · obtain rfl := Option.some.inj hs
      exact ⟨h.refuses, h.signalled, shut_update h.shut (fun _ => Transfer.shut_shutdownPair _)⟩
    · cases hs
  | endWalk k =>
    simp only [Relays.step] at hs
    split at hs
    · obtain rfl := Option.some.inj hs
      exact ⟨h.refuses, h.signalled, h.shut⟩
    · cases hs

private theorem WalksStop.apply (h : s.WalksStop) {r : Transfer × ListOp} (hshut : (s.transfer i).Shut → r.1.Shut)
    (hs : s.apply i r = some s') : s'.WalksStop := by
  obtain ⟨hrun, hevent, hwalks, htransfer, hlock, -, hsame⟩ := apply_cases hs
  intro w hw hstop
  rw [hwalks] at hw
  have hunlocked : r.2 = .unlocked := by
    rcases hlock with hop | hnone
    · exact hop
    · rw [hnone] at hw
      cases hw
  obtain ⟨hrefuses, hlist⟩ := h w hw hstop
  refine ⟨?_, fun j hj => ?_⟩
  · rw [admits, hrun, hevent]
    exact hrefuses
  · rw [hsame hunlocked] at hj
    refine (hlist j hj).imp_right (fun ht => ?_)
    rw [htransfer]
    by_cases hji : j = i
    · subst hji
      rw [Function.update_self]
      exact hshut ht
    · rw [Function.update_of_ne hji]
      exact ht

theorem WalksStop.step {a : RelaysAction} (h : s.WalksStop) (hs : s.step a = some s') : s'.WalksStop := by
  have hrefuse : s.admits = false → s.shutdownEvent.isSome = true ∧ s.running = false := by
    intro hrefuses
    rw [admits] at hrefuses
    simpa [Option.isSome_iff_ne_none] using hrefuses
  cases a with
  | handler i input =>
    obtain ⟨r, hr, hs⟩ := Option.bind_eq_some_iff.mp hs
    exact h.apply (fun ht => ht.handlerStep hr) hs
  | upload i input =>
    obtain ⟨r, hr, hs⟩ := Option.bind_eq_some_iff.mp hs
    exact h.apply (fun ht => ht.wayStep (Transfer.wayStep_cases hr)) hs
  | clearRunning =>
    obtain rfl := Option.some.inj hs
    intro w hw hstop
    obtain ⟨hrefuses, hlist⟩ := h w hw hstop
    exact ⟨by simpa [admits] using (hrefuse hrefuses).1, hlist⟩
  | setEvent =>
    obtain ⟨b, -, rfl⟩ := Option.map_eq_some_iff.mp hs
    intro w hw hstop
    obtain ⟨hrefuses, hlist⟩ := h w hw hstop
    exact ⟨by simpa [admits] using (hrefuse hrefuses).2, hlist⟩
  | walk =>
    obtain rfl := Option.some.inj hs
    intro w hw hstop
    rcases List.mem_cons.mp hw with rfl | hw
    · exact ⟨(Bool.not_eq_true' _).mp hstop, fun j hj => .inl hj⟩
    · exact h w hw hstop
  | shutdownPair k =>
    simp only [Relays.step] at hs
    split at hs
    · rename_i i rest stopping hk
      obtain rfl := Option.some.inj hs
      have hshut : ∀ j, (s.transfer j).Shut → (Function.update s.transfer i
          (((s.transfer i).deref.shutdown .client).shutdown .proxy) j).Shut := by
        intro j ht
        by_cases hji : j = i
        · subst hji
          rw [Function.update_self]
          exact Transfer.shut_shutdownPair _
        · rw [Function.update_of_ne hji]
          exact ht
      intro w hw hstop
      rcases List.mem_or_eq_of_mem_set hw with hw | rfl
      · obtain ⟨hrefuses, hlist⟩ := h w hw hstop
        exact ⟨hrefuses, fun j hj => (hlist j hj).imp_right (hshut j)⟩
      · obtain ⟨hrefuses, hlist⟩ := h _ (List.mem_of_getElem? hk) hstop
        refine ⟨hrefuses, fun j hj => ?_⟩
        rcases hlist j hj with hmem | ht
        · rcases List.mem_cons.mp hmem with rfl | hmem
          · right
            dsimp only
            rw [Function.update_self]
            exact Transfer.shut_shutdownPair _
          · exact .inl hmem
        · exact .inr (hshut j ht)
    · cases hs
  | endWalk k =>
    simp only [Relays.step] at hs
    split at hs
    · obtain rfl := Option.some.inj hs
      exact fun w hw => h w (List.mem_of_mem_eraseIdx hw)
    · cases hs

/-- A stopping walk that has nothing before it has drained the relays. -/
theorem WalksStop.drained (h : s.WalksStop) (hsignalled : s.signalled = true) (hw : ⟨[], true⟩ ∈ s.walks) :
    s.Drained := by
  obtain ⟨hrefuses, hlist⟩ := h _ hw rfl
  exact ⟨hrefuses, hsignalled, fun i hi => (hlist i hi).resolve_left List.not_mem_nil⟩

end Relays

/-! The steps that are left. -/

def WayPc.rank : WayPc → Nat
  | .idle | .done => 0
  | .freePair => 1
  | .closeProxy => 2
  | .closeClient => 3
  | .unregister => 4
  | .drop => 5
  | .abortProxy => 6
  | .finish _ => 7
  | .loop | .recv | .send _ => 8
  | .select | .start => 9

def HandlerPc.rank : HandlerPc → Nat
  | .pooled | .done => 0
  | .closeProxy | .join => 1
  | .closeClient | .download => 2
  | .freePair => 3
  | .unregister => 4
  | .createThread => 21
  | .allocConfigs => 22
  | .register => 23
  | .allocPair => 24
  | .relayStart => 25
  | .idle => 26

namespace Transfer
variable {t : Transfer} {side : RelaySide} {admits signalled : Bool} {input : RelayInput} {r : Transfer × ListOp}

/-- A bound on the steps that the threads of the call can still take once the relays are drained. -/
def rank (t : Transfer) : Nat := t.handler.rank + (t.way .upload).pc.rank + (t.way .download).pc.rank

/-- Told to end and with both sockets shut down, a thread leaves its loop. -/
private theorem advance_rank {w w' : OneWay} {source target : SocketUse} (hsource : source.shut = true)
    (htarget : target.shut = true) (hs : w.advance true source target w.pc input = some w') :
    w'.pc.rank < w.pc.rank := by
  obtain ⟨pc, len, received, sent, ended⟩ := w
  simp only [OneWay.advance] at hs
  split at hs
  · obtain rfl := Option.some.inj hs
    simp [WayPc.rank]
  · obtain rfl := Option.some.inj hs
    dsimp only
    split
    · simp [WayPc.rank]
    · split <;> simp [WayPc.rank]
  · split at hs
    · rename_i hdata
      obtain rfl := hdata.2 hsource
      obtain rfl := Option.some.inj hs
      simp [WayPc.rank]
    · cases hs
  · split at hs
    · rename_i hsent
      rw [htarget] at hsent
      cases hsent.2.2
    · cases hs
  · obtain rfl := Option.some.inj hs
    simp [WayPc.rank]
  · obtain rfl := Option.some.inj hs
    simp [WayPc.rank]
  · cases hs

/-- A step brings the thread nearer to its end. -/
private theorem wayStep_rank (hs : WayStep t side true input r) (hshut : (t.way side).pc.copying = true → t.Shut) :
    (r.1.way side).pc.rank < (t.way side).pc.rank := by
  cases hs with
  | start buf hpc =>
    rw [hpc]
    show (Function.update t.way side ((t.way side).begin buf) side).pc.rank < _
    rw [Function.update_self]
    cases buf <;> simp [OneWay.begin, WayPc.rank]
  | copy w hpc hw =>
    show (Function.update t.way side w side).pc.rank < _
    rw [Function.update_self]
    exact advance_rank (hshut hpc _) (hshut hpc _) hw
  | drop hpc =>
    rw [hpc]
    unfold dropRef setPc setWay
    dsimp only
    rw [Function.update_self]
    dsimp only
    split <;> simp [WayPc.rank]
  | clean hpc | broken hpc =>
    rw [hpc]
    show (Function.update t.way side _ side).pc.rank < _
    rw [Function.update_self]
    simp [WayPc.rank]
  | abortProxy hpc | unregister hpc | closeClient hpc | closeProxy hpc | freePair hpc =>
    rw [hpc]
    show (Function.update t.way side _ side).pc.rank < _
    rw [Function.update_self]
    simp [WayPc.rank]

private theorem rank_way (hs : WayStep t side true input r) (hshut : (t.way side).pc.copying = true → t.Shut) :
    r.1.rank < t.rank := by
  have hless := wayStep_rank hs hshut
  obtain ⟨hother, hhandler, -, -⟩ := hs.frame
  unfold rank
  rw [hhandler]
  cases side with
  | upload =>
    rw [show r.1.way .download = t.way .download from hother]
    omega
  | download =>
    rw [show r.1.way .upload = t.way .upload from hother]
    omega

/-- A step of the thread of `transfer_handler` that is refused by the list. -/
private theorem rank_handler (hs : t.handlerStep false true input = some r)
    (hshut : ∀ side, (t.way side).pc.copying = true → t.Shut) : r.1.rank < t.rank := by
  unfold Transfer.handlerStep at hs
  split at hs
  case h_7 =>
    rename_i hh
    split at hs
    · split at hs
      · obtain rfl := Option.some.inj hs
        simp only [rank, hh, HandlerPc.rank]
        omega
      · cases hs
    · exact rank_way (wayStep_cases hs) (hshut .download)
  case h_8 =>
    rename_i hh
    split at hs
    · obtain rfl := Option.some.inj hs
      simp only [rank, hh, HandlerPc.rank]
      omega
    · cases hs
  case h_13 => cases hs
  all_goals
    rename_i hh
    obtain rfl := Option.some.inj hs
  case h_2 | h_3 | h_5 | h_6 =>
    split
    all_goals
      simp only [rank, hh, HandlerPc.rank, WayPc.rank]
      omega
  all_goals
    simp only [rank, hh, HandlerPc.rank, Bool.false_eq_true, if_false, unregisterRelayPair, freePair, closesocket, use,
      deref]
    omega

private theorem way_rank_le (pc : WayPc) : pc.rank ≤ 9 := by
  cases pc <;> simp [WayPc.rank]

theorem rank_le (h : t.Orderly) : t.rank ≤ 26 := by
  have hthreads := h.threads
  have hup := way_rank_le (t.way .upload).pc
  have hdn := way_rank_le (t.way .download).pc
  unfold rank
  cases hh : t.handler with
  | download | join | done => simp only [HandlerPc.rank]; omega
  | _ =>
    rw [hh] at hthreads
    rw [hthreads .upload, hthreads .download]
    simp [HandlerPc.rank, WayPc.rank]

/-- A thread that is not done goes on as soon as its call returns. -/
private theorem way_enabled (hidle : (t.way side).pc ≠ .idle) (hdone : (t.way side).pc ≠ .done) :
    ∃ input, (t.wayStep side signalled input).isSome = true := by
  cases hpc : (t.way side).pc with
  | idle => exact (hidle hpc).elim
  | done => exact (hdone hpc).elim
  | start => exact ⟨.ok true, by simp [wayStep, hpc]⟩
  | loop => exact ⟨.go, by simp [wayStep, hpc, OneWay.advance]⟩
  | select => exact ⟨.ready 1, by simp [wayStep, hpc, OneWay.advance]⟩
  | recv => exact ⟨.received [], by simp [wayStep, hpc, OneWay.advance]⟩
  | send rest => exact ⟨.failed, by simp [wayStep, hpc, OneWay.advance]⟩
  | finish clean => cases clean <;> exact ⟨.go, by simp [wayStep, hpc]⟩
  | _ => exact ⟨.go, by simp [wayStep, hpc]⟩

private theorem handler_enabled (h : t.Orderly) (hidle : t.handler ≠ .idle) (hpooled : t.handler ≠ .pooled)
    (hdone : t.handler ≠ .done) :
    (∃ input, (t.handlerStep admits signalled input).isSome = true) ∨
      ∃ input, (t.wayStep .upload signalled input).isSome = true := by
  have hthreads := h.threads
  cases hh : t.handler with
  | idle => exact (hidle hh).elim
  | pooled => exact (hpooled hh).elim
  | done => exact (hdone hh).elim
  | relayStart | allocPair | createThread => exact .inl ⟨.ok true, by simp [handlerStep, hh]⟩
  | allocConfigs => exact .inl ⟨.both true true, by simp [handlerStep, hh]⟩
  | download =>
    rw [hh] at hthreads
    by_cases hdn : (t.way .download).pc = .done
    · exact .inl ⟨.go, by simp [handlerStep, hh, hdn]⟩
    · obtain ⟨input, hs⟩ : ∃ input, (t.wayStep .download signalled input).isSome = true :=
        way_enabled (hthreads.started .download) hdn
      exact .inl ⟨input, by simpa [handlerStep, hh, hdn] using hs⟩
  | join =>
    rw [hh] at hthreads
    by_cases hup : (t.way .upload).pc = .done
    · exact .inl ⟨.go, by simp [handlerStep, hh, hup]⟩
    · exact .inr (way_enabled (hthreads.1.started .upload) hup)
  | _ => exact .inl ⟨.go, by simp [handlerStep, hh]⟩

end Transfer

/-- An action of a thread of call `i`. -/
def RelaysAction.isOf (i : Nat) : RelaysAction → Bool
  | .handler j _ | .upload j _ => j == i
  | _ => false

namespace Relays
variable {s s' : Relays} {i : Nat}

private theorem apply_enabled (hwalks : s.walks = []) (r : Transfer × ListOp) : (s.apply i r).isSome = true := by
  simp [Relays.apply, hwalks]

/-- When no walk holds the lock, a call that is not over can go on. -/
private theorem enabled (h : Inv s) (hwalks : s.walks = []) (hidle : (s.transfer i).handler ≠ .idle)
    (hpooled : (s.transfer i).handler ≠ .pooled) (hdone : (s.transfer i).handler ≠ .done) :
    ∃ a : RelaysAction, a.isOf i = true ∧ (s.step a).isSome = true := by
  have hgo : (∃ input, ((s.transfer i).handlerStep s.admits s.signalled input).isSome = true) ∨
      ∃ input, ((s.transfer i).wayStep .upload s.signalled input).isSome = true :=
    Transfer.handler_enabled (h.orderly i) hidle hpooled hdone
  obtain ⟨input, hs⟩ | ⟨input, hs⟩ := hgo
  · obtain ⟨r, hr⟩ := Option.isSome_iff_exists.mp hs
    exact ⟨.handler i input, beq_self_eq_true i, by simp [Relays.step, hr, apply_enabled hwalks]⟩
  · obtain ⟨r, hr⟩ := Option.isSome_iff_exists.mp hs
    exact ⟨.upload i input, beq_self_eq_true i, by simp [Relays.step, hr, apply_enabled hwalks]⟩

/-- A step of a thread of the call brings it nearer to its end, and no other step takes it away from it. -/
private theorem Drained.rank_step {a : RelaysAction} (h : s.Drained) (hinv : Inv s) (hs : s.step a = some s') :
    (if a.isOf i then 1 else 0) + (s'.transfer i).rank ≤ (s.transfer i).rank := by
  have hshut : ∀ j side, ((s.transfer j).way side).pc.copying = true → (s.transfer j).Shut :=
    fun j side hpc => h.shut j ((hinv.listed j).mpr ((hinv.orderly j).linked_of_copying hpc))
  have happly : ∀ {j : Nat} {r : Transfer × ListOp}, r.1.rank < (s.transfer j).rank → s.apply j r = some s' →
      (if j == i then 1 else 0) + (s'.transfer i).rank ≤ (s.transfer i).rank := by
    intro j r hless hs
    obtain ⟨-, -, -, htransfer, -⟩ := apply_cases hs
    rw [htransfer]
    by_cases hji : j = i
    · subst hji
      rw [Function.update_self, beq_self_eq_true, if_pos rfl]
      omega
    · refine Nat.le_of_eq ?_
      rw [Function.update_of_ne (Ne.symm hji), beq_eq_false_iff_ne.mpr hji, if_neg Bool.false_ne_true, Nat.zero_add]
  cases a with
  | handler j input =>
    obtain ⟨r, hr, hs⟩ := Option.bind_eq_some_iff.mp hs
    rw [h.refuses, h.signalled] at hr
    exact happly (Transfer.rank_handler hr (hshut j)) hs
  | upload j input =>
    obtain ⟨r, hr, hs⟩ := Option.bind_eq_some_iff.mp hs
    rw [h.signalled] at hr
    exact happly (Transfer.rank_way (Transfer.wayStep_cases hr) (hshut j .upload)) hs
  | shutdownPair k =>
    simp only [Relays.step] at hs
    split at hs
    · rename_i j _ _ _
      obtain rfl := Option.some.inj hs
      simp only [RelaysAction.isOf, Bool.false_eq_true, if_false, Nat.zero_add]
      by_cases hji : i = j
      · subst hji
        exact Nat.le_of_eq (by rw [Function.update_self]; rfl)
      · exact Nat.le_of_eq (by rw [Function.update_of_ne hji])
    · cases hs
  | setEvent =>
    obtain ⟨b, -, rfl⟩ := Option.map_eq_some_iff.mp hs
    exact Nat.le_of_eq (Nat.zero_add _)
  | endWalk k =>
    simp only [Relays.step] at hs
    split at hs
    · obtain rfl := Option.some.inj hs
      exact Nat.le_of_eq (Nat.zero_add _)
    · cases hs
  | clearRunning | walk =>
    obtain rfl := Option.some.inj hs
    exact Nat.le_of_eq (Nat.zero_add _)

private theorem Drained.rank_run {acts : List RelaysAction} (h : s.Drained) (hinv : Inv s)
    (hs : exec Relays.step (fun _ _ => True) s acts = some s') :
    s'.Drained ∧ Inv s' ∧ acts.countP (·.isOf i) + (s'.transfer i).rank ≤ (s.transfer i).rank := by
  induction acts generalizing s with
  | nil =>
    obtain rfl : s = s' := Option.some.inj hs
    exact ⟨h, hinv, Nat.le_of_eq (Nat.zero_add _)⟩
  | cons a acts ih =>
    rw [exec, if_pos trivial] at hs
    obtain ⟨m, hm, hs⟩ := Option.bind_eq_some_iff.mp hs
    obtain ⟨hd, hi, hle⟩ := ih (h.step hm) (hinv.step hm) hs
    have hfirst := h.rank_step hinv (i := i) hm
    refine ⟨hd, hi, ?_⟩
    rw [List.countP_cons]
    omega

/-- Once a walk that began after `running` was cleared has come to the end of the list, no thread of the
blocking relay keeps a stop waiting: whatever the order of steps, a call takes at most 26 more, and between the
walks it can take one until it is over. -/
theorem stop_drains_relays {shutdownEvent : Option Bool} {acts : List RelaysAction}
    (h : Reach step (fun _ _ => True) (init shutdownEvent) s) (hsignalled : s.signalled = true)
    (hwalk : ⟨[], true⟩ ∈ s.walks) (hrun : exec step (fun _ _ => True) s acts = some s') (i : Nat) :
    acts.countP (·.isOf i) ≤ 26 ∧ (i ∈ s'.activeRelayPairs → (s'.transfer i).Shut) ∧
      (s'.walks = [] → (s'.transfer i).handler ≠ .idle → (s'.transfer i).handler ≠ .pooled →
        (s'.transfer i).handler ≠ .done → ∃ a : RelaysAction, a.isOf i = true ∧ (s'.step a).isSome = true) := by
  have hinv := (inv_init shutdownEvent).reach h
  have hstop : s.WalksStop := h.invariant (fun _ hw => by cases hw) (fun _ _ _ hi _ hs => hi.step hs)
  obtain ⟨hd, hi, hle⟩ := (hstop.drained hsignalled hwalk).rank_run hinv (i := i) hrun
  have hbound := Transfer.rank_le (hinv.orderly i)
  exact ⟨by omega, hd.shut i, fun hwalks => enabled hi hwalks⟩

/-- A stop while the upload has bytes to send. -/
theorem stop_drains_relays_sending :
    ∃ s s' acts, Reach step (fun _ _ => True) (init (some false)) s ∧ exec step (fun _ _ => True) s acts = some s' ∧
      (s'.transfer 0).handler = .done ∧ acts.countP (·.isOf 0) ≤ 26 := by
  obtain ⟨s, hr, ht⟩ := exists_reach_of_exec step (fun _ _ => True) (init (some false))
    [.handler 0 .go, .handler 0 (.ok false), .handler 0 (.ok true), .handler 0 .go, .handler 0 (.both true true),
      .handler 0 (.ok true), .upload 0 (.ok true), .upload 0 .go, .upload 0 (.ready 1), .upload 0 (.received [1, 2]),
      .handler 0 (.ok false), .clearRunning, .setEvent, .walk, .shutdownPair 0]
    (fun s => s.signalled && s.walks.any (fun w => w.rest.isEmpty && w.stopping) &&
      (exec step (fun _ _ => True) s
        [.endWalk 0, .upload 0 .failed, .upload 0 .go, .upload 0 .go, .upload 0 .go, .handler 0 .go, .handler 0 .go,
          .handler 0 .go, .handler 0 .go, .handler 0 .go, .handler 0 .go, .handler 0 .go, .handler 0 .go,
          .handler 0 .go]).any
        fun s' => (s'.transfer 0).handler == .done) (by decide +kernel)
  simp only [Bool.and_eq_true] at ht
  obtain ⟨⟨hsignalled, hany⟩, hend⟩ := ht
  obtain ⟨⟨rest, stopping⟩, hmem, hw⟩ := List.any_eq_true.mp hany
  obtain ⟨hrest, rfl⟩ := Bool.and_eq_true_iff.mp hw
  obtain rfl := List.isEmpty_iff.mp hrest
  obtain ⟨s', hrun, hdone⟩ := (Option.any_eq_true ..).mp hend
  exact ⟨s, s', _, hr, hrun, beq_iff_eq.mp hdone, (stop_drains_relays hr hsignalled hmem hrun 0).1⟩

end Relays
end ProxyBridge.Windows
