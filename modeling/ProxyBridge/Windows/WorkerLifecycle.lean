import ProxyBridge.Library.Runs

/-! The count of connection workers and the event that `ProxyBridge_Stop` waits on. Each
interlocked operation, `ResetEvent`, `SetEvent` and read of `running` is one step. -/
namespace ProxyBridge.Windows
open Runs

/-- The next atomic operation of a call. A worker is `active` from the moment its
`begin_connection_worker` returns TRUE until the decrement of its `end_connection_worker`. -/
inductive WorkerPc where
  | increment
  | resetEvent
  | readRunning
  | rejectDecrement
  | active
  | setEvent (inBegin : Bool)
  | done
  deriving DecidableEq, Repr

/-- Whether the worker is included in `active_connection_workers`. -/
def WorkerPc.counted : WorkerPc → Bool
  | .resetEvent | .readRunning | .rejectDecrement | .active => true
  | _ => false

/-- Whether the listener thread is still inside this worker's `begin_connection_worker`. -/
def WorkerPc.inBegin : WorkerPc → Bool
  | .increment | .resetEvent | .readRunning | .rejectDecrement => true
  | .setEvent inBegin => inBegin
  | .active | .done => false

def WorkerPc.isSetEvent : WorkerPc → Bool
  | .setEvent _ => true
  | _ => false

structure Workers where
  running : Bool
  activeConnectionWorkers : Int
  connectionWorkersDoneEvent : Bool
  calls : List WorkerPc
  listenerJoined : Bool
  waitReturned : Bool

inductive WorkerAction where
  | call
  | advance (i : Nat)
  | stop
  | join
  | wait

namespace Workers

/-- After `create_lifecycle_events`: no worker, and a manual-reset event that is signalled. -/
def init : Workers := ⟨true, 0, true, [], false, false⟩

/-- `InterlockedDecrement`, which continues with `SetEvent` when it reached zero. -/
def decrement (s : Workers) (i : Nat) (inBegin : Bool) : Workers :=
  let left := s.activeConnectionWorkers - 1
  { s with
    activeConnectionWorkers := left
    calls := s.calls.set i (if left = 0 then .setEvent inBegin else .done) }

/-- The next atomic operation of call `i`, standing at `pc`. -/
def advance (s : Workers) (i : Nat) : WorkerPc → Option Workers
  | .increment =>
    some { s with
      activeConnectionWorkers := s.activeConnectionWorkers + 1, calls := s.calls.set i .resetEvent }
  | .resetEvent => some { s with connectionWorkersDoneEvent := false, calls := s.calls.set i .readRunning }
  | .readRunning => some { s with calls := s.calls.set i (if s.running then .active else .rejectDecrement) }
  | .rejectDecrement => some (s.decrement i true)
  | .active => some (s.decrement i false)
  | .setEvent _ => some { s with connectionWorkersDoneEvent := true, calls := s.calls.set i .done }
  | .done => none

/-- Shutdown clears `running`, joins the listener once it is inside no call, and then waits. -/
def step (s : Workers) : WorkerAction → Option Workers
  | .call => if s.listenerJoined then none else some { s with calls := s.calls ++ [.increment] }
  | .advance i => s.calls[i]?.bind (s.advance i)
  | .stop => some { s with running := false }
  | .join =>
    if s.running = false ∧ s.calls.any WorkerPc.inBegin = false then some { s with listenerJoined := true }
    else none
  | .wait =>
    if s.listenerJoined && s.connectionWorkersDoneEvent then some { s with waitReturned := true } else none

/-- No `ResetEvent` is executed, while `running` is TRUE, between another call's decrement to
zero and the `SetEvent` that follows it. -/
def NoResetBeforeSet (s : Workers) : WorkerAction → Prop
  | .advance i => s.calls[i]? = some .resetEvent → s.running = true → s.calls.any WorkerPc.isSetEvent = false
  | _ => True

/-- The event is signalled or about to be. -/
def Signalling (s : Workers) : Prop :=
  s.connectionWorkersDoneEvent = true ∨ s.calls.any WorkerPc.isSetEvent = true

structure Inv (s : Workers) : Prop where
  count : s.activeConnectionWorkers = s.calls.countP WorkerPc.counted
  signalling : s.Signalling → WorkerPc.active ∉ s.calls ∧ (s.running = true → WorkerPc.readRunning ∉ s.calls)
  joined : s.listenerJoined = true → s.running = false ∧ s.calls.any WorkerPc.inBegin = false
  returned : s.waitReturned = true → s.listenerJoined = true ∧ WorkerPc.active ∉ s.calls

theorem inv_init : Inv init where
  count := rfl
  signalling _ := by simp [init]
  joined h := by simp [init] at h
  returned h := by simp [init] at h

section Set
variable {calls : List WorkerPc} {i : Nat} {pc new : WorkerPc}

private theorem countP_set (h : calls[i]? = some pc) :
    ((calls.set i new).countP WorkerPc.counted : Int) =
      calls.countP WorkerPc.counted - (if pc.counted then 1 else 0) + (if new.counted then 1 else 0) := by
  obtain ⟨hi, he⟩ := List.getElem?_eq_some_iff.mp h
  have hpos : pc.counted = true → 0 < calls.countP WorkerPc.counted := by
    intro hc
    exact List.countP_pos_iff.mpr ⟨pc, he ▸ List.getElem_mem hi, hc⟩
  rw [List.countP_set hi, he]
  cases hc : pc.counted with
  | false => cases new.counted <;> simp
  | true =>
    have := hpos hc
    cases new.counted <;> simp only [if_true, if_false, Bool.false_eq_true] <;> omega

private theorem any_set {p : WorkerPc → Bool} (hnew : p new = false) (h : (calls.set i new).any p = true) :
    calls.any p = true := by
  obtain ⟨x, hx, hp⟩ := List.any_eq_true.mp h
  rcases List.mem_or_eq_of_mem_set hx with hx | rfl
  · exact List.any_eq_true.mpr ⟨x, hx, hp⟩
  · rw [hnew] at hp
    cases hp

private theorem any_set_false {p : WorkerPc → Bool} (hnew : p new = false) (h : calls.any p = false) :
    (calls.set i new).any p = false :=
  Bool.eq_false_iff.mpr (fun hc => Bool.eq_false_iff.mp h (any_set hnew hc))

private theorem notMem_set {x : WorkerPc} (hne : x ≠ new) (h : x ∉ calls) : x ∉ calls.set i new := by
  intro hx
  rcases List.mem_or_eq_of_mem_set hx with hx | hx
  · exact h hx
  · exact hne hx

end Set

section Advance
variable {s : Workers} {i : Nat} {pc : WorkerPc}

/-- Once the listener has been joined no call stands inside `begin_connection_worker`. -/
private theorem Inv.not_joined (h : Inv s) (hpc : s.calls[i]? = some pc) (hb : pc.inBegin = true) :
    s.listenerJoined = false := by
  cases hj : s.listenerJoined with
  | false => rfl
  | true =>
    have hnone := (h.joined hj).2
    rw [List.any_eq_true.mpr ⟨pc, List.mem_of_getElem? hpc, hb⟩] at hnone
    cases hnone

/-- A step inside `begin_connection_worker` says nothing about the shutdown. -/
private theorem Inv.in_begin (h : Inv s) (hpc : s.calls[i]? = some pc) (hb : pc.inBegin = true)
    (count : Int) (event : Bool) (new : WorkerPc)
    (hcount : count = s.activeConnectionWorkers - (if pc.counted then 1 else 0) + (if new.counted then 1 else 0))
    (hsig : Signalling { s with connectionWorkersDoneEvent := event, calls := s.calls.set i new } →
      WorkerPc.active ∉ s.calls.set i new ∧ (s.running = true → WorkerPc.readRunning ∉ s.calls.set i new)) :
    Inv { s with
      activeConnectionWorkers := count, connectionWorkersDoneEvent := event, calls := s.calls.set i new } where
  count := by rw [hcount, h.count]; exact (countP_set hpc).symm
  signalling := hsig
  joined hj := by
    have hn := h.not_joined hpc hb
    rw [show s.listenerJoined = true from hj] at hn
    cases hn
  returned hr := by
    have hn := h.not_joined hpc hb
    rw [(h.returned hr).1] at hn
    cases hn

theorem Inv.increment (h : Inv s) (hpc : s.calls[i]? = some .increment) :
    Inv { s with
      activeConnectionWorkers := s.activeConnectionWorkers + 1, calls := s.calls.set i .resetEvent } := by
  refine h.in_begin hpc rfl _ s.connectionWorkersDoneEvent .resetEvent (by simp [WorkerPc.counted]) ?_
  intro hsig
  obtain ⟨ha, hr⟩ := h.signalling (hsig.imp_right (any_set rfl))
  exact ⟨notMem_set (by decide) ha, fun hrun => notMem_set (by decide) (hr hrun)⟩

/-- The event is cleared. While `running` is TRUE no call may be about to set it again. -/
theorem Inv.resetEvent (h : Inv s) (hpc : s.calls[i]? = some .resetEvent)
    (hok : s.running = true → s.calls.any WorkerPc.isSetEvent = false) :
    Inv { s with connectionWorkersDoneEvent := false, calls := s.calls.set i .readRunning } := by
  refine h.in_begin hpc rfl s.activeConnectionWorkers false .readRunning (by simp [WorkerPc.counted]) ?_
  intro hsig
  have hset : s.calls.any WorkerPc.isSetEvent = true :=
    any_set rfl (hsig.resolve_left (by simp))
  refine ⟨notMem_set (by decide) (h.signalling (.inr hset)).1, fun hrun => ?_⟩
  rw [hok hrun] at hset
  cases hset

theorem Inv.readRunning (h : Inv s) (hpc : s.calls[i]? = some .readRunning) :
    Inv { s with calls := s.calls.set i (if s.running then .active else .rejectDecrement) } := by
  refine h.in_begin hpc rfl s.activeConnectionWorkers s.connectionWorkersDoneEvent _ ?_ ?_
  · cases s.running <;> simp [WorkerPc.counted]
  · intro hsig
    cases hrun : s.running with
    | true =>
      simp only [hrun, if_true] at hsig
      have hnot := (h.signalling (hsig.imp_right (any_set rfl))).2 hrun
      exact (hnot (List.mem_of_getElem? hpc)).elim
    | false =>
      simp only [hrun, Bool.false_eq_true, if_false] at hsig
      obtain ⟨ha, _⟩ := h.signalling (hsig.imp_right (any_set rfl))
      exact ⟨notMem_set (by decide) ha, fun hc => nomatch hc⟩

/-- A call that is no longer counted; it goes on to set the event only when it was the last. -/
private theorem Inv.leave (h : Inv s) (hpc : s.calls[i]? = some pc) (hc : pc.counted = true)
    {new : WorkerPc} (hnew : new.counted = false)
    (hlast : new.isSetEvent = true → s.activeConnectionWorkers - 1 = 0)
    (hb : s.listenerJoined = true → new.inBegin = false) :
    Inv { s with activeConnectionWorkers := s.activeConnectionWorkers - 1, calls := s.calls.set i new } := by
  have hcount : s.activeConnectionWorkers - 1 = ((s.calls.set i new).countP WorkerPc.counted : Int) := by
    rw [countP_set hpc, h.count, hc, hnew]
    simp
  have hne : ∀ x : WorkerPc, x.counted = true → x ≠ new := by
    rintro x hx rfl
    rw [hnew] at hx
    cases hx
  refine ⟨hcount, fun hsig => ?_, fun hj => ⟨(h.joined hj).1, any_set_false (hb hj) (h.joined hj).2⟩,
    fun hr => ⟨(h.returned hr).1, notMem_set (hne _ rfl) (h.returned hr).2⟩⟩
  cases hset : new.isSetEvent with
  | true =>
    have hzero := hlast hset
    have hnone : ∀ x, x.counted = true → x ∉ s.calls.set i new := by
      intro x hx hmem
      have hpos : 0 < (s.calls.set i new).countP WorkerPc.counted := List.countP_pos_iff.mpr ⟨x, hmem, hx⟩
      omega
    exact ⟨hnone .active rfl, fun _ => hnone .readRunning rfl⟩
  | false =>
    obtain ⟨ha, hr⟩ := h.signalling (hsig.imp_right (any_set hset))
    exact ⟨notMem_set (hne _ rfl) ha, fun hrun => notMem_set (hne _ rfl) (hr hrun)⟩

/-- A decrement that reaches zero leaves no counted call behind. -/
theorem Inv.decrement (h : Inv s) (hpc : s.calls[i]? = some pc) (hc : pc.counted = true) (inBegin : Bool)
    (hb : s.listenerJoined = true → inBegin = false) : Inv (s.decrement i inBegin) := by
  simp only [Workers.decrement]
  split
  · rename_i hz
    exact h.leave hpc hc rfl (fun _ => hz) hb
  · exact h.leave hpc hc rfl (fun hset => nomatch hset) (fun _ => rfl)

theorem Inv.setEvent (h : Inv s) {inBegin : Bool} (hpc : s.calls[i]? = some (.setEvent inBegin)) :
    Inv { s with connectionWorkersDoneEvent := true, calls := s.calls.set i .done } where
  count := by
    rw [h.count]
    refine Eq.trans ?_ (countP_set hpc).symm
    simp [WorkerPc.counted]
  signalling _ := by
    have hset : s.calls.any WorkerPc.isSetEvent = true :=
      List.any_eq_true.mpr ⟨_, List.mem_of_getElem? hpc, rfl⟩
    obtain ⟨ha, hr⟩ := h.signalling (.inr hset)
    exact ⟨notMem_set (by decide) ha, fun hrun => notMem_set (by decide) (hr hrun)⟩
  joined hj := ⟨(h.joined hj).1, any_set_false rfl (h.joined hj).2⟩
  returned hr := ⟨(h.returned hr).1, notMem_set (by decide) (h.returned hr).2⟩

theorem Inv.advance {s' : Workers} (h : Inv s) (hpc : s.calls[i]? = some pc)
    (hok : pc = .resetEvent → s.running = true → s.calls.any WorkerPc.isSetEvent = false)
    (hs : s.advance i pc = some s') : Inv s' := by
  cases pc with
  | increment => exact Option.some.inj hs ▸ h.increment hpc
  | resetEvent => exact Option.some.inj hs ▸ h.resetEvent hpc (hok rfl)
  | readRunning => exact Option.some.inj hs ▸ h.readRunning hpc
  | rejectDecrement =>
    exact Option.some.inj hs ▸ h.decrement hpc rfl true (fun hj => nomatch (h.not_joined hpc rfl).symm.trans hj)
  | active => exact Option.some.inj hs ▸ h.decrement hpc rfl false (fun _ => rfl)
  | setEvent inBegin => exact Option.some.inj hs ▸ h.setEvent hpc
  | done => cases hs

end Advance

theorem Inv.step {s s' : Workers} {a : WorkerAction} (h : Inv s) (hok : NoResetBeforeSet s a)
    (hs : s.step a = some s') : Inv s' := by
  cases a with
  | call =>
    simp only [Workers.step] at hs
    split at hs
    · cases hs
    · rename_i hj
      rw [← Option.some.inj hs]
      refine ⟨?_, fun hsig => ?_, fun hc => (hj hc).elim, fun hr => (hj (h.returned hr).1).elim⟩
      · rw [h.count]
        simp [WorkerPc.counted]
      · have hsig' : s.Signalling := by
          simpa [Signalling, WorkerPc.isSetEvent] using hsig
        obtain ⟨ha, hr⟩ := h.signalling hsig'
        exact ⟨by simpa using ha, fun hrun => by simpa using hr hrun⟩
  | advance i =>
    obtain ⟨pc, hpc, hs⟩ := Option.bind_eq_some_iff.mp hs
    exact h.advance hpc (fun he hrun => hok (he ▸ hpc) hrun) hs
  | stop =>
    rw [← Option.some.inj hs]
    exact ⟨h.count, fun hsig => ⟨(h.signalling hsig).1, fun hc => nomatch hc⟩,
      fun hj => ⟨rfl, (h.joined hj).2⟩, h.returned⟩
  | join =>
    simp only [Workers.step] at hs
    split at hs
    · rename_i hg
      rw [← Option.some.inj hs]
      exact ⟨h.count, h.signalling, fun _ => hg, fun hr => ⟨rfl, (h.returned hr).2⟩⟩
    · cases hs
  | wait =>
    simp only [Workers.step] at hs
    split at hs
    · rename_i hg
      obtain ⟨hj, he⟩ := Bool.and_eq_true_iff.mp hg
      rw [← Option.some.inj hs]
      exact ⟨h.count, h.signalling, h.joined, fun _ => ⟨hj, (h.signalling (.inl he)).1⟩⟩
    · cases hs

/-- In a run in which no call resets the event between another's decrement to zero and its
`SetEvent`, no worker is active once the wait of the shutdown has returned. -/
theorem no_active_worker_after_wait {s : Workers} (h : Reach step NoResetBeforeSet init s)
    (hw : s.waitReturned = true) : WorkerPc.active ∉ s.calls :=
  ((h.invariant inv_init (fun _ _ _ hi hok hs => hi.step hok hs)).returned hw).2

instance (s : Workers) (a : WorkerAction) : Decidable (NoResetBeforeSet s a) :=
  match a with
  | .advance i => inferInstanceAs (Decidable (s.calls[i]? = some .resetEvent → s.running = true →
      s.calls.any WorkerPc.isSetEvent = false))
  | .call | .stop | .join | .wait => isTrue trivial

/-- One worker that ends, and one that is turned away after `running` was cleared. -/
theorem no_active_worker_after_wait_two_calls :
    ∃ s, Reach step NoResetBeforeSet init s ∧ s.waitReturned = true ∧ s.calls = [.done, .done] ∧
      WorkerPc.active ∉ s.calls := by
  obtain ⟨s, hr, ht⟩ := exists_reach_of_exec step NoResetBeforeSet init
    [.call, .advance 0, .advance 0, .advance 0, .call, .advance 1, .stop, .advance 1, .advance 1, .advance 0,
      .advance 1, .advance 1, .join, .wait]
    (fun s => s.waitReturned && s.calls == [.done, .done]) (by decide)
  obtain ⟨hw, hc⟩ := Bool.and_eq_true_iff.mp ht
  exact ⟨s, hr, hw, beq_iff_eq.mp hc, no_active_worker_after_wait hr hw⟩

/-- The first worker decrements to zero, a second one begins, and only then the first sets the
event: the wait returns while the second is active. -/
theorem active_worker_after_wait :
    ∃ s, Reach step (fun _ _ => True) init s ∧ s.waitReturned = true ∧ WorkerPc.active ∈ s.calls := by
  obtain ⟨s, hr, ht⟩ := exists_reach_of_exec step (fun _ _ => True) init
    [.call, .advance 0, .advance 0, .advance 0, .advance 0, .call, .advance 1, .advance 1, .advance 1,
      .advance 0, .stop, .join, .wait]
    (fun s => s.waitReturned && s.calls.contains .active) (by decide)
  obtain ⟨hw, hc⟩ := Bool.and_eq_true_iff.mp ht
  exact ⟨s, hr, hw, List.contains_iff_mem.mp hc⟩

end Workers
end ProxyBridge.Windows
