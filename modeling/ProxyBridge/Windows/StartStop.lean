import Mathlib.Data.List.Basic
import ProxyBridge.Library.HandleTables
import ProxyBridge.Library.Runs

/-! The handles of `ProxyBridge_Start` and `ProxyBridge_Stop`. Whatever the system refuses, a start that fails
closes what it has opened, and a stop closes all of it. -/
namespace ProxyBridge.Windows
open HandleTables Runs

/-- The global variables that hold handles, `packet_thread` with its one element. -/
inductive HandleSlot where
  | shutdownEvent
  | proxyReadyEvent
  | udpRelayReadyEvent
  | connectionWorkersDoneEvent
  | ownerUpdateEvent
  | ownerSocketHandle
  | ownerFlowHandle
  | ownerSocketThread
  | ownerFlowThread
  | proxyThread
  | udpRelayThread
  | cleanupThread
  | packetThread
  | windivertHandle
  deriving DecidableEq, Repr

/-- The handle of a thread is closed after a wait for its end. -/
structure Runtime where
  running : Bool
  handles : Table HandleSlot

/-- What the system answers during a start. -/
structure StartAnswers where
  made : HandleSlot → Bool
  /-- The TCP relay reports that it is ready, before the time is over. -/
  proxyReady : Bool
  anySocks5 : Bool
  udpRelayReady : Bool

namespace Runtime

def init : Runtime := ⟨false, .empty⟩

section Closing
variable (s : Runtime)

def closeAll (slots : List HandleSlot) : Runtime := { s with handles := s.handles.releaseAll slots }

def stopOwnerObservers : Runtime :=
  s.closeAll [.ownerSocketHandle, .ownerFlowHandle, .ownerSocketThread, .ownerFlowThread, .ownerUpdateEvent]

def requestRuntimeStop : Runtime := { s with running := false }.stopOwnerObservers

def waitForRuntimeWorkers : Runtime :=
  s.closeAll [.packetThread, .windivertHandle, .proxyThread, .udpRelayThread, .cleanupThread]

def closeLifecycleEvents : Runtime :=
  s.closeAll [.shutdownEvent, .proxyReadyEvent, .udpRelayReadyEvent, .connectionWorkersDoneEvent]

/-- `start_failed`, which does the same to the handles as a stop. -/
def shutDown : Runtime := s.requestRuntimeStop.waitForRuntimeWorkers.closeLifecycleEvents

end Closing

section Starting
variable (a : StartAnswers) (s : Runtime)

/-- Make a handle, and tell whether there is one. -/
def create (slot : HandleSlot) : Bool × Runtime :=
  (a.made slot, { s with handles := s.handles.acquire slot (a.made slot) })

def createLifecycleEvents : Bool × Runtime :=
  let shutdown := s.create a .shutdownEvent
  let proxyReady := shutdown.2.create a .proxyReadyEvent
  let udpRelayReady := proxyReady.2.create a .udpRelayReadyEvent
  let workersDone := udpRelayReady.2.create a .connectionWorkersDoneEvent
  if shutdown.1 && proxyReady.1 && udpRelayReady.1 && workersDone.1 then (true, workersDone.2)
  else (false, workersDone.2.closeLifecycleEvents)

def startOwnerObservers : Bool × Runtime :=
  let update := s.create a .ownerUpdateEvent
  if !update.1 then (false, update.2)
  else
    let socket := update.2.create a .ownerSocketHandle
    if !socket.1 then (false, socket.2.stopOwnerObservers)
    else
      let flow := socket.2.create a .ownerFlowHandle
      if !flow.1 then (false, flow.2.stopOwnerObservers)
      else
        let socketThread := flow.2.create a .ownerSocketThread
        let flowThread := socketThread.2.create a .ownerFlowThread
        if !socketThread.1 || !flowThread.1 then (false, flowThread.2.stopOwnerObservers)
        else (true, flowThread.2)

def startUdpRelay : Bool × Runtime :=
  if !a.anySocks5 then (true, s)
  else
    let udpRelay := s.create a .udpRelayThread
    (udpRelay.1 && a.udpRelayReady, udpRelay.2)

/-- The threads of the relays and of the cleanup, up to the first that fails. -/
def startWorkers : Bool × Runtime :=
  let proxy := s.create a .proxyThread
  if !proxy.1 || !a.proxyReady then (false, proxy.2)
  else
    let udpRelay := proxy.2.startUdpRelay a
    if !udpRelay.1 then (false, udpRelay.2) else udpRelay.2.create a .cleanupThread

def startPackets : Bool × Runtime :=
  let windivert := s.create a .windivertHandle
  if !windivert.1 then (false, windivert.2) else windivert.2.create a .packetThread

def start : Bool × Runtime :=
  if s.running then (false, s)
  else
    let lifecycle := s.createLifecycleEvents a
    if !lifecycle.1 then (false, lifecycle.2)
    else
      let observers := { lifecycle.2 with running := true }.startOwnerObservers a
      if !observers.1 then (false, observers.2.shutDown)
      else
        let workers := observers.2.startWorkers a
        if !workers.1 then (false, workers.2.shutDown)
        else
          let packets := workers.2.startPackets a
          if !packets.1 then (false, packets.2.shutDown) else (true, packets.2)

def stop : Bool × Runtime := if !s.running then (false, s) else (true, s.shutDown)

end Starting

inductive RuntimeCall where
  | start (a : StartAnswers)
  | stop

def step (s : Runtime) : RuntimeCall → Option Runtime
  | .start a => some (s.start a).2
  | .stop => some s.stop.2

end Runtime

/-- The threads of the runtime that touch a handle. Connection workers have no handle in a variable. -/
def HandleSlot.users : HandleSlot → List HandleSlot
  | .windivertHandle => [.packetThread]
  | .shutdownEvent => [.packetThread, .cleanupThread]
  | .proxyReadyEvent | .connectionWorkersDoneEvent => [.proxyThread]
  | .udpRelayReadyEvent => [.udpRelayThread]
  | .ownerSocketHandle => [.ownerSocketThread]
  | .ownerFlowHandle => [.ownerFlowThread]
  | .ownerUpdateEvent => [.ownerSocketThread, .ownerFlowThread, .packetThread]
  | .ownerSocketThread | .ownerFlowThread | .proxyThread | .udpRelayThread | .cleanupThread | .packetThread => []

/-- Those that are still there when the handle is closed. An observer ends because its handle is closed, and the
packet thread may wait for `owner_update_event` when that is. -/
def HandleSlot.survivors : HandleSlot → List HandleSlot
  | .ownerSocketHandle => [.ownerSocketThread]
  | .ownerFlowHandle => [.ownerFlowThread]
  | .ownerUpdateEvent => [.packetThread]
  | _ => []

/-- Those that have ended before it is closed. -/
def HandleSlot.endedUsers (x : HandleSlot) : List HandleSlot := x.users.filter (!x.survivors.contains ·)

namespace Runtime

/-- Part of the way through a start: places outside of the first list hold nothing, and those of the second hold a
handle. -/
structure Stage (tried made : List HandleSlot) (s : Runtime) : Prop where
  sound : Sound HandleSlot.endedUsers s.handles
  untried : ∀ x, x ∉ tried → s.handles.held x = none
  holds : ∀ x ∈ made, (s.handles.held x).isSome = true

/-- The order in which a stop closes handles. -/
def stopOrder : List HandleSlot :=
  [.ownerSocketHandle, .ownerFlowHandle, .ownerSocketThread, .ownerFlowThread, .ownerUpdateEvent, .packetThread,
    .windivertHandle, .proxyThread, .udpRelayThread, .cleanupThread, .shutdownEvent, .proxyReadyEvent,
    .udpRelayReadyEvent, .connectionWorkersDoneEvent]

theorem shutDown_handles (s : Runtime) : s.shutDown.handles = s.handles.releaseAll stopOrder := by
  change ((s.handles.releaseAll _).releaseAll _).releaseAll _ = _
  rw [← Table.releaseAll_append, ← Table.releaseAll_append]
  rfl

structure Inv (s : Runtime) : Prop where
  sound : Sound HandleSlot.endedUsers s.handles
  stopped : s.running = false → ∀ x, s.handles.held x = none
  started : s.running = true → ∀ x, x ≠ .udpRelayThread → (s.handles.held x).isSome = true

namespace Stage
variable {a : StartAnswers} {s : Runtime} {tried made : List HandleSlot}

theorem create (h : Stage tried made s) {x : HandleSlot} (hx : x ∉ tried) :
    Stage (x :: tried) made (s.create a x).2 ∧
      ((s.create a x).1 = true → Stage (x :: tried) (x :: made) (s.create a x).2) := by
  have hnone := h.untried x hx
  have hsound := h.sound.acquire hnone (a.made x)
  have huntried : ∀ y, y ∉ x :: tried → (s.create a x).2.handles.held y = none := by
    intro y hy
    rw [List.mem_cons, not_or] at hy
    exact (Table.held_acquire_ne _ hy.1 _).trans (h.untried y hy.2)
  have hholds : ∀ y ∈ made, ((s.create a x).2.handles.held y).isSome = true := by
    intro y hy
    have hne : y ≠ x := by
      rintro rfl
      have hsome := h.holds y hy
      rw [hnone] at hsome
      cases hsome
    exact (congrArg Option.isSome (Table.held_acquire_ne _ hne _)).trans (h.holds y hy)
  refine ⟨⟨hsound, huntried, hholds⟩, fun hmade => ⟨hsound, huntried, fun y hy => ?_⟩⟩
  rcases List.mem_cons.mp hy with rfl | hy
  · have hmade : a.made y = true := hmade
    refine (congrArg Option.isSome (Table.held_acquire s.handles y (a.made y))).trans ?_
    rw [if_pos hmade]
    rfl
  · exact hholds y hy

/-- Closing handles leaves places that may be tried again. -/
theorem closeAll (h : Stage tried made s) (seen : List HandleSlot) {slots : List HandleSlot}
    (hseen : ∀ x ∈ seen, x ∉ tried) (hl : usersFirst HandleSlot.endedUsers seen slots = true) :
    Stage (tried.filter (!slots.contains ·)) [] (s.closeAll slots) where
  sound := h.sound.releaseAll seen (fun x hx => h.untried x (hseen x hx)) hl
  untried x hx := by
    refine (Table.held_releaseAll s.handles slots x).trans ?_
    split
    · rfl
    · rename_i hslots
      refine h.untried x (fun htried => hx (List.mem_filter.mpr ⟨htried, ?_⟩))
      rw [Bool.not_eq_true']
      exact Bool.eq_false_iff.mpr (fun hc => hslots (List.contains_iff_mem.mp hc))
  holds x hx := by cases hx

theorem weaken (h : Stage tried made s) {tried' made' : List HandleSlot} (htried : ∀ x ∈ tried, x ∈ tried')
    (hmade : ∀ x ∈ made', x ∈ made) : Stage tried' made' s :=
  ⟨h.sound, fun x hx => h.untried x (fun hc => hx (htried x hc)), fun x hx => h.holds x (hmade x hx)⟩

/-- A stop closes everything, each handle after those of its users that have ended by then. -/
theorem shutDown (h : Stage tried made s) : Inv s.shutDown := by
  have hall : ∀ x, s.shutDown.handles.held x = none := by
    intro x
    rw [shutDown_handles, Table.held_releaseAll]
    cases x <;> rfl
  refine ⟨?_, fun _ => hall, fun hrunning => by cases hrunning⟩
  rw [shutDown_handles]
  exact h.sound.releaseAll [] (by simp) (by decide)

theorem forget (h : Stage tried made s) : Stage tried [] s := h.weaken (fun _ hx => hx) (fun _ hx => by cases hx)

theorem stopOwnerObservers (h : Stage tried made s) : Stage tried [] s.stopOwnerObservers :=
  (h.closeAll [] (by simp) (by decide)).weaken (fun _ hx => (List.mem_filter.mp hx).1) (fun _ hx => hx)

end Stage

section Starting
variable {a : StartAnswers} {s : Runtime}

def lifecycleSlots : List HandleSlot :=
  [.connectionWorkersDoneEvent, .udpRelayReadyEvent, .proxyReadyEvent, .shutdownEvent]

def observerSlots : List HandleSlot :=
  [.ownerFlowThread, .ownerSocketThread, .ownerFlowHandle, .ownerSocketHandle, .ownerUpdateEvent] ++ lifecycleSlots

/-- What a start has tried after its workers, with the UDP relay or without. -/
def workerSlots : List HandleSlot := [.cleanupThread, .udpRelayThread, .proxyThread] ++ observerSlots

private theorem closeLifecycleEvents_stage {made : List HandleSlot} (h : Stage lifecycleSlots made s) :
    Stage [] [] s.closeLifecycleEvents := by
  have hfirst : usersFirst HandleSlot.endedUsers [.packetThread, .cleanupThread, .proxyThread, .udpRelayThread]
      [.shutdownEvent, .proxyReadyEvent, .udpRelayReadyEvent, .connectionWorkersDoneEvent] = true := by decide
  exact h.closeAll _ (by decide) hfirst

theorem createLifecycleEvents_stage (h : Stage [] [] s) :
    ((s.createLifecycleEvents a).1 = true → Stage lifecycleSlots lifecycleSlots (s.createLifecycleEvents a).2) ∧
    ((s.createLifecycleEvents a).1 = false → Stage [] [] (s.createLifecycleEvents a).2) := by
  have hshutdown := h.create (a := a) (x := .shutdownEvent) (by decide)
  have hready := hshutdown.1.create (a := a) (x := .proxyReadyEvent) (by decide)
  have hudp := hready.1.create (a := a) (x := .udpRelayReadyEvent) (by decide)
  have hdone := hudp.1.create (a := a) (x := .connectionWorkersDoneEvent) (by decide)
  unfold createLifecycleEvents
  dsimp only
  split
  · rename_i hall
    simp only [Bool.and_eq_true] at hall
    obtain ⟨⟨⟨hs, hr⟩, hu⟩, hd⟩ := hall
    have hready := (hshutdown.2 hs).create (a := a) (x := .proxyReadyEvent) (by decide)
    have hudp := (hready.2 hr).create (a := a) (x := .udpRelayReadyEvent) (by decide)
    have hdone := (hudp.2 hu).create (a := a) (x := .connectionWorkersDoneEvent) (by decide)
    exact ⟨fun _ => hdone.2 hd, fun hfalse => by cases hfalse⟩
  · refine ⟨fun htrue => (by cases htrue), fun _ => ?_⟩
    exact closeLifecycleEvents_stage hdone.1

theorem startOwnerObservers_stage (h : Stage lifecycleSlots lifecycleSlots s) :
    (∃ tried, Stage tried [] (s.startOwnerObservers a).2) ∧
    ((s.startOwnerObservers a).1 = true → Stage observerSlots observerSlots (s.startOwnerObservers a).2) := by
  have hfailed : ∀ {tried made : List HandleSlot} {r : Runtime}, Stage tried made r →
      (∃ tried, Stage tried [] r) ∧ (false = true → Stage observerSlots observerSlots r) := fun hr =>
    ⟨⟨_, hr.forget⟩, fun hfalse => by cases hfalse⟩
  have hupdate := h.create (a := a) (x := .ownerUpdateEvent) (by decide)
  unfold startOwnerObservers
  dsimp only
  split
  · exact hfailed hupdate.1
  rename_i hu
  have hsocket := (hupdate.2 (by simpa using hu)).create (a := a) (x := .ownerSocketHandle) (by decide)
  split
  · exact hfailed hsocket.1.stopOwnerObservers
  rename_i hs
  have hflow := (hsocket.2 (by simpa using hs)).create (a := a) (x := .ownerFlowHandle) (by decide)
  split
  · exact hfailed hflow.1.stopOwnerObservers
  rename_i hf
  have hsocketThread := (hflow.2 (by simpa using hf)).create (a := a) (x := .ownerSocketThread) (by decide)
  have hflowThread := hsocketThread.1.create (a := a) (x := .ownerFlowThread) (by decide)
  split
  · exact hfailed hflowThread.1.stopOwnerObservers
  rename_i hthreads
  simp only [Bool.or_eq_true, Bool.not_eq_true', not_or, Bool.not_eq_false] at hthreads
  have hboth := ((hsocketThread.2 hthreads.1).create (a := a) (x := .ownerFlowThread) (by decide)).2 hthreads.2
  exact ⟨⟨_, hboth.forget⟩, fun _ => hboth⟩

theorem startUdpRelay_stage (h : Stage (.proxyThread :: observerSlots) (.proxyThread :: observerSlots) s) :
    Stage (.udpRelayThread :: .proxyThread :: observerSlots) (.proxyThread :: observerSlots) (s.startUdpRelay a).2 := by
  unfold startUdpRelay
  split
  · exact h.weaken (fun _ hx => List.mem_cons_of_mem _ hx) (fun _ hx => hx)
  · exact (h.create (by decide)).1

theorem startWorkers_stage (h : Stage observerSlots observerSlots s) :
    (∃ tried, Stage tried [] (s.startWorkers a).2) ∧
    ((s.startWorkers a).1 = true →
      Stage workerSlots (.cleanupThread :: .proxyThread :: observerSlots) (s.startWorkers a).2) := by
  have hproxy := h.create (a := a) (x := .proxyThread) (by decide)
  unfold startWorkers
  dsimp only
  split
  · exact ⟨⟨_, hproxy.1.forget⟩, fun hfalse => by cases hfalse⟩
  rename_i hp
  simp only [Bool.or_eq_true, Bool.not_eq_true', not_or, Bool.not_eq_false] at hp
  have hudp := startUdpRelay_stage (a := a) (hproxy.2 hp.1)
  split
  · exact ⟨⟨_, hudp.forget⟩, fun hfalse => by cases hfalse⟩
  · have hcleanup := hudp.create (a := a) (x := .cleanupThread) (by decide)
    exact ⟨⟨_, hcleanup.1.forget⟩, hcleanup.2⟩

/-- Everything but the UDP relay, which is there for SOCKS5 only. -/
def runningSlots : List HandleSlot :=
  .packetThread :: .windivertHandle :: .cleanupThread :: .proxyThread :: observerSlots

theorem startPackets_stage (h : Stage workerSlots (.cleanupThread :: .proxyThread :: observerSlots) s) :
    (∃ tried, Stage tried [] (s.startPackets a).2) ∧
    ((s.startPackets a).1 = true →
      Stage (.packetThread :: .windivertHandle :: workerSlots) runningSlots (s.startPackets a).2) := by
  have hwindivert := h.create (a := a) (x := .windivertHandle) (by decide)
  unfold startPackets
  dsimp only
  split
  · exact ⟨⟨_, hwindivert.1.forget⟩, fun hfalse => by cases hfalse⟩
  · rename_i hw
    have hpacket := (hwindivert.2 (by simpa using hw)).create (a := a) (x := .packetThread) (by decide)
    exact ⟨⟨_, hpacket.1.forget⟩, hpacket.2⟩

/-- The state of a runtime that is not started. -/
private theorem Inv.stage (h : Inv s) (hs : s.running = false) : Stage [] [] s :=
  ⟨h.sound, fun x _ => h.stopped hs x, fun x hx => by cases hx⟩

private theorem createLifecycleEvents_running : (s.createLifecycleEvents a).2.running = s.running := by
  unfold createLifecycleEvents
  dsimp only
  split <;> rfl

private theorem startOwnerObservers_running : (s.startOwnerObservers a).2.running = s.running := by
  unfold startOwnerObservers
  dsimp only
  repeat' split
  all_goals rfl

private theorem startWorkers_running : (s.startWorkers a).2.running = s.running := by
  unfold startWorkers startUdpRelay
  dsimp only
  repeat' split
  all_goals rfl

private theorem startPackets_running : (s.startPackets a).2.running = s.running := by
  unfold startPackets
  dsimp only
  split <;> rfl

/-- A start of a runtime that is stopped ends with everything running, or with everything closed. -/
private theorem Inv.start_of_stopped (h : Inv s) (hs : s.running = false) :
    Inv (s.start a).2 ∧ (s.start a).2.running = (s.start a).1 := by
  obtain ⟨hmade, hfailed⟩ := createLifecycleEvents_stage (a := a) (h.stage hs)
  have hstopped : (s.createLifecycleEvents a).2.running = false := createLifecycleEvents_running.trans hs
  unfold start
  rw [if_neg (by rw [hs]; exact Bool.false_ne_true)]
  dsimp only
  split
  · rename_i hl
    have hnone := hfailed (by simpa using hl)
    refine ⟨⟨hnone.sound, fun _ x => hnone.untried x List.not_mem_nil, fun hrunning => ?_⟩, hstopped⟩
    cases hstopped.symm.trans hrunning
  rename_i hl
  have hlifecycle := hmade (by simpa using hl)
  have hrunning : Stage lifecycleSlots lifecycleSlots { (s.createLifecycleEvents a).2 with running := true } :=
    ⟨hlifecycle.sound, hlifecycle.untried, hlifecycle.holds⟩
  obtain ⟨⟨_, hdown⟩, hobservers⟩ := startOwnerObservers_stage (a := a) hrunning
  split
  · exact ⟨hdown.shutDown, rfl⟩
  rename_i ho
  obtain ⟨⟨_, hdown⟩, hworkers⟩ := startWorkers_stage (a := a) (hobservers (by simpa using ho))
  split
  · exact ⟨hdown.shutDown, rfl⟩
  rename_i hw
  obtain ⟨⟨_, hdown⟩, hpackets⟩ := startPackets_stage (a := a) (hworkers (by simpa using hw))
  split
  · exact ⟨hdown.shutDown, rfl⟩
  rename_i hp
  have hall := hpackets (by simpa using hp)
  have hrun : ∀ r : Runtime, r.running = true →
      (((r.startOwnerObservers a).2.startWorkers a).2.startPackets a).2.running = true := fun r hr =>
    startPackets_running.trans (startWorkers_running.trans (startOwnerObservers_running.trans hr))
  refine ⟨⟨hall.sound, fun hstop => ?_, fun _ x hx => hall.holds x ?_⟩, hrun _ rfl⟩
  · cases (hrun _ rfl).symm.trans hstop
  · cases x <;> first | exact absurd rfl hx | decide

theorem Inv.start (h : Inv s) : Inv (s.start a).2 := by
  cases hs : s.running with
  | false => exact (h.start_of_stopped hs).1
  | true =>
    rw [Runtime.start, if_pos hs]
    exact h

theorem Inv.stop (h : Inv s) : Inv s.stop.2 := by
  unfold Runtime.stop
  split
  · exact h
  · have hany : Stage (.packetThread :: .windivertHandle :: workerSlots) [] s := by
      refine ⟨h.sound, fun x hx => absurd ?_ hx, fun x hx => by cases hx⟩
      cases x <;> decide
    exact hany.shutDown

end Starting

/-- A stop of a runtime that runs closes a handle and only later a thread that survives it. -/
private theorem stop_survivors {s : Runtime} (h : Inv s) (hs : s.running = true) {x u : HandleSlot}
    (hu : u ∈ x.survivors) : ∃ n m before after, s.handles.held x = some n ∧ s.handles.held u = some m ∧
      s.stop.2.handles.deeds = before ++ .closed x n :: after ∧ .closed u m ∈ after := by
  obtain ⟨first, last, horder, hlast, hx, hne⟩ : ∃ first last, stopOrder = first ++ x :: last ∧ u ∈ last ∧
      x ≠ .udpRelayThread ∧ u ≠ .udpRelayThread := by
    cases x with
    | ownerSocketHandle =>
      obtain rfl := List.mem_singleton.mp hu
      exact ⟨[], stopOrder.drop 1, rfl, by decide, by decide, by decide⟩
    | ownerFlowHandle =>
      obtain rfl := List.mem_singleton.mp hu
      exact ⟨stopOrder.take 1, stopOrder.drop 2, rfl, by decide, by decide, by decide⟩
    | ownerUpdateEvent =>
      obtain rfl := List.mem_singleton.mp hu
      exact ⟨stopOrder.take 4, stopOrder.drop 5, rfl, by decide, by decide, by decide⟩
    | _ => cases hu
  obtain ⟨n, hn⟩ := Option.isSome_iff_exists.mp (h.started hs x hx)
  obtain ⟨m, hm⟩ := Option.isSome_iff_exists.mp (h.started hs u hne)
  have hdeeds : s.stop.2.handles.deeds = s.handles.deeds ++
      stopOrder.filterMap fun k => (s.handles.held k).map (Deed.closed k) := by
    rw [stop, if_neg (by simp [hs]), shutDown_handles]
    exact Table.releaseAll_deeds s.handles (by decide)
  have hclosed : (Deed.closed u m) ∈ last.filterMap fun k => (s.handles.held k).map (Deed.closed k) :=
    List.mem_filterMap.mpr ⟨u, hlast, by rw [hm]; rfl⟩
  refine ⟨n, m, s.handles.deeds ++ first.filterMap fun k => (s.handles.held k).map (Deed.closed k), _, hn, hm, ?_,
    hclosed⟩
  rw [hdeeds, horder, List.filterMap_append, List.filterMap_cons, hn, List.append_assoc]
  rfl

/-- After any starts and stops, whatever the system refused: every handle was opened once and closed once at most,
where it was opened and after the threads that use it, but for its survivors; the global variables hold just the
handles that are not closed; none of them while the runtime is stopped, which it is after a start that failed, and all
of them while it runs, but for the UDP relay's. A stop then closes a handle ahead of its survivors. -/
theorem start_stop_close_what_they_open {s : Runtime} (hr : Reach step (fun _ _ => True) .init s) :
    Sound HandleSlot.endedUsers s.handles ∧
    (s.running = false → ∀ x n, .opened x n ∈ s.handles.deeds → .closed x n ∈ s.handles.deeds) ∧
    (s.running = true → ∀ x, x ≠ .udpRelayThread → (s.handles.held x).isSome = true) ∧
    (∀ a, s.running = false → (s.start a).2.running = (s.start a).1 ∧
      ((s.start a).1 = false → ∀ x, (s.start a).2.handles.held x = none)) ∧
    (s.running = true → ∀ x u, u ∈ HandleSlot.survivors x → ∃ n m before after, s.handles.held x = some n ∧
      s.handles.held u = some m ∧ s.stop.2.handles.deeds = before ++ .closed x n :: after ∧ .closed u m ∈ after) := by
  have h : Inv s := by
    apply hr.invariant
    · exact ⟨Sound.empty, fun _ _ => rfl, fun hrunning => by cases hrunning⟩
    · intro s c s' h _ hs
      cases c with
      | start a => exact Option.some.inj hs ▸ h.start
      | stop => exact Option.some.inj hs ▸ h.stop
  refine ⟨h.sound, fun hstopped x n ho => h.sound.closed_of_none (h.stopped hstopped x) ho, h.started,
    fun a hstopped => ?_, fun hs _ _ hu => stop_survivors h hs hu⟩
  obtain ⟨hinv, hresult⟩ := h.start_of_stopped (a := a) hstopped
  exact ⟨hresult, fun hfailed => hinv.stopped (hresult.trans hfailed)⟩

/-- The packet thread is refused, a second start succeeds, and a stop follows. -/
theorem start_stop_close_what_they_open_again :
    ∃ s, Reach step (fun _ _ => True) .init s ∧ s.running = false ∧ s.handles.next = 25 ∧
      ∀ x n, .opened x n ∈ s.handles.deeds → .closed x n ∈ s.handles.deeds := by
  have hrun : Reach step (fun _ _ => True) .init _ :=
    Reach.start
      |>.next (a := .start ⟨(· ≠ .packetThread), true, false, false⟩) trivial rfl
      |>.next (a := .start ⟨fun _ => true, true, false, false⟩) trivial rfl
      |>.next (a := .stop) trivial rfl
  obtain ⟨-, hclosed, -⟩ := start_stop_close_what_they_open hrun
  exact ⟨_, hrun, rfl, by decide +kernel, hclosed rfl⟩

end Runtime
end ProxyBridge.Windows
