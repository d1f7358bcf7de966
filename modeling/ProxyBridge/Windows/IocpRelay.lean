import Mathlib.Data.List.Basic
import Mathlib.Logic.Function.Basic
import ProxyBridge.Library.Runs

/-! A connection of the completion-port relay of pb_relay.c. Its two directions are driven by the
completions of their own operations and share a count of references, the flag of an abort and the two
sockets. A buffer belongs to the direction that holds it. -/
namespace ProxyBridge.Windows
open Runs

def relayBufSize : Nat := 65536

inductive RelayState where
  | wait
  | read
  | send
  deriving DecidableEq, Repr

/-- Where a direction stands: an operation is pending, or the thread that handles its last completion
is inside `relay_dir_end` and `relay_release`. -/
inductive RelayPc where
  | unstarted
  | pending
  | ending (cleanEof : Bool)
  | releasing
  | closing
  | ended
  deriving DecidableEq, Repr

/-- Whether the reference of the direction is dropped. -/
def RelayPc.dropped : RelayPc → Bool
  | .closing | .ended => true
  | .unstarted | .pending | .ending _ | .releasing => false

/-- `buf` has the `len` bytes of the last read. What was read from `src` and what was sent to `dst` is
kept beside the fields of the source. -/
structure RelayDir where
  state : RelayState
  buf : Option (List UInt8)
  len : Nat
  off : Nat
  pc : RelayPc
  received : List UInt8
  sent : List UInt8

/-- What a direction does to be seen from outside. -/
inductive RelayDeed where
  | post
  | eof
  | shutdownSend
  | abort
  | drop
  deriving DecidableEq, Repr

inductive Completion where
  /-- A send that fails may have passed on some bytes. -/
  | failed (n : Nat)
  | waited
  | received (data : List UInt8)
  | sent (n : Nat)

namespace RelayDir

/-- After `calloc`. -/
def fresh : RelayDir := ⟨.wait, none, 0, 0, .unstarted, [], []⟩

def posted (d : RelayDir) (ok : Bool) : RelayDir × List RelayDeed :=
  ({ d with pc := if ok then .pending else .ending false }, [.post])

def relayPostWait (d : RelayDir) (ok : Bool) : RelayDir × List RelayDeed :=
  { d with buf := none, state := .wait }.posted ok

def relayPostRead (d : RelayDir) (gotBuffer ok : Bool) : RelayDir × List RelayDeed :=
  if d.buf.isNone && !gotBuffer then ({ d with pc := .ending false }, [])
  else { d with buf := some (d.buf.getD []), state := .read }.posted ok

def relayPostSend (d : RelayDir) (ok : Bool) : RelayDir × List RelayDeed := { d with state := .send }.posted ok

/-- `n` more bytes of the buffer reach the destination. -/
def transmit (d : RelayDir) (n : Nat) : RelayDir :=
  { d with sent := d.sent ++ ((d.buf.getD []).drop d.off).take n }

/-- How many bytes the pending operation was asked to send. -/
def requested (d : RelayDir) : Nat := if d.state = .send then d.len - d.off else 0

/-- What `relay_worker` does with a completion. `gotBuffer` and `ok` say whether a buffer can be had and
whether the next operation can be posted. -/
def relayWorker (d : RelayDir) (gotBuffer ok : Bool) : Completion → Option (RelayDir × List RelayDeed)
  | .failed n => if n ≤ d.requested then some ({ d.transmit n with pc := .ending false }, []) else none
  | .waited => if d.state = .wait then some (d.relayPostRead gotBuffer ok) else none
  | .received data =>
    if d.state = .read ∧ data.length ≤ relayBufSize then
      if data.length = 0 then some ({ d with pc := .ending true }, [.eof])
      else some
        ({ d with buf := some data, len := data.length, off := 0, received := d.received ++ data }.relayPostSend ok)
    else none
  | .sent n =>
    if d.state = .send ∧ n ≤ d.requested then
      if n = 0 then some ({ d with pc := .ending false }, [])
      else
        let d := { d.transmit n with off := d.off + n }
        if d.off < d.len then some (d.relayPostSend ok)
        else if d.len < relayBufSize / 4 then some (d.relayPostWait ok)
        else some (d.relayPostRead gotBuffer ok)
    else none

/-- What was read and what was sent, for each place the direction can be at. -/
def Intact (d : RelayDir) : Prop :=
  match d.pc with
  | .pending =>
    match d.state with
    | .wait | .read => d.sent = d.received
    | .send => ∃ data, d.buf = some data ∧ data.length = d.len ∧ d.off ≤ d.len ∧ d.received = d.sent ++ data.drop d.off
  | .unstarted | .ending true => d.sent = d.received
  | .ending false | .releasing | .closing | .ended => d.sent <+: d.received

/-- How the handling of a completion ends: with an operation that is posted or could not be, or with the
end of the direction. -/
def Handled (r : RelayDir × List RelayDeed) : Prop :=
  r.1.Intact ∧
    ((r.2 = [.eof] ∧ r.1.pc = .ending true) ∨ (r.2 = [] ∧ r.1.pc = .ending false) ∨
      (r.2 = [.post] ∧ (r.1.pc = .pending ∨ r.1.pc = .ending false)))

section Handling
variable {d : RelayDir}

private theorem handled_failed (h : d.sent <+: d.received) : Handled ({ d with pc := .ending false }, []) :=
  ⟨h, .inr (.inl ⟨rfl, rfl⟩)⟩

private theorem handled_posted (ok : Bool) (hfail : d.sent <+: d.received)
    (hpost : ({ d with pc := .pending } : RelayDir).Intact) : Handled (d.posted ok) := by
  cases ok with
  | true => exact ⟨hpost, .inr (.inr ⟨rfl, .inl rfl⟩)⟩
  | false => exact ⟨hfail, .inr (.inr ⟨rfl, .inr rfl⟩)⟩

private theorem handled_postWait (h : d.sent = d.received) (ok : Bool) : Handled (d.relayPostWait ok) :=
  handled_posted ok (h ▸ List.prefix_refl _) h

private theorem handled_postRead (h : d.sent = d.received) (gotBuffer ok : Bool) :
    Handled (d.relayPostRead gotBuffer ok) := by
  unfold relayPostRead
  split
  · exact handled_failed (h ▸ List.prefix_refl _)
  · exact handled_posted ok (h ▸ List.prefix_refl _) h

private theorem handled_postSend {data : List UInt8} (hbuf : d.buf = some data) (hlen : data.length = d.len)
    (hoff : d.off ≤ d.len) (h : d.received = d.sent ++ data.drop d.off) (ok : Bool) : Handled (d.relayPostSend ok) :=
  handled_posted ok (h ▸ List.prefix_append _ _) ⟨data, hbuf, hlen, hoff, h⟩

/-- Bytes that were asked to be sent are the next ones. -/
private theorem transmit_spec {data : List UInt8} (hbuf : d.buf = some data)
    (h : d.received = d.sent ++ data.drop d.off) (n : Nat) :
    d.received = (d.transmit n).sent ++ data.drop (d.off + n) := by
  have hsent : (d.transmit n).sent = d.sent ++ (data.drop d.off).take n := by rw [transmit, hbuf]; rfl
  rw [hsent, List.append_assoc, ← List.drop_drop, List.take_append_drop, h]

/-- Where nothing was asked to be sent nothing is. -/
private theorem transmit_zero : (d.transmit 0).sent = d.sent := by
  rw [transmit, List.take_zero, List.append_nil]

theorem relayWorker_handled {gotBuffer ok : Bool} {completion : Completion} {r : RelayDir × List RelayDeed}
    (hpc : d.pc = .pending) (h : d.Intact) (hr : d.relayWorker gotBuffer ok completion = some r) : Handled r := by
  simp only [Intact, hpc] at h
  cases completion with
  | failed n =>
    simp only [relayWorker] at hr
    split at hr
    · rename_i hn
      obtain rfl := Option.some.inj hr
      apply handled_failed
      cases hs : d.state with
      | send =>
        simp only [hs] at h
        obtain ⟨data, hbuf, -, -, he⟩ := h
        have hprefix := transmit_spec hbuf he n
        exact ⟨_, hprefix.symm⟩
      | wait | read =>
        simp only [hs] at h
        obtain rfl : n = 0 := by simpa [requested, hs] using hn
        rw [transmit_zero, h]
        exact List.prefix_refl _
    · cases hr
  | waited =>
    simp only [relayWorker] at hr
    split at hr
    · rename_i hs
      simp only [hs] at h
      exact Option.some.inj hr ▸ handled_postRead h gotBuffer ok
    · cases hr
  | received data =>
    simp only [relayWorker] at hr
    split at hr
    · rename_i hs
      simp only [hs.1] at h
      split at hr
      · obtain rfl := Option.some.inj hr
        exact ⟨h, .inl ⟨rfl, rfl⟩⟩
      · obtain rfl := Option.some.inj hr
        exact handled_postSend rfl rfl (Nat.zero_le _) (by rw [List.drop_zero, h]) ok
    · cases hr
  | sent n =>
    simp only [relayWorker] at hr
    split at hr
    · rename_i hs
      simp only [hs.1] at h
      obtain ⟨data, hbuf, hlen, hoff, he⟩ := h
      have hn : n ≤ d.len - d.off := by simpa [requested, hs.1] using hs.2
      have hnext := transmit_spec hbuf he n
      split at hr
      · exact Option.some.inj hr ▸ handled_failed (he ▸ List.prefix_append _ _)
      split at hr
      · rename_i hless
        exact Option.some.inj hr ▸
          handled_postSend (d := { d.transmit n with off := d.off + n }) hbuf hlen (Nat.le_of_lt hless) hnext ok
      · rename_i hdone
        have hdone' : ¬ d.off + n < d.len := hdone
        have hall : (d.transmit n).sent = d.received := by
          rw [hnext, List.drop_of_length_le (by omega), List.append_nil]
        split at hr
        · exact Option.some.inj hr ▸ handled_postWait (d := { d.transmit n with off := d.off + n }) hall ok
        · exact Option.some.inj hr ▸ handled_postRead (d := { d.transmit n with off := d.off + n }) hall gotBuffer ok
    · cases hr

end Handling
end RelayDir

inductive RelaySide where
  | upload
  | download
  deriving DecidableEq, Repr

def RelaySide.other : RelaySide → RelaySide
  | .upload => .download
  | .download => .upload

/-- Of both directions, of the two sockets, and of `relay_pool_abort`. -/
inductive RelayEvent where
  | dir (side : RelaySide) (deed : RelayDeed)
  | close (socket : RelaySide)
  | poolAbort
  deriving DecidableEq, Repr

/-- The events of the connection come with the last one first. -/
structure RelayConn where
  dir : RelaySide → RelayDir
  refs : Int
  closing : Bool
  events : List RelayEvent

inductive RelayAction where
  | start (side : RelaySide) (ok : Bool)
  | complete (side : RelaySide) (completion : Completion) (gotBuffer ok : Bool)
  | advance (side : RelaySide)
  | poolAbort

namespace RelayConn

/-- The connection is in the list of the pool, and `relay_start` has posted nothing yet. -/
def init : RelayConn := ⟨fun _ => .fresh, 2, false, []⟩

def update (c : RelayConn) (side : RelaySide) (d : RelayDir) (deeds : List RelayDeed) : RelayConn :=
  { c with dir := Function.update c.dir side d, events := deeds.map (.dir side) ++ c.events }

/-- The steps of `relay_dir_end` and `relay_release`. -/
def advance (c : RelayConn) (side : RelaySide) : RelayPc → Option RelayConn
  | .ending true => some (c.update side { c.dir side with pc := .releasing } [.shutdownSend])
  | .ending false => some { c.update side { c.dir side with pc := .releasing } [.abort] with closing := true }
  | .releasing =>
    some { c.update side { c.dir side with pc := if c.refs - 1 = 0 then .closing else .ended } [.drop] with
      refs := c.refs - 1 }
  | .closing =>
    let c' := c.update side { c.dir side with pc := .ended, buf := none } []
    some { c' with events := .close .download :: .close .upload :: c'.events }
  | .unstarted | .pending | .ended => none

/-- `relay_start` starts the upload before the download. The pool aborts what is still in its list. -/
def step (c : RelayConn) : RelayAction → Option RelayConn
  | .start side ok =>
    if (c.dir side).pc = .unstarted ∧ (side = .upload ∨ (c.dir .upload).pc ≠ .unstarted) then
      let r := (c.dir side).relayPostWait ok
      some (c.update side r.1 r.2)
    else none
  | .complete side completion gotBuffer ok =>
    if (c.dir side).pc = .pending then
      ((c.dir side).relayWorker gotBuffer ok completion).map fun r => c.update side r.1 r.2
    else none
  | .advance side => c.advance side (c.dir side).pc
  | .poolAbort =>
    if (c.dir .upload).pc = .ended ∧ (c.dir .download).pc = .ended then none
    else some { c with closing := true, events := .poolAbort :: c.events }

/-- What the connection guarantees. -/
structure Sound (c : RelayConn) : Prop where
  /-- Nothing is lost, duplicated or reordered. -/
  integrity : ∀ side, (c.dir side).sent <+: (c.dir side).received
  /-- The sending side of a destination is shut down only after all that was read. -/
  shutdown : ∀ side, .dir side .shutdownSend ∈ c.events →
    .dir side .eof ∈ c.events ∧ (c.dir side).sent = (c.dir side).received
  /-- A clean end does not abort. -/
  halfClose : ∀ side, .dir side .eof ∈ c.events → .dir side .abort ∉ c.events
  dropOnce : ∀ side, c.events.count (.dir side .drop) = if (c.dir side).pc.dropped then 1 else 0
  silent : c.events.Pairwise fun newer older => ∀ side, older = .dir side .drop → newer ≠ .dir side .post
  closeOnce : ∀ socket, c.events.count (.close socket) =
    if (c.dir .upload).pc = .ended ∧ (c.dir .download).pc = .ended then 1 else 0
  closeLast : c.events.Pairwise fun newer older => ∀ socket side, older = .close socket → newer ≠ .dir side .drop

/-- `Sound` with what keeps it so. -/
structure Inv (c : RelayConn) : Prop where
  intact : ∀ side, (c.dir side).Intact
  ended : ∀ side, .dir side .eof ∈ c.events → (c.dir side).sent = (c.dir side).received ∧
    .dir side .abort ∉ c.events ∧ ((c.dir side).pc = .ending true ∨ (c.dir side).pc = .releasing ∨
      (c.dir side).pc.dropped = true)
  clean : ∀ side, (c.dir side).pc = .ending true → .dir side .eof ∈ c.events
  aborted : ∀ side, .dir side .abort ∈ c.events → (c.dir side).pc = .releasing ∨ (c.dir side).pc.dropped = true
  shut : ∀ side, .dir side .shutdownSend ∈ c.events → .dir side .eof ∈ c.events
  dropOnce : ∀ side, c.events.count (.dir side .drop) = if (c.dir side).pc.dropped then 1 else 0
  silent : c.events.Pairwise fun newer older => ∀ side, older = .dir side .drop → newer ≠ .dir side .post
  refs : c.refs = (if (c.dir .upload).pc.dropped then 0 else 1) + (if (c.dir .download).pc.dropped then 0 else 1)
  lone : ∀ side, (c.dir side).pc = .closing → (c.dir side.other).pc = .ended
  closeOnce : ∀ socket, c.events.count (.close socket) =
    if (c.dir .upload).pc = .ended ∧ (c.dir .download).pc = .ended then 1 else 0
  closeLast : c.events.Pairwise fun newer older => ∀ socket side, older = .close socket → newer ≠ .dir side .drop

theorem inv_init : Inv init where
  intact _ := rfl
  ended _ h := by cases h
  clean _ h := by cases h
  aborted _ h := by cases h
  shut _ h := by cases h
  dropOnce _ := rfl
  silent := .nil
  refs := rfl
  lone _ h := by cases h
  closeOnce _ := rfl
  closeLast := .nil

private theorem prefix_of_intact {d : RelayDir} (h : d.Intact) : d.sent <+: d.received := by
  unfold RelayDir.Intact at h
  split at h
  · split at h
    · exact h ▸ List.prefix_refl _
    · exact h ▸ List.prefix_refl _
    · obtain ⟨data, -, -, -, he⟩ := h
      exact he ▸ List.prefix_append _ _
  · exact h ▸ List.prefix_refl _
  · exact h ▸ List.prefix_refl _
  · exact h
  · exact h
  · exact h
  · exact h

theorem Inv.sound {c : RelayConn} (h : Inv c) : c.Sound where
  integrity side := prefix_of_intact (h.intact side)
  shutdown side hs := ⟨h.shut side hs, (h.ended side (h.shut side hs)).1⟩
  halfClose side he := (h.ended side he).2.1
  dropOnce := h.dropOnce
  silent := h.silent
  closeOnce := h.closeOnce
  closeLast := h.closeLast

section Step
variable {c : RelayConn} {side : RelaySide}

@[simp] theorem update_dir_self (d : RelayDir) (deeds : List RelayDeed) : (c.update side d deeds).dir side = d :=
  Function.update_self ..

theorem update_dir_other {s : RelaySide} (h : s ≠ side) (d : RelayDir) (deeds : List RelayDeed) :
    (c.update side d deeds).dir s = c.dir s := Function.update_of_ne h ..

private theorem other_eq_of_ne {s : RelaySide} (h : s ≠ side) : s.other = side := by
  cases s <;> cases side <;> first | rfl | exact (h rfl).elim

private theorem Inv.intact_update (h : Inv c) {d : RelayDir} (hd : d.Intact) (deeds : List RelayDeed)
    (s : RelaySide) : ((c.update side d deeds).dir s).Intact := by
  by_cases hs : s = side
  · subst hs
    rw [update_dir_self]
    exact hd
  · rw [update_dir_other hs]
    exact h.intact s

/-- The events of another direction are those from before. -/
private theorem mem_update_other {s : RelaySide} (h : s ≠ side) {d : RelayDir} {deeds : List RelayDeed}
    {e : RelayDeed} (hm : .dir s e ∈ (c.update side d deeds).events) : .dir s e ∈ c.events := by
  rcases List.mem_append.mp hm with hm | hm
  · obtain ⟨_, _, he⟩ := List.mem_map.mp hm
    exact (h (RelayEvent.dir.inj he).1.symm).elim
  · exact hm

private theorem count_update_other {s : RelaySide} (h : s ≠ side) (d : RelayDir) (deeds : List RelayDeed)
    (e : RelayDeed) : (c.update side d deeds).events.count (.dir s e) = c.events.count (.dir s e) := by
  have hnone : (deeds.map (RelayEvent.dir side)).count (.dir s e) = 0 := by
    apply List.count_eq_zero.mpr
    intro hm
    obtain ⟨_, _, he⟩ := List.mem_map.mp hm
    exact h (RelayEvent.dir.inj he).1.symm
  rw [update, List.count_append, hnone, Nat.zero_add]

private theorem count_update_close (socket : RelaySide) (d : RelayDir) (deeds : List RelayDeed) :
    (c.update side d deeds).events.count (.close socket) = c.events.count (.close socket) := by
  have hnone : (deeds.map (RelayEvent.dir side)).count (.close socket) = 0 := by
    apply List.count_eq_zero.mpr
    intro hm
    obtain ⟨_, _, he⟩ := List.mem_map.mp hm
    cases he
  rw [update, List.count_append, hnone, Nat.zero_add]

private theorem Inv.undropped (h : Inv c) (hpc : (c.dir side).pc.dropped = false) : .dir side .drop ∉ c.events := by
  have hcount := h.dropOnce side
  rw [hpc, if_neg Bool.false_ne_true] at hcount
  exact List.count_eq_zero.mp hcount

private theorem not_both_ended (side : RelaySide) (h : (c.dir side).pc ≠ .ended) :
    ¬ ((c.dir .upload).pc = .ended ∧ (c.dir .download).pc = .ended) := by
  cases side with
  | upload => exact fun hb => h hb.1
  | download => exact fun hb => h hb.2

private theorem ne_ended_of_undropped {pc : RelayPc} (h : pc.dropped = false) : pc ≠ .ended ∧ pc ≠ .closing := by
  constructor <;> rintro rfl <;> cases h

/-- What adding an event to the front asks for in an order of events. -/
private theorem pairwise_update {R : RelayEvent → RelayEvent → Prop} {deeds : List RelayDeed}
    (hself : deeds.Pairwise fun a b => R (.dir side a) (.dir side b)) (h : c.events.Pairwise R)
    (hnew : ∀ e ∈ deeds, ∀ old ∈ c.events, R (.dir side e) old) (d : RelayDir) :
    (c.update side d deeds).events.Pairwise R := by
  refine List.pairwise_append.mpr ⟨List.pairwise_map.mpr hself, h, fun a ha b hb => ?_⟩
  obtain ⟨e, he, rfl⟩ := List.mem_map.mp ha
  exact hnew e he b hb

/-- A direction that keeps its reference goes on to another place where it keeps it. -/
private theorem Inv.turn (h : Inv c) {d : RelayDir} (deed : Option RelayDeed)
    (hpc : (c.dir side).pc.dropped = false) (hpc' : d.pc.dropped = false) (hdrop : deed ≠ some .drop)
    (hintact : d.Intact)
    (hended : .dir side .eof ∈ (c.update side d deed.toList).events → d.sent = d.received ∧
      .dir side .abort ∉ (c.update side d deed.toList).events ∧ (d.pc = .ending true ∨ d.pc = .releasing))
    (hclean : d.pc = .ending true → .dir side .eof ∈ (c.update side d deed.toList).events)
    (haborted : .dir side .abort ∈ (c.update side d deed.toList).events → d.pc = .releasing)
    (hshut : .dir side .shutdownSend ∈ (c.update side d deed.toList).events →
      .dir side .eof ∈ (c.update side d deed.toList).events) :
    Inv (c.update side d deed.toList) := by
  have hmem : ∀ {e : RelayEvent}, e ∈ c.events → e ∈ (c.update side d deed.toList).events :=
    fun hm => List.mem_append_right _ hm
  constructor
  case intact => exact h.intact_update hintact deed.toList
  case ended =>
    intro s he
    by_cases hs : s = side
    · subst hs
      obtain ⟨heq, hab, hp⟩ := hended he
      rw [update_dir_self]
      exact ⟨heq, hab, hp.imp_right .inl⟩
    · obtain ⟨heq, hab, hp⟩ := h.ended s (mem_update_other hs he)
      rw [update_dir_other hs]
      exact ⟨heq, fun hm => hab (mem_update_other hs hm), hp⟩
  case clean =>
    intro s hp
    by_cases hs : s = side
    · subst hs
      rw [update_dir_self] at hp
      exact hclean hp
    · rw [update_dir_other hs] at hp
      exact hmem (h.clean s hp)
  case aborted =>
    intro s hm
    by_cases hs : s = side
    · subst hs
      rw [update_dir_self]
      exact .inl (haborted hm)
    · rw [update_dir_other hs]
      exact h.aborted s (mem_update_other hs hm)
  case shut =>
    intro s hm
    by_cases hs : s = side
    · subst hs
      exact hshut hm
    · exact hmem (h.shut s (mem_update_other hs hm))
  case dropOnce =>
    intro s
    by_cases hs : s = side
    · subst hs
      rw [update_dir_self, hpc', if_neg Bool.false_ne_true]
      apply List.count_eq_zero.mpr
      intro hm
      rcases List.mem_append.mp hm with hm | hm
      · obtain ⟨e, he, hd⟩ := List.mem_map.mp hm
        rw [(RelayEvent.dir.inj hd).2] at he
        exact hdrop (Option.mem_toList.mp he)
      · exact h.undropped hpc hm
    · rw [update_dir_other hs, count_update_other hs]
      exact h.dropOnce s
  case silent =>
    refine pairwise_update (by cases deed <;> simp) h.silent (fun e he old hold s ho hp => ?_) d
    obtain ⟨rfl, -⟩ := RelayEvent.dir.inj hp
    exact h.undropped hpc (ho ▸ hold)
  case refs =>
    have hsame : ∀ s, ((c.update side d deed.toList).dir s).pc.dropped = (c.dir s).pc.dropped := by
      intro s
      by_cases hs : s = side
      · subst hs
        rw [update_dir_self, hpc, hpc']
      · rw [update_dir_other hs]
    rw [hsame, hsame]
    exact h.refs
  case lone =>
    intro s hp
    by_cases hs : s = side
    · subst hs
      rw [update_dir_self] at hp
      exact ((ne_ended_of_undropped hpc').2 hp).elim
    · rw [update_dir_other hs] at hp
      have hend := h.lone s hp
      rw [other_eq_of_ne hs] at hend
      exact ((ne_ended_of_undropped hpc).1 hend).elim
  case closeOnce =>
    intro socket
    have hnew : ((c.update side d deed.toList).dir side).pc ≠ .ended := by
      rw [update_dir_self]
      exact (ne_ended_of_undropped hpc').1
    rw [count_update_close, h.closeOnce socket, if_neg (not_both_ended side (ne_ended_of_undropped hpc).1),
      if_neg (not_both_ended side hnew)]
  case closeLast =>
    refine pairwise_update (by cases deed <;> simp) h.closeLast (fun e he old hold socket s ho hd => ?_) d
    rw [(RelayEvent.dir.inj hd).2] at he
    exact hdrop (Option.mem_toList.mp he)

/-- Before its last completion a direction has neither come to an end nor aborted. -/
private theorem Inv.underway (h : Inv c) (hpc : (c.dir side).pc = .unstarted ∨ (c.dir side).pc = .pending) :
    .dir side .eof ∉ c.events ∧ .dir side .abort ∉ c.events ∧ .dir side .shutdownSend ∉ c.events := by
  have hno : .dir side .eof ∉ c.events := by
    intro he
    rcases hpc with hp | hp <;> simpa [hp, RelayPc.dropped] using (h.ended side he).2.2
  refine ⟨hno, fun ha => ?_, fun hs => hno (h.shut side hs)⟩
  rcases hpc with hp | hp <;> simpa [hp, RelayPc.dropped] using h.aborted side ha

/-- A completion is handled, or the direction is started. -/
private theorem Inv.work (h : Inv c) {r : RelayDir × List RelayDeed} (hr : RelayDir.Handled r)
    (hpc : (c.dir side).pc = .unstarted ∨ (c.dir side).pc = .pending) : Inv (c.update side r.1 r.2) := by
  obtain ⟨heof, habort, hshut⟩ := h.underway hpc
  have hkept : (c.dir side).pc.dropped = false := by rcases hpc with hp | hp <;> rw [hp] <;> rfl
  obtain ⟨d, deeds⟩ := r
  obtain ⟨hintact, ⟨rfl, hp⟩ | ⟨rfl, hp⟩ | ⟨rfl, hp⟩⟩ := hr
  · have hpc' : d.pc = .ending true := hp
    have hsent : d.sent = d.received := by
      simpa only [RelayDir.Intact, hpc'] using hintact
    refine h.turn (some .eof) hkept (by rw [hp]; rfl) nofun hintact (fun _ => ⟨hsent, ?_, .inl hp⟩)
      (fun _ => by simp [update]) (fun hm => ?_) (fun _ => by simp [update])
    · simpa [update] using habort
    · exact (habort (by simpa [update] using hm)).elim
  · refine h.turn none hkept (by rw [hp]; rfl) nofun hintact (fun hm => (heof hm).elim) (fun he => ?_)
      (fun hm => (habort hm).elim) (fun hm => (hshut hm).elim)
    rw [hp] at he
    cases he
  · refine h.turn (some .post) hkept (by rcases hp with hp | hp <;> rw [hp] <;> rfl) nofun hintact
      (fun hm => ?_) (fun he => ?_) (fun hm => ?_) (fun hm => ?_)
    · exact (heof (by simpa [update] using hm)).elim
    · rcases hp with hp | hp <;> rw [hp] at he <;> cases he
    · exact (habort (by simpa [update] using hm)).elim
    · exact (hshut (by simpa [update] using hm)).elim

/-- `shutdown(dst, SD_SEND)`. -/
private theorem Inv.shutdown (h : Inv c) (hpc : (c.dir side).pc = .ending true) :
    Inv (c.update side { c.dir side with pc := .releasing } [.shutdownSend]) := by
  have heof := h.clean side hpc
  obtain ⟨hsent, habort, -⟩ := h.ended side heof
  have hprefix := prefix_of_intact (h.intact side)
  refine h.turn (some .shutdownSend) (by rw [hpc]; rfl) rfl nofun hprefix
    (fun _ => ⟨hsent, ?_, .inr rfl⟩) nofun (fun _ => rfl) (fun _ => ?_)
  · simpa [update] using habort
  · exact List.mem_append_right _ heof

/-- `relay_abort`. -/
private theorem Inv.abort (h : Inv c) (hpc : (c.dir side).pc = .ending false) :
    Inv (c.update side { c.dir side with pc := .releasing } [.abort]) := by
  have hno : .dir side .eof ∉ c.events := by
    intro he
    simpa [hpc, RelayPc.dropped] using (h.ended side he).2.2
  have hprefix := prefix_of_intact (h.intact side)
  refine h.turn (some .abort) (by rw [hpc]; rfl) rfl nofun hprefix
    (fun hm => ?_) nofun (fun _ => rfl) (fun hm => ?_)
  · exact (hno (by simpa [update] using hm)).elim
  · exact (hno (h.shut side (by simpa [update] using hm))).elim

/-- The fields that the invariant speaks of. -/
private theorem Inv.congr {c c' : RelayConn} (h : Inv c) (hdir : c'.dir = c.dir) (hrefs : c'.refs = c.refs)
    (hevents : c'.events = c.events) : Inv c' := by
  obtain ⟨dir, refs, closing, events⟩ := c
  obtain ⟨dir', refs', closing', events'⟩ := c'
  obtain rfl : dir' = dir := hdir
  obtain rfl : refs' = refs := hrefs
  obtain rfl : events' = events := hevents
  exact ⟨h.1, h.2, h.3, h.4, h.5, h.6, h.7, h.8, h.9, h.10, h.11⟩

private theorem other_ne (side : RelaySide) : side.other ≠ side := by
  cases side <;> exact nofun

private theorem eq_or_eq_other (s side : RelaySide) : s = side ∨ s = side.other := by
  cases s <;> cases side <;> simp [RelaySide.other]

private theorem refs_eq (h : Inv c) (side : RelaySide) :
    c.refs = (if (c.dir side).pc.dropped then 0 else 1) + (if (c.dir side.other).pc.dropped then 0 else 1) := by
  cases side with
  | upload => exact h.refs
  | download => exact h.refs.trans (Int.add_comm _ _)

/-- `InterlockedDecrement` finds the last reference exactly when the other direction has ended. -/
private theorem Inv.last_reference (h : Inv c) (hpc : (c.dir side).pc = .releasing) :
    (c.refs - 1 = 0 ∧ (c.dir side.other).pc = .ended) ∨
      (c.refs - 1 ≠ 0 ∧ (c.dir side.other).pc.dropped = false) := by
  have hrefs := refs_eq h side
  have hself : (c.dir side).pc.dropped = false := by rw [hpc]; rfl
  rw [hself] at hrefs
  cases hother : (c.dir side.other).pc.dropped with
  | false =>
    rw [hother] at hrefs
    simp only [Bool.false_eq_true, if_false] at hrefs
    exact .inr ⟨by omega, rfl⟩
  | true =>
    rw [hother] at hrefs
    simp only [Bool.false_eq_true, if_false, if_true] at hrefs
    refine .inl ⟨by omega, ?_⟩
    cases hp : (c.dir side.other).pc with
    | ended => rfl
    | closing =>
      have hend := h.lone side.other hp
      have hback : side.other.other = side := by cases side <;> rfl
      rw [hback, hpc] at hend
      cases hend
    | _ => rw [hp] at hother; cases hother

private theorem Inv.release (h : Inv c) (hpc : (c.dir side).pc = .releasing) :
    Inv { c.update side { c.dir side with pc := if c.refs - 1 = 0 then .closing else .ended } [.drop] with
      refs := c.refs - 1 } := by
  have hkept : (c.dir side).pc.dropped = false := by rw [hpc]; rfl
  have hlast := h.last_reference hpc
  have hprefix := prefix_of_intact (h.intact side)
  generalize hp' : (if c.refs - 1 = 0 then RelayPc.closing else RelayPc.ended) = pc'
  have hdropped : pc'.dropped = true := by subst hp'; split <;> rfl
  have hnew : ∀ e : RelayDeed, e ≠ .drop → ∀ {s : RelaySide},
      .dir s e ∈ (c.update side { c.dir side with pc := pc' } [.drop]).events → .dir s e ∈ c.events := by
    intro e he s hm
    rcases List.mem_append.mp hm with hm | hm
    · exact (he (RelayEvent.dir.inj (List.mem_singleton.mp hm)).2).elim
    · exact hm
  constructor
  case intact =>
    refine h.intact_update ?_ [.drop]
    subst hp'
    split <;> exact hprefix
  case ended =>
    intro s he
    obtain ⟨heq, hab, hp⟩ := h.ended s (hnew .eof nofun he)
    by_cases hs : s = side
    · subst hs
      simp only [update_dir_self]
      exact ⟨heq, fun hm => hab (hnew .abort nofun hm), .inr (.inr hdropped)⟩
    · simp only [update_dir_other hs]
      exact ⟨heq, fun hm => hab (hnew .abort nofun hm), hp⟩
  case clean =>
    intro s hp
    by_cases hs : s = side
    · subst hs
      simp only [update_dir_self] at hp
      rw [hp] at hdropped
      cases hdropped
    · simp only [update_dir_other hs] at hp
      exact List.mem_append_right _ (h.clean s hp)
  case aborted =>
    intro s hm
    have hold := h.aborted s (hnew .abort nofun hm)
    by_cases hs : s = side
    · subst hs
      simp only [update_dir_self]
      exact .inr hdropped
    · simp only [update_dir_other hs]
      exact hold
  case shut => exact fun s hm => List.mem_append_right _ (h.shut s (hnew .shutdownSend nofun hm))
  case dropOnce =>
    intro s
    by_cases hs : s = side
    · subst hs
      have hcount := List.count_eq_zero.mpr (h.undropped hkept)
      simp only [update_dir_self, hdropped, if_true]
      simp [update, hcount]
    · simp only [update_dir_other hs, count_update_other hs]
      exact h.dropOnce s
  case silent =>
    refine pairwise_update (List.pairwise_singleton _ _) h.silent (fun e he old hold s ho hp => ?_) (c.dir side)
    rw [(RelayEvent.dir.inj hp).2] at he
    cases List.mem_singleton.mp he
  case refs =>
    have hrefs := refs_eq h side
    rw [hkept] at hrefs
    have hgoal : c.refs - 1 = (if pc'.dropped then 0 else 1) + (if (c.dir side.other).pc.dropped then 0 else 1) := by
      rw [hdropped]
      simp only [Bool.false_eq_true, if_false, if_true] at hrefs ⊢
      omega
    cases side with
    | upload =>
      simp only [update_dir_self, update_dir_other (show RelaySide.download ≠ .upload from nofun)]
      exact hgoal
    | download =>
      simp only [update_dir_self, update_dir_other (show RelaySide.upload ≠ .download from nofun)]
      exact hgoal.trans (Int.add_comm _ _)
  case lone =>
    intro s hp
    by_cases hs : s = side
    · subst hs
      simp only [update_dir_self] at hp
      simp only [update_dir_other (other_ne s)]
      rcases hlast with ⟨-, hend⟩ | ⟨hne, -⟩
      · exact hend
      · rw [if_neg hne] at hp'
        rw [← hp'] at hp
        cases hp
    · simp only [update_dir_other hs] at hp
      have hend := h.lone s hp
      rw [other_eq_of_ne hs, hpc] at hend
      cases hend
  case closeOnce =>
    intro socket
    simp only [count_update_close, h.closeOnce socket]
    have hold : ¬ ((c.dir .upload).pc = .ended ∧ (c.dir .download).pc = .ended) :=
      not_both_ended side (by rw [hpc]; exact nofun)
    rw [if_neg hold, if_neg]
    rcases hlast with ⟨hz, -⟩ | ⟨-, hother⟩
    · apply not_both_ended side
      simp only [update_dir_self, ← hp', hz, if_true]
      exact nofun
    · apply not_both_ended side.other
      simp only [update_dir_other (other_ne side)]
      exact (ne_ended_of_undropped hother).1
  case closeLast =>
    refine pairwise_update (List.pairwise_singleton _ _) h.closeLast (fun e he old hold socket s ho hd => ?_)
      (c.dir side)
    have hnone := h.closeOnce socket
    rw [if_neg (not_both_ended side (by rw [hpc]; exact nofun))] at hnone
    exact List.count_eq_zero.mp hnone (ho ▸ hold)

/-- The last direction closes the sockets. -/
private theorem Inv.close (h : Inv c) (hpc : (c.dir side).pc = .closing) :
    Inv { c.update side { c.dir side with pc := .ended, buf := none } [] with
      events := .close .download :: .close .upload ::
        (c.update side { c.dir side with pc := .ended, buf := none } []).events } := by
  have hother := h.lone side hpc
  have hdropped : (c.dir side).pc.dropped = true := by rw [hpc]; rfl
  have hprefix := prefix_of_intact (h.intact side)
  have hnew : ∀ (s : RelaySide) (e : RelayDeed),
      .dir s e ∈ (.close .download :: .close .upload :: c.events : List RelayEvent) ↔ .dir s e ∈ c.events := by
    intro s e
    simp
  have hboth : ∀ s, (Function.update c.dir side { c.dir side with pc := .ended, buf := none } s).pc = .ended := by
    intro s
    rcases eq_or_eq_other s side with rfl | rfl
    · rw [Function.update_self]
    · rw [Function.update_of_ne (other_ne side)]
      exact hother
  have hsame : ∀ s, (Function.update c.dir side { c.dir side with pc := .ended, buf := none } s).pc.dropped =
      (c.dir s).pc.dropped := by
    intro s
    rw [hboth]
    rcases eq_or_eq_other s side with rfl | rfl
    · exact hdropped.symm
    · rw [hother]
  constructor
  case intact =>
    refine h.intact_update ?_ []
    exact hprefix
  case ended =>
    intro s he
    obtain ⟨heq, hab, -⟩ := h.ended s ((hnew s .eof).mp he)
    refine ⟨?_, fun hm => hab ((hnew s .abort).mp hm), .inr (.inr ?_)⟩
    · by_cases hs : s = side
      · subst hs
        simp only [update_dir_self]
        exact heq
      · simp only [update_dir_other hs]
        exact heq
    · exact congrArg RelayPc.dropped (hboth s)
  case clean => exact fun s hp => nomatch (hboth s).symm.trans hp
  case aborted => exact fun s _ => .inr (congrArg RelayPc.dropped (hboth s))
  case shut => exact fun s hm => (hnew s .eof).mpr (h.shut s ((hnew s .shutdownSend).mp hm))
  case dropOnce =>
    intro s
    have hcount : (.close .download :: .close .upload :: c.events : List RelayEvent).count (.dir s .drop) =
        c.events.count (.dir s .drop) := by simp
    exact hcount.trans ((h.dropOnce s).trans (by rw [← hsame s]; rfl))
  case silent =>
    refine List.pairwise_cons.mpr ⟨fun old _ s _ hp => (nomatch hp), ?_⟩
    exact List.pairwise_cons.mpr ⟨fun old _ s _ hp => (nomatch hp), h.silent⟩
  case refs => exact h.refs.trans (by rw [← hsame .upload, ← hsame .download]; rfl)
  case lone => exact fun s hp => nomatch (hboth s).symm.trans hp
  case closeOnce =>
    intro socket
    have hold := h.closeOnce socket
    rw [if_neg (not_both_ended side (by rw [hpc]; exact nofun))] at hold
    have hcount : (.close .download :: .close .upload :: c.events : List RelayEvent).count (.close socket) = 1 := by
      cases socket <;> simp [hold]
    exact hcount.trans (if_pos ⟨hboth .upload, hboth .download⟩).symm
  case closeLast =>
    refine List.pairwise_cons.mpr ⟨fun old _ socket s _ hp => (nomatch hp), ?_⟩
    exact List.pairwise_cons.mpr ⟨fun old _ socket s _ hp => (nomatch hp), h.closeLast⟩

private theorem Inv.poolAbort (h : Inv c) : Inv { c with closing := true, events := .poolAbort :: c.events } where
  intact := h.intact
  ended s he := by
    obtain ⟨heq, hab, hp⟩ := h.ended s (by simpa using he)
    exact ⟨heq, by simpa using hab, hp⟩
  clean s hp := List.mem_cons_of_mem _ (h.clean s hp)
  aborted s hm := h.aborted s (by simpa using hm)
  shut s hm := List.mem_cons_of_mem _ (h.shut s (by simpa using hm))
  dropOnce s := by
    have hcount : (.poolAbort :: c.events).count (.dir s .drop) = c.events.count (.dir s .drop) := by simp
    exact hcount.trans (h.dropOnce s)
  silent := List.pairwise_cons.mpr ⟨fun old _ s _ hp => (nomatch hp), h.silent⟩
  refs := h.refs
  lone := h.lone
  closeOnce socket := by
    have hcount : (.poolAbort :: c.events).count (.close socket) = c.events.count (.close socket) := by simp
    exact hcount.trans (h.closeOnce socket)
  closeLast := List.pairwise_cons.mpr ⟨fun old _ socket s _ hp => (nomatch hp), h.closeLast⟩

theorem Inv.step {c' : RelayConn} {a : RelayAction} (h : Inv c) (hs : c.step a = some c') : Inv c' := by
  cases a with
  | start side ok =>
    simp only [RelayConn.step] at hs
    split at hs
    · rename_i hg
      have hsent : (c.dir side).sent = (c.dir side).received := by
        simpa only [RelayDir.Intact, hg.1] using h.intact side
      exact Option.some.inj hs ▸ h.work (RelayDir.handled_postWait hsent ok) (.inl hg.1)
    · cases hs
  | complete side completion gotBuffer ok =>
    simp only [RelayConn.step] at hs
    split at hs
    · rename_i hpc
      obtain ⟨r, hr, rfl⟩ := Option.map_eq_some_iff.mp hs
      exact h.work (RelayDir.relayWorker_handled hpc (h.intact side) hr) (.inr hpc)
    · cases hs
  | advance side =>
    cases hpc : (c.dir side).pc with
    | ending cleanEof =>
      simp only [RelayConn.step, hpc] at hs
      cases cleanEof with
      | true => exact Option.some.inj hs ▸ h.shutdown hpc
      | false => exact Option.some.inj hs ▸ (h.abort hpc).congr rfl rfl rfl
    | releasing =>
      simp only [RelayConn.step, hpc] at hs
      exact Option.some.inj hs ▸ h.release hpc
    | closing =>
      simp only [RelayConn.step, hpc] at hs
      exact Option.some.inj hs ▸ h.close hpc
    | unstarted | pending | ended =>
      simp only [RelayConn.step, hpc] at hs
      cases hs
  | poolAbort =>
    simp only [RelayConn.step] at hs
    split at hs
    · cases hs
    · exact Option.some.inj hs ▸ h.poolAbort

end Step

/-- Whatever the order of completions, failures and aborts. -/
theorem relay_sound {c : RelayConn} (h : Reach step (fun _ _ => True) init c) : c.Sound :=
  (h.invariant inv_init (fun _ _ _ hi _ hs => hi.step hs)).sound

/-- The client sends three bytes, which go out in two parts, and closes its side; the answer still
comes through, and then the proxy closes. -/
theorem relay_sound_half_close :
    ∃ c, Reach step (fun _ _ => True) init c ∧ (c.dir .upload).sent = [1, 2, 3] ∧ (c.dir .download).sent = [4] ∧
      c.events.count (.close .upload) = 1 ∧ c.Sound := by
  obtain ⟨c, hr, ht⟩ := exists_reach_of_exec step (fun _ _ => True) init
    [.start .upload true, .complete .upload .waited true true, .start .download true,
      .complete .upload (.received [1, 2, 3]) true true, .complete .upload (.sent 2) true true,
      .complete .upload (.sent 1) true true, .complete .upload .waited true true,
      .complete .upload (.received []) true true, .advance .upload, .complete .download .waited true true,
      .advance .upload, .complete .download (.received [4]) true true, .complete .download (.sent 1) true true,
      .complete .download .waited true true, .complete .download (.received []) true true, .advance .download,
      .advance .download, .advance .download]
    (fun c => (c.dir .upload).sent == [1, 2, 3] && (c.dir .download).sent == [4] &&
      c.events.count (.close .upload) == 1) (by decide +kernel)
  simp only [Bool.and_eq_true, beq_iff_eq] at ht
  exact ⟨c, hr, ht.1.1, ht.1.2, ht.2, relay_sound hr⟩

end RelayConn
end ProxyBridge.Windows
