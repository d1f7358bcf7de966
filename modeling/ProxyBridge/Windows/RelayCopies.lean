import ProxyBridge.Windows.RelayPairs

/-! Both relays of pb_relay.c copy streams. The completion-port relay and the blocking relay behind it
differ in threads, buffers and bookkeeping; in each of them a direction is a copy. -/
namespace ProxyBridge.Windows
open Runs StreamCopies

namespace OneWay

/-- What was received and sent, and what the last `recv` returned, for each place of the loop. -/
def Intact (w : OneWay) : Prop :=
  match w.pc with
  | .idle | .start => w.sent = w.received ∧ w.ended = none
  | .loop | .select => w.sent = w.received ∧ w.ended = none ∧ w.len ≠ 0
  | .recv => w.sent = w.received ∧ w.ended = none
  | .send rest => w.received = w.sent ++ rest ∧ w.ended = none ∧ w.len ≠ 0
  | .finish true => w.sent = w.received ∧ w.ended = none ∧ w.len = 0
  | .finish false => w.ended = none
  | _ => w.ended = some .clean → w.len = 0

variable {w w' : OneWay} {signalled : Bool} {source target : SocketUse} {input : RelayInput}

/-- The end of the loop, with what `len` says. -/
private theorem intact_finish (hended : w.ended = none) (hsent : w.len = 0 → w.sent = w.received) :
    Intact { w with pc := .finish (w.len == 0) } := by
  by_cases hlen : w.len = 0
  · simp [Intact, hlen, hended, hsent hlen]
  · rw [beq_eq_false_iff_ne.mpr hlen]
    exact hended

theorem Intact.advance (h : w.Intact) (hs : w.advance signalled source target w.pc input = some w') :
    w'.Intact ∧ Copy.Steps w.copy w'.copy := by
  obtain ⟨pc, len, received, sent, ended⟩ := w
  simp only [OneWay.advance] at hs
  split at hs
  · obtain ⟨hsent, hended, hlen⟩ := h
    obtain rfl := Option.some.inj hs
    cases signalled with
    | true => exact ⟨intact_finish hended (fun hz => (hlen hz).elim), .refl⟩
    | false => exact ⟨⟨hsent, hended, hlen⟩, .refl⟩
  · rename_i n
    obtain ⟨hsent, hended, hlen⟩ := h
    obtain rfl := Option.some.inj hs
    by_cases hz : n = 0
    · rw [if_pos hz]
      exact ⟨⟨hsent, hended, hlen⟩, .refl⟩
    rw [if_neg hz]
    by_cases he : n = socketError
    · rw [if_pos he]
      exact ⟨intact_finish hended (fun hz => (hlen hz).elim), .refl⟩
    · rw [if_neg he]
      exact ⟨⟨hsent, hended⟩, .refl⟩
  · rename_i data
    obtain ⟨hsent, hended⟩ := h
    dsimp only at hsent hended
    subst hsent hended
    split at hs
    · obtain rfl := Option.some.inj hs
      have hcopy : Copy.Steps ⟨sent, sent, none⟩ ⟨sent ++ data, sent, none⟩ := .single (.receive sent data)
      refine ⟨?_, hcopy⟩
      by_cases hdata : data = []
      · subst hdata
        simp [Intact]
      · have hpos : ¬ (data.length : Int) ≤ 0 := by
          have := List.length_pos_of_ne_nil hdata
          omega
        rw [if_neg hpos]
        exact ⟨rfl, rfl, fun hz => hpos (Int.le_of_eq hz)⟩
    · cases hs
  · rename_i rest n
    obtain ⟨hreceived, hended, hlen⟩ := h
    dsimp only at hreceived hended hlen
    subst hreceived hended
    split at hs
    · rename_i hn
      obtain rfl := Option.some.inj hs
      have hcopy : Copy.Steps ⟨sent ++ rest, sent, none⟩ ⟨sent ++ rest, sent ++ rest.take n, none⟩ := by
        have hstep := Copy.Step.send sent (rest.take n) (rest.drop n)
        rw [List.take_append_drop] at hstep
        exact .single hstep
      refine ⟨?_, hcopy⟩
      by_cases hmore : n < rest.length
      · rw [if_pos hmore]
        exact ⟨by rw [List.append_assoc, List.take_append_drop], rfl, hlen⟩
      · rw [if_neg hmore]
        exact ⟨by rw [List.take_of_length_le (Nat.le_of_not_lt hmore)], rfl, hlen⟩
    · cases hs
  · obtain rfl := Option.some.inj hs
    exact ⟨h.2, .refl⟩
  · obtain rfl := Option.some.inj hs
    exact ⟨h.2.1, .refl⟩
  · cases hs

theorem Intact.len_of_clean {w : OneWay} (h : w.Intact) (hclean : w.ended = some .clean) : w.len = 0 := by
  cases hpc : w.pc with
  | finish clean => cases clean <;> simp_all [Intact]
  | _ => simp_all [Intact]

end OneWay

namespace Transfer
variable {t : Transfer} {side : RelaySide} {admits signalled : Bool} {input : RelayInput} {r : Transfer × ListOp}

def Intact (t : Transfer) : Prop := ∀ side, (t.way side).Intact

/-- One direction goes on and the other one stays as it is. -/
private theorem Intact.update (h : t.Intact) {t' : Transfer} {w : OneWay} (hway : t'.way = Function.update t.way side w)
    (hw : w.Intact) (hcopy : Copy.Steps (t.way side).copy w.copy) :
    t'.Intact ∧ ∀ s, Copy.Steps (t.way s).copy (t'.way s).copy := by
  have hboth : ∀ s, (t'.way s).Intact ∧ Copy.Steps (t.way s).copy (t'.way s).copy := by
    intro s
    by_cases hs : s = side
    · subst hs
      rw [hway, Function.update_self]
      exact ⟨hw, hcopy⟩
    · rw [hway, Function.update_of_ne hs]
      exact ⟨h s, .refl⟩
  exact ⟨fun s => (hboth s).1, fun s => (hboth s).2⟩

theorem WayStep.intact (hs : WayStep t side signalled input r) (h : t.Intact) :
    r.1.Intact ∧ ∀ s, Copy.Steps (t.way s).copy (r.1.way s).copy := by
  have hside := h side
  cases hs with
  | start buf hpc =>
    simp only [OneWay.Intact, hpc] at hside
    refine h.update rfl ?_ ?_
    · cases buf
      · exact hside.2
      · exact ⟨hside.1, hside.2, show socketError ≠ 0 by decide⟩
    · cases buf <;> exact .refl
  | copy w hpc hw =>
    obtain ⟨hintact, hcopy⟩ := hside.advance hw
    exact h.update rfl hintact hcopy
  | clean hpc =>
    simp only [OneWay.Intact, hpc] at hside
    obtain ⟨hsent, hended, hlen⟩ := hside
    refine h.update rfl (fun _ => hlen) ?_
    have hcopy : (t.way side).copy = ⟨(t.way side).sent, (t.way side).sent, none⟩ := by
      rw [OneWay.copy, ← hsent, hended]
    rw [hcopy]
    refine .single ?_
    show Copy.Step _ ⟨(t.way side).received, (t.way side).sent, some .clean⟩
    rw [← hsent]
    exact .finish _
  | broken hpc =>
    simp only [OneWay.Intact, hpc] at hside
    refine h.update rfl (fun he => by cases he) ?_
    have hcopy : (t.way side).copy = ⟨(t.way side).received, (t.way side).sent, none⟩ := by
      rw [OneWay.copy, hside]
    rw [hcopy]
    exact .single (.fail ..)
  | drop hpc =>
    simp only [OneWay.Intact, hpc] at hside
    have hway : (t.dropRef side).way = Function.update t.way side _ := rfl
    refine h.update hway ?_ .refl
    simp only [OneWay.Intact]
    split <;> first | exact hside | (rename_i hpc'; split at hpc' <;> cases hpc')
  | abortProxy hpc | unregister hpc | closeClient hpc | closeProxy hpc | freePair hpc =>
    simp only [OneWay.Intact, hpc] at hside
    exact h.update rfl hside .refl

/-- Only `CreateThread` and the download touch a direction. -/
theorem Intact.handler (h : t.Intact) (ho : t.Orderly) (hs : t.handlerStep admits signalled input = some r) :
    r.1.Intact ∧ ∀ s, Copy.Steps (t.way s).copy (r.1.way s).copy := by
  have hsame : ∀ {t' : Transfer}, t'.way = t.way → t'.Intact ∧ ∀ s, Copy.Steps (t.way s).copy (t'.way s).copy := by
    intro t' hway
    rw [Intact, hway]
    exact ⟨h, fun _ => .refl⟩
  unfold handlerStep at hs
  split at hs
  case h_3 =>
    obtain rfl := Option.some.inj hs
    apply hsame
    split <;> rfl
  case h_4 =>
    obtain rfl := Option.some.inj hs
    apply hsame
    split <;> rfl
  case h_5 =>
    obtain rfl := Option.some.inj hs
    apply hsame
    split <;> rfl
  case h_6 =>
    rename_i thread hh
    obtain rfl := Option.some.inj hs
    cases thread with
    | false => exact hsame rfl
    | true =>
      have hidle := ho.threads
      rw [hh] at hidle
      refine ⟨fun s => ?_, fun _ => .refl⟩
      have hs := h s
      simp only [OneWay.Intact, hidle s] at hs
      exact hs
  case h_7 =>
    split at hs
    · split at hs
      · exact Option.some.inj hs ▸ hsame rfl
      · cases hs
    · exact (wayStep_cases hs).intact h
  case h_8 =>
    split at hs
    · exact Option.some.inj hs ▸ hsame rfl
    · cases hs
  case h_13 => cases hs
  all_goals exact Option.some.inj hs ▸ hsame rfl

end Transfer

namespace Relays
variable {s s' : Relays} {i : Nat}

def Intact (s : Relays) : Prop := ∀ i, (s.transfer i).Intact

theorem intact_init (shutdownEvent : Option Bool) : (init shutdownEvent).Intact := fun _ _ => ⟨rfl, rfl⟩

private theorem Intact.transfer (h : s.Intact) {t : Transfer}
    (ht : t.Intact ∧ ∀ side, Copy.Steps ((s.transfer i).way side).copy (t.way side).copy)
    (hs : s'.transfer = Function.update s.transfer i t) :
    s'.Intact ∧ ∀ j side, Copy.Steps ((s.transfer j).way side).copy ((s'.transfer j).way side).copy := by
  have hboth : ∀ j, (s'.transfer j).Intact ∧
      ∀ side, Copy.Steps ((s.transfer j).way side).copy ((s'.transfer j).way side).copy := by
    intro j
    by_cases hj : j = i
    · subst hj
      rw [hs, Function.update_self]
      exact ht
    · rw [hs, Function.update_of_ne hj]
      exact ⟨h j, fun _ => .refl⟩
  exact ⟨fun j => (hboth j).1, fun j => (hboth j).2⟩

private theorem apply_transfer {r : Transfer × ListOp} (hs : s.apply i r = some s') :
    s'.transfer = Function.update s.transfer i r.1 := by
  unfold Relays.apply at hs
  split at hs
  · cases hs
  · exact congrArg Relays.transfer (Option.some.inj hs).symm

/-- Every step of the relays is a step of some copies, or none. -/
theorem Intact.step {a : RelaysAction} (h : s.Intact) (hinv : Inv s) (hs : s.step a = some s') :
    s'.Intact ∧ ∀ j side, Copy.Steps ((s.transfer j).way side).copy ((s'.transfer j).way side).copy := by
  cases a with
  | handler i input =>
    obtain ⟨r, hr, hs⟩ := Option.bind_eq_some_iff.mp hs
    exact h.transfer ((h i).handler (hinv.orderly i) hr) (apply_transfer hs)
  | upload i input =>
    obtain ⟨r, hr, hs⟩ := Option.bind_eq_some_iff.mp hs
    exact h.transfer ((Transfer.wayStep_cases hr).intact (h i)) (apply_transfer hs)
  | shutdownPair k =>
    simp only [Relays.step] at hs
    split at hs
    · rename_i i _ _ _
      obtain rfl := Option.some.inj hs
      exact h.transfer (i := i) (t := ((s.transfer i).deref.shutdown .client).shutdown .proxy) ⟨h i, fun _ => .refl⟩ rfl
    · cases hs
  | setEvent =>
    obtain ⟨_, -, rfl⟩ := Option.map_eq_some_iff.mp hs
    exact ⟨h, fun _ _ => .refl⟩
  | endWalk k =>
    simp only [Relays.step] at hs
    split at hs
    · obtain rfl := Option.some.inj hs
      exact ⟨h, fun _ _ => .refl⟩
    · cases hs
  | clearRunning | walk =>
    obtain rfl := Option.some.inj hs
    exact ⟨h, fun _ _ => .refl⟩

/-- What keeps the copies of the relays copies. -/
structure Copying (s : Relays) : Prop where
  inv : Inv s
  intact : s.Intact

end Relays

namespace RelayConn
variable {c c' : RelayConn} {side s : RelaySide} {d : RelayDir} {deeds : List RelayDeed} {events : List RelayEvent}

/-- A direction has ended when it shut down a socket. -/
def endedBy (events : List RelayEvent) (side : RelaySide) : Option End :=
  if .dir side .shutdownSend ∈ events then some .clean else if .dir side .abort ∈ events then some .broken else none

/-- A direction of the pool as a copy. -/
def copy (c : RelayConn) (side : RelaySide) : Copy UInt8 :=
  ⟨(c.dir side).received, (c.dir side).sent, endedBy c.events side⟩

/-- The sending side of a destination is shut down by a direction that ends. -/
def ShutLate (c : RelayConn) : Prop :=
  ∀ side, .dir side .shutdownSend ∈ c.events → (c.dir side).pc = .releasing ∨ (c.dir side).pc.dropped = true

private theorem endedBy_none (h : Inv c) (hl : c.ShutLate) (hpc : (c.dir side).pc ≠ .releasing)
    (hkept : (c.dir side).pc.dropped = false) : endedBy c.events side = none := by
  have hshut : .dir side .shutdownSend ∉ c.events := by
    intro hm
    rcases hl side hm with hp | hp
    · exact hpc hp
    · rw [hkept] at hp
      cases hp
  have habort : .dir side .abort ∉ c.events := by
    intro hm
    rcases h.aborted side hm with hp | hp
    · exact hpc hp
    · rw [hkept] at hp
      cases hp
  rw [endedBy, if_neg hshut, if_neg habort]

private theorem endedBy_quiet (hs : .shutdownSend ∉ deeds) (ha : .abort ∉ deeds) (s : RelaySide) :
    endedBy (deeds.map (.dir side) ++ events) s = endedBy events s := by
  simp [endedBy, hs, ha]

private theorem endedBy_other (hne : s ≠ side) : endedBy (deeds.map (.dir side) ++ events) s = endedBy events s := by
  simp [endedBy, Ne.symm hne]

/-- One direction does something and the other one stays as it is. -/
private theorem copies_update (hl : c.ShutLate)
    (hlate : .dir side .shutdownSend ∈ (c.update side d deeds).events → d.pc = .releasing ∨ d.pc.dropped = true)
    (hcopy : Copy.Steps (c.copy side) ⟨d.received, d.sent, endedBy (deeds.map (.dir side) ++ c.events) side⟩) :
    (c.update side d deeds).ShutLate ∧ ∀ s, Copy.Steps (c.copy s) ((c.update side d deeds).copy s) := by
  refine ⟨fun s hm => ?_, fun s => ?_⟩
  · by_cases hne : s = side
    · subst hne
      rw [update_dir_self]
      exact hlate hm
    · rw [update_dir_other hne]
      refine hl s ?_
      simpa [update, Ne.symm hne] using hm
  · by_cases hne : s = side
    · subst hne
      rw [show (c.update s d deeds).copy s = ⟨d.received, d.sent, endedBy (deeds.map (.dir s) ++ c.events) s⟩ by
        rw [copy, update_dir_self]; rfl]
      exact hcopy
    · have hsame : (c.update side d deeds).copy s = c.copy s := by
        rw [copy, copy, update_dir_other hne]
        exact congrArg _ (endedBy_other hne)
      rw [hsame]

/-- A direction goes on without an end. -/
private theorem copies_quiet (hs : .shutdownSend ∉ deeds) (ha : .abort ∉ deeds) (hl : c.ShutLate)
    (hend : endedBy c.events side = none)
    (hcopy : Copy.Steps ⟨(c.dir side).received, (c.dir side).sent, none⟩ ⟨d.received, d.sent, none⟩) :
    (c.update side d deeds).ShutLate ∧ ∀ s, Copy.Steps (c.copy s) ((c.update side d deeds).copy s) := by
  refine copies_update hl (fun hm => ?_) ?_
  · have hold : .dir side .shutdownSend ∈ c.events := by simpa [update, hs] using hm
    rw [endedBy, if_pos hold] at hend
    cases hend
  · rw [endedBy_quiet hs ha, copy, hend]
    exact hcopy

/-- Bytes that were asked to be sent are the next ones. -/
private theorem transmit_steps {data : List UInt8} (hbuf : d.buf = some data)
    (h : d.received = d.sent ++ data.drop d.off) (n : Nat) :
    Copy.Steps ⟨d.received, d.sent, none⟩ ⟨d.received, (d.transmit n).sent, none⟩ := by
  have hstep := Copy.Step.send d.sent ((data.drop d.off).take n) ((data.drop d.off).drop n)
  rw [List.take_append_drop, ← h] at hstep
  rw [RelayDir.transmit, hbuf]
  exact .single hstep

private theorem postRead_same (d : RelayDir) (gotBuffer ok : Bool) :
    (d.relayPostRead gotBuffer ok).1.received = d.received ∧ (d.relayPostRead gotBuffer ok).1.sent = d.sent := by
  unfold RelayDir.relayPostRead
  split <;> exact ⟨rfl, rfl⟩

private theorem relayWorker_copies {gotBuffer ok : Bool} {completion : Completion} {r : RelayDir × List RelayDeed}
    (hpc : d.pc = .pending) (h : d.Intact) (hr : d.relayWorker gotBuffer ok completion = some r) :
    Copy.Steps ⟨d.received, d.sent, none⟩ ⟨r.1.received, r.1.sent, none⟩ := by
  simp only [RelayDir.Intact, hpc] at h
  cases completion with
  | failed n =>
    simp only [RelayDir.relayWorker] at hr
    split at hr
    · rename_i hn
      obtain rfl := Option.some.inj hr
      cases hs : d.state with
      | send =>
        simp only [hs] at h
        obtain ⟨data, hbuf, -, -, he⟩ := h
        exact transmit_steps hbuf he n
      | wait | read =>
        obtain rfl : n = 0 := by simpa [RelayDir.requested, hs] using hn
        simp only [RelayDir.transmit, List.take_zero, List.append_nil]
        exact .refl
    · cases hr
  | waited =>
    simp only [RelayDir.relayWorker] at hr
    split at hr
    · obtain rfl := Option.some.inj hr
      rw [(postRead_same d gotBuffer ok).1, (postRead_same d gotBuffer ok).2]
    · cases hr
  | received data =>
    simp only [RelayDir.relayWorker] at hr
    split at hr
    · rename_i hs
      simp only [hs.1] at h
      split at hr
      · obtain rfl := Option.some.inj hr
        exact .refl
      · obtain rfl := Option.some.inj hr
        rw [h]
        exact .single (.receive d.received data)
    · cases hr
  | sent n =>
    simp only [RelayDir.relayWorker] at hr
    split at hr
    · rename_i hs
      simp only [hs.1] at h
      obtain ⟨data, hbuf, -, -, he⟩ := h
      have hnext := transmit_steps hbuf he n
      split at hr
      · obtain rfl := Option.some.inj hr
        exact .refl
      split at hr
      · obtain rfl := Option.some.inj hr
        exact hnext
      split at hr
      · obtain rfl := Option.some.inj hr
        exact hnext
      · obtain rfl := Option.some.inj hr
        rw [(postRead_same _ gotBuffer ok).1, (postRead_same _ gotBuffer ok).2]
        exact hnext
    · cases hr

theorem Inv.copies {a : RelayAction} (h : Inv c) (hl : c.ShutLate) (hs : c.step a = some c') :
    c'.ShutLate ∧ ∀ s, Copy.Steps (c.copy s) (c'.copy s) := by
  cases a with
  | start side ok =>
    simp only [RelayConn.step] at hs
    split at hs
    · rename_i hg
      obtain rfl := Option.some.inj hs
      exact copies_quiet (by simp [RelayDir.relayPostWait, RelayDir.posted])
        (by simp [RelayDir.relayPostWait, RelayDir.posted])
        hl (endedBy_none h hl (by simp [hg.1]) (by rw [hg.1]; rfl)) .refl
    · cases hs
  | complete side completion gotBuffer ok =>
    simp only [RelayConn.step] at hs
    split at hs
    · rename_i hpc
      obtain ⟨r, hr, rfl⟩ := Option.map_eq_some_iff.mp hs
      have hdeeds : .shutdownSend ∉ r.2 ∧ .abort ∉ r.2 := by
        obtain ⟨-, ⟨hd, -⟩ | ⟨hd, -⟩ | ⟨hd, -⟩⟩ := RelayDir.relayWorker_handled hpc (h.intact side) hr <;> simp [hd]
      exact copies_quiet hdeeds.1 hdeeds.2 hl (endedBy_none h hl (by simp [hpc]) (by rw [hpc]; rfl))
        (relayWorker_copies hpc (h.intact side) hr)
    · cases hs
  | advance side =>
    cases hpc : (c.dir side).pc with
    | ending cleanEof =>
      have hend : endedBy c.events side = none := endedBy_none h hl (by simp [hpc]) (by rw [hpc]; rfl)
      simp only [RelayConn.step, hpc] at hs
      cases cleanEof with
      | true =>
        obtain rfl := Option.some.inj hs
        have hsent : (c.dir side).sent = (c.dir side).received := by
          simpa only [RelayDir.Intact, hpc] using h.intact side
        refine copies_update hl (fun _ => .inl rfl) ?_
        rw [copy, hend, ← hsent]
        simp only [List.map_cons, List.map_nil, List.cons_append, List.nil_append, endedBy, List.mem_cons_self, if_true]
        exact .single (.finish _)
      | false =>
        obtain rfl := Option.some.inj hs
        have hnone : .dir side .shutdownSend ∉ c.events := by
          intro hm
          rw [endedBy, if_pos hm] at hend
          cases hend
        have hnew : endedBy ([RelayDeed.abort].map (.dir side) ++ c.events) side = some .broken := by
          simp [endedBy, hnone]
        refine copies_update hl (fun _ => .inl rfl) ?_
        rw [copy, hend, hnew]
        exact .single (.fail ..)
    | releasing =>
      simp only [RelayConn.step, hpc] at hs
      obtain rfl := Option.some.inj hs
      refine copies_update hl (fun _ => .inr ?_) ?_
      · split <;> rfl
      · rw [endedBy_quiet (by simp) (by simp)]
        exact .refl
    | closing =>
      simp only [RelayConn.step, hpc] at hs
      obtain rfl := Option.some.inj hs
      obtain ⟨hlate, hcopies⟩ : (c.update side { c.dir side with pc := .ended, buf := none } []).ShutLate ∧
          ∀ s, Copy.Steps (c.copy s) ((c.update side { c.dir side with pc := .ended, buf := none } []).copy s) :=
        copies_update hl (fun _ => .inr rfl) .refl
      refine ⟨fun s hm => hlate s (by simpa using hm), fun s => ?_⟩
      have hsame : ∀ events, endedBy (.close .download :: .close .upload :: events) s = endedBy events s := by
        intro events
        simp [endedBy]
      have hrun := hcopies s
      rw [copy, copy] at hrun ⊢
      dsimp only
      rw [hsame]
      exact hrun
    | unstarted | pending | ended =>
      simp only [RelayConn.step, hpc] at hs
      cases hs
  | poolAbort =>
    simp only [RelayConn.step] at hs
    split at hs
    · cases hs
    · obtain rfl := Option.some.inj hs
      refine ⟨fun s hm => hl s (by simpa using hm), fun s => ?_⟩
      have hsame : endedBy (.poolAbort :: c.events) s = endedBy c.events s := by simp [endedBy]
      rw [copy, copy]
      dsimp only
      rw [hsame]

/-- What keeps the copies of the connection copies. -/
structure Copying (c : RelayConn) : Prop where
  inv : Inv c
  late : c.ShutLate

end RelayConn

/-- In a run of the blocking relay and in a run of a connection of the pool, whatever the order of steps, failures
and aborts, each direction runs as a copy: from any state to any later one. So either of them sends what it
receives, in order, ends a direction cleanly only behind all of it, and leaves a direction that has ended as it
is. The blocking relay ends a direction cleanly only when `recv` returned 0. -/
theorem relays_copy_streams :
    (∀ (shutdownEvent : Option Bool) (s s' : Relays) (i : Nat) (side : RelaySide),
      Reach Relays.step (fun _ _ => True) (.init shutdownEvent) s → Reach Relays.step (fun _ _ => True) s s' →
      let w := (s.transfer i).way side
      let w' := (s'.transfer i).way side
      Copy.Steps w.copy w'.copy ∧ w'.copy.Faithful ∧ (w.ended ≠ none → w'.copy = w.copy) ∧
        (w'.ended = some .clean → w'.len = 0)) ∧
    ∀ (c c' : RelayConn) (side : RelaySide),
      Reach RelayConn.step (fun _ _ => True) .init c → Reach RelayConn.step (fun _ _ => True) c c' →
      Copy.Steps (c.copy side) (c'.copy side) ∧ (c'.copy side).Faithful ∧
        ((c.copy side).ended ≠ none → c'.copy side = c.copy side) := by
  refine ⟨fun shutdownEvent s s' i side h h' => ?_, fun c c' side h h' => ?_⟩
  · have hstep : ∀ s a s', Relays.Copying s → True → Relays.step s a = some s' →
        Relays.Copying s' ∧ Copy.Steps ((s.transfer i).way side).copy ((s'.transfer i).way side).copy := by
      intro s a s' hs _ ha
      obtain ⟨hintact, hcopies⟩ := hs.intact.step hs.inv ha
      exact ⟨⟨hs.inv.step ha, hintact⟩, hcopies i side⟩
    have hinit : Relays.Copying (.init shutdownEvent) := ⟨Relays.inv_init _, Relays.intact_init _⟩
    have hkeep : ∀ s a s', Relays.Copying s → True → Relays.step s a = some s' → Relays.Copying s' :=
      fun s a s' hs ht ha => (hstep s a s' hs ht ha).1
    have hs := h.invariant hinit hkeep
    have hlater := h'.simulates hs hstep
    have hintact := (h'.invariant hs hkeep).intact i side
    exact ⟨hlater, Copy.faithful_start.steps ((h.simulates hinit hstep).trans hlater),
      fun hended => Copy.eq_of_ended hended hlater, hintact.len_of_clean⟩
  · have hstep : ∀ c a c', RelayConn.Copying c → True → RelayConn.step c a = some c' →
        RelayConn.Copying c' ∧ Copy.Steps (c.copy side) (c'.copy side) := by
      intro c a c' hc _ ha
      obtain ⟨hlate, hcopies⟩ := hc.inv.copies hc.late ha
      exact ⟨⟨hc.inv.step ha, hlate⟩, hcopies side⟩
    have hinit : RelayConn.Copying .init := ⟨RelayConn.inv_init, fun _ hm => by cases hm⟩
    have hc := h.invariant hinit (fun c a c' hc ht ha => (hstep c a c' hc ht ha).1)
    have hlater := h'.simulates hc hstep
    exact ⟨hlater, Copy.faithful_start.steps ((h.simulates hinit hstep).trans hlater),
      fun hended => Copy.eq_of_ended hended hlater⟩

/-- Either relay passes on three bytes, in two parts, and the end of the stream. -/
theorem relays_copy_streams_three :
    (∃ s, Reach Relays.step (fun _ _ => True) (.init (some false)) s ∧
      ((s.transfer 0).way .upload).copy = ⟨[1, 2, 3], [1, 2, 3], some .clean⟩ ∧
      Copy.Steps .start ((s.transfer 0).way .upload).copy) ∧
    ∃ c, Reach RelayConn.step (fun _ _ => True) .init c ∧ c.copy .upload = ⟨[1, 2, 3], [1, 2, 3], some .clean⟩ ∧
      Copy.Steps .start (c.copy .upload) := by
  obtain ⟨s, hs, hsent⟩ := exists_reach_of_exec Relays.step (fun _ _ => True) (.init (some false))
    [.handler 0 .go, .handler 0 (.ok false), .handler 0 (.ok true), .handler 0 .go, .handler 0 (.both true true),
      .handler 0 (.ok true), .upload 0 (.ok true), .upload 0 .go, .upload 0 (.ready 1), .upload 0 (.received [1, 2, 3]),
      .upload 0 (.sent 2), .upload 0 (.sent 1), .upload 0 .go, .upload 0 (.ready 1), .upload 0 (.received []),
      .upload 0 .go]
    (fun s => ((s.transfer 0).way .upload).copy == ⟨[1, 2, 3], [1, 2, 3], some .clean⟩) (by decide +kernel)
  obtain ⟨c, hc, hcopied⟩ := exists_reach_of_exec RelayConn.step (fun _ _ => True) .init
    [.start .upload true, .complete .upload .waited true true, .complete .upload (.received [1, 2, 3]) true true,
      .complete .upload (.sent 2) true true, .complete .upload (.sent 1) true true, .complete .upload .waited true true,
      .complete .upload (.received []) true true, .advance .upload]
    (fun c => c.copy .upload == ⟨[1, 2, 3], [1, 2, 3], some .clean⟩) (by decide +kernel)
  exact ⟨⟨s, hs, beq_iff_eq.mp hsent, (relays_copy_streams.1 (some false) _ s 0 .upload .start hs).1⟩,
    c, hc, beq_iff_eq.mp hcopied, (relays_copy_streams.2 _ c .upload .start hc).1⟩

end ProxyBridge.Windows
