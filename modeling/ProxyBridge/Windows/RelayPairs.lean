import ProxyBridge.Windows.BlockingRelay

/-! The pairs of the blocking relay. Whoever drops the last reference takes the pair off the list before it
closes the sockets and frees it, so neither the other thread nor a walk of the list touches what is gone. -/
namespace ProxyBridge.Windows
open Runs StreamCopies

theorem RelaySide.other_other (side : RelaySide) : side.other.other = side := by
  cases side <;> rfl

namespace WayPc

/-- How far the last thread has got with what it has to clear away. -/
def stage : WayPc → Nat
  | .unregister => 1
  | .closeClient => 2
  | .closeProxy => 3
  | .freePair => 4
  | .done => 5
  | _ => 0

/-- Between the allocation of the buffer and the first shutdown. -/
def copying : WayPc → Bool
  | .loop | .select | .recv | .send _ => true
  | _ => false

theorem copying_stage {pc : WayPc} (h : pc.copying = true) : pc.stage = 0 ∧ pc ≠ .idle ∧ pc ≠ .start := by
  cases pc <;> simp_all [copying, stage]

end WayPc

/-- The pair, and how often each socket is closed. -/
@[ext] structure Holdings where
  pair : Option RelayPair
  closes : RelaySocket → Nat

namespace Holdings

def untouched (pair : Option RelayPair) : Holdings := ⟨pair, fun _ => 0⟩

/-- What the last thread leaves at each stage. -/
def clearing : Nat → Holdings
  | 1 => .untouched (some ⟨0, true⟩)
  | 2 => .untouched (some ⟨0, false⟩)
  | 3 => ⟨some ⟨0, false⟩, fun | .client => 1 | .proxy => 0⟩
  | 4 => ⟨some ⟨0, false⟩, fun _ => 1⟩
  | _ => ⟨none, fun _ => 1⟩

/-- Two threads at these stages. A thread that has not dropped its reference counts. -/
def relaying (a b : Nat) : Holdings :=
  if a = 0 ∨ b = 0 then .untouched (some ⟨(if a = 0 then 1 else 0) + (if b = 0 then 1 else 0), true⟩)
  else clearing (min a b)

theorem relaying_comm (a b : Nat) : relaying a b = relaying b a :=
  if_congr or_comm (by rw [Int.add_comm]) (by rw [Nat.min_comm])

/-- While the pair is registered no socket is closed. -/
def OpenIfLinked (h : Holdings) : Prop := h.pair.elim false (·.registered) = true → ∃ pair, h = .untouched (some pair)

theorem openIfLinked_clearing (n : Nat) : (clearing n).OpenIfLinked := by
  unfold clearing
  split
  · exact fun _ => ⟨_, rfl⟩
  · exact fun h => nomatch h
  · exact fun h => nomatch h
  · exact fun h => nomatch h
  · exact fun h => nomatch h

theorem openIfLinked_relaying (a b : Nat) : (relaying a b).OpenIfLinked := by
  unfold relaying
  split
  · exact fun _ => ⟨_, rfl⟩
  · exact openIfLinked_clearing _

end Holdings

namespace Transfer

def holdings (t : Transfer) : Holdings := ⟨t.pair, fun s => (t.socket s).closes⟩

def linked (t : Transfer) : Bool := t.pair.elim false (·.registered)

/-- What there has to be, by where the threads stand. -/
def due (way : RelaySide → OneWay) : HandlerPc → Holdings
  | .register => .untouched (some ⟨2, false⟩)
  | .allocConfigs | .createThread | .unregister => .untouched (some ⟨2, true⟩)
  | .freePair => .untouched (some ⟨2, false⟩)
  | .closeProxy => ⟨none, fun | .client => 1 | .proxy => 0⟩
  | .done => ⟨none, fun _ => 1⟩
  | .download | .join => .relaying (way .upload).pc.stage (way .download).pc.stage
  | .idle | .relayStart | .pooled | .allocPair | .closeClient => .untouched none

/-- Both threads are there, and at most one of them clears away. -/
structure Running (way : RelaySide → OneWay) : Prop where
  started : ∀ side, (way side).pc ≠ .idle
  last : ∀ side, (way side).pc.stage ≠ 0 → (way side).pc ≠ .done → (way side.other).pc = .done

def ThreadsFit (way : RelaySide → OneWay) : HandlerPc → Prop
  | .download => Running way
  | .join => Running way ∧ (way .download).pc = .done
  | .done => (∀ side, (way side).pc = .idle) ∨ ∀ side, (way side).pc = .done
  | _ => ∀ side, (way side).pc = .idle

/-- Nothing that is gone was touched, and what is there is what has to be. -/
structure Orderly (t : Transfer) : Prop where
  safe : t.faulted = false
  holds : t.holdings = due t.way t.handler
  threads : ThreadsFit t.way t.handler
  config : ∀ side, t.config side = (t.handler == .createThread || (t.way side).pc == .start)

/-- The list is told of what happened to the pair. -/
def OpFits (t : Transfer) (r : Transfer × ListOp) : Prop :=
  match r.2 with
  | .unlocked | .look => r.1.linked = t.linked
  | .push => t.linked = false ∧ r.1.linked = true
  | .unlink => r.1.linked = false

theorem orderly_idle : idle.Orderly := ⟨rfl, rfl, fun _ => rfl, fun _ => rfl⟩

section Ways
variable {t : Transfer} {side : RelaySide} {signalled : Bool} {input : RelayInput} {r : Transfer × ListOp}

/-- The steps of a relay thread. -/
inductive WayStep (t : Transfer) (side : RelaySide) (signalled : Bool) (input : RelayInput) :
    Transfer × ListOp → Prop where
  | start (buf : Bool) (hpc : (t.way side).pc = .start) :
    WayStep t side signalled input
      (({ t with config := Function.update t.config side false } : Transfer).setWay side ((t.way side).begin buf),
        .unlocked)
  | copy (w : OneWay) (hpc : (t.way side).pc.copying = true)
    (hw : (t.way side).advance signalled (t.socket side.source) (t.socket side.target) (t.way side).pc input = some w) :
    WayStep t side signalled input ((t.use ((t.way side).pc.socket side)).setWay side w, .unlocked)
  | clean (hpc : (t.way side).pc = .finish true) :
    WayStep t side signalled input
      ((t.use (some side.target)).setWay side { t.way side with pc := .drop, ended := some .clean }, .unlocked)
  | broken (hpc : (t.way side).pc = .finish false) :
    WayStep t side signalled input
      ((t.deref.shutdown .client).setWay side { t.way side with pc := .abortProxy, ended := some .broken }, .unlocked)
  | abortProxy (hpc : (t.way side).pc = .abortProxy) :
    WayStep t side signalled input ((t.deref.shutdown .proxy).setPc side .drop, .unlocked)
  | drop (hpc : (t.way side).pc = .drop) : WayStep t side signalled input (t.dropRef side, .unlocked)
  | unregister (hpc : (t.way side).pc = .unregister) :
    WayStep t side signalled input (t.unregisterRelayPair.1.setPc side .closeClient, t.unregisterRelayPair.2)
  | closeClient (hpc : (t.way side).pc = .closeClient) :
    WayStep t side signalled input ((t.deref.closesocket .client).setPc side .closeProxy, .unlocked)
  | closeProxy (hpc : (t.way side).pc = .closeProxy) :
    WayStep t side signalled input ((t.deref.closesocket .proxy).setPc side .freePair, .unlocked)
  | freePair (hpc : (t.way side).pc = .freePair) :
      WayStep t side signalled input (t.freePair.setPc side .done, .unlocked)

theorem wayStep_cases (h : t.wayStep side signalled input = some r) : WayStep t side signalled input r := by
  simp only [wayStep] at h
  split at h
  case h_10 pc input _ _ _ _ _ _ _ _ _ =>
    obtain ⟨w, hw, rfl⟩ := Option.map_eq_some_iff.mp h
    refine .copy w ?_ hw
    cases hpc : (t.way side).pc <;> first | rfl | (rw [hpc] at hw; cases hw)
  all_goals rename_i hpc; obtain rfl := Option.some.inj h
  · exact .start _ hpc
  · exact .clean hpc
  · exact .broken hpc
  · exact .abortProxy hpc
  · exact .drop hpc
  · exact .unregister hpc
  · exact .closeClient hpc
  · exact .closeProxy hpc
  · exact .freePair hpc

/-- The loop ends in front of the shutdowns. -/
private theorem advance_pc {w w' : OneWay} {source target : SocketUse}
    (h : w.advance signalled source target w.pc input = some w') :
    w'.pc.copying = true ∨ ∃ clean, w'.pc = .finish clean := by
  unfold OneWay.advance at h
  split at h
  · obtain rfl := Option.some.inj h
    cases signalled
    · exact .inl rfl
    · exact .inr ⟨_, rfl⟩
  · obtain rfl := Option.some.inj h
    dsimp only
    split
    · exact .inl rfl
    · split
      · exact .inr ⟨_, rfl⟩
      · exact .inl rfl
  · split at h
    · obtain rfl := Option.some.inj h
      dsimp only
      split
      · exact .inr ⟨_, rfl⟩
      · exact .inl rfl
    · cases h
  · split at h
    · obtain rfl := Option.some.inj h
      dsimp only
      split <;> exact .inl rfl
    · cases h
  · exact .inr ⟨_, congrArg OneWay.pc (Option.some.inj h).symm⟩
  · exact .inr ⟨_, congrArg OneWay.pc (Option.some.inj h).symm⟩
  · cases h

/-- What a transfer with both threads keeps, seen from one of them. -/
structure Relayed (t : Transfer) (side : RelaySide) : Prop where
  safe : t.faulted = false
  holds : t.holdings = .relaying (t.way side).pc.stage (t.way side.other).pc.stage
  running : Running t.way
  config : ∀ s, t.config s = ((t.way s).pc == .start)

namespace Relayed

private theorem pair_eq {p : Option RelayPair} {closes : RelaySocket → Nat} (h : t.holdings = ⟨p, closes⟩) :
    t.pair = p :=
  congrArg Holdings.pair h

private theorem closes_eq {p : Option RelayPair} {closes : RelaySocket → Nat} (h : t.holdings = ⟨p, closes⟩)
    (s : RelaySocket) : (t.socket s).closes = closes s := congrFun (congrArg Holdings.closes h) s

/-- While a thread has its reference everything is there. -/
private theorem untouched (h : t.Relayed side) (hstage : (t.way side).pc.stage = 0) :
    t.holdings = .untouched (some ⟨1 + (if (t.way side.other).pc.stage = 0 then 1 else 0), true⟩) := by
  rw [h.holds, hstage, Holdings.relaying, if_pos (.inl rfl), if_pos rfl]

/-- A thread that clears away is the last one. -/
private theorem clearing (h : t.Relayed side) (hstage : (t.way side).pc.stage ≠ 0) (hdone : (t.way side).pc ≠ .done) :
    t.holdings = .clearing (t.way side).pc.stage ∧ (t.way side.other).pc = .done := by
  have hother := h.running.last side hstage hdone
  have hle : (t.way side).pc.stage ≤ 5 := by
    cases (t.way side).pc <;> simp [WayPc.stage]
  have hneither : ¬((t.way side).pc.stage = 0 ∨ WayPc.done.stage = 0) := by
    rintro (hzero | hzero)
    · exact hstage hzero
    · cases hzero
  refine ⟨?_, hother⟩
  rw [h.holds, hother, Holdings.relaying, if_neg hneither, WayPc.stage, Nat.min_eq_left hle]

/-- The thread goes to another place and the other one stays where it is. -/
private theorem move (h : t.Relayed side) {t' : Transfer} {w : OneWay} (hway : t'.way = Function.update t.way side w)
    (hsafe : t'.faulted = false) (hidle : w.pc ≠ .idle)
    (hlast : w.pc.stage ≠ 0 → w.pc ≠ .done → (t.way side.other).pc = .done)
    (hother : (t.way side.other).pc.stage ≠ 0 → (t.way side.other).pc ≠ .done → w.pc = .done)
    (hholds : t'.holdings = .relaying w.pc.stage (t.way side.other).pc.stage) (hstart : w.pc ≠ .start)
    (hconfig : t'.config = Function.update t.config side false) : t'.Relayed side := by
  have hself : t'.way side = w := by rw [hway, Function.update_self]
  have hne : side.other ≠ side := by cases side <;> simp [RelaySide.other]
  have hrest : t'.way side.other = t.way side.other := by rw [hway, Function.update_of_ne hne]
  have hboth : ∀ s, s = side ∨ s = side.other := by
    intro s
    cases s <;> cases side <;> simp [RelaySide.other]
  refine ⟨hsafe, ?_, ⟨fun s => ?_, fun s hs hd => ?_⟩, fun s => ?_⟩
  · rw [hself, hrest, hholds]
  · rcases hboth s with rfl | rfl
    · rw [hself]
      exact hidle
    · rw [hrest]
      exact h.running.started _
  · rcases hboth s with rfl | rfl
    · rw [hself] at hs hd
      rw [hrest]
      exact hlast hs hd
    · rw [hrest] at hs hd
      rw [RelaySide.other_other, hself]
      exact hother hs hd
  · rcases hboth s with rfl | rfl
    · rw [hself, hconfig, Function.update_self, beq_eq_false_iff_ne.mpr hstart]
    · rw [hrest, hconfig, Function.update_of_ne hne]
      exact h.config _

end Relayed

/-- A thread that goes on with its reference. -/
private theorem Relayed.keep (h : t.Relayed side) {t' : Transfer} {w : OneWay}
    (hway : t'.way = Function.update t.way side w) (hsafe : t'.faulted = false) (hold : (t.way side).pc.stage = 0)
    (hnew : w.pc.stage = 0) (hidle : w.pc ≠ .idle) (hstart : w.pc ≠ .start) (hholds : t'.holdings = t.holdings)
    (hconfig : t'.config = Function.update t.config side false) : t'.Relayed side := by
  refine h.move hway hsafe hidle (fun hs => (hs hnew).elim) (fun hs hd => ?_) ?_ hstart hconfig
  · have hdone := h.running.last side.other hs hd
    rw [RelaySide.other_other] at hdone
    rw [hdone] at hold
    cases hold
  · rw [hholds, h.holds, hold, hnew]

private theorem config_same (hconfig : ∀ s, t.config s = ((t.way s).pc == .start)) (hpc : (t.way side).pc ≠ .start) :
    t.config = Function.update t.config side false := by
  have hself : t.config side = false := by rw [hconfig, beq_eq_false_iff_ne.mpr hpc]
  rw [← hself, Function.update_eq_self]

private theorem dropRef_eq {refs : Int} {registered : Bool} (hpair : t.pair = some ⟨refs, registered⟩) :
    t.dropRef side = ({ t.deref with pair := some ⟨refs - 1, registered⟩ } : Transfer).setPc side
      (if refs - 1 = 0 then .unregister else .done) := by
  simp [dropRef, hpair, setPc, setWay, deref]

/-- A call on a socket that is open does no harm. -/
private theorem use_faulted {pair : Option RelayPair} (hsafe : t.faulted = false) (hold : t.holdings = .untouched pair)
    (s : Option RelaySocket) : (t.use s).faulted = false := by
  cases s with
  | none => simp [use, hsafe]
  | some s => simp [use, hsafe, Relayed.closes_eq hold]

private theorem deref_faulted {pair : RelayPair} {closes : RelaySocket → Nat} (hsafe : t.faulted = false)
    (hold : t.holdings = ⟨some pair, closes⟩) : t.deref.faulted = false := by
  simp [deref, hsafe, Relayed.pair_eq hold]

@[simp] private theorem shutdown_holdings (s : RelaySocket) : (t.shutdown s).holdings = t.holdings := by
  refine Holdings.ext rfl (funext fun s' => ?_)
  show (Function.update t.socket s { t.socket s with shut := true } s').closes = (t.socket s').closes
  by_cases he : s' = s
  · subst he
    rw [Function.update_self]
  · rw [Function.update_of_ne he]

private theorem closesocket_holdings {pair : Option RelayPair} {closes : RelaySocket → Nat}
    (hold : t.holdings = ⟨pair, closes⟩) (s : RelaySocket) :
    (t.closesocket s).holdings = ⟨pair, Function.update closes s (closes s + 1)⟩ := by
  refine Holdings.ext (congrArg Holdings.pair hold :) (funext fun s' => ?_)
  show (Function.update t.socket s { t.socket s with closes := (t.socket s).closes + 1 } s').closes = _
  by_cases he : s' = s
  · subst he
    rw [Function.update_self]
    dsimp only
    rw [Function.update_self, ← Relayed.closes_eq hold]
  · rw [Function.update_of_ne he]
    dsimp only
    rw [Function.update_of_ne he]
    exact Relayed.closes_eq hold s'

theorem WayStep.relayed (hs : WayStep t side signalled input r) (h : t.Relayed side) :
    r.1.Relayed side ∧ t.OpFits r ∧ r.1.handler = t.handler := by
  have hconfig : (t.way side).pc ≠ .start → t.config = Function.update t.config side false := config_same h.config
  cases hs with
  | start buf hpc =>
    refine ⟨h.keep rfl h.safe (by rw [hpc]; rfl) ?_ ?_ ?_ rfl rfl, rfl, rfl⟩
    all_goals cases buf <;> simp [OneWay.begin, WayPc.stage]
  | copy w hpc hw =>
    obtain ⟨hold, -, hstart⟩ := WayPc.copying_stage hpc
    have hnew : w.pc.stage = 0 ∧ w.pc ≠ .idle ∧ w.pc ≠ .start := by
      rcases advance_pc hw with hpc' | ⟨clean, hpc'⟩
      · exact WayPc.copying_stage hpc'
      · rw [hpc']
        exact ⟨rfl, nofun, nofun⟩
    exact ⟨h.keep rfl (use_faulted h.safe (h.untouched hold) _) hold hnew.1 hnew.2.1 hnew.2.2 rfl (hconfig hstart),
      rfl, rfl⟩
  | clean hpc =>
    have hold : (t.way side).pc.stage = 0 := by rw [hpc]; rfl
    rw [hpc] at hconfig
    exact ⟨h.keep rfl (use_faulted h.safe (h.untouched hold) _) hold rfl nofun nofun rfl (hconfig nofun), rfl, rfl⟩
  | broken hpc =>
    have hold : (t.way side).pc.stage = 0 := by rw [hpc]; rfl
    have hderef := deref_faulted h.safe (h.untouched hold)
    rw [hpc] at hconfig
    exact ⟨h.keep rfl (use_faulted hderef (h.untouched hold) _) hold rfl nofun nofun (shutdown_holdings ..)
      (hconfig nofun), rfl, rfl⟩
  | abortProxy hpc =>
    have hold : (t.way side).pc.stage = 0 := by rw [hpc]; rfl
    have hderef := deref_faulted h.safe (h.untouched hold)
    rw [hpc] at hconfig
    exact ⟨h.keep rfl (use_faulted hderef (h.untouched hold) _) hold rfl nofun nofun (shutdown_holdings ..)
      (hconfig nofun), rfl, rfl⟩
  | drop hpc =>
    have hstage : (t.way side).pc.stage = 0 := by rw [hpc]; rfl
    have hold := h.untouched hstage
    have hpair := Relayed.pair_eq hold
    rw [hpc] at hconfig
    have hsafe := deref_faulted h.safe hold
    by_cases hother : (t.way side.other).pc.stage = 0
    · -- the other thread has its reference
      rw [if_pos hother] at hpair
      have hnew : t.dropRef side = _ := dropRef_eq hpair
      rw [hnew]
      refine ⟨h.move rfl hsafe nofun (fun _ hd => (hd rfl).elim) (fun hs => (hs hother).elim) ?_ nofun
          (hconfig nofun), ?_,
        rfl⟩
      · rw [hother]
        exact Holdings.ext rfl (congrArg Holdings.closes hold :)
      · simp [OpFits, linked, hpair, setPc, setWay]
    · rw [if_neg hother] at hpair
      have hnew : t.dropRef side = _ := dropRef_eq hpair
      rw [hnew]
      have hdone : (t.way side.other).pc = .done := by
        by_contra hd
        have hlast := h.running.last side.other hother hd
        rw [RelaySide.other_other, hpc] at hlast
        cases hlast
      refine ⟨h.move rfl hsafe nofun (fun _ _ => hdone) (fun _ hd => (hd hdone).elim) ?_ nofun (hconfig nofun), ?_, rfl⟩
      · rw [hdone]
        exact Holdings.ext rfl (congrArg Holdings.closes hold :)
      · simp [OpFits, linked, hpair, setPc, setWay]
  | unregister hpc =>
    obtain ⟨hold, hother⟩ := h.clearing (by rw [hpc]; nofun) (by rw [hpc]; nofun)
    rw [hpc] at hold hconfig
    have hpair := Relayed.pair_eq hold
    have hnew : t.unregisterRelayPair.1.holdings = .untouched (some ⟨0, false⟩) := by
      refine Holdings.ext ?_ (congrArg Holdings.closes hold :)
      show t.pair.map _ = _
      rw [hpair]
      rfl
    refine ⟨h.move rfl (deref_faulted h.safe hold) nofun (fun _ _ => hother) (fun _ hd => (hd hother).elim) ?_ nofun
      (hconfig nofun), ?_, rfl⟩
    · rw [hother]
      exact hnew
    · simp [OpFits, unregisterRelayPair, hpair, linked, setPc, setWay]
  | closeClient hpc =>
    obtain ⟨hold, hother⟩ := h.clearing (by rw [hpc]; nofun) (by rw [hpc]; nofun)
    rw [hpc] at hold hconfig
    have hnew := closesocket_holdings (t := t.deref) hold .client
    refine ⟨h.move rfl (use_faulted (deref_faulted h.safe hold) hold _) nofun (fun _ _ => hother)
      (fun _ hd => (hd hother).elim) ?_ nofun (hconfig nofun), rfl, rfl⟩
    rw [hother]
    exact Eq.trans hnew (Holdings.ext rfl (funext fun s => by cases s <;> rfl))
  | closeProxy hpc =>
    obtain ⟨hold, hother⟩ := h.clearing (by rw [hpc]; nofun) (by rw [hpc]; nofun)
    rw [hpc] at hold hconfig
    have hnew := closesocket_holdings (t := t.deref) hold .proxy
    have hopen : (t.socket .proxy).closes = 0 := Relayed.closes_eq hold .proxy
    refine ⟨h.move rfl ?_ nofun (fun _ _ => hother) (fun _ hd => (hd hother).elim) ?_ nofun (hconfig nofun), rfl, rfl⟩
    · have hderef := deref_faulted h.safe hold
      show (t.deref.faulted || (some RelaySocket.proxy).any fun s => (t.socket s).closes != 0) = false
      simp [hderef, hopen]
    · rw [hother]
      exact Eq.trans hnew (Holdings.ext rfl (funext fun s => by cases s <;> rfl))
  | freePair hpc =>
    obtain ⟨hold, hother⟩ := h.clearing (by rw [hpc]; nofun) (by rw [hpc]; nofun)
    rw [hpc] at hold hconfig
    have hpair := Relayed.pair_eq hold
    refine ⟨h.move rfl (deref_faulted h.safe hold) nofun (fun _ hd => (hd rfl).elim) (fun _ hd => (hd hother).elim) ?_
        nofun
      (hconfig nofun), ?_, rfl⟩
    · rw [hother]
      exact Holdings.ext rfl (congrArg Holdings.closes hold :)
    · simp [OpFits, linked, hpair, setPc, setWay, Transfer.freePair]

theorem WayStep.frame (hs : WayStep t side signalled input r) :
    r.1.way side.other = t.way side.other ∧ r.1.handler = t.handler ∧
      (t.way side).pc ≠ .idle ∧ (t.way side).pc ≠ .done := by
  have hne : side.other ≠ side := by cases side <;> simp [RelaySide.other]
  cases hs with
  | copy w hpc hw =>
    refine ⟨Function.update_of_ne hne .., rfl, (WayPc.copying_stage hpc).2.1, fun hd => ?_⟩
    rw [hd] at hpc
    cases hpc
  | _ => exact ⟨Function.update_of_ne hne .., rfl, by simp [*], by simp [*]⟩

end Ways

section Calls
variable {t : Transfer} {admits signalled : Bool} {input : RelayInput} {r : Transfer × ListOp}

private theorem Orderly.relayed (h : t.Orderly) (hrun : Running t.way)
    (hdue : due t.way t.handler = .relaying (t.way .upload).pc.stage (t.way .download).pc.stage)
    (hh : t.handler ≠ .createThread)
    (side : RelaySide) : t.Relayed side := by
  refine ⟨h.safe, ?_, hrun, fun s => ?_⟩
  · rw [h.holds, hdue]
    cases side with
    | upload => rfl
    | download => exact Holdings.relaying_comm ..
  · rw [h.config, beq_eq_false_iff_ne.mpr hh, Bool.false_or]

private theorem Relayed.holds_sides {side : RelaySide} (h : t.Relayed side) :
    t.holdings = .relaying (t.way .upload).pc.stage (t.way .download).pc.stage := by
  cases side with
  | upload => exact h.holds
  | download => exact h.holds.trans (Holdings.relaying_comm ..)

private theorem Relayed.orderly {side : RelaySide} (h : t.Relayed side)
    (hh : t.handler = .download ∨ t.handler = .join ∧ (t.way .download).pc = .done) : t.Orderly := by
  refine ⟨h.safe, ?_, ?_, fun s => ?_⟩
  · rcases hh with hh | ⟨hh, -⟩ <;> simpa only [due, hh] using h.holds_sides
  · rcases hh with hh | ⟨hh, hd⟩
    · simpa only [ThreadsFit, hh] using h.running
    · simpa only [ThreadsFit, hh] using ⟨h.running, hd⟩
  · rw [h.config]
    rcases hh with hh | ⟨hh, -⟩ <;> rw [hh] <;> rfl

/-- A step of the upload thread. -/
theorem Orderly.upload (h : t.Orderly) (hs : t.wayStep .upload signalled input = some r) :
    r.1.Orderly ∧ t.OpFits r := by
  have hstep := wayStep_cases hs
  obtain ⟨hother, -, hidle, hdone⟩ := hstep.frame
  have hthreads := h.threads
  cases hh : t.handler with
  | download =>
    simp only [ThreadsFit, hh] at hthreads
    obtain ⟨hr, hop, hsame⟩ := hstep.relayed (h.relayed hthreads (by rw [hh]; rfl) (by rw [hh]; nofun) .upload)
    exact ⟨hr.orderly (.inl (hsame.trans hh)), hop⟩
  | join =>
    simp only [ThreadsFit, hh] at hthreads
    obtain ⟨hr, hop, hsame⟩ := hstep.relayed (h.relayed hthreads.1 (by rw [hh]; rfl) (by rw [hh]; nofun) .upload)
    exact ⟨hr.orderly (.inr ⟨hsame.trans hh, (congrArg OneWay.pc hother).trans hthreads.2⟩), hop⟩
  | done =>
    simp only [ThreadsFit, hh] at hthreads
    rcases hthreads with hall | hall
    · exact (hidle (hall .upload)).elim
    · exact (hdone (hall .upload)).elim
  | _ =>
    simp only [ThreadsFit, hh] at hthreads
    exact (hidle (hthreads .upload)).elim

/-- A pair with a thread in its loop is on the list. -/
theorem Orderly.linked_of_copying (h : t.Orderly) {side : RelaySide} (hpc : (t.way side).pc.copying = true) :
    t.linked = true := by
  have hstage := WayPc.copying_stage hpc
  have hthreads := h.threads
  have hrelayed : Running t.way ∧ due t.way t.handler = .relaying (t.way .upload).pc.stage (t.way .download).pc.stage ∧
      t.handler ≠ .createThread := by
    cases hh : t.handler with
    | download =>
      rw [hh] at hthreads
      exact ⟨hthreads, rfl, nofun⟩
    | join =>
      rw [hh] at hthreads
      exact ⟨hthreads.1, rfl, nofun⟩
    | done =>
      rw [hh] at hthreads
      rcases hthreads with hall | hall
      · exact (hstage.2.1 (hall side)).elim
      · rw [hall side] at hpc
        cases hpc
    | _ =>
      rw [hh] at hthreads
      exact (hstage.2.1 (hthreads side)).elim
  obtain ⟨hrun, hdue, hh⟩ := hrelayed
  have hold := (h.relayed hrun hdue hh side).untouched hstage.1
  rw [linked, Relayed.pair_eq hold]
  rfl

/-- Where no thread has been started. -/
private theorem Orderly.alone (hsafe : t.faulted = false) (hidle : ∀ side, (t.way side).pc = .idle)
    (hholds : t.holdings = due t.way t.handler) (hhandler : t.handler ≠ .download ∧ t.handler ≠ .join)
    (hconfig : ∀ side, t.config side = (t.handler == .createThread)) : t.Orderly := by
  refine ⟨hsafe, hholds, ?_, fun side => ?_⟩
  · cases hh : t.handler <;> simp_all [ThreadsFit]
  · rw [hconfig, hidle]
    exact (Bool.or_false _).symm

private theorem Orderly.config_none (h : t.Orderly) (hidle : ∀ side, (t.way side).pc = .idle)
    (hh : t.handler ≠ .createThread) (side : RelaySide) : t.config side = false := by
  rw [h.config, hidle, beq_eq_false_iff_ne.mpr hh]
  rfl

/-- A step of the thread of `transfer_handler`. -/
theorem Orderly.handler (h : t.Orderly) (hs : t.handlerStep admits signalled input = some r) :
    r.1.Orderly ∧ t.OpFits r := by
  have hthreads := h.threads
  have hholds := h.holds
  have hconfig := h.config
  unfold handlerStep at hs
  split at hs
  case h_1 =>
    rename_i hh
    obtain rfl := Option.some.inj hs
    simp only [ThreadsFit, due, hh] at hthreads hholds
    have hnone := h.config_none hthreads (by rw [hh]; nofun)
    exact ⟨.alone h.safe hthreads hholds (by simp) hnone, rfl⟩
  case h_2 =>
    rename_i pooled hh
    obtain rfl := Option.some.inj hs
    simp only [ThreadsFit, due, hh] at hthreads hholds
    have hnone := h.config_none hthreads (by rw [hh]; nofun)
    refine ⟨?_, rfl⟩
    cases pooled <;> exact .alone h.safe hthreads hholds (by simp) hnone
  case h_3 =>
    rename_i pair hh
    obtain rfl := Option.some.inj hs
    simp only [ThreadsFit, due, hh] at hthreads hholds
    have hnone := h.config_none hthreads (by rw [hh]; nofun)
    cases pair with
    | false => exact ⟨.alone h.safe hthreads hholds (by simp) hnone, rfl⟩
    | true =>
      refine ⟨.alone h.safe hthreads ?_ (by simp) hnone, ?_⟩
      · exact Holdings.ext rfl (congrArg Holdings.closes hholds :)
      · simp [OpFits, linked, Relayed.pair_eq hholds]
  case h_4 =>
    rename_i hh
    simp only [ThreadsFit, due, hh] at hthreads hholds
    have hnone := h.config_none hthreads (by rw [hh]; nofun)
    have hpair := Relayed.pair_eq hholds
    obtain rfl := Option.some.inj hs
    cases admits with
    | false => exact ⟨.alone h.safe hthreads hholds (by simp) hnone, rfl⟩
    | true =>
      refine ⟨.alone (deref_faulted h.safe hholds) hthreads ?_ (by simp) hnone, ?_⟩
      · refine Holdings.ext ?_ (congrArg Holdings.closes hholds :)
        simp [holdings, registerRelayPair, hpair, due, Holdings.untouched]
      · simp [OpFits, linked, registerRelayPair, hpair]
  case h_5 =>
    rename_i up dn hh
    obtain rfl := Option.some.inj hs
    simp only [ThreadsFit, due, hh] at hthreads hholds
    have hnone := h.config_none hthreads (by rw [hh]; nofun)
    cases hboth : up && dn with
    | false => exact ⟨.alone h.safe hthreads hholds (by simp) hnone, rfl⟩
    | true => exact ⟨.alone h.safe hthreads hholds (by simp) (fun _ => rfl), rfl⟩
  case h_6 =>
    rename_i thread hh
    obtain rfl := Option.some.inj hs
    simp only [ThreadsFit, due, hh] at hthreads hholds hconfig
    cases thread with
    | false => exact ⟨.alone h.safe hthreads hholds (by simp) (fun _ => rfl), rfl⟩
    | true =>
      refine ⟨@Relayed.orderly _ .upload ⟨h.safe, hholds, ⟨fun _ => nofun, fun _ hs => (hs rfl).elim⟩, hconfig⟩
        (.inl rfl), rfl⟩
  case h_7 =>
    rename_i hh
    simp only [ThreadsFit, due, hh] at hthreads hholds hconfig
    have hr := h.relayed hthreads (by rw [hh]; rfl) (by rw [hh]; nofun) .download
    split at hs
    · rename_i hdone
      split at hs
      · obtain rfl := Option.some.inj hs
        exact ⟨@Relayed.orderly _ .download ⟨hr.safe, hr.holds, ⟨hthreads.started, hthreads.last⟩, hr.config⟩
          (.inr ⟨rfl, hdone⟩), rfl⟩
      · cases hs
    · obtain ⟨hr', hop, hsame⟩ := (wayStep_cases hs).relayed hr
      exact ⟨hr'.orderly (.inl (hsame.trans hh)), hop⟩
  case h_8 =>
    rename_i hh
    simp only [ThreadsFit, due, hh] at hthreads hholds hconfig
    split at hs
    · rename_i hdone
      obtain rfl := Option.some.inj hs
      have hall : ∀ side, (t.way side).pc = .done := by
        intro side
        cases side with
        | upload => exact hdone
        | download => exact hthreads.2
      rw [hall, hall] at hholds
      exact ⟨⟨h.safe, hholds, .inr hall, hconfig⟩, rfl⟩
    · cases hs
  case h_9 =>
    rename_i hh
    simp only [ThreadsFit, due, hh] at hthreads hholds
    have hnone := h.config_none hthreads (by rw [hh]; nofun)
    have hpair := Relayed.pair_eq hholds
    obtain rfl := Option.some.inj hs
    refine ⟨.alone (deref_faulted h.safe hholds) hthreads ?_ (by simp) hnone, ?_⟩
    · refine Holdings.ext ?_ (congrArg Holdings.closes hholds :)
      simp [holdings, unregisterRelayPair, hpair, due, Holdings.untouched]
    · simp [OpFits, linked, unregisterRelayPair, hpair]
  case h_10 =>
    rename_i hh
    simp only [ThreadsFit, due, hh] at hthreads hholds
    have hnone := h.config_none hthreads (by rw [hh]; nofun)
    have hpair := Relayed.pair_eq hholds
    obtain rfl := Option.some.inj hs
    refine ⟨.alone (deref_faulted h.safe hholds) hthreads ?_ (by simp) hnone, ?_⟩
    · exact Holdings.ext rfl (congrArg Holdings.closes hholds :)
    · simp [OpFits, linked, freePair, hpair]
  case h_11 =>
    rename_i hh
    simp only [ThreadsFit, due, hh] at hthreads hholds
    have hnone := h.config_none hthreads (by rw [hh]; nofun)
    obtain rfl := Option.some.inj hs
    refine ⟨.alone (use_faulted h.safe hholds _) hthreads ?_ (by simp) hnone, rfl⟩
    exact (closesocket_holdings hholds .client).trans (Holdings.ext rfl (funext fun s => by cases s <;> rfl))
  case h_12 =>
    rename_i hh
    simp only [ThreadsFit, due, hh] at hthreads hholds hconfig
    obtain rfl := Option.some.inj hs
    have hopen : (t.socket .proxy).closes = 0 := Relayed.closes_eq hholds .proxy
    refine ⟨⟨?_, ?_, .inl hthreads, ?_⟩, rfl⟩
    · show (t.faulted || (some RelaySocket.proxy).any fun s => (t.socket s).closes != 0) = false
      simp [h.safe, hopen]
    · exact (closesocket_holdings hholds .proxy).trans (Holdings.ext rfl (funext fun s => by cases s <;> rfl))
    · exact hconfig
  case h_13 => cases hs

private theorem openIfLinked_due (way : RelaySide → OneWay) (handler : HandlerPc) : (due way handler).OpenIfLinked := by
  unfold due
  split
  all_goals first
    | exact Holdings.openIfLinked_relaying _ _
    | exact fun _ => ⟨_, rfl⟩
    | exact fun h => by cases h

/-- A walk comes to the pair. -/
theorem Orderly.shutdownPair (h : t.Orderly) (hl : t.linked = true) :
    ((t.deref.shutdown .client).shutdown .proxy).Orderly := by
  have hlinked : t.holdings.pair.elim false (·.registered) = true := hl
  rw [h.holds] at hlinked
  obtain ⟨pair, hopen⟩ := openIfLinked_due _ _ hlinked
  have hold : t.holdings = .untouched (some pair) := h.holds.trans hopen
  have hclient : (t.deref.shutdown .client).faulted = false := use_faulted (deref_faulted h.safe hold) hold _
  have hsame : (t.deref.shutdown .client).holdings = .untouched (some pair) := (shutdown_holdings _).trans hold
  exact ⟨use_faulted hclient hsame _, ((shutdown_holdings _).trans hsame).trans hopen.symm,
    h.threads, h.config⟩

@[simp] theorem shutdownPair_linked (t : Transfer) :
    ((t.deref.shutdown .client).shutdown .proxy).linked = t.linked := rfl

end Calls
end Transfer

namespace Relays

/-- The list has the registered pairs, each once, and a walk that holds the lock has only pairs of the list
before it. -/
structure Inv (s : Relays) : Prop where
  orderly : ∀ i, (s.transfer i).Orderly
  listed : ∀ i, i ∈ s.activeRelayPairs ↔ (s.transfer i).linked = true
  nodup : s.activeRelayPairs.Nodup
  walks : ∀ w ∈ s.walks, w.rest ⊆ s.activeRelayPairs

theorem inv_init (shutdownEvent : Option Bool) : Inv (init shutdownEvent) where
  orderly _ := Transfer.orderly_idle
  listed i := by simp [init, Transfer.linked, Transfer.idle]
  nodup := .nil
  walks _ h := by cases h

variable {s s' : Relays} {i : Nat} {r : Transfer × ListOp}

private theorem Inv.apply (h : Inv s) (hr : r.1.Orderly) (hop : (s.transfer i).OpFits r) (hs : s.apply i r = some s') :
    Inv s' := by
  unfold Relays.apply at hs
  split at hs
  · cases hs
  rename_i hlock
  obtain rfl := Option.some.inj hs
  have horderly : ∀ j, (Function.update s.transfer i r.1 j).Orderly := by
    intro j
    by_cases hj : j = i
    · rw [hj, Function.update_self]
      exact hr
    · rw [Function.update_of_ne hj]
      exact h.orderly j
  obtain ⟨t, op⟩ := r
  cases op with
  | unlocked | look =>
    refine ⟨horderly, fun j => ?_, h.nodup, h.walks⟩
    by_cases hj : j = i
    · subst hj
      simp only [Function.update_self]
      rw [show t.linked = _ from hop]
      exact h.listed j
    · simp only [Function.update_of_ne hj]
      exact h.listed j
  | push =>
    have hnone : s.walks = [] := by simpa using hlock
    refine ⟨horderly, fun j => ?_, List.nodup_cons.mpr ⟨?_, h.nodup⟩, fun w hw => ?_⟩
    · by_cases hj : j = i
      · subst hj
        simp only [Function.update_self, List.mem_cons_self, true_iff]
        exact hop.2
      · simp only [Function.update_of_ne hj, List.mem_cons, hj, false_or]
        exact h.listed j
    · intro hm
      have hlinked := (h.listed i).mp hm
      rw [hop.1] at hlinked
      cases hlinked
    · rw [show _ = s.walks from rfl, hnone] at hw
      cases hw
  | unlink =>
    have hnone : s.walks = [] := by simpa using hlock
    refine ⟨horderly, fun j => ?_, h.nodup.erase i, fun w hw => ?_⟩
    · simp only [h.nodup.mem_erase_iff]
      by_cases hj : j = i
      · subst hj
        simp only [Function.update_self, ne_eq, not_true_eq_false, false_and, false_iff, Bool.not_eq_true]
        exact hop
      · simp only [Function.update_of_ne hj, ne_eq, hj, not_false_eq_true, true_and]
        exact h.listed j
    · rw [show _ = s.walks from rfl, hnone] at hw
      cases hw

theorem Inv.step {a : RelaysAction} (h : Inv s) (hs : s.step a = some s') : Inv s' := by
  cases a with
  | handler i input =>
    obtain ⟨r, hr, hs⟩ := Option.bind_eq_some_iff.mp hs
    obtain ⟨ho, hop⟩ := (h.orderly i).handler hr
    exact h.apply ho hop hs
  | upload i input =>
    obtain ⟨r, hr, hs⟩ := Option.bind_eq_some_iff.mp hs
    obtain ⟨ho, hop⟩ := (h.orderly i).upload hr
    exact h.apply ho hop hs
  | clearRunning =>
    obtain rfl := Option.some.inj hs
    exact ⟨h.orderly, h.listed, h.nodup, h.walks⟩
  | setEvent =>
    obtain ⟨_, -, rfl⟩ := Option.map_eq_some_iff.mp hs
    exact ⟨h.orderly, h.listed, h.nodup, h.walks⟩
  | walk =>
    obtain rfl := Option.some.inj hs
    refine ⟨h.orderly, h.listed, h.nodup, fun w hw => ?_⟩
    rcases List.mem_cons.mp hw with rfl | hw
    · exact List.Subset.refl _
    · exact h.walks w hw
  | shutdownPair k =>
    simp only [Relays.step] at hs
    split at hs
    · rename_i i rest stopping hw
      obtain rfl := Option.some.inj hs
      have hmem := List.mem_of_getElem? hw
      have hlinked := (h.listed i).mp (h.walks _ hmem List.mem_cons_self)
      refine ⟨fun j => ?_, fun j => ?_, h.nodup, fun w hw' => ?_⟩
      · by_cases hj : j = i
        · subst hj
          simp only [Function.update_self]
          exact (h.orderly j).shutdownPair hlinked
        · simp only [Function.update_of_ne hj]
          exact h.orderly j
      · by_cases hj : j = i
        · subst hj
          simp only [Function.update_self, Transfer.shutdownPair_linked]
          exact h.listed j
        · simp only [Function.update_of_ne hj]
          exact h.listed j
      · rcases List.mem_or_eq_of_mem_set hw' with hw' | rfl
        · exact h.walks w hw'
        · exact fun j hj => h.walks _ hmem (List.mem_cons_of_mem _ hj)
    · cases hs
  | endWalk k =>
    simp only [Relays.step] at hs
    split at hs
    · obtain rfl := Option.some.inj hs
      exact ⟨h.orderly, h.listed, h.nodup, fun w hw => h.walks w (List.mem_of_mem_eraseIdx hw)⟩
    · cases hs

theorem Inv.reach {ok : Relays → RelaysAction → Prop} (h : Inv s) (hr : Reach Relays.step ok s s') : Inv s' :=
  hr.invariant h (fun _ _ _ hi _ hs => hi.step hs)

/-- What a call of `transfer_handler` leaves behind. -/
structure Cleared (t : Transfer) : Prop where
  pair : t.pair = none
  config : ∀ side, t.config side = false
  closes : ∀ socket, (t.socket socket).closes = 1
  threads : ∀ side, (t.way side).pc = .idle ∨ (t.way side).pc = .done

private theorem cleared_of_done {t : Transfer} (h : t.Orderly) (hdone : t.handler = .done) : Cleared t := by
  have hholds := h.holds
  have hthreads := h.threads
  rw [hdone] at hholds hthreads
  have hways : ∀ side, (t.way side).pc = .idle ∨ (t.way side).pc = .done := by
    intro side
    rcases hthreads with hall | hall
    · exact .inl (hall side)
    · exact .inr (hall side)
  refine ⟨congrArg Holdings.pair hholds, fun side => ?_,
    fun socket => congrFun (congrArg Holdings.closes hholds) socket, hways⟩
  rw [h.config, hdone]
  rcases hways side with hpc | hpc <;> rw [hpc] <;> rfl

/-- However the threads of any number of calls and the walks of a stop take turns, nothing that is gone is
touched, the list is that of the registered pairs, and a call that ends here has cleared away everything: each
socket is closed once. A call that the pool has taken does not end here. -/
theorem relay_pairs_safe {shutdownEvent : Option Bool}
    (h : Reach step (fun _ _ => True) (init shutdownEvent) s) (i : Nat) :
    (s.transfer i).faulted = false ∧ (i ∈ s.activeRelayPairs ↔ (s.transfer i).pair.any (·.registered) = true) ∧
      s.activeRelayPairs.Nodup ∧ ((s.transfer i).handler = .done → Cleared (s.transfer i)) := by
  have hinv := (inv_init shutdownEvent).reach h
  refine ⟨(hinv.orderly i).safe, (hinv.listed i).trans ?_, hinv.nodup, cleared_of_done (hinv.orderly i)⟩
  rw [Transfer.linked]
  cases (s.transfer i).pair <;> rfl

/-- The proxy sends a byte and closes its side, a stop breaks the upload, and everything is cleared away. -/
theorem relay_pairs_safe_stopped :
    ∃ s, Reach step (fun _ _ => True) (init (some false)) s ∧ (s.transfer 0).handler = .done ∧
      ((s.transfer 0).way .download).sent = [7] ∧ (s.transfer 0).faulted = false ∧ Cleared (s.transfer 0) := by
  obtain ⟨s, hr, ht⟩ := exists_reach_of_exec step (fun _ _ => True) (init (some false))
    [.handler 0 .go, .handler 0 (.ok false), .handler 0 (.ok true), .handler 0 .go, .handler 0 (.both true true),
      .handler 0 (.ok true), .upload 0 (.ok true), .handler 0 (.ok true), .handler 0 .go, .handler 0 (.ready 1),
      .handler 0 (.received [7]), .handler 0 (.sent 1), .upload 0 .go, .handler 0 .go, .handler 0 (.ready 1),
      .handler 0 (.received []), .handler 0 .go, .clearRunning, .setEvent, .walk, .shutdownPair 0, .endWalk 0,
      .upload 0 (.ready 1), .upload 0 .failed, .upload 0 .go, .handler 0 .go, .upload 0 .go, .upload 0 .go,
      .upload 0 .go,
      .upload 0 .go, .upload 0 .go, .upload 0 .go, .handler 0 .go, .handler 0 .go]
    (fun s => (s.transfer 0).handler == .done && ((s.transfer 0).way .download).sent == [7]) (by decide +kernel)
  obtain ⟨hdone, hsent⟩ := Bool.and_eq_true_iff.mp ht
  obtain ⟨hsafe, -, -, hcleared⟩ := relay_pairs_safe hr 0
  exact ⟨s, hr, beq_iff_eq.mp hdone, beq_iff_eq.mp hsent, hsafe, hcleared (beq_iff_eq.mp hdone)⟩

end Relays
end ProxyBridge.Windows
