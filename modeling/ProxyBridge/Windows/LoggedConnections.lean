import ProxyBridge.Library.Runs
import ProxyBridge.Windows.Types

/-! The list of logged connections and its running length. Each section under the exclusive lock is
one step; `add_logged_connection` has two of them when it evicts. -/
namespace ProxyBridge.Windows
open Runs

structure LoggedConnection where
  pid : UInt32
  destIp : UInt32
  destPort : UInt16
  action : RuleAction
  deriving DecidableEq

/-- A call that has cut off `toFree` and released the lock to free it. -/
structure Eviction where
  logged : LoggedConnection
  toFree : List LoggedConnection

structure ConnectionLog where
  loggedConnections : List LoggedConnection
  loggedCount : Int
  evictions : List Eviction

/-- `add` is the first section of a call and `resume` the second one of the call at an index. `alloc`
says whether `malloc` succeeds. -/
inductive LogAction where
  | add (logged : LoggedConnection) (alloc : Bool)
  | resume (i : Nat) (alloc : Bool)
  | clear
  | cleanup

namespace ConnectionLog

def init : ConnectionLog := ⟨[], 0, []⟩

/-- The end of `add_logged_connection`. -/
def push (s : ConnectionLog) (logged : LoggedConnection) (alloc : Bool) : ConnectionLog :=
  if alloc then
    { s with loggedConnections := logged :: s.loggedConnections, loggedCount := s.loggedCount + 1 }
  else s

/-- The walk over 98 entries ends at `temp`, behind which the list is cut. -/
def addLoggedConnection (s : ConnectionLog) (logged : LoggedConnection) (alloc : Bool) : ConnectionLog :=
  if s.loggedCount ≥ 100 then
    match s.loggedConnections.drop 98 with
    | _ :: next :: rest =>
      { s with
        loggedConnections := s.loggedConnections.take 99
        evictions := s.evictions ++ [⟨logged, next :: rest⟩] }
    | _ => s.push logged alloc
  else s.push logged alloc

def resumeAdd (s : ConnectionLog) (i : Nat) (e : Eviction) (alloc : Bool) : ConnectionLog :=
  let freed := e.toFree.length
  { s with loggedCount := s.loggedCount - freed, evictions := s.evictions.eraseIdx i }.push e.logged alloc

def isConnectionAlreadyLogged (s : ConnectionLog) (logged : LoggedConnection) : Bool :=
  s.loggedConnections.any (fun l => l.pid == logged.pid && l.destIp == logged.destIp &&
    l.destPort == logged.destPort && l.action == logged.action)

def clearLoggedConnections (s : ConnectionLog) : ConnectionLog :=
  { s with loggedConnections := [], loggedCount := 0 }

/-- The last section of `cleanup_stale_connections`. It counts the list itself and leaves the counter. -/
def trimLoggedConnections (s : ConnectionLog) : ConnectionLog :=
  if s.loggedConnections.length > 100 then { s with loggedConnections := s.loggedConnections.take 100 } else s

def step (s : ConnectionLog) : LogAction → Option ConnectionLog
  | .add logged alloc => some (s.addLoggedConnection logged alloc)
  | .resume i alloc => s.evictions[i]?.map (fun e => s.resumeAdd i e alloc)
  | .clear => some s.clearLoggedConnections
  | .cleanup => some s.trimLoggedConnections

/-- While a call is between its two sections the list is not cleared and no other call adds to it. -/
def Undisturbed (s : ConnectionLog) : LogAction → Prop
  | .add _ alloc => alloc = true → s.evictions = []
  | .clear => s.evictions = []
  | .resume _ _ | .cleanup => True

/-- The counter is the length of the list, and of what has been cut off and not been counted yet. -/
structure Inv (s : ConnectionLog) : Prop where
  bound : s.loggedConnections.length ≤ 100
  idle : s.evictions = [] → s.loggedCount = s.loggedConnections.length
  evicting : s.evictions ≠ [] → s.loggedConnections.length = 99 ∧ s.loggedCount = 100 ∧
    ∃ e, s.evictions = [e] ∧ e.toFree.length = 1

theorem inv_init : Inv init := ⟨Nat.zero_le _, fun _ => rfl, fun h => (h rfl).elim⟩

section Step
variable {s : ConnectionLog} (logged : LoggedConnection) (alloc : Bool)

/-- An entry is added to a list that has room for it. -/
private theorem Inv.push (h : Inv s) (hidle : s.evictions = []) (hroom : s.loggedConnections.length < 100) :
    Inv (s.push logged alloc) := by
  cases alloc with
  | false => exact h
  | true =>
    refine ⟨hroom, fun _ => ?_, fun hne => (hne hidle).elim⟩
    have hcount := h.idle hidle
    simp only [ConnectionLog.push, if_true, List.length_cons, hcount]
    rfl

private theorem Inv.add (h : Inv s) (hok : alloc = true → s.evictions = []) :
    Inv (s.addLoggedConnection logged alloc) := by
  unfold addLoggedConnection
  by_cases hidle : s.evictions = []
  · have hcount := h.idle hidle
    have hbound := h.bound
    split
    · have hfull : s.loggedConnections.length = 100 := by omega
      split
      · rename_i _ next rest he
        have hcut := congrArg List.length he
        simp only [List.length_drop, List.length_cons] at hcut
        refine ⟨?_, fun hev => ?_, fun _ => ⟨?_, ?_, ⟨logged, next :: rest⟩, ?_, ?_⟩⟩
        · simp only [List.length_take]
          omega
        · simp at hev
        · simp only [List.length_take]
          omega
        · exact hcount.trans (congrArg Int.ofNat hfull)
        · rw [hidle, List.nil_append]
        · simp only [List.length_cons]
          omega
      · rename_i hshort
        obtain ⟨a, b, l, he⟩ : ∃ a b l, s.loggedConnections.drop 98 = a :: b :: l := by
          have hlen : (s.loggedConnections.drop 98).length = 2 := by rw [List.length_drop]; omega
          obtain ⟨a, b, he⟩ := List.length_eq_two.mp hlen
          exact ⟨a, b, [], he⟩
        exact (hshort a b l he).elim
    · exact h.push logged alloc hidle (by omega)
  · obtain ⟨hlen, hcount, -⟩ := h.evicting hidle
    have halloc : alloc = false := Bool.eq_false_iff.mpr (fun ha => hidle (hok ha))
    rw [if_pos (by omega)]
    split
    · rename_i he
      have hcut := congrArg List.length he
      simp only [List.length_drop, List.length_cons] at hcut
      omega
    · rw [halloc]
      exact h

private theorem Inv.resume (h : Inv s) {i : Nat} {e : Eviction} (he : s.evictions[i]? = some e) :
    Inv (s.resumeAdd i e alloc) := by
  have hne : s.evictions ≠ [] := fun hc => by simp [hc] at he
  obtain ⟨hlen, hcount, e', hev, hfree⟩ := h.evicting hne
  rw [hev] at he
  obtain ⟨rfl, rfl⟩ : i = 0 ∧ e' = e := by
    cases i with
    | zero => exact ⟨rfl, Option.some.inj he⟩
    | succ i => simp at he
  have hidle : Inv { s with loggedCount := s.loggedCount - e'.toFree.length, evictions := s.evictions.eraseIdx 0 } := by
    refine ⟨h.bound, fun _ => ?_, fun hc => ?_⟩
    · simp only [hcount, hlen, hfree]
      rfl
    · simp [hev] at hc
  exact hidle.push e'.logged alloc (by simp [hev]) (by simp only [hlen]; decide)

theorem Inv.step {s' : ConnectionLog} {a : LogAction} (h : Inv s) (hok : Undisturbed s a) (hs : s.step a = some s') :
    Inv s' := by
  cases a with
  | add logged alloc => exact Option.some.inj hs ▸ h.add logged alloc hok
  | resume i alloc =>
    obtain ⟨e, he, rfl⟩ := Option.map_eq_some_iff.mp hs
    exact h.resume alloc he
  | clear =>
    obtain rfl := Option.some.inj hs
    exact ⟨Nat.zero_le _, fun _ => rfl, fun hne => (hne hok).elim⟩
  | cleanup =>
    obtain rfl := Option.some.inj hs
    have hbound := h.bound
    rw [trimLoggedConnections, if_neg (by omega)]
    exact h

end Step

/-- In a run without such a disturbance the counter is right whenever no call is evicting, and the
list stays within its bound. -/
theorem logged_count_right_undisturbed {s : ConnectionLog} (h : Reach step Undisturbed init s) :
    (s.evictions = [] → s.loggedCount = s.loggedConnections.length) ∧ s.loggedConnections.length ≤ 100 := by
  have hinv := h.invariant inv_init (fun _ _ _ hi hok hs => hi.step hok hs)
  exact ⟨hinv.idle, hinv.bound⟩

instance (s : ConnectionLog) (a : LogAction) : Decidable (Undisturbed s a) :=
  match a with
  | .add _ alloc => decidable_of_iff (alloc = true → s.evictions.isEmpty = true) (by simp [Undisturbed])
  | .clear => decidable_of_iff (s.evictions.isEmpty = true) (by simp [Undisturbed])
  | .resume _ _ | .cleanup => isTrue trivial

/-- A connection to some host, of a process with number 4. -/
def someLogged : LoggedConnection := ⟨4, 0x0100007f, 80, .direct⟩

/-- The list fills up, and one more call evicts the oldest entry. -/
theorem logged_count_right_after_eviction :
    ∃ s, Reach step Undisturbed init s ∧ s.evictions = [] ∧ s.loggedConnections.length = 100 ∧ s.loggedCount = 100 := by
  obtain ⟨s, hr, ht⟩ := exists_reach_of_exec step Undisturbed init
    (List.replicate 101 (.add someLogged true) ++ [.cleanup, .resume 0 true])
    (fun s => s.evictions.isEmpty && s.loggedConnections.length == 100) (by decide +kernel)
  obtain ⟨hev, hlen⟩ := Bool.and_eq_true_iff.mp ht
  have hidle : s.evictions = [] := List.isEmpty_iff.mp hev
  have hfull : s.loggedConnections.length = 100 := beq_iff_eq.mp hlen
  refine ⟨s, hr, hidle, hfull, ?_⟩
  rw [(logged_count_right_undisturbed hr).1 hidle, hfull]
  rfl

/-- The list is cleared while a call evicts: the counter stays one behind. Another call adds
meanwhile: the list grows beyond its bound. -/
theorem logged_count_wrong_disturbed :
    (∃ s, Reach step (fun _ _ => True) init s ∧ s.evictions = [] ∧
      s.loggedCount ≠ s.loggedConnections.length) ∧
    ∃ s, Reach step (fun _ _ => True) init s ∧ s.loggedConnections.length = 101 := by
  constructor
  · obtain ⟨s, hr, ht⟩ := exists_reach_of_exec step (fun _ _ => True) init
      (List.replicate 101 (.add someLogged true) ++ [.clear, .resume 0 true])
      (fun s => s.evictions.isEmpty && s.loggedCount != s.loggedConnections.length) (by decide +kernel)
    obtain ⟨hev, hcount⟩ := Bool.and_eq_true_iff.mp ht
    exact ⟨s, hr, List.isEmpty_iff.mp hev, by simpa using hcount⟩
  · obtain ⟨s, hr, ht⟩ := exists_reach_of_exec step (fun _ _ => True) init
      (List.replicate 102 (.add someLogged true) ++ [.resume 0 true])
      (fun s => s.loggedConnections.length == 101) (by decide +kernel)
    exact ⟨s, hr, beq_iff_eq.mp ht⟩

end ConnectionLog
end ProxyBridge.Windows
