import ProxyBridge.Windows.PortBitmap

/-! Runs of operations on the decision bitmaps, with the words as the signed `LONG` they are declared
as and the two settings and `ProxyBridge_Stop` that clear all of them. -/
namespace ProxyBridge.Windows

/-- `volatile LONG [2048]`. -/
abbrev LongWords := Fin 2048 → Int32

/-- `(bitmap[p >> 5] >> (p & 31)) & 1`, where `>>` of a `LONG` copies its sign. -/
def readBit (w : LongWords) (p : UInt16) : Int32 := (w (wordIndex p) >>> (bitIndex p).toInt32) &&& 1

def interlockedOr (w : LongWords) (i : Fin 2048) (v : Int32) : LongWords := Function.update w i (w i ||| v)

def interlockedAnd (w : LongWords) (i : Fin 2048) (v : Int32) : LongWords := Function.update w i (w i &&& v)

/-- The globals the operations read and write. -/
structure PortGlobals where
  portDecidedBitmap : LongWords
  portDirectBitmap : LongWords
  loopbackBypassEnabled : Int32
  proxyUdpDnsEnabled : Int32
  running : Bool

inductive PortOp where
  | portSetDirect (p : UInt16)
  | portSetDecided (p : UInt16)
  | portClear (p : UInt16)
  | setLoopbackBypassEnabled (enable : Int32)
  | setProxyUdpDnsEnabled (enable : Int32)
  | start (started : Bool)
  | stop

namespace PortGlobals

/-- The globals when the library is loaded. -/
def init : PortGlobals := ⟨fun _ => 0, fun _ => 0, 0, 0, false⟩

def portIsDecided (g : PortGlobals) (p : UInt16) : Int32 := readBit g.portDecidedBitmap p

def portIsDirect (g : PortGlobals) (p : UInt16) : Int32 := readBit g.portDirectBitmap p

def portSetDirect (g : PortGlobals) (p : UInt16) : PortGlobals :=
  { g with
    portDecidedBitmap := interlockedOr g.portDecidedBitmap (wordIndex p) (1 <<< bitIndex p).toInt32
    portDirectBitmap := interlockedOr g.portDirectBitmap (wordIndex p) (1 <<< bitIndex p).toInt32 }

def portSetDecided (g : PortGlobals) (p : UInt16) : PortGlobals :=
  { g with portDecidedBitmap := interlockedOr g.portDecidedBitmap (wordIndex p) (1 <<< bitIndex p).toInt32 }

def portClear (g : PortGlobals) (p : UInt16) : PortGlobals :=
  { g with
    portDecidedBitmap := interlockedAnd g.portDecidedBitmap (wordIndex p) (~~~(1 <<< bitIndex p)).toInt32
    portDirectBitmap := interlockedAnd g.portDirectBitmap (wordIndex p) (~~~(1 <<< bitIndex p)).toInt32 }

/-- The loop of `InterlockedExchange` over both bitmaps. -/
def clearDecisions (g : PortGlobals) : PortGlobals :=
  (List.finRange 2048).foldl (fun g i =>
    { g with
      portDecidedBitmap := Function.update g.portDecidedBitmap i 0
      portDirectBitmap := Function.update g.portDirectBitmap i 0 }) g

def setLoopbackBypassEnabled (g : PortGlobals) (enable : Int32) : PortGlobals :=
  let next : Int32 := if enable ≠ 0 then 1 else 0
  let exchanged := { g with loopbackBypassEnabled := next }
  if g.loopbackBypassEnabled ≠ next then exchanged.clearDecisions else exchanged

def setProxyUdpDnsEnabled (g : PortGlobals) (enable : Int32) : PortGlobals :=
  let next : Int32 := if enable ≠ 0 then 1 else 0
  let exchanged := { g with proxyUdpDnsEnabled := next }
  if g.proxyUdpDnsEnabled ≠ next then exchanged.clearDecisions else exchanged

/-- `ProxyBridge_Start`, whose outcome `started` does not depend on the bitmaps. -/
def start (g : PortGlobals) (started : Bool) : PortGlobals :=
  if g.running then g else { g with running := started }

/-- `ProxyBridge_Stop`, which ends with a `memset` of both bitmaps. -/
def stop (g : PortGlobals) : PortGlobals :=
  if g.running then { g with running := false, portDecidedBitmap := fun _ => 0, portDirectBitmap := fun _ => 0 }
  else g

def apply (g : PortGlobals) : PortOp → PortGlobals
  | .portSetDirect p => g.portSetDirect p
  | .portSetDecided p => g.portSetDecided p
  | .portClear p => g.portClear p
  | .setLoopbackBypassEnabled enable => g.setLoopbackBypassEnabled enable
  | .setProxyUdpDnsEnabled enable => g.setProxyUdpDnsEnabled enable
  | .start started => g.start started
  | .stop => g.stop

def run (g : PortGlobals) (ops : List PortOp) : PortGlobals := ops.foldl apply g

end PortGlobals

/-- What an operation does to the decisions. -/
inductive PortEvent where
  | direct (p : UInt16)
  | decided (p : UInt16)
  | cleared (p : UInt16)
  | reset
  deriving DecidableEq, Repr

namespace PortEvent

/-- Whether the decision about `p` is forgotten. -/
def clears (p : UInt16) : PortEvent → Bool
  | direct _ => false
  | decided _ => false
  | cleared q => decide (p = q)
  | reset => true

/-- Whether a decision about `p` is recorded. -/
def decides (p : UInt16) : PortEvent → Bool
  | direct q => decide (p = q)
  | decided q => decide (p = q)
  | cleared _ => false
  | reset => false

/-- Whether anything about `p` changes. -/
def concerns (p : UInt16) (e : PortEvent) : Bool := e.clears p || e.decides p

/-- The decisions recorded for `p` since the last time it was cleared, the latest first. -/
def sinceClear (p : UInt16) (es : List PortEvent) : List PortEvent :=
  (es.reverse.takeWhile fun e => !e.clears p).filter (decides p)

end PortEvent

/-- The two settings and the running state, without the bitmaps. -/
structure PortFlags where
  loopbackBypass : Bool
  proxyUdpDns : Bool
  running : Bool

namespace PortFlags

/-- A setting forgets the decisions when its value changes, and a stop does when it stops something. -/
def event (f : PortFlags) : PortOp → Option PortEvent
  | .portSetDirect p => some (.direct p)
  | .portSetDecided p => some (.decided p)
  | .portClear p => some (.cleared p)
  | .setLoopbackBypassEnabled enable => if f.loopbackBypass = decide (enable ≠ 0) then none else some .reset
  | .setProxyUdpDnsEnabled enable => if f.proxyUdpDns = decide (enable ≠ 0) then none else some .reset
  | .start _ => none
  | .stop => if f.running then some .reset else none

def next (f : PortFlags) : PortOp → PortFlags
  | .setLoopbackBypassEnabled enable => { f with loopbackBypass := decide (enable ≠ 0) }
  | .setProxyUdpDnsEnabled enable => { f with proxyUdpDns := decide (enable ≠ 0) }
  | .start started => { f with running := f.running || started }
  | .stop => { f with running := false }
  | _ => f

/-- What the operations did to the decisions, in order. -/
def events (f : PortFlags) : List PortOp → List PortEvent
  | [] => []
  | op :: ops => (f.event op).toList ++ (f.next op).events ops

end PortFlags

private theorem smod_of_lt_bits : ∀ k < 32, (BitVec.ofNat 32 k).smod 32 = BitVec.ofNat 32 k := by decide

/-- The sign that `>>` copies never reaches the bit that is read. -/
private theorem readBit_eq (w : LongWords) (p : UInt16) :
    readBit w p = if testPort (fun i => (w i).toUInt32) p then 1 else 0 := by
  have hk : p.toNat % 32 < 32 := by omega
  have hbit : (bitIndex p).toBitVec = BitVec.ofNat 32 (p.toNat % 32) := by
    rw [← bitIndex_toNat]
    simp
  have hread : (readBit w p).toBitVec =
      (BitVec.ofBool ((w (wordIndex p)).toBitVec.getLsbD (p.toNat % 32))).setWidth 32 := by
    rw [readBit, Int32.toBitVec_and, Int32.toBitVec_shiftRight, UInt32.toBitVec_toInt32, hbit,
      smod_of_lt_bits _ hk, BitVec.sshiftRight_eq', BitVec.toNat_ofNat, Nat.mod_eq_of_lt (by omega)]
    rw [show (1 : Int32).toBitVec = 1#32 from rfl, BitVec.and_one_eq_setWidth_ofBool_getLsbD,
      BitVec.getLsbD_sshiftRight]
    simp [hk]
  rw [← Int32.toBitVec_inj, hread, testPort_eq]
  change _ = (if (w (wordIndex p)).toBitVec.getLsbD (p.toNat % 32) = true then (1 : Int32) else 0).toBitVec
  cases (w (wordIndex p)).toBitVec.getLsbD (p.toNat % 32) with
  | true => rfl
  | false => rfl

@[simp] theorem readBit_interlockedOr (w : LongWords) (p q : UInt16) :
    readBit (interlockedOr w (wordIndex p) (1 <<< bitIndex p).toInt32) q =
      if q = p then 1 else readBit w q := by
  have h : (fun i => (interlockedOr w (wordIndex p) (1 <<< bitIndex p).toInt32 i).toUInt32) =
      setPort (fun i => (w i).toUInt32) p := by
    funext i
    simp only [interlockedOr, setPort, bitMask, Function.update_apply]
    split
    · subst i
      rfl
    · rfl
  rw [readBit_eq, h, testPort_setPort, readBit_eq]
  by_cases hq : q = p <;> simp [hq]

@[simp] theorem readBit_interlockedAnd (w : LongWords) (p q : UInt16) :
    readBit (interlockedAnd w (wordIndex p) (~~~(1 <<< bitIndex p)).toInt32) q =
      if q = p then 0 else readBit w q := by
  have h : (fun i => (interlockedAnd w (wordIndex p) (~~~(1 <<< bitIndex p)).toInt32 i).toUInt32) =
      unsetPort (fun i => (w i).toUInt32) p := by
    funext i
    simp only [interlockedAnd, unsetPort, bitMask, Function.update_apply]
    split
    · subst i
      rfl
    · rfl
  rw [readBit_eq, h, testPort_unsetPort, readBit_eq]
  by_cases hq : q = p <;> simp [hq]

@[simp] theorem readBit_zero (p : UInt16) : readBit (fun _ => 0) p = 0 := by
  simp [readBit]

namespace PortGlobals

/-- One turn of the loop. -/
private def clearWord (g : PortGlobals) (i : Fin 2048) : PortGlobals :=
  { g with
    portDecidedBitmap := Function.update g.portDecidedBitmap i 0
    portDirectBitmap := Function.update g.portDirectBitmap i 0 }

private theorem clearWords (is : List (Fin 2048)) (g : PortGlobals) :
    ∃ decided direct, is.foldl clearWord g = { g with portDecidedBitmap := decided, portDirectBitmap := direct } ∧
      ∀ j, j ∈ is ∨ g.portDecidedBitmap j = 0 ∧ g.portDirectBitmap j = 0 → decided j = 0 ∧ direct j = 0 := by
  induction is generalizing g with
  | nil => exact ⟨_, _, rfl, fun j h => h.resolve_left List.not_mem_nil⟩
  | cons i is ih =>
    obtain ⟨decided, direct, hrun, hzero⟩ := ih (g.clearWord i)
    refine ⟨decided, direct, hrun, fun j hj => hzero j ?_⟩
    rcases hj with hj | hj
    · rcases List.mem_cons.mp hj with rfl | hj
      · exact .inr ⟨Function.update_self .., Function.update_self ..⟩
      · exact .inl hj
    · refine .inr ?_
      by_cases hi : j = i
      · subst hi
        exact ⟨Function.update_self .., Function.update_self ..⟩
      · exact ⟨(Function.update_of_ne hi ..).trans hj.1, (Function.update_of_ne hi ..).trans hj.2⟩

@[simp] theorem portIsDecided_portSetDirect (g : PortGlobals) (p q : UInt16) :
    (g.portSetDirect p).portIsDecided q = if q = p then 1 else g.portIsDecided q := readBit_interlockedOr ..

@[simp] theorem portIsDirect_portSetDirect (g : PortGlobals) (p q : UInt16) :
    (g.portSetDirect p).portIsDirect q = if q = p then 1 else g.portIsDirect q := readBit_interlockedOr ..

@[simp] theorem portIsDecided_portSetDecided (g : PortGlobals) (p q : UInt16) :
    (g.portSetDecided p).portIsDecided q = if q = p then 1 else g.portIsDecided q := readBit_interlockedOr ..

@[simp] theorem portIsDirect_portSetDecided (g : PortGlobals) (p q : UInt16) :
    (g.portSetDecided p).portIsDirect q = g.portIsDirect q := rfl

@[simp] theorem portIsDecided_portClear (g : PortGlobals) (p q : UInt16) :
    (g.portClear p).portIsDecided q = if q = p then 0 else g.portIsDecided q := readBit_interlockedAnd ..

@[simp] theorem portIsDirect_portClear (g : PortGlobals) (p q : UInt16) :
    (g.portClear p).portIsDirect q = if q = p then 0 else g.portIsDirect q := readBit_interlockedAnd ..

/-- The loop leaves no word behind. -/
theorem clearDecisions_eq (g : PortGlobals) :
    g.clearDecisions = { g with portDecidedBitmap := fun _ => 0, portDirectBitmap := fun _ => 0 } := by
  obtain ⟨decided, direct, hrun, hzero⟩ := clearWords (List.finRange 2048) g
  have hall (j : Fin 2048) := hzero j (.inl (List.mem_finRange j))
  rw [funext (fun j => (hall j).1), funext (fun j => (hall j).2)] at hrun
  exact hrun

end PortGlobals

namespace PortEvent

private theorem sinceClear_append (p : UInt16) (es : List PortEvent) (e : PortEvent) :
    sinceClear p (es ++ [e]) =
      if e.clears p then [] else if e.decides p then e :: sinceClear p es else sinceClear p es := by
  rw [sinceClear, List.reverse_append, List.reverse_singleton, List.singleton_append, List.takeWhile_cons]
  by_cases hc : e.clears p = true
  · simp [hc]
  · rw [if_pos (by simp [hc]), List.filter_cons, if_neg hc]
    rfl

private theorem sinceClear_direct (p q : UInt16) (es : List PortEvent) :
    sinceClear q (es ++ [.direct p]) = if q = p then .direct p :: sinceClear q es else sinceClear q es := by
  rw [sinceClear_append, clears, decides]
  simp

private theorem sinceClear_decided (p q : UInt16) (es : List PortEvent) :
    sinceClear q (es ++ [.decided p]) = if q = p then .decided p :: sinceClear q es else sinceClear q es := by
  rw [sinceClear_append, clears, decides]
  simp

private theorem sinceClear_cleared (p q : UInt16) (es : List PortEvent) :
    sinceClear q (es ++ [.cleared p]) = if q = p then [] else sinceClear q es := by
  rw [sinceClear_append, clears, decides]
  simp

private theorem sinceClear_reset (q : UInt16) (es : List PortEvent) : sinceClear q (es ++ [.reset]) = [] := by
  rw [sinceClear_append, clears]
  rfl

/-- Only the events that concern a port count for it. -/
theorem sinceClear_filter (p : UInt16) (es : List PortEvent) :
    sinceClear p (es.filter (concerns p)) = sinceClear p es := by
  induction es using List.reverseRecOn with
  | nil => rfl
  | append_singleton es e ih =>
    rw [List.filter_append, sinceClear_append]
    by_cases hc : e.concerns p = true
    · rw [List.filter_cons_of_pos hc, List.filter_nil, sinceClear_append, ih]
    · have hne : ¬e.clears p = true ∧ ¬e.decides p = true := by simpa [concerns] using hc
      rw [List.filter_cons_of_neg hc, List.filter_nil, List.append_nil, ih, if_neg hne.1, if_neg hne.2]

end PortEvent

open PortGlobals PortEvent

/-- The bits of every port tell what was recorded for it since it was last cleared. -/
structure Tracks (g : PortGlobals) (f : PortFlags) (es : List PortEvent) : Prop where
  loopback : g.loopbackBypassEnabled = if f.loopbackBypass then 1 else 0
  udpDns : g.proxyUdpDnsEnabled = if f.proxyUdpDns then 1 else 0
  running : g.running = f.running
  decided (p : UInt16) : g.portIsDecided p = if sinceClear p es = [] then 0 else 1
  direct (p : UInt16) : g.portIsDirect p = if .direct p ∈ sinceClear p es then 1 else 0

namespace Tracks
variable {g : PortGlobals} {f : PortFlags} {es : List PortEvent}

theorem init : Tracks .init ⟨false, false, false⟩ [] where
  loopback := rfl
  udpDns := rfl
  running := rfl
  decided p := readBit_zero p
  direct p := readBit_zero p

private theorem portSetDirect (h : Tracks g f es) (p : UInt16) :
    Tracks (g.portSetDirect p) f (es ++ [.direct p]) where
  loopback := h.loopback
  udpDns := h.udpDns
  running := h.running
  decided q := by
    rw [portIsDecided_portSetDirect, sinceClear_direct, h.decided]
    by_cases hp : q = p <;> simp [hp]
  direct q := by
    rw [portIsDirect_portSetDirect, sinceClear_direct, h.direct]
    by_cases hp : q = p <;> simp [hp]

private theorem portSetDecided (h : Tracks g f es) (p : UInt16) :
    Tracks (g.portSetDecided p) f (es ++ [.decided p]) where
  loopback := h.loopback
  udpDns := h.udpDns
  running := h.running
  decided q := by
    rw [portIsDecided_portSetDecided, sinceClear_decided, h.decided]
    by_cases hp : q = p <;> simp [hp]
  direct q := by
    rw [portIsDirect_portSetDecided, sinceClear_decided, h.direct]
    by_cases hp : q = p <;> simp [hp]

private theorem portClear (h : Tracks g f es) (p : UInt16) :
    Tracks (g.portClear p) f (es ++ [.cleared p]) where
  loopback := h.loopback
  udpDns := h.udpDns
  running := h.running
  decided q := by
    rw [portIsDecided_portClear, sinceClear_cleared, h.decided]
    by_cases hp : q = p <;> simp [hp]
  direct q := by
    rw [portIsDirect_portClear, sinceClear_cleared, h.direct]
    by_cases hp : q = p <;> simp [hp]

/-- With every word zero, all that went before is forgotten. -/
private theorem forget (hl : g.loopbackBypassEnabled = if f.loopbackBypass then 1 else 0)
    (hd : g.proxyUdpDnsEnabled = if f.proxyUdpDns then 1 else 0) (hr : g.running = f.running)
    (hdec : g.portDecidedBitmap = fun _ => 0) (hdir : g.portDirectBitmap = fun _ => 0) :
    Tracks g f (es ++ [.reset]) where
  loopback := hl
  udpDns := hd
  running := hr
  decided p := by rw [sinceClear_reset, portIsDecided, hdec, readBit_zero]; rfl
  direct p := by rw [sinceClear_reset, portIsDirect, hdir, readBit_zero]; rfl

private theorem flag_eq_iff (a b : Bool) : ((if a then 1 else 0 : Int32) = if b then 1 else 0) ↔ a = b := by
  revert a b
  decide

private theorem setLoopbackBypassEnabled (h : Tracks g f es) (enable : Int32) :
    Tracks (g.setLoopbackBypassEnabled enable) (f.next (.setLoopbackBypassEnabled enable))
      (es ++ (f.event (.setLoopbackBypassEnabled enable)).toList) := by
  have hnext : (if enable ≠ 0 then 1 else 0 : Int32) = if decide (enable ≠ 0) then 1 else 0 := by simp
  rw [PortGlobals.setLoopbackBypassEnabled, PortFlags.event, PortFlags.next, hnext, h.loopback]
  by_cases heq : f.loopbackBypass = decide (enable ≠ 0)
  · rw [if_pos heq, if_neg (not_not.mpr ((flag_eq_iff _ _).mpr heq)), Option.toList_none, List.append_nil]
    exact ⟨rfl, h.udpDns, h.running, h.decided, h.direct⟩
  · rw [if_neg heq, if_pos (mt (flag_eq_iff _ _).mp heq), clearDecisions_eq]
    exact forget rfl h.udpDns h.running rfl rfl

private theorem setProxyUdpDnsEnabled (h : Tracks g f es) (enable : Int32) :
    Tracks (g.setProxyUdpDnsEnabled enable) (f.next (.setProxyUdpDnsEnabled enable))
      (es ++ (f.event (.setProxyUdpDnsEnabled enable)).toList) := by
  have hnext : (if enable ≠ 0 then 1 else 0 : Int32) = if decide (enable ≠ 0) then 1 else 0 := by simp
  rw [PortGlobals.setProxyUdpDnsEnabled, PortFlags.event, PortFlags.next, hnext, h.udpDns]
  by_cases heq : f.proxyUdpDns = decide (enable ≠ 0)
  · rw [if_pos heq, if_neg (not_not.mpr ((flag_eq_iff _ _).mpr heq)), Option.toList_none, List.append_nil]
    exact ⟨h.loopback, rfl, h.running, h.decided, h.direct⟩
  · rw [if_neg heq, if_pos (mt (flag_eq_iff _ _).mp heq), clearDecisions_eq]
    exact forget h.loopback rfl h.running rfl rfl

private theorem start (h : Tracks g f es) (started : Bool) :
    Tracks (g.start started) (f.next (.start started)) es := by
  rw [PortGlobals.start, PortFlags.next, h.running]
  cases hr : f.running with
  | true => exact ⟨h.loopback, h.udpDns, h.running.trans hr, h.decided, h.direct⟩
  | false => exact ⟨h.loopback, h.udpDns, rfl, h.decided, h.direct⟩

private theorem stop (h : Tracks g f es) :
    Tracks g.stop (f.next .stop) (es ++ (f.event .stop).toList) := by
  rw [PortGlobals.stop, PortFlags.event, PortFlags.next, h.running]
  cases hr : f.running with
  | true => exact forget h.loopback h.udpDns rfl rfl rfl
  | false =>
    simp only [Bool.false_eq_true, if_false, Option.toList_none, List.append_nil]
    exact ⟨h.loopback, h.udpDns, h.running.trans hr, h.decided, h.direct⟩

theorem step (h : Tracks g f es) (op : PortOp) :
    Tracks (g.apply op) (f.next op) (es ++ (f.event op).toList) := by
  cases op with
  | portSetDirect p => exact h.portSetDirect p
  | portSetDecided p => exact h.portSetDecided p
  | portClear p => exact h.portClear p
  | setLoopbackBypassEnabled enable => exact h.setLoopbackBypassEnabled enable
  | setProxyUdpDnsEnabled enable => exact h.setProxyUdpDnsEnabled enable
  | start started =>
    rw [PortFlags.event, Option.toList_none, List.append_nil]
    exact h.start started
  | stop => exact h.stop

theorem run (h : Tracks g f es) (ops : List PortOp) :
    ∃ f', Tracks (g.run ops) f' (es ++ f.events ops) := by
  induction ops generalizing g f es with
  | nil =>
    rw [PortFlags.events, List.append_nil]
    exact ⟨f, h⟩
  | cons op ops ih =>
    obtain ⟨f', hf'⟩ := ih (h.step op)
    rw [PortFlags.events, ← List.append_assoc]
    exact ⟨f', hf'⟩

end Tracks

/-- After any operations, and whatever they did to other ports, a port is decided when a decision was
recorded for it since it was last cleared, and direct when a direct one was. -/
theorem port_bits_tell_events_since_clear (ops : List PortOp) (p : UInt16) :
    let g := PortGlobals.init.run ops
    let es := PortFlags.events ⟨false, false, false⟩ ops
    g.portIsDecided p = (if sinceClear p es = [] then 0 else 1) ∧
    g.portIsDirect p = (if .direct p ∈ sinceClear p es then 1 else 0) ∧
    sinceClear p (es.filter (concerns p)) = sinceClear p es ∧
    (g.portIsDirect p = 1 → g.portIsDecided p = 1) := by
  intro g es
  obtain ⟨f, hf⟩ := Tracks.init.run ops
  rw [List.nil_append] at hf
  refine ⟨hf.decided p, hf.direct p, sinceClear_filter p es, ?_⟩
  intro hdirect
  rw [hf.direct p] at hdirect
  have hmem : .direct p ∈ sinceClear p es := by
    by_contra hno
    rw [if_neg hno] at hdirect
    cases hdirect
  rw [hf.decided p, if_neg (List.ne_nil_of_mem hmem)]

end ProxyBridge.Windows
