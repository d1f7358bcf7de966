import Mathlib.Data.List.Nodup
import ProxyBridge.Library.StreamCopies
import ProxyBridge.Windows.IocpRelay

/-! The blocking relay of pb_relay.c, the fallback of the completion-port pool. A call of
`transfer_handler` runs the download itself and the upload in a thread of its own. Both share a
`RELAY_PAIR`, which is in the list that `abort_active_relays` walks. -/
namespace ProxyBridge.Windows
open StreamCopies

inductive RelaySocket where
  | client
  | proxy
  deriving DecidableEq, Repr

def RelaySide.source : RelaySide → RelaySocket
  | .upload => .client
  | .download => .proxy

def RelaySide.target : RelaySide → RelaySocket
  | .upload => .proxy
  | .download => .client

/-- Whether both directions of a socket were shut down, and how often it was closed. -/
structure SocketUse where
  shut : Bool
  closes : Nat

structure RelayPair where
  refs : Int
  registered : Bool

/-- Where a thread stands in `one_way_relay`. `send` has what `send_all` has still to send. -/
inductive WayPc where
  | idle
  | start
  | loop
  | select
  | recv
  | send (rest : List UInt8)
  | finish (cleanEof : Bool)
  | abortProxy
  | drop
  | unregister
  | closeClient
  | closeProxy
  | freePair
  | done
  deriving DecidableEq

/-- A call of `one_way_relay` with its variable `len`. What it received and sent, and how it ended its
direction, is kept beside it. -/
structure OneWay where
  pc : WayPc
  len : Int
  received : List UInt8
  sent : List UInt8
  ended : Option End

/-- Where `transfer_handler` stands. `pooled` is a connection that the pool took. -/
inductive HandlerPc where
  | idle
  | relayStart
  | pooled
  | allocPair
  | register
  | allocConfigs
  | createThread
  | download
  | join
  | unregister
  | freePair
  | closeClient
  | closeProxy
  | done
  deriving DecidableEq, Repr

/-- One call of `transfer_handler`: its two threads, what they have allocated, and its two sockets. An access to
a pair that is freed or a call on a socket that is closed is a fault. -/
structure Transfer where
  handler : HandlerPc
  way : RelaySide → OneWay
  config : RelaySide → Bool
  pair : Option RelayPair
  socket : RelaySocket → SocketUse
  faulted : Bool

/-- The answer to the next call of a thread. -/
inductive RelayInput where
  | go
  | ok (yes : Bool)
  | both (up dn : Bool)
  | ready (n : Int)
  | received (data : List UInt8)
  | sent (n : Nat)
  | failed
  deriving DecidableEq

def socketError : Int := -1

def oneWayBufSize : Nat := 131072

namespace WayPc

/-- The socket that the next call is made on. -/
def socket (side : RelaySide) : WayPc → Option RelaySocket
  | .select | .recv => some side.source
  | .send _ => some side.target
  | _ => none

end WayPc

namespace OneWay

def idle : OneWay := ⟨.idle, 0, [], [], none⟩

def copy (w : OneWay) : Copy UInt8 := ⟨w.received, w.sent, w.ended⟩

/-- The allocation of the buffer. -/
def begin (w : OneWay) (buf : Bool) : OneWay :=
  if buf then { w with pc := .loop, len := socketError } else { w with pc := .finish false }

/-- The loop of `one_way_relay`. `signalled` is the state of the event, and `source` and `target` are the
sockets `from` and `to`. After a shutdown of both directions nothing can be received or sent. -/
def advance (w : OneWay) (signalled : Bool) (source target : SocketUse) : WayPc → RelayInput → Option OneWay
  | .loop, .go => some { w with pc := if signalled then .finish (w.len == 0) else .select }
  | .select, .ready n =>
    some { w with pc := if n = 0 then .loop else if n = socketError then .finish (w.len == 0) else .recv }
  | .recv, .received data =>
    if data.length ≤ oneWayBufSize ∧ (source.shut = true → data = []) then
      let w := { w with len := data.length, received := w.received ++ data }
      some { w with pc := if w.len ≤ 0 then .finish (w.len == 0) else .send data }
    else none
  | .send rest, .sent n =>
    if 0 < n ∧ n ≤ rest.length ∧ target.shut = false then
      some { w with sent := w.sent ++ rest.take n, pc := if n < rest.length then .send (rest.drop n) else .loop }
    else none
  | .recv, .failed | .send _, .failed => some { w with len := socketError, pc := .finish (socketError == 0) }
  | _, _ => none

end OneWay

/-- What is done under the lock of the list. -/
inductive ListOp where
  | unlocked
  | look
  | push
  | unlink
  deriving DecidableEq, Repr

namespace Transfer

/-- Before the call. -/
def idle : Transfer := ⟨.idle, fun _ => .idle, fun _ => false, none, fun _ => ⟨false, 0⟩, false⟩

def setWay (t : Transfer) (side : RelaySide) (w : OneWay) : Transfer :=
  { t with way := Function.update t.way side w }

def setPc (t : Transfer) (side : RelaySide) (pc : WayPc) : Transfer := t.setWay side { t.way side with pc := pc }

/-- A read of the pair. -/
def deref (t : Transfer) : Transfer := { t with faulted := t.faulted || t.pair.isNone }

/-- A call on a socket, if there is one. -/
def use (t : Transfer) (s : Option RelaySocket) : Transfer :=
  { t with faulted := t.faulted || s.any fun s => (t.socket s).closes != 0 }

/-- `shutdown` in both directions. -/
def shutdown (t : Transfer) (s : RelaySocket) : Transfer :=
  { t.use (some s) with socket := Function.update t.socket s { t.socket s with shut := true } }

def closesocket (t : Transfer) (s : RelaySocket) : Transfer :=
  { t.use (some s) with socket := Function.update t.socket s { t.socket s with closes := (t.socket s).closes + 1 } }

def registerRelayPair (t : Transfer) : Transfer :=
  { t.deref with pair := t.pair.map fun p => { p with registered := true } }

def unregisterRelayPair (t : Transfer) : Transfer × ListOp :=
  ({ t.deref with pair := t.pair.map fun p => { p with registered := false } },
    if t.pair.elim false (·.registered) then .unlink else .look)

def freePair (t : Transfer) : Transfer := { t.deref with pair := none }

/-- `InterlockedDecrement` of the references, and where the thread goes from there. -/
def dropRef (t : Transfer) (side : RelaySide) : Transfer :=
  let t : Transfer := { t.deref with pair := t.pair.map fun p => { p with refs := p.refs - 1 } }
  t.setPc side (if t.pair.elim false (fun p => p.refs == 0) then .unregister else .done)

/-- A step of `one_way_relay`. -/
def wayStep (t : Transfer) (side : RelaySide) (signalled : Bool) (input : RelayInput) : Option (Transfer × ListOp) :=
  let w := t.way side
  match w.pc, input with
  | .start, .ok buf =>
    some (({ t with config := Function.update t.config side false } : Transfer).setWay side (w.begin buf), .unlocked)
  | .finish true, .go =>
    some ((t.use (some side.target)).setWay side { w with pc := .drop, ended := some .clean }, .unlocked)
  | .finish false, .go =>
    some ((t.deref.shutdown .client).setWay side { w with pc := .abortProxy, ended := some .broken }, .unlocked)
  | .abortProxy, .go => some ((t.deref.shutdown .proxy).setPc side .drop, .unlocked)
  | .drop, .go => some (t.dropRef side, .unlocked)
  | .unregister, .go => some (t.unregisterRelayPair.1.setPc side .closeClient, t.unregisterRelayPair.2)
  | .closeClient, .go => some ((t.deref.closesocket .client).setPc side .closeProxy, .unlocked)
  | .closeProxy, .go => some ((t.deref.closesocket .proxy).setPc side .freePair, .unlocked)
  | .freePair, .go => some (t.freePair.setPc side .done, .unlocked)
  | pc, input =>
    (w.advance signalled (t.socket side.source) (t.socket side.target) pc input).map fun w' =>
      ((t.use (pc.socket side)).setWay side w', .unlocked)

/-- A step of the thread of `transfer_handler`. `admits` is the test of `register_relay_pair`. -/
def handlerStep (t : Transfer) (admits signalled : Bool) (input : RelayInput) : Option (Transfer × ListOp) :=
  match t.handler, input with
  | .idle, .go => some ({ t with handler := .relayStart }, .unlocked)
  | .relayStart, .ok pooled => some ({ t with handler := if pooled then .pooled else .allocPair }, .unlocked)
  | .allocPair, .ok pair =>
    some (if pair then { t with handler := .register, pair := some ⟨2, false⟩ } else { t with handler := .closeClient },
      .unlocked)
  | .register, .go =>
    some (if admits then ({ t.registerRelayPair with handler := .allocConfigs }, .push)
      else ({ t with handler := .freePair }, .look))
  | .allocConfigs, .both up dn =>
    some (if up && dn then { t with handler := .createThread, config := fun _ => true }
      else { t with handler := .unregister }, .unlocked)
  | .createThread, .ok thread =>
    some (if thread then { t with handler := .download, way := fun side => { t.way side with pc := .start } }
      else { t with handler := .unregister, config := fun _ => false }, .unlocked)
  | .download, input =>
    if (t.way .download).pc = .done then if input = .go then some ({ t with handler := .join }, .unlocked) else none
    else t.wayStep .download signalled input
  | .join, .go => if (t.way .upload).pc = .done then some ({ t with handler := .done }, .unlocked) else none
  | .unregister, .go => some ({ t.unregisterRelayPair.1 with handler := .freePair }, t.unregisterRelayPair.2)
  | .freePair, .go => some ({ t.freePair with handler := .closeClient }, .unlocked)
  | .closeClient, .go => some ({ t.closesocket .client with handler := .closeProxy }, .unlocked)
  | .closeProxy, .go => some ({ t.closesocket .proxy with handler := .done }, .unlocked)
  | _, _ => none

end Transfer

/-- A walk of `abort_active_relays` with the pairs that it has not come to. `stopping` says whether it began
when no pair could be registered any more. -/
structure Walk where
  rest : List Nat
  stopping : Bool

/-- All calls of `transfer_handler` between a start and the next one, the list of pairs, and the walks that hold
its lock for reading. -/
structure Relays where
  running : Bool
  shutdownEvent : Option Bool
  activeRelayPairs : List Nat
  walks : List Walk
  transfer : Nat → Transfer

inductive RelaysAction where
  | handler (i : Nat) (input : RelayInput)
  | upload (i : Nat) (input : RelayInput)
  | clearRunning
  | setEvent
  | walk
  | shutdownPair (k : Nat)
  | endWalk (k : Nat)

namespace Relays

/-- After `create_lifecycle_events`, or without them. -/
def init (shutdownEvent : Option Bool) : Relays := ⟨true, shutdownEvent, [], [], fun _ => .idle⟩

/-- The test of `register_relay_pair`. -/
def admits (s : Relays) : Bool := s.shutdownEvent.isNone || s.running

def signalled (s : Relays) : Bool := s.shutdownEvent.getD false

/-- A thread of a call has taken a step. The lock is taken for writing when no walk has it. -/
def apply (s : Relays) (i : Nat) (r : Transfer × ListOp) : Option Relays :=
  if r.2 ≠ .unlocked ∧ s.walks ≠ [] then none
  else
    some { s with
      transfer := Function.update s.transfer i r.1
      activeRelayPairs :=
        match r.2 with
        | .unlocked | .look => s.activeRelayPairs
        | .push => i :: s.activeRelayPairs
        | .unlink => s.activeRelayPairs.erase i }

def step (s : Relays) : RelaysAction → Option Relays
  | .handler i input => ((s.transfer i).handlerStep s.admits s.signalled input).bind (s.apply i)
  | .upload i input => ((s.transfer i).wayStep .upload s.signalled input).bind (s.apply i)
  | .clearRunning => some { s with running := false }
  | .setEvent => s.shutdownEvent.map fun _ => { s with shutdownEvent := some true }
  | .walk => some { s with walks := ⟨s.activeRelayPairs, !s.admits⟩ :: s.walks }
  | .shutdownPair k =>
    match s.walks[k]? with
    | some ⟨i :: rest, stopping⟩ =>
      some { s with
        transfer := Function.update s.transfer i (((s.transfer i).deref.shutdown .client).shutdown .proxy)
        walks := s.walks.set k ⟨rest, stopping⟩ }
    | _ => none
  | .endWalk k =>
    match s.walks[k]? with
    | some ⟨[], _⟩ => some { s with walks := s.walks.eraseIdx k }
    | _ => none

end Relays
end ProxyBridge.Windows
