import ProxyBridge.Library.Ownership
import ProxyBridge.Library.TwoWayLists
import ProxyBridge.Windows.Conntrack
import ProxyBridge.Windows.IocpRelay

/-! The pool of the completion-port relay of pb_relay.c: the list of its connections with their count
and their event, and the buffers that are kept for reuse. What happens under `g_relay_lock` is one
step; everything else that a thread does on the way is a step of its own. -/
namespace ProxyBridge.Windows
open Runs TwoWayLists Ownership

def relayPoolKeep : Nat := 256

/-- Where the thread that has a direction is. Of a buffer that is passed to `relay_buf_put` or comes
from `relay_buf_get` the call has it in hand; `returned` is before `d->buf` is cleared. -/
inductive DirCall where
  | unstarted
  | pending
  | posting
  | putting (b : Option Addr)
  | freeing (b : Addr)
  | returned
  | getting
  | allocating
  | gotten (b : Addr)
  | ending (cleanEof : Bool)
  | releasing
  | ended
  deriving DecidableEq

/-- Where the thread that dropped the last reference of a connection is inside `relay_release`. The
calls of `relay_buf_put` for its two buffers have returned at `returned`. -/
inductive ReleaseCall where
  | running
  | unlinking
  | closing
  | putting (side : RelaySide) (b : Option Addr)
  | freeing (side : RelaySide) (b : Addr)
  | returned (side : RelaySide)
  deriving DecidableEq

structure PoolDir where
  buf : Option Addr
  call : DirCall
  deriving DecidableEq

structure PoolConn where
  dir : RelaySide → PoolDir
  refs : Int
  closing : Bool
  release : ReleaseCall

/-- `relay_start` has filled in what `calloc` returned. -/
def PoolConn.started : PoolConn := ⟨fun _ => ⟨none, .unstarted⟩, 2, false, .running⟩

/-- Where the thread inside `relay_pool_start` or `relay_pool_stop` is. -/
inductive PoolControl where
  | idle
  | eventCreated
  | portCreated
  | waiting
  | drained
  | freeing
  deriving DecidableEq

/-- The globals of the pool, its heap, and the connections that were started and not yet released,
the newest first. `done` is the event `g_relay_done`, if there is one. -/
structure RelayPool where
  iocp : Bool
  done : Option Bool
  accepting : Bool
  control : PoolControl
  links : TwoWay Addr
  activeRelays : Int
  pool : List Addr
  live : Finset Addr
  conn : Addr → PoolConn
  buffers : Finset Addr
  members : List Addr

/-- What `relay_worker` goes on with after a completion; see `RelayDir.relayWorker`. -/
inductive RelayTurn where
  | read
  | send
  | wait
  | finish (cleanEof : Bool)

inductive PoolAction where
  | start (rc : Addr) (running : Bool)
  | begin (rc : Addr) (side : RelaySide)
  | complete (rc : Addr) (side : RelaySide) (turn : RelayTurn)
  | advance (rc : Addr) (side : RelaySide) (alloc : Option Addr) (ok : Bool)
  | release (rc : Addr)
  | abort
  | createEvent (ok : Bool)
  | createPort (ok : Bool)
  | createWorkers (ok : Bool)
  | stop
  | waited
  | closeHandles
  | freePooled

def PoolDir.posted (d : PoolDir) (ok : Bool) : PoolDir := { d with call := if ok then .pending else .ending false }

def PoolDir.turn (d : PoolDir) : RelayTurn → PoolDir
  | .read => { d with call := if d.buf = none then .getting else .posting }
  | .send => { d with call := .posting }
  | .wait => { d with call := .putting d.buf }
  | .finish cleanEof => { d with call := .ending cleanEof }

def PoolConn.withDir (c : PoolConn) (side : RelaySide) (d : PoolDir) : PoolConn :=
  { c with dir := Function.update c.dir side d }

namespace RelayPool

def init : RelayPool := ⟨false, none, false, .idle, .empty, 0, [], ∅, fun _ => .started, ∅, []⟩

variable (s : RelayPool)

def setConn (rc : Addr) (c : PoolConn) : RelayPool := { s with conn := Function.update s.conn rc c }

def setDir (rc : Addr) (side : RelaySide) (d : PoolDir) : RelayPool :=
  s.setConn rc ((s.conn rc).withDir side d)

def setRelease (rc : Addr) (r : ReleaseCall) : RelayPool := s.setConn rc { s.conn rc with release := r }

/-- The section of `relay_start` under the lock; where it refuses, the connection is freed again. -/
def relayStart (rc : Addr) (running : Bool) : RelayPool :=
  if !s.accepting || !running then s
  else { s with
    links := s.links.push rc
    activeRelays := s.activeRelays + 1
    done := s.done.map (fun _ => false)
    live := insert rc s.live
    conn := Function.update s.conn rc .started
    members := rc :: s.members }

/-- The section of `relay_buf_put` under the lock. The call goes on with `kept`, or frees the buffer
where the pool is full. -/
def put (b : Addr) (kept full : RelayPool → RelayPool) : RelayPool :=
  if s.pool.length < relayPoolKeep then kept { s with pool := s.pool ++ [b] } else full s

def free (b : Addr) : RelayPool := { s with buffers := s.buffers.erase b }

/-- What the thread that has the direction does next. -/
def advanceDir (rc : Addr) (side : RelaySide) (alloc : Option Addr) (ok : Bool) : Option RelayPool :=
  let c := s.conn rc
  let d := c.dir side
  match d.call with
  | .putting none => some (s.setDir rc side { d with call := .returned })
  | .putting (some b) => some (s.put b (fun s => s.setDir rc side { d with call := .returned })
      (fun s => s.setDir rc side { d with call := .freeing b }))
  | .freeing b => some ((s.free b).setDir rc side { d with call := .returned })
  | .returned => some (s.setDir rc side (PoolDir.posted { d with buf := none } ok))
  | .getting =>
    match s.pool.getLast? with
    | some b => some (setDir { s with pool := s.pool.dropLast } rc side { d with call := .gotten b })
    | none => some (s.setDir rc side { d with call := .allocating })
  | .allocating =>
    match alloc with
    | none => some (s.setDir rc side { d with call := .ending false })
    | some b =>
      if b ∈ s.buffers then none
      else some (setDir { s with buffers := insert b s.buffers } rc side { d with call := .gotten b })
  | .gotten b => some (s.setDir rc side (PoolDir.posted { d with buf := some b } ok))
  | .posting => some (s.setDir rc side (d.posted ok))
  | .ending cleanEof =>
    some (s.setConn rc { c.withDir side { d with call := .releasing } with closing := c.closing || !cleanEof })
  | .releasing =>
    some (s.setConn rc { c.withDir side { d with call := .ended } with
      refs := c.refs - 1
      release := if c.refs - 1 = 0 then .unlinking else c.release })
  | .unstarted | .pending | .ended => none

/-- What the thread that dropped the last reference does next. -/
def advanceRelease (rc : Addr) : Option RelayPool :=
  let c := s.conn rc
  match c.release with
  | .running => none
  | .unlinking =>
    some (setRelease { s with
      links := s.links.unlink rc
      activeRelays := s.activeRelays - 1
      done := if s.activeRelays - 1 = 0 then s.done.map (fun _ => true) else s.done
      members := s.members.erase rc } rc .closing)
  | .closing => some (s.setRelease rc (.putting .upload (c.dir .upload).buf))
  | .putting side none => some (s.setRelease rc (.returned side))
  | .putting side (some b) => some (s.put b (fun s => s.setRelease rc (.returned side))
      (fun s => s.setRelease rc (.freeing side b)))
  | .freeing side b => some ((s.free b).setRelease rc (.returned side))
  | .returned .upload => some (s.setRelease rc (.putting .download (c.dir .download).buf))
  | .returned .download => some { s with live := s.live.erase rc }

/-- `relay_pool_abort`: `relay_abort` for every connection of the list. -/
def relayPoolAbort : RelayPool :=
  let reached := s.links.follow s.live.card s.links.head
  { s with
    accepting := false
    conn := fun rc => if rc ∈ reached then { s.conn rc with closing := true } else s.conn rc }

/-- `relay_pool_stop` waits for `g_relay_done` before it closes the handles and frees the pool. -/
def step : PoolAction → Option RelayPool
  | .start rc running => if rc ∈ s.live then none else some (s.relayStart rc running)
  | .begin rc side =>
    let d := (s.conn rc).dir side
    if rc ∈ s.live ∧ d.call = .unstarted then some (s.setDir rc side (d.turn .wait)) else none
  | .complete rc side turn =>
    let d := (s.conn rc).dir side
    if rc ∈ s.live ∧ d.call = .pending then some (s.setDir rc side (d.turn turn)) else none
  | .advance rc side alloc ok => if rc ∈ s.live then s.advanceDir rc side alloc ok else none
  | .release rc => if rc ∈ s.live then s.advanceRelease rc else none
  | .abort => some s.relayPoolAbort
  | .createEvent ok =>
    if s.control = .idle ∧ s.iocp = false then
      some (if ok then { s with done := some true, control := .eventCreated } else s)
    else none
  | .createPort ok =>
    if s.control = .eventCreated then
      some (if ok then { s with iocp := true, control := .portCreated } else { s with done := none, control := .idle })
    else none
  | .createWorkers ok =>
    if s.control = .portCreated then
      some (if ok then { s with accepting := true, control := .idle }
        else { s with iocp := false, done := none, control := .idle })
    else none
  | .stop =>
    if s.control = .idle ∧ s.iocp = true then some { s.relayPoolAbort with control := .waiting } else none
  | .waited => if s.control = .waiting ∧ s.done = some true then some { s with control := .drained } else none
  | .closeHandles =>
    if s.control = .drained then some { s with iocp := false, done := none, control := .freeing } else none
  | .freePooled =>
    if s.control = .freeing then
      match s.pool.getLast? with
      | none => some { s with control := .idle }
      | some b => some { s.free b with pool := s.pool.dropLast }
    else none

end RelayPool
end ProxyBridge.Windows
