import Mathlib.Data.Finset.Basic
import Mathlib.Data.List.AList
import ProxyBridge.Library.Runs
import ProxyBridge.Library.ThreadScripts

/-! The handshakes and UDP associations of `AppProxyProvider.swift`. A step is one section under
`handshakeLock` or `udpLock`, or one action that a thread takes after it has left the locks. Objects
are told apart by names that are never used again; an `ObjectIdentifier` may be. -/
namespace ProxyBridge.MacOS
open ThreadScripts

abbrev ObjectIdentifier := Nat

/-- `NWTCPConnection` and `NWUDPSession` objects, the ones that `cancel()` is called on. -/
inductive Channel where
  | connection (connection : Nat)
  | session (session : Nat)
  deriving DecidableEq

/-- The places of the source that cancel a channel. -/
inductive Canceller (UUID : Type) where
  | armRefused
  | timer (token : UUID)
  | closeRelay
  | failHandshake
  | insertionRefused
  | replacement
  | teardown
  | stop
  deriving DecidableEq

inductive Effect (UUID : Type) where
  | cancel (channel : Channel) (who : Canceller UUID)
  | closeReadWithError (flow : Nat)
  | closeWriteWithError (flow : Nat)
  deriving DecidableEq

/-- What a thread does next: an effect outside the locks, or a call of `teardownUDP`. -/
inductive Task (UUID : Type) where
  | perform (effect : Effect UUID)
  | teardownUDP (flow : Nat) (onlyIfIdle : Bool) (expectedAssociation : Option Nat)
  deriving DecidableEq

/-- What has happened: an effect, or a connection that passed `completeHandshake`. -/
inductive Event (UUID : Type) where
  | did (effect : Effect UUID)
  | passed (connection : Nat)
  deriving DecidableEq

/-- How far the callbacks of a connection's handshake have come. -/
inductive HandshakeCall where
  | running
  | failed
  | relayed
  deriving DecidableEq

/-- A connection object, the flow that its callbacks hold and the token of its attempt. -/
structure NWTCPConnection (UUID : Type) where
  identifier : ObjectIdentifier
  udp : Bool
  flow : Nat
  token : Option UUID
  call : HandshakeCall
  live : Bool

structure PendingHandshake (UUID : Type) where
  token : UUID
  flow : Nat
  connection : Nat
  deriving DecidableEq

structure UDPAssociation where
  clientFlow : Nat
  controlConnection : Nat
  udpSession : Nat
  dnsSession : Option Nat
  isTornDown : Bool
  lastActivity : Nat

def UDPAssociation.channels (association : UDPAssociation) : List Channel :=
  .connection association.controlConnection :: .session association.udpSession ::
    association.dnsSession.toList.map .session

/-- The call of `stopProxy`, with what it has still to do before its next section. -/
inductive StopCall (UUID : Type) where
  | notCalled
  | handshakes (script : List (Effect UUID))
  | associations (script : List (Effect UUID))

def StopCall.script {UUID : Type} : StopCall UUID → List (Effect UUID)
  | .notCalled => []
  | .handshakes script => script
  | .associations script => script

def Effect.canceller? {UUID : Type} (channel : Channel) : Effect UUID → Option (Canceller UUID)
  | .cancel c who => if c = channel then some who else none
  | _ => none

def Task.effect? {UUID : Type} : Task UUID → Option (Effect UUID)
  | .perform effect => some effect
  | .teardownUDP .. => none

def Event.effect? {UUID : Type} : Event UUID → Option (Effect UUID)
  | .did effect => some effect
  | .passed _ => none

/-- `connection` is the heap of connections, `association` that of associations; `inserted` has the
associations that got into `udpAssociations`. `inserting` has the connections that passed
`completeHandshake` in `relayUDPThroughSOCKS5` and have not come to its second section. `systemUptime` is in
nanoseconds, and the newest event of `log` comes first. -/
structure AppProxyProvider (UUID : Type) where
  connection : Nat → NWTCPConnection UUID
  created : Finset Nat
  association : Nat → UDPAssociation
  inserted : Finset Nat
  sessions : Nat
  uuids : Nat
  pendingHandshakes : AList fun _ : ObjectIdentifier => PendingHandshake UUID
  timers : List (ObjectIdentifier × UUID)
  inserting : List Nat
  udpAssociations : AList fun _ : Nat => Nat
  proxyStopping : Bool
  stopCall : StopCall UUID
  threads : List (List (Task UUID))
  systemUptime : Nat
  log : List (Event UUID)

/-- 120 seconds. -/
def udpIdleTimeout : Nat := 120000000000

/-- `cancel()` on each channel in turn. -/
def cancelAll {UUID : Type} (who : Canceller UUID) (channels : List Channel) : List (Effect UUID) :=
  channels.map (.cancel · who)

def closeFlow {UUID : Type} (flow : Nat) : List (Effect UUID) :=
  [.closeReadWithError flow, .closeWriteWithError flow]

namespace AppProxyProvider
variable {UUID : Type}

def initial : AppProxyProvider UUID where
  connection _ := ⟨0, false, 0, none, .running, false⟩
  created := ∅
  association _ := ⟨0, 0, 0, none, false, 0⟩
  inserted := ∅
  sessions := 0
  uuids := 0
  pendingHandshakes := ∅
  timers := []
  inserting := []
  udpAssociations := ∅
  proxyStopping := false
  stopCall := .notCalled
  threads := []
  systemUptime := 0
  log := []

/-- A thread leaves the locks and has these tasks left. -/
def spawn (s : AppProxyProvider UUID) (tasks : List (Task UUID)) : AppProxyProvider UUID :=
  { s with threads := tasks :: s.threads }

/-- `createTCPConnection` returns the new object `c`. -/
def createTCPConnection (s : AppProxyProvider UUID) (c : Nat) (identifier : ObjectIdentifier) (udp : Bool)
    (flow : Nat) : AppProxyProvider UUID :=
  { s with
    connection := Function.update s.connection c ⟨identifier, udp, flow, none, .running, true⟩
    created := insert c s.created }

def setConnection (s : AppProxyProvider UUID) (c : Nat) (conn : NWTCPConnection UUID) : AppProxyProvider UUID :=
  { s with connection := Function.update s.connection c conn }

/-- The token is `UUID()`, and the closure of the timer has the identifier and the token. -/
def armHandshakeTimeout (s : AppProxyProvider UUID) (c : Nat) (token : UUID) : AppProxyProvider UUID :=
  let conn := s.connection c
  let s' := { s.setConnection c { conn with token := some token } with uuids := s.uuids + 1 }
  if s.proxyStopping then
    s'.spawn ((cancelAll .armRefused [.connection c] ++ closeFlow conn.flow).map .perform)
  else
    { s' with
      pendingHandshakes := s.pendingHandshakes.insert conn.identifier ⟨token, conn.flow, c⟩
      timers := (conn.identifier, token) :: s.timers }

/-- The closure of `armHandshakeTimeout`, which the timer runs. -/
def handshakeTimer [DecidableEq UUID] (s : AppProxyProvider UUID) (id : ObjectIdentifier) (token : UUID) :
    AppProxyProvider UUID :=
  match s.pendingHandshakes.lookup id with
  | none => s
  | some pending =>
    if pending.token = token then
      { s with pendingHandshakes := s.pendingHandshakes.erase id }.spawn
        ((cancelAll (.timer token) [.connection pending.connection] ++ closeFlow pending.flow).map .perform)
    else s

def completeHandshake (s : AppProxyProvider UUID) (c : Nat) : AppProxyProvider UUID × Bool :=
  ({ s with pendingHandshakes := s.pendingHandshakes.erase (s.connection c).identifier },
    (s.pendingHandshakes.lookup (s.connection c).identifier).isSome && !s.proxyStopping)

/-- The callbacks of the handshake end in a call of `completeHandshake`. -/
def finishHandshake (s : AppProxyProvider UUID) (c : Nat) : AppProxyProvider UUID :=
  let s' := (s.completeHandshake c).1.setConnection c { s.connection c with call := .relayed }
  if (s.completeHandshake c).2 then { s' with log := .passed c :: s.log } else s'

def relayData (s : AppProxyProvider UUID) (c : Nat) : AppProxyProvider UUID :=
  s.finishHandshake c

/-- The first section of `relayUDPThroughSOCKS5`. -/
def relayUDPThroughSOCKS5 (s : AppProxyProvider UUID) (c : Nat) : AppProxyProvider UUID :=
  if (s.completeHandshake c).2 then { s.finishHandshake c with inserting := c :: s.inserting }
  else s.finishHandshake c

def closeRelay (s : AppProxyProvider UUID) (c : Nat) : AppProxyProvider UUID :=
  { s with pendingHandshakes := s.pendingHandshakes.erase (s.connection c).identifier }.spawn
    ((cancelAll .closeRelay [.connection c] ++ closeFlow (s.connection c).flow).map .perform)

/-- `failUDPHandshake`, or what the TCP handshakes do where they fail. -/
def failHandshake (s : AppProxyProvider UUID) (c : Nat) : AppProxyProvider UUID :=
  let conn := s.connection c
  let cancels := cancelAll .failHandshake [.connection c]
  (s.setConnection c { conn with call := .failed }).spawn
    ((if conn.udp then cancels ++ closeFlow conn.flow else closeFlow conn.flow ++ cancels).map .perform)

/-- The association that `relayUDPThroughSOCKS5` builds from a connection and new sessions. -/
def newAssociation (s : AppProxyProvider UUID) (c : Nat) (dns : Bool) : UDPAssociation where
  clientFlow := (s.connection c).flow
  controlConnection := c
  udpSession := s.sessions
  dnsSession := if dns then some (s.sessions + 1) else none
  isTornDown := false
  lastActivity := s.systemUptime

/-- The second section of `relayUDPThroughSOCKS5`, which has both locks. -/
def insertAssociation (s : AppProxyProvider UUID) (c a : Nat) (dns : Bool) : AppProxyProvider UUID :=
  let association := s.newAssociation c dns
  let s' := { s with sessions := s.sessions + 2 }
  if s.proxyStopping then
    s'.spawn ((cancelAll .insertionRefused association.channels ++ closeFlow association.clientFlow).map .perform)
  else
    let existing := s.udpAssociations.lookup association.clientFlow
    { s' with
      association := Function.update s.association a association
      inserted := insert a s.inserted
      udpAssociations := s.udpAssociations.insert association.clientFlow a }.spawn
        ((existing.toList.flatMap fun b => cancelAll .replacement (s.association b).channels).map .perform)

/-- Whether the association has been idle for more than `udpIdleTimeout`. -/
def isIdle (s : AppProxyProvider UUID) (a : Nat) : Bool :=
  udpIdleTimeout < s.systemUptime - (s.association a).lastActivity

/-- Whether `teardownUDP` goes on with the association it has found. -/
def mayTearDown (s : AppProxyProvider UUID) (a : Nat) (onlyIfIdle : Bool) (expectedAssociation : Option Nat) : Bool :=
  !(s.association a).isTornDown && (expectedAssociation.isNone || expectedAssociation == some a) &&
    (!onlyIfIdle || s.isIdle a)

/-- The section of `teardownUDP`, and what it does afterwards. -/
def teardownUDP (s : AppProxyProvider UUID) (flow : Nat) (onlyIfIdle : Bool) (expectedAssociation : Option Nat) :
    AppProxyProvider UUID × List (Effect UUID) :=
  match s.udpAssociations.lookup flow with
  | none => (s, [])
  | some a =>
    if s.mayTearDown a onlyIfIdle expectedAssociation then
      ({ s with
          udpAssociations := s.udpAssociations.erase flow
          association := Function.update s.association a { s.association a with isTornDown := true } },
        cancelAll .teardown (s.association a).channels ++ closeFlow flow)
    else (s, [])

/-- The flows that the sweep finds idle, in the order of the dictionary. -/
def stale (s : AppProxyProvider UUID) : List Nat :=
  (s.udpAssociations.entries.filter fun entry => s.isIdle entry.2).map (·.1)

/-- The first section of `stopProxy`, with the order in which `values` comes. -/
def stopHandshakes (s : AppProxyProvider UUID) (order : List (PendingHandshake UUID)) : AppProxyProvider UUID :=
  { s with
    proxyStopping := true
    pendingHandshakes := ∅
    stopCall := .handshakes
      (order.flatMap fun h => cancelAll .stop [.connection h.connection] ++ closeFlow h.flow) }

/-- The second section of `stopProxy`. -/
def stopAssociations (s : AppProxyProvider UUID) (order : List Nat) : AppProxyProvider UUID :=
  { s with
    udpAssociations := ∅
    stopCall := .associations
      (order.flatMap fun a => cancelAll .stop (s.association a).channels ++ closeFlow (s.association a).clientFlow) }

/-- A thread goes on with its next task. -/
def resume (s : AppProxyProvider UUID) (i : Nat) : Option (AppProxyProvider UUID) :=
  match s.threads[i]? with
  | some (.perform effect :: rest) =>
    some { s with threads := s.threads.set i rest, log := .did effect :: s.log }
  | some (.teardownUDP flow onlyIfIdle expectedAssociation :: rest) =>
    let called := s.teardownUDP flow onlyIfIdle expectedAssociation
    some { called.1 with threads := s.threads.set i (called.2.map .perform ++ rest) }
  | _ => none

/-- `stopProxy` goes on between its sections or after them. -/
def resumeStop (s : AppProxyProvider UUID) : Option (AppProxyProvider UUID) :=
  match s.stopCall with
  | .handshakes (effect :: rest) => some { s with stopCall := .handshakes rest, log := .did effect :: s.log }
  | .associations (effect :: rest) => some { s with stopCall := .associations rest, log := .did effect :: s.log }
  | _ => none

/-- The effects that are still to come, on any thread. -/
def queued (s : AppProxyProvider UUID) : Multiset (Effect UUID) :=
  (remaining s.threads).filterMap Task.effect? + s.stopCall.script

/-- Whether the provider still refers to a connection. -/
def retains (s : AppProxyProvider UUID) (c : Nat) : Bool :=
  s.pendingHandshakes.entries.any (·.2.connection == c) || s.inserting.contains c ||
    s.udpAssociations.entries.any (fun entry => (s.association entry.2).controlConnection == c) ||
    (s.threads.flatten.filterMap Task.effect? ++ s.stopCall.script).any
      fun effect => (effect.canceller? (.connection c)).isSome

/-- Timers and threads between two sections are told apart by their places. -/
inductive Action (UUID : Type) where
  | createTCPConnection (c : Nat) (identifier : ObjectIdentifier) (udp : Bool) (flow : Nat)
  | armHandshakeTimeout (c : Nat)
  | handshakeTimer (i : Nat)
  | relayData (c : Nat)
  | relayUDPThroughSOCKS5 (c : Nat)
  | insertAssociation (i a : Nat) (dns : Bool)
  | closeRelay (c : Nat)
  | failHandshake (c : Nat)
  | teardownUDP (flow : Nat) (onlyIfIdle : Bool) (expectedAssociation : Option Nat)
  | sweep (order : List Nat)
  | stopHandshakes (order : List (PendingHandshake UUID))
  | stopAssociations (order : List Nat)
  | resume (i : Nat)
  | resumeStop
  | touch (a : Nat)
  | clock (systemUptime : Nat)
  | release (c : Nat)

/-- A live connection has an identifier of its own. It is armed once, and it relays or fails once its
handshake has come to an end; `completeHandshake` may still be called again. -/
def step [DecidableEq UUID] (uuid : Nat → UUID) (s : AppProxyProvider UUID) :
    Action UUID → Option (AppProxyProvider UUID)
  | .createTCPConnection c identifier udp flow =>
    if c ∉ s.created ∧ ∀ c' ∈ s.created, (s.connection c').live = true → (s.connection c').identifier ≠ identifier then
      some (s.createTCPConnection c identifier udp flow)
    else none
  | .armHandshakeTimeout c =>
    if (s.connection c).live = true ∧ (s.connection c).token.isNone then
      some (s.armHandshakeTimeout c (uuid s.uuids))
    else none
  | .handshakeTimer i =>
    match s.timers[i]? with
    | some timer => some ({ s with timers := s.timers.eraseIdx i }.handshakeTimer timer.1 timer.2)
    | none => none
  | .relayData c =>
    if (s.connection c).live = true ∧ (s.connection c).udp = false ∧ (s.connection c).call ≠ .failed then
      some (s.relayData c)
    else none
  | .relayUDPThroughSOCKS5 c =>
    if (s.connection c).live = true ∧ (s.connection c).udp = true ∧ (s.connection c).call ≠ .failed then
      some (s.relayUDPThroughSOCKS5 c)
    else none
  | .insertAssociation i a dns =>
    match s.inserting[i]? with
    | some c =>
      if a ∉ s.inserted then some ({ s with inserting := s.inserting.eraseIdx i }.insertAssociation c a dns) else none
    | none => none
  | .closeRelay c =>
    if (s.connection c).live = true ∧ (s.connection c).udp = false then some (s.closeRelay c) else none
  | .failHandshake c =>
    if (s.connection c).live = true ∧ (s.connection c).call = .running then some (s.failHandshake c) else none
  | .teardownUDP flow onlyIfIdle expectedAssociation =>
    some (s.spawn [.teardownUDP flow onlyIfIdle expectedAssociation])
  | .sweep order =>
    if order.Perm s.stale then some (s.spawn (order.map fun flow => .teardownUDP flow true none)) else none
  | .stopHandshakes order =>
    match s.stopCall with
    | .notCalled =>
      if order.Perm (s.pendingHandshakes.entries.map (·.2)) then some (s.stopHandshakes order) else none
    | _ => none
  | .stopAssociations order =>
    match s.stopCall with
    | .handshakes [] =>
      if order.Perm (s.udpAssociations.entries.map (·.2)) then some (s.stopAssociations order) else none
    | _ => none
  | .resume i => s.resume i
  | .resumeStop => s.resumeStop
  | .touch a =>
    some { s with
      association := Function.update s.association a { s.association a with lastActivity := s.systemUptime } }
  | .clock systemUptime =>
    if s.systemUptime ≤ systemUptime then some { s with systemUptime := systemUptime } else none
  | .release c =>
    if (s.connection c).live = true ∧ s.retains c = false then
      some (s.setConnection c { s.connection c with live := false })
    else none

end AppProxyProvider
end ProxyBridge.MacOS
