import ProxyBridge.Handshake.ConnectRequest
import ProxyBridge.Handshake.HttpConnect
import ProxyBridge.Handshake.Socks5Requests
import ProxyBridge.Library.ReadPrograms
import ProxyBridge.Windows.BlockingRelay
import ProxyBridge.Windows.ProxyStore
import ProxyBridge.Windows.RelayPaths

/-! A client of the local relay from `accept` until its sockets are handed to the transfer. The connection
thread holds a pointer into the store of configurations, which other threads edit without a lock, so each of
its reads may find something else. -/
namespace ProxyBridge.Windows
open ByteStreams CStrings Handshake ReadPrograms

/-- `CONNECTION_CONFIG`. Only the address of its family is read. -/
structure ConnectionConfig where
  isIpv6 : Bool
  origDestIp : UInt32
  origDestIp6 : Ip6
  origDestPort : UInt16
  proxyConfigId : UInt32

/-- What is done to the sockets, the configuration block and the count of workers, in order. -/
inductive ConnectionDeed where
  | malloc
  | free
  | beginWorker
  | endWorker
  | openSocket
  | option (socket : RelaySocket)
  | connect (ip : UInt32) (port : UInt16) (connected : Bool)
  | exchange
  | resetClose (socket : RelaySocket)
  | closesocket (socket : RelaySocket)
  | transfer
  deriving DecidableEq

/-- The answers of the system around an accepted client. -/
structure AcceptEnv where
  isIpv6 : Bool
  peerIp : UInt32
  peerIp6 : Ip6
  clientPort : UInt16
  now : UInt64
  allocated : Bool
  admitted : Bool
  threadMade : Bool

namespace AcceptEnv

/-- `get_connection_full` or its IPv6 copy, and the test of the peer. -/
def lookup (e : AcceptEnv) (t : Tables) : Option ConnectionConfig × Tables :=
  if e.isIpv6 then
    let r := t.getConnectionFullV6 e.now e.clientPort false
    (r.1.bind fun x => if relayPeerOkV6 e.peerIp6 x.1 then some ⟨true, 0, x.1, x.2.1, x.2.2⟩ else none, r.2)
  else
    let r := t.getConnectionFull e.now e.clientPort false
    (r.1.bind fun x => if relayPeerOkV4 e.peerIp x.1 then some ⟨false, x.1, .zero, x.2.1, x.2.2⟩ else none, r.2)

/-- The part of `local_proxy_server` behind `accept`: the configuration of a connection thread, if one is
created, and what was done. -/
def acceptClient (e : AcceptEnv) (t : Tables) : Option ConnectionConfig × List ConnectionDeed × Tables :=
  if !e.allocated then (none, [.closesocket .client], t)
  else
    let r := e.lookup t
    match r.1 with
    | none => (none, [.malloc, .closesocket .client, .free], r.2)
    | some c =>
      -- `begin_connection_worker` counts the worker first, and takes that back when it refuses.
      if !e.admitted then (none, [.malloc, .beginWorker, .endWorker, .closesocket .client, .free], r.2)
      else if !e.threadMade then
        (none, [.malloc, .beginWorker, .endWorker, .closesocket .client, .free], r.2)
      else (some c, [.malloc, .beginWorker], r.2)

end AcceptEnv

/-- The reads of the shared store: the search of `find_proxy_config`, which gives the index of a slot, and
one field of a slot through the pointer. -/
inductive StoreItem where
  | find (configId : UInt32)
  | slot (i : Nat)

abbrev StoreItem.Value : StoreItem → Type
  | .find _ => Option Nat
  | .slot _ => ProxySlot

/-- What one state of the store answers. The index falls back to the first slot. -/
def ProxyStore.answer (s : ProxyStore) : ∀ q : StoreItem, q.Value
  | .find configId => (s.find configId).orElse fun _ => if s.count > 0 then some 0 else none
  | .slot i => s.configs i

/-- The answers of the system to a connection thread: `stream` is the connection to the proxy and `behind`
what lies behind the terminator of `cached_domain`. -/
structure ConnectionEnv where
  resolver : Resolver
  socketMade : Bool
  connected : Bool
  caches : DnsCaches
  now : UInt64
  behind : List UInt8
  stream : Socket UInt8
  allocated : Bool

structure HandlerResult where
  result : UInt32
  deeds : List ConnectionDeed
  stream : Socket UInt8

/-- What has arrived when a first read of a socket returns. -/
def incoming (i : Inbox UInt8) : Incoming where
  stream := i.bytes
  arrived := (i.segments.headD [0]).length
  arrived_pos := by
    obtain ⟨segments, h⟩ := i
    cases segments with
    | nil => exact Nat.one_pos
    | cons s rest => exact List.length_pos_of_ne_nil fun he => h (he ▸ List.mem_cons_self)

/-- The one `send` and the one `recv` of `http_connect` and `http_connect_v6`, and whether they return 0. -/
def httpExchange (respond : Bool → Incoming → Option (List UInt8)) (request : List UInt8) (s : Socket UInt8) :
    Bool × Socket UInt8 :=
  let w := s.outbox.send request
  if w.1 ≠ request.length then (false, { s with outbox := w.2 })
  else ((respond true (incoming s.inbox)).isSome, ⟨(s.inbox.recv 4095).2, w.2⟩)

namespace ConnectionConfig
variable (S : UnsignedScan) (inetNtop : Ip6 → List UInt8) (c : ConnectionConfig) (e : ConnectionEnv)

/-- The name that the snoop cache has for the destination. -/
def cachedDomain : Option (List UInt8) :=
  if c.isIpv6 then dnsCacheLookupV6 e.caches.v6 e.now c.origDestIp6 else dnsCacheLookup e.caches.v4 e.now c.origDestIp

def socksDialogue (sendDomainToProxy : Bool) : Dialogue UInt8 ConnectOutcome :=
  match if sendDomainToProxy then c.cachedDomain e else none with
  | some cachedDomain => socks5ConnectDomain (cachedDomain ++ 0 :: e.behind) c.origDestPort
  | none =>
    if c.isIpv6 then socks5ConnectV6 c.origDestIp6 c.origDestPort else socks5Connect c.origDestIp c.origDestPort

def httpRequest (sendDomainToProxy : Bool) : List UInt8 :=
  if c.isIpv6 then httpConnectV6Request e.caches sendDomainToProxy e.now inetNtop c.origDestIp6 c.origDestPort
  else httpConnectRequest e.caches sendDomainToProxy e.now c.origDestIp c.origDestPort

def httpHandshake (sendDomainToProxy : Bool) : Bool × Socket UInt8 :=
  httpExchange (if c.isIpv6 then httpConnectV6 else httpConnect) (c.httpRequest inetNtop e sendDomainToProxy) e.stream

/-- Both sockets are open, and `before` was done. -/
def startTransfer (before : List ConnectionDeed) (stream : Socket UInt8) : HandlerResult :=
  let before := before ++ [.option .proxy, .option .proxy, .option .client, .option .client, .option .proxy,
    .option .client]
  if !e.allocated then ⟨0, before ++ [.closesocket .client, .closesocket .proxy], stream⟩
  else ⟨0, before ++ [.transfer], stream⟩

/-- The end of a handshake that returned 0 or not. -/
def afterHandshake (before : List ConnectionDeed) (r : Bool × Socket UInt8) : HandlerResult :=
  let before := before ++ [.exchange]
  if !r.1 then ⟨0, before ++ [.resetClose .client, .closesocket .proxy], r.2⟩ else startTransfer e before r.2

/-- The two tests of `proxy->type`. A configuration that is neither at its test gets no handshake. -/
def openTunnel (i : Nat) (before : List ConnectionDeed) : Program StoreItem.Value HandlerResult :=
  .read (.slot i) fun forSocks5 =>
    if forSocks5.type = .socks5 then
      .read (.slot i) fun forDomain =>
        let r := (c.socksDialogue e forDomain.sendDomainToProxy).run e.stream
        .pure (afterHandshake e before (r.1.result == 0, r.2))
    else .read (.slot i) fun forHttp =>
      if forHttp.type = .http then
        .read (.slot i) fun forDomain =>
          .pure (afterHandshake e before (c.httpHandshake inetNtop e forDomain.sendDomainToProxy))
      else .pure (startTransfer e before e.stream)

/-- The socket to the proxy, behind the choice of its address. -/
def connectProxy (i : Nat) (proxyIp : UInt32) : Program StoreItem.Value HandlerResult :=
  if proxyIp = 0 then .pure ⟨1, [.free, .closesocket .client], e.stream⟩
  else if !e.socketMade then .pure ⟨0, [.free, .closesocket .client], e.stream⟩
  else .read (.slot i) fun forPort =>
    let before := [.free, .openSocket, .option .proxy, .option .client,
      .connect proxyIp forPort.port e.connected]
    if !e.connected then .pure ⟨0, before ++ [.resetClose .client, .closesocket .proxy], e.stream⟩
    else c.openTunnel inetNtop e i before

/-- Each test of the slot and each use of it is a read of its own. -/
def connectionHandlerImpl : Program StoreItem.Value HandlerResult :=
  .read (.find c.proxyConfigId) fun
    | none => .pure ⟨1, [.free, .closesocket .client], e.stream⟩
    | some i => .read (.slot i) fun forHost =>
      if forHost.host.isEmpty then .pure ⟨1, [.free, .closesocket .client], e.stream⟩
      else .read (.slot i) fun forPort =>
        if forPort.port = 0 then .pure ⟨1, [.free, .closesocket .client], e.stream⟩
        else .read (.slot i) fun forTest =>
          .read (.slot i) fun forUse =>
            c.connectProxy inetNtop e i
              (if forTest.resolvedIp ≠ 0 then forUse.resolvedIp else resolveHostname S e.resolver (some forUse.host))

/-- `connection_handler`. -/
def connectionHandler : Program StoreItem.Value HandlerResult :=
  (c.connectionHandlerImpl S inetNtop e).bind fun r => .pure { r with deeds := r.deeds ++ [.endWorker] }

end ConnectionConfig
end ProxyBridge.Windows
