import ProxyBridge.Windows.ConnectionHandler
import ProxyBridge.Windows.FlowRefinement

/-! Where the bytes of an accepted client go. Its sockets are given up on every path, whatever the reads of
the store find, and a transfer starts on a connection to a configured proxy that has agreed to reach the
destination to which the client's port is bound. -/
namespace ProxyBridge.Windows
open ByteStreams CStrings Handshake ReadPrograms Runs

/-- Where a socket of a connection is. -/
inductive SocketPlace where
  | absent
  | opened
  | connected
  | failed
  | closed
  | relayed
  deriving DecidableEq

/-- The configuration block, the place in the count of workers and the two sockets of an accepted client. -/
structure Served where
  block : Bool
  worker : Bool
  client : SocketPlace
  proxy : SocketPlace
  deriving DecidableEq

namespace Served

/-- Behind `accept`. -/
def accepted : Served := ⟨false, false, .opened, .absent⟩

def place (s : Served) : RelaySocket → SocketPlace
  | .client => s.client
  | .proxy => s.proxy

def isOpen : SocketPlace → Bool
  | .opened | .connected | .failed => true
  | .absent | .closed | .relayed => false

def close (s : Served) : RelaySocket → Served
  | .client => { s with client := .closed }
  | .proxy => { s with proxy := .closed }

/-- What each deed needs, and what it makes of the state. -/
def step (s : Served) : ConnectionDeed → Option Served
  | .malloc => if s.block then none else some { s with block := true }
  | .free => if s.block then some { s with block := false } else none
  | .beginWorker => if s.worker then none else some { s with worker := true }
  | .endWorker => if s.worker then some { s with worker := false } else none
  | .openSocket => if s.proxy = .absent then some { s with proxy := .opened } else none
  | .option socket => if isOpen (s.place socket) then some s else none
  | .connect _ _ connected =>
    if s.proxy = .opened then some { s with proxy := if connected then .connected else .failed } else none
  | .exchange => if s.proxy = .connected then some s else none
  | .resetClose socket | .closesocket socket => if isOpen (s.place socket) then some (s.close socket) else none
  | .transfer =>
    if s.client = .opened ∧ s.proxy = .connected then some { s with client := .relayed, proxy := .relayed } else none

/-- Both sockets went to the transfer, or those that were opened are closed. -/
def GivenUp (s : Served) : Prop :=
  (s.client = .relayed ∧ s.proxy = .relayed) ∨ (s.client = .closed ∧ (s.proxy = .absent ∨ s.proxy = .closed))

/-- The deeds are all allowed from this state, and only the sockets' transfer may be left of it. -/
def Settles (s : Served) (deeds : List ConnectionDeed) : Prop :=
  ∃ s', deeds.foldlM step s = some s' ∧ s'.block = false ∧ s'.worker = false ∧ s'.GivenUp

end Served

namespace ConnectionConfig
variable (c : ConnectionConfig) (e : ConnectionEnv)

def binding : Binding :=
  if c.isIpv6 then .v6 c.origDestIp6 c.origDestPort c.proxyConfigId
  else .v4 c.origDestIp c.origDestPort c.proxyConfigId

/-- A read of a slot found this. -/
def Found (reads : List (Σ q : StoreItem, q.Value)) (p : ProxySlot → Prop) : Prop :=
  ∃ i slot, ⟨.slot i, slot⟩ ∈ reads ∧ p slot

/-- What a SOCKS5 request may name: the address of the destination, or the name that the cache has for it
where a slot asks for names. -/
inductive Names (byName : Prop) : Destination → Prop
  | ipv4 (h : c.isIpv6 = false) : Names byName (.ipv4 c.origDestIp)
  | ipv6 (h : c.isIpv6 = true) : Names byName (.ipv6 c.origDestIp6)
  | cached {cachedDomain : List UInt8} (name : HostName) (hby : byName)
      (hcached : c.cachedDomain e = some cachedDomain) (hname : name.bytes = cText cachedDomain) :
      Names byName (.domain name)

/-- The same for the host of an HTTP request. -/
inductive NamesHost (inetNtop : Ip6 → List UInt8) (byName : Prop) : List UInt8 → Prop
  | ipv4 (h : c.isIpv6 = false) : NamesHost inetNtop byName (formatIpAddress c.origDestIp)
  | ipv6 (h : c.isIpv6 = true) :
      NamesHost inetNtop byName (strncpyTruncate 270 (byte '[' :: inetNtop c.origDestIp6 ++ [byte ']']))
  | cached {cachedDomain : List UInt8} (hby : byName) (hcached : c.cachedDomain e = some cachedDomain) :
      NamesHost inetNtop byName cachedDomain

/-- The proxy was asked for the destination and agreed. Behind the reply of a SOCKS5 proxy everything is still to be
read, behind that of an HTTP proxy what the one read did not take. -/
inductive Tunnels (inetNtop : Ip6 → List UInt8) (byName : Prop) (stream : Socket UInt8) : Prop
  | socks5 (d : Destination) (hnames : c.Names e byName d) (request reply : List UInt8)
      (hrequest : Rfc1928.decodeRequest request = some (d.request c.origDestPort))
      (hsent : stream.outbox.sent = e.stream.outbox.sent ++ ([5, 1, 0] ++ request)) (hreply : ConnectReply reply)
      (htaken : e.stream.inbox.bytes = [5, 0] ++ reply ++ stream.inbox.bytes) : Tunnels inetNtop byName stream
  | http (host : List UInt8) (hnames : c.NamesHost e inetNtop byName host)
      (hsent : stream.outbox.sent = e.stream.outbox.sent ++ connectRequest host c.origDestPort)
      (hanswer : NumberOk ((incoming e.stream.inbox).read 4095))
      (htaken : stream.inbox.bytes = (incoming e.stream.inbox).left 4095) : Tunnels inetNtop byName stream

/-- One read found SOCKS5 and another one HTTP. -/
def Retyped (reads : List (Σ q : StoreItem, q.Value)) : Prop :=
  Found reads (fun slot => slot.type = .http) ∧ Found reads (fun slot => slot.type = .socks5)

end ConnectionConfig

section Exchanges
variable {c : ConnectionConfig} {e : ConnectionEnv} {inetNtop : Ip6 → List UInt8}

/-- A buffer that holds a name, its terminator and anything behind it. -/
private theorem terminated (name behind : List UInt8) :
    ∃ behind', name ++ 0 :: behind = cText name ++ 0 :: behind' := by
  induction name with
  | nil => exact ⟨behind, rfl⟩
  | cons b name ih =>
    obtain ⟨behind', he⟩ := ih
    by_cases hb : b = 0
    · subst hb
      exact ⟨name ++ 0 :: behind, rfl⟩
    · refine ⟨behind', ?_⟩
      have htext : cText (b :: name) = b :: cText name := by simp [cText, hb]
      rw [htext, List.cons_append, List.cons_append, he]

private theorem zero_not_mem_cText (s : List UInt8) : (0 : UInt8) ∉ cText s := by
  intro h
  simpa using List.mem_takeWhile_imp h

/-- A name that can be sent is one of 1 to 255 bytes. -/
private theorem domain_connect {name behind : List UInt8} {port : UInt16} {s : Socket UInt8}
    (h : ((socks5ConnectDomain (name ++ 0 :: behind) port).run s).1.result = 0) :
    ∃ (host : HostName) (behind' : List UInt8), host.bytes = cText name ∧
      socks5ConnectDomain (name ++ 0 :: behind) port = (Destination.domain host).connect port behind' := by
  obtain ⟨behind', he⟩ := terminated name behind
  have htext : (name ++ 0 :: behind).takeWhile (· != 0) = cText name := by
    have hall : ∀ b ∈ cText name, (b != 0) = true := fun b hb => by
      simpa using List.mem_takeWhile_imp hb
    rw [he, List.takeWhile_append_of_pos hall]
    simp
  have hlen : strnlenS (name ++ 0 :: behind) 256 = min (cText name).length 256 := by rw [strnlenS, htext]
  by_cases hbad : strnlenS (name ++ 0 :: behind) 256 = 0 ∨ strnlenS (name ++ 0 :: behind) 256 > 255
  · rw [socks5ConnectDomain, if_pos hbad] at h
    exact absurd (show (-1 : Int) = 0 from h) (by decide)
  · rw [hlen] at hbad
    have hne : cText name ≠ [] := by
      intro hnil
      rw [hnil] at hbad
      exact hbad (.inl rfl)
    exact ⟨⟨cText name, hne, by omega, zero_not_mem_cText name⟩, behind', rfl, by rw [he]; rfl⟩

/-- The dialogue that returns 0 is a call for a destination that may be named. -/
private theorem socksDialogue_connect {byName : Bool}
    (h : ((c.socksDialogue e byName).run e.stream).1.result = 0) :
    ∃ d behind, c.Names e (byName = true) d ∧ c.socksDialogue e byName = d.connect c.origDestPort behind := by
  unfold ConnectionConfig.socksDialogue at h ⊢
  split at h
  · rename_i cachedDomain hif
    split at hif
    · rename_i hby
      obtain ⟨host, behind, hbytes, hconnect⟩ := domain_connect h
      exact ⟨.domain host, behind, .cached host hby hif hbytes, hconnect⟩
    · cases hif
  · cases hfamily : c.isIpv6 with
    | false => exact ⟨.ipv4 c.origDestIp, [], .ipv4 hfamily, rfl⟩
    | true => exact ⟨.ipv6 c.origDestIp6, [], .ipv6 hfamily, rfl⟩

theorem socksDialogue_tunnels {byName : Bool} (h : ((c.socksDialogue e byName).run e.stream).1.result = 0) :
    c.Tunnels e inetNtop (byName = true) ((c.socksDialogue e byName).run e.stream).2 := by
  obtain ⟨d, behind, hnames, hconnect⟩ := socksDialogue_connect h
  rw [hconnect] at h ⊢
  obtain ⟨reply, hreply, htaken⟩ := Destination.connect_replied h
  exact .socks5 d hnames _ reply (Rfc1928.decodeRequest_eq_some_iff.mpr rfl)
    ((d.connect_requests c.origDestPort behind).success e.stream h) hreply htaken

private theorem httpRequest_names (byName : Bool) :
    ∃ host, c.NamesHost e inetNtop (byName = true) host ∧
      c.httpRequest inetNtop e byName = connectRequest host c.origDestPort := by
  unfold ConnectionConfig.httpRequest
  cases hfamily : c.isIpv6 with
  | false =>
    cases byName with
    | false => exact ⟨_, .ipv4 hfamily, rfl⟩
    | true =>
      cases hcached : dnsCacheLookup e.caches.v4 e.now c.origDestIp with
      | none => exact ⟨_, .ipv4 hfamily, by simp [httpConnectRequest, hcached]⟩
      | some name =>
        refine ⟨name, .cached rfl (by simp [ConnectionConfig.cachedDomain, hfamily, hcached]), ?_⟩
        simp [httpConnectRequest, hcached]
  | true =>
    cases byName with
    | false => exact ⟨_, .ipv6 hfamily, rfl⟩
    | true =>
      cases hcached : dnsCacheLookupV6 e.caches.v6 e.now c.origDestIp6 with
      | none => exact ⟨_, .ipv6 hfamily, by simp [httpConnectV6Request, hcached]⟩
      | some name =>
        refine ⟨name, .cached rfl (by simp [ConnectionConfig.cachedDomain, hfamily, hcached]), ?_⟩
        simp [httpConnectV6Request, hcached]

/-- What one read leaves is what the model of the answer calls left. -/
private theorem incoming_left (i : Inbox UInt8) : (i.recv 4095).2.bytes = (incoming i).left 4095 := by
  obtain ⟨segments, h⟩ := i
  cases segments with
  | nil => rfl
  | cons s rest => exact Inbox.recv_bytes 4095 s rest h

theorem httpHandshake_tunnels {byName : Bool} (h : (c.httpHandshake inetNtop e byName).1 = true) :
    c.Tunnels e inetNtop (byName = true) (c.httpHandshake inetNtop e byName).2 := by
  obtain ⟨host, hnames, hrequest⟩ : ∃ host, c.NamesHost e inetNtop (byName = true) host ∧
      c.httpRequest inetNtop e byName = connectRequest host c.origDestPort := httpRequest_names byName
  unfold ConnectionConfig.httpHandshake httpExchange at h ⊢
  rw [hrequest] at h ⊢
  dsimp only at h ⊢
  split at h
  · cases h
  · rename_i hall
    rw [if_neg hall]
    rw [ne_eq, not_not] at hall
    obtain ⟨rest, hrest⟩ := Option.isSome_iff_exists.mp h
    have hsome : httpConnect true (incoming e.stream.inbox) = some rest ∨
        httpConnectV6 true (incoming e.stream.inbox) = some rest := by
      cases hfamily : c.isIpv6 with
      | false =>
        rw [hfamily] at hrest
        exact .inl hrest
      | true =>
        rw [hfamily] at hrest
        exact .inr hrest
    refine .http host hnames ?_ (httpConnect_some hsome).1 (incoming_left _)
    exact (Outbox.send_sent _ _).trans (by rw [hall, List.take_length])

end Exchanges

namespace ConnectionConfig
variable {S : UnsignedScan} {inetNtop : Ip6 → List UInt8} {c : ConnectionConfig} {e : ConnectionEnv}
  {reads : List (Σ q : StoreItem, q.Value)} {r : HandlerResult}

private theorem Names.mono {p q : Prop} (hpq : p → q) {d : Destination} (h : c.Names e p d) : c.Names e q d := by
  cases h with
  | ipv4 hf => exact .ipv4 hf
  | ipv6 hf => exact .ipv6 hf
  | cached name hby hcached hname => exact .cached name (hpq hby) hcached hname

private theorem NamesHost.mono {p q : Prop} (hpq : p → q) {host : List UInt8} (h : c.NamesHost e inetNtop p host) :
    c.NamesHost e inetNtop q host := by
  cases h with
  | ipv4 hf => exact .ipv4 hf
  | ipv6 hf => exact .ipv6 hf
  | cached hby hcached => exact .cached (hpq hby) hcached

theorem Tunnels.mono {p q : Prop} (hpq : p → q) {stream : Socket UInt8} (h : c.Tunnels e inetNtop p stream) :
    c.Tunnels e inetNtop q stream := by
  cases h with
  | socks5 d hnames request reply hrequest hsent hreply htaken =>
    exact .socks5 d (hnames.mono hpq) request reply hrequest hsent hreply htaken
  | http host hnames hsent hanswer htaken => exact .http host (hnames.mono hpq) hsent hanswer htaken

/-- What one call of the connection thread has done, with what it read on the way. -/
structure Handled (S : UnsignedScan) (inetNtop : Ip6 → List UInt8) (c : ConnectionConfig) (e : ConnectionEnv)
    (reads : List (Σ q : StoreItem, q.Value)) (r : HandlerResult) : Prop where
  settles : Served.Settles ⟨true, true, .opened, .absent⟩ (r.deeds ++ [.endWorker])
  connects : ∀ ip port connected, .connect ip port connected ∈ r.deeds → ip ≠ 0 ∧
    Found reads (fun slot => slot.port = port) ∧
    Found reads (fun slot => slot.resolvedIp = ip ∨ resolveHostname S e.resolver (some slot.host) = ip)
  quiet : .exchange ∉ r.deeds → r.stream = e.stream
  reached : .exchange ∈ r.deeds ∨ .transfer ∈ r.deeds → ∃ ip port, .connect ip port true ∈ r.deeds
  tunnels : .transfer ∈ r.deeds →
    c.Tunnels e inetNtop (Found reads fun slot => slot.sendDomainToProxy = true) r.stream ∨
      (Retyped reads ∧ .exchange ∉ r.deeds)

/-- The socket to the proxy has been opened and the connection tried. -/
def opening (proxyIp : UInt32) (port : UInt16) (connected : Bool) : List ConnectionDeed :=
  [.free, .openSocket, .option .proxy, .option .client, .connect proxyIp port connected]

private theorem settles_dropped (result : UInt32) (stream : Socket UInt8) :
    Served.Settles ⟨true, true, .opened, .absent⟩
      ((⟨result, [.free, .closesocket .client], stream⟩ : HandlerResult).deeds ++ [.endWorker]) :=
  ⟨_, rfl, rfl, rfl, .inr ⟨rfl, .inl rfl⟩⟩

/-- A call that gives the client up without a socket to the proxy. -/
private theorem handled_dropped (result : UInt32) :
    Handled S inetNtop c e reads ⟨result, [.free, .closesocket .client], e.stream⟩ where
  settles := settles_dropped result e.stream
  connects ip port connected h := by simp at h
  quiet _ := rfl
  reached h := by simp at h
  tunnels h := by simp at h

variable {proxyIp : UInt32} {port : UInt16}

/-- What is known of the connection to the proxy. -/
structure Reached (S : UnsignedScan) (e : ConnectionEnv) (reads : List (Σ q : StoreItem, q.Value)) (proxyIp : UInt32)
    (port : UInt16) : Prop where
  ip : proxyIp ≠ 0
  port : Found reads fun slot => slot.port = port
  host : Found reads fun slot => slot.resolvedIp = proxyIp ∨ resolveHostname S e.resolver (some slot.host) = proxyIp

private theorem Reached.connects (h : Reached S e reads proxyIp port) {deeds : List ConnectionDeed}
    (hdeeds : ∀ ip p ok, .connect ip p ok ∈ deeds → ip = proxyIp ∧ p = port) :
    ∀ ip p ok, .connect ip p ok ∈ deeds → ip ≠ 0 ∧ Found reads (fun slot => slot.port = p) ∧
      Found reads (fun slot => slot.resolvedIp = ip ∨ resolveHostname S e.resolver (some slot.host) = ip) := by
  intro ip p ok hmem
  obtain ⟨rfl, rfl⟩ := hdeeds ip p ok hmem
  exact ⟨h.ip, h.port, h.host⟩

/-- The proxy did not take the connection. -/
private theorem Reached.handled_failed (h : Reached S e reads proxyIp port) :
    Handled S inetNtop c e reads
      ⟨0, opening proxyIp port false ++ [.resetClose .client, .closesocket .proxy], e.stream⟩ where
  settles := ⟨_, rfl, rfl, rfl, .inr ⟨rfl, .inr rfl⟩⟩
  connects := h.connects (by simp +contextual [opening])
  quiet _ := rfl
  reached ht := by simp [opening] at ht
  tunnels ht := by simp [opening] at ht

/-- The part behind the handshake, with or without one. -/
private theorem Reached.handled_transfer (h : Reached S e reads proxyIp port) {stream : Socket UInt8}
    {middle : List ConnectionDeed} (hmiddle : middle = [] ∨ middle = [.exchange])
    (hquiet : .exchange ∉ middle → stream = e.stream)
    (htunnels : c.Tunnels e inetNtop (Found reads fun slot => slot.sendDomainToProxy = true) stream ∨
      (Retyped reads ∧ .exchange ∉ middle)) :
    Handled S inetNtop c e reads (startTransfer e (opening proxyIp port true ++ middle) stream) := by
  have hmid : ∀ ip p ok, .connect ip p ok ∉ middle := by
    rcases hmiddle with rfl | rfl <;> simp
  unfold startTransfer
  cases e.allocated with
  | false =>
    refine ⟨?_, ?_, fun hne => hquiet fun hm => hne (by simp [hm]), fun _ => ⟨proxyIp, port, by simp [opening]⟩,
      fun ht => ?_⟩
    · rcases hmiddle with rfl | rfl
      · exact ⟨_, rfl, rfl, rfl, .inr ⟨rfl, .inr rfl⟩⟩
      · exact ⟨_, rfl, rfl, rfl, .inr ⟨rfl, .inr rfl⟩⟩
    · exact h.connects (by simp +contextual [opening, hmid])
    · rcases hmiddle with rfl | rfl <;> simp [opening] at ht
  | true =>
    refine ⟨?_, ?_, fun hne => hquiet fun hm => hne (by simp [hm]), fun _ => ⟨proxyIp, port, by simp [opening]⟩,
      fun _ => htunnels.imp_right fun ⟨hr, hm⟩ => ⟨hr, ?_⟩⟩
    · rcases hmiddle with rfl | rfl
      · exact ⟨_, rfl, rfl, rfl, .inl ⟨rfl, rfl⟩⟩
      · exact ⟨_, rfl, rfl, rfl, .inl ⟨rfl, rfl⟩⟩
    · exact h.connects (by simp +contextual [opening, hmid])
    · simpa [opening] using hm

/-- A handshake that ended, and the transfer behind one that returned 0. -/
private theorem Reached.handled_handshake (h : Reached S e reads proxyIp port) {x : Bool × Socket UInt8}
    (htunnels : x.1 = true → c.Tunnels e inetNtop (Found reads fun slot => slot.sendDomainToProxy = true) x.2) :
    Handled S inetNtop c e reads (afterHandshake e (opening proxyIp port true) x) := by
  unfold afterHandshake
  cases hx : x.1 with
  | false =>
    refine ⟨⟨_, rfl, rfl, rfl, .inr ⟨rfl, .inr rfl⟩⟩, h.connects (by simp +contextual [opening]), fun hne => ?_,
      fun _ => ⟨proxyIp, port, by simp [opening]⟩, fun ht => ?_⟩
    · exact (hne (by simp)).elim
    · simp [opening] at ht
  | true => exact h.handled_transfer (.inr rfl) (fun hne => (hne (by simp)).elim) (.inl (htunnels hx))

private theorem openTunnel_handled {i : Nat} {rs : List (Σ q : StoreItem, q.Value)}
    (hy : (c.openTunnel inetNtop e i (opening proxyIp port true)).Yields rs r) (hsub : rs ⊆ reads)
    (h : Reached S e reads proxyIp port) : Handled S inetNtop c e reads r := by
  cases hy with
  | read forSocks5 hy =>
  dsimp only at hy
  split at hy
  · cases hy with
    | read forDomain hy =>
    cases hy
    refine h.handled_handshake fun hok => (socksDialogue_tunnels (beq_iff_eq.mp hok)).mono fun hby => ?_
    exact ⟨i, forDomain, hsub (by simp), hby⟩
  · rename_i hsocks5
    cases hy with
    | read forHttp hy =>
    dsimp only at hy
    split at hy
    · cases hy with
      | read forDomain hy =>
      cases hy
      refine h.handled_handshake fun hok => (httpHandshake_tunnels hok).mono fun hby => ?_
      exact ⟨i, forDomain, hsub (by simp), hby⟩
    · -- HTTP at the first test and SOCKS5 at the second
      rename_i hhttp
      cases hy
      have hretyped : Retyped reads := by
        refine ⟨⟨i, forSocks5, hsub (by simp), ?_⟩, i, forHttp, hsub (by simp), ?_⟩
        · cases ht : forSocks5.type with
          | http => exact ht
          | socks5 => exact (hsocks5 ht).elim
        · cases ht : forHttp.type with
          | http => exact (hhttp ht).elim
          | socks5 => exact ht
      have hnone : Handled S inetNtop c e reads (startTransfer e (opening proxyIp port true ++ []) e.stream) :=
        h.handled_transfer (.inl rfl) (fun _ => rfl) (.inr ⟨hretyped, by simp⟩)
      rwa [List.append_nil] at hnone

private theorem connectProxy_handled {i : Nat} {rs : List (Σ q : StoreItem, q.Value)}
    (hy : (c.connectProxy inetNtop e i proxyIp).Yields rs r) (hsub : rs ⊆ reads)
    (hhost : Found reads fun slot => slot.resolvedIp = proxyIp ∨
      resolveHostname S e.resolver (some slot.host) = proxyIp) : Handled S inetNtop c e reads r := by
  unfold connectProxy at hy
  split at hy
  · cases hy
    exact handled_dropped 1
  · rename_i hip
    split at hy
    · cases hy
      exact handled_dropped 0
    · cases hy with
      | read forPort hy =>
      have h : Reached S e reads proxyIp forPort.port := ⟨hip, ⟨i, forPort, hsub (by simp), rfl⟩, hhost⟩
      cases hconnected : e.connected with
      | false =>
        simp only [hconnected, Bool.not_false, if_true] at hy
        cases hy
        exact h.handled_failed
      | true =>
        simp only [hconnected, Bool.not_true, Bool.false_eq_true, if_false] at hy
        exact openTunnel_handled hy (fun x hx => hsub (List.mem_cons_of_mem _ hx)) h

theorem connectionHandlerImpl_handled (hy : (c.connectionHandlerImpl S inetNtop e).Yields reads r) :
    Handled S inetNtop c e reads r := by
  cases hy with
  | read found hy =>
  cases found with
  | none =>
    cases hy
    exact handled_dropped 1
  | some i =>
    cases hy with
    | read forHost hy =>
    dsimp only at hy
    split at hy
    · cases hy
      exact handled_dropped 1
    · cases hy with
      | read forPort hy =>
      dsimp only at hy
      split at hy
      · cases hy
        exact handled_dropped 1
      · cases hy with
        | read forTest hy =>
        cases hy with
        | read forUse hy =>
        refine connectProxy_handled hy (fun x hx => by simp [hx]) ⟨i, forUse, by simp, ?_⟩
        split
        · exact .inl rfl
        · exact .inr rfl

/-- Behind the search, the thread reads the one slot that it found. -/
private theorem openTunnel_asks (i : Nat) (before : List ConnectionDeed) :
    (c.openTunnel inetNtop e i before).Asks (· = .slot i) := by
  refine .read rfl fun forSocks5 => ?_
  split
  · exact .read rfl fun _ => .pure _
  · refine .read rfl fun forHttp => ?_
    split
    · exact .read rfl fun _ => .pure _
    · exact .pure _

private theorem connectProxy_asks (i : Nat) (proxyIp : UInt32) :
    (c.connectProxy inetNtop e i proxyIp).Asks (· = .slot i) := by
  unfold connectProxy
  split
  · exact .pure _
  · split
    · exact .pure _
    · refine .read rfl fun forPort => ?_
      dsimp only
      split
      · exact .pure _
      · exact openTunnel_asks i _

/-- With a store that stays as it is, what the thread finds is the slot of its configuration. -/
private theorem found_agrees {store : ProxyStore} (hy : (c.connectionHandlerImpl S inetNtop e).Yields reads r)
    (hagrees : Agrees store.answer reads) {p : ProxySlot → Prop} (hp : Found reads p) :
    ∃ slot, store.findProxyConfig c.proxyConfigId = some slot ∧ p slot ∧
      ∀ p' : ProxySlot → Prop, Found reads p' → p' slot := by
  cases hy with
  | @read _ _ reads _ found hy =>
  have hfind : store.answer (.find c.proxyConfigId) = found := hagrees ⟨.find c.proxyConfigId, found⟩ (by simp)
  cases found with
  | none =>
    cases hy
    obtain ⟨i, slot, hmem, -⟩ := hp
    simp at hmem
  | some i =>
    have hasks : ∀ x ∈ reads, x.1 = .slot i := by
      refine @Program.Yields.wanted _ _ _ (· = .slot i) _ _ _ hy (.read rfl fun forHost => ?_)
      split
      · exact .pure _
      · refine .read rfl fun forPort => ?_
        split
        · exact .pure _
        · exact .read rfl fun _ => .read rfl fun _ => connectProxy_asks i _
    have hall : ∀ p' : ProxySlot → Prop,
        Found (⟨.find c.proxyConfigId, some i⟩ :: reads) p' → p' (store.configs i) := by
      rintro p' ⟨j, slot, hmem, hp'⟩
      have hrest : ⟨.slot j, slot⟩ ∈ reads := by simpa using hmem
      obtain rfl : j = i := StoreItem.slot.inj (hasks _ hrest)
      obtain rfl : store.configs j = slot := hagrees ⟨.slot j, slot⟩ hmem
      exact hp'
    refine ⟨store.configs i, ?_, hall p hp, hall⟩
    have hindex : (store.find c.proxyConfigId).orElse (fun _ => if store.count > 0 then some 0 else none) = some i :=
      hfind
    unfold ProxyStore.findProxyConfig
    cases hs : store.find c.proxyConfigId with
    | some j =>
      rw [hs] at hindex
      rw [Option.some.inj (show some j = some i from hindex)]
    | none =>
      rw [hs] at hindex
      simp only [Option.orElse_none] at hindex
      split at hindex
      · rename_i hpos
        rw [if_pos hpos, ← Option.some.inj hindex]
      · cases hindex

theorem connectionHandler_impl (hy : (c.connectionHandler S inetNtop e).Yields reads r) :
    ∃ r', (c.connectionHandlerImpl S inetNtop e).Yields reads r' ∧
      r = { r' with deeds := r'.deeds ++ [.endWorker] } := by
  obtain ⟨first, rest, r', rfl, hy', hrest⟩ := hy.of_bind
  cases hrest
  rw [List.append_nil]
  exact ⟨r', hy', rfl⟩

end ConnectionConfig

namespace AcceptEnv
variable {a : AcceptEnv} {c : ConnectionConfig} {t : Tables}

def peerOk (a : AcceptEnv) (c : ConnectionConfig) : Bool :=
  if a.isIpv6 then relayPeerOkV6 a.peerIp6 c.origDestIp6 else relayPeerOkV4 a.peerIp c.origDestIp

private theorem lookup_some (h : (a.lookup t).1 = some c) :
    c.isIpv6 = a.isIpv6 ∧ a.peerOk c = true ∧
      if a.isIpv6 then
        (t.getConnectionFullV6 a.now a.clientPort false).1 = some (c.origDestIp6, c.origDestPort, c.proxyConfigId)
      else (t.getConnectionFull a.now a.clientPort false).1 = some (c.origDestIp, c.origDestPort, c.proxyConfigId) := by
  unfold lookup at h
  cases hfamily : a.isIpv6 with
  | false =>
    simp only [hfamily, Bool.false_eq_true, if_false] at h ⊢
    obtain ⟨⟨ip, port, id⟩, hfound, hpeer⟩ := Option.bind_eq_some_iff.mp h
    split at hpeer
    · rename_i hok
      obtain rfl := Option.some.inj hpeer
      exact ⟨rfl, by simpa [peerOk, hfamily] using hok, hfound⟩
    · cases hpeer
  | true =>
    simp only [hfamily, if_true] at h ⊢
    obtain ⟨⟨ip6, port, id⟩, hfound, hpeer⟩ := Option.bind_eq_some_iff.mp h
    split at hpeer
    · rename_i hok
      obtain rfl := Option.some.inj hpeer
      exact ⟨rfl, by simpa [peerOk, hfamily] using hok, hfound⟩
    · cases hpeer

/-- A thread is created for a client that was found, and only for one. -/
private theorem acceptClient_cases (a : AcceptEnv) (t : Tables) :
    ((a.acceptClient t).1 = none ∧ Served.accepted.Settles (a.acceptClient t).2.1) ∨
    ∃ c, (a.acceptClient t).1 = some c ∧ (a.lookup t).1 = some c ∧
      (a.acceptClient t).2.1 = [.malloc, .beginWorker] := by
  unfold acceptClient
  dsimp only
  cases a.allocated with
  | false => exact .inl ⟨rfl, _, rfl, rfl, rfl, .inr ⟨rfl, .inl rfl⟩⟩
  | true =>
    rw [Bool.not_true, if_neg Bool.false_ne_true]
    cases (a.lookup t).1 with
    | none => exact .inl ⟨rfl, _, rfl, rfl, rfl, .inr ⟨rfl, .inl rfl⟩⟩
    | some c =>
      cases a.admitted with
      | false => exact .inl ⟨rfl, _, rfl, rfl, rfl, .inr ⟨rfl, .inl rfl⟩⟩
      | true =>
        cases a.threadMade with
        | false => exact .inl ⟨rfl, _, rfl, rfl, rfl, .inr ⟨rfl, .inl rfl⟩⟩
        | true => exact .inr ⟨c, rfl, rfl, rfl⟩

end AcceptEnv

/-- Whatever the tables, the system and the reads of the store answer, an accepted client is served by
allowed deeds only, and at the end its block, its place among the workers and its sockets are given up. -/
theorem accepted_clients_settle (S : UnsignedScan) (inetNtop : Ip6 → List UInt8) (a : AcceptEnv) (t : Tables) :
    match a.acceptClient t with
    | (none, deeds, _) => Served.accepted.Settles deeds
    | (some c, deeds, _) => ∀ (e : ConnectionEnv) (reads : List (Σ q : StoreItem, q.Value)) (r : HandlerResult),
        (c.connectionHandler S inetNtop e).Yields reads r → Served.accepted.Settles (deeds ++ r.deeds) := by
  rcases a.acceptClient_cases t with ⟨hnone, hsettles⟩ | ⟨c, hsome, -, hdeeds⟩
  · rcases hr : a.acceptClient t with ⟨found, deeds, t'⟩
    rw [hr] at hnone hsettles
    obtain rfl : found = none := hnone
    exact hsettles
  · rcases hr : a.acceptClient t with ⟨found, deeds, t'⟩
    rw [hr] at hsome hdeeds
    obtain rfl : found = some c := hsome
    obtain rfl : deeds = [.malloc, .beginWorker] := hdeeds
    intro e reads r hy
    obtain ⟨r', hy', rfl⟩ := ConnectionConfig.connectionHandler_impl hy
    exact (ConnectionConfig.connectionHandlerImpl_handled hy').settles

/-- A SOCKS5 proxy on 127.0.0.1:1080. -/
def socksStore : ProxyStore :=
  ⟨fun _ => { ProxySlot.zeroed with
    configId := 1, type := .socks5, host := lit ['p'], port := 1080, resolvedIp := 0x0100007f }, 1, 2⟩

/-- The proxy agrees, and a byte of the destination comes with its reply. -/
def agreeingProxy : ConnectionEnv where
  resolver _ := none
  socketMade := true
  connected := true
  caches := .empty
  now := 0
  behind := []
  stream := ⟨⟨[[5, 0], [5, 0, 0, 1, 0, 0, 0, 0, 0, 0, 9]], by decide⟩, ⟨[64], [], by decide⟩⟩
  allocated := true

/-- A client on port 5000 of the loopback address. -/
def loopbackClient : AcceptEnv := ⟨false, 0x0100007f, .zero, 5000, 200, true, true, true⟩

/-- Port 5000 is bound to 8.8.8.8:443. -/
def boundTables : Tables := Tables.empty.apply (.addConnection 1 100 (some 0) 5000 false 0x0100007f 0x08080808 443 1)

def boundClient : ConnectionConfig := ⟨false, 0x08080808, .zero, 443, 1⟩

/-- The result of the thread of this client with that proxy. -/
def agreedResult : HandlerResult :=
  (boundClient.connectionHandler .accumulated (fun _ => []) agreeingProxy).run socksStore.answer

theorem accepted_clients_settle_agreed :
    Served.accepted.Settles ([.malloc, .beginWorker] ++ agreedResult.deeds) ∧ .transfer ∈ agreedResult.deeds := by
  obtain ⟨reads, hy, -⟩ := Program.yields_run socksStore.answer
    (boundClient.connectionHandler .accumulated (fun _ => []) agreeingProxy)
  exact ⟨accepted_clients_settle .accumulated (fun _ => []) loopbackClient boundTables agreeingProxy reads _ hy,
    by decide +kernel⟩

section Destination
variable {S : UnsignedScan} {inetNtop : Ip6 → List UInt8} {a : AcceptEnv} {c : ConnectionConfig} {e : ConnectionEnv}
  {reads : List (Σ q : StoreItem, q.Value)} {r : HandlerResult} {l : Ledger}

/-- The configuration that a thread gets is what its client's port is bound to. -/
private theorem acceptClient_bound (hl : l.Refines) (ha : (a.acceptClient l.tables).1 = some c) :
    l.bound ⟨a.clientPort, false, a.isIpv6⟩ = some c.binding ∧ a.peerOk c = true := by
  rcases a.acceptClient_cases l.tables with ⟨hnone, -⟩ | ⟨c', hsome, hlookup, -⟩
  · rw [hnone] at ha
    cases ha
  obtain rfl : c' = c := Option.some.inj (hsome.symm.trans ha)
  obtain ⟨hfamily, hpeer, hfound⟩ := AcceptEnv.lookup_some hlookup
  refine ⟨?_, hpeer⟩
  have htracked : ∀ k e, l.tables.flow k = some e → e.isTracked = true := by
    rw [hl.flow]
    exact hl.tracked
  have hanswers := hl.consistent.answers_eq a.now ⟨a.clientPort, false, a.isIpv6⟩ (htracked _)
  rw [hl.flow, hl.binding, Tables.answers] at hanswers
  cases hv : a.isIpv6 with
  | false =>
    simp only [hv, Bool.false_eq_true, if_false] at hfound hanswers
    have hfull := congrArg Answers.full hanswers
    rw [hfound] at hfull
    cases hb : l.bound ⟨a.clientPort, false, false⟩ with
    | none => simp [hb, Binding.answers] at hfull
    | some b =>
      cases b with
      | v4 ip port id =>
        simp only [hb, Binding.answers, Option.some.injEq, Prod.mk.injEq] at hfull
        obtain ⟨rfl, rfl, rfl⟩ := hfull
        simp [ConnectionConfig.binding, hfamily, hv]
      | v6 ip6 port id => simp [hb, Binding.answers] at hfull
  | true =>
    simp only [hv, if_true] at hfound hanswers
    have hfull := congrArg Answers.fullV6 hanswers
    rw [hfound] at hfull
    cases hb : l.bound ⟨a.clientPort, false, true⟩ with
    | none => simp [hb, Binding.answers] at hfull
    | some b =>
      cases b with
      | v4 ip port id => simp [hb, Binding.answers] at hfull
      | v6 ip6 port id =>
        simp only [hb, Binding.answers, Option.some.injEq, Prod.mk.injEq] at hfull
        obtain ⟨rfl, rfl, rfl⟩ := hfull
        simp [ConnectionConfig.binding, hfamily, hv]

/-- In every run of the table calls, an accepted client's thread works for the destination, port and
configuration to which the last add bound the client's port. Whatever its reads of the store find, it connects
to an address and port found in slots, asks for nothing and transfers nothing unless that connection was made, sends
nothing where it asks for nothing, and hands the sockets to the transfer only behind an agreed request for that
destination, save where the type of the slot changed between its two tests. If the store stays as it is, the proxy is
the configured one, without exception. -/
theorem transfers_reach_bound_destination (hl : Reach Ledger.step Ledger.Succeeds .init l)
    (ha : (a.acceptClient l.tables).1 = some c) (hy : (c.connectionHandler S inetNtop e).Yields reads r) :
    l.bound ⟨a.clientPort, false, a.isIpv6⟩ = some c.binding ∧ a.peerOk c = true ∧
    (∀ ip port connected, .connect ip port connected ∈ r.deeds → ip ≠ 0 ∧
      ConnectionConfig.Found reads (fun slot => slot.port = port) ∧
      ConnectionConfig.Found reads
        (fun slot => slot.resolvedIp = ip ∨ resolveHostname S e.resolver (some slot.host) = ip)) ∧
    (.exchange ∉ r.deeds → r.stream = e.stream) ∧
    (.exchange ∈ r.deeds ∨ .transfer ∈ r.deeds → ∃ ip port, .connect ip port true ∈ r.deeds) ∧
    (.transfer ∈ r.deeds →
      c.Tunnels e inetNtop (ConnectionConfig.Found reads fun slot => slot.sendDomainToProxy = true) r.stream ∨
        (ConnectionConfig.Retyped reads ∧ .exchange ∉ r.deeds)) ∧
    ∀ store : ProxyStore, Agrees store.answer reads → .transfer ∈ r.deeds →
      ∃ slot, store.findProxyConfig c.proxyConfigId = some slot ∧
        (∀ ip port connected, .connect ip port connected ∈ r.deeds → port = slot.port ∧
          (ip = slot.resolvedIp ∨ ip = resolveHostname S e.resolver (some slot.host))) ∧
        c.Tunnels e inetNtop (slot.sendDomainToProxy = true) r.stream := by
  obtain ⟨hbound, hpeer⟩ := acceptClient_bound (Ledger.refines_of_reach hl) ha
  obtain ⟨r', hy', rfl⟩ := ConnectionConfig.connectionHandler_impl hy
  have h := ConnectionConfig.connectionHandlerImpl_handled hy'
  have hmem : ∀ {d : ConnectionDeed}, d ≠ .endWorker → (d ∈ r'.deeds ++ [.endWorker] ↔ d ∈ r'.deeds) := by
    intro d hd
    simp [hd]
  refine ⟨hbound, hpeer, fun ip port connected hc => h.connects ip port connected ((hmem (by simp)).mp hc),
    fun hx => h.quiet fun hx' => hx ((hmem (by simp)).mpr hx'), fun hdone => ?_, fun ht => ?_,
    fun store hagrees ht => ?_⟩
  · obtain ⟨ip, port, hc⟩ := h.reached (hdone.imp (hmem (by simp)).mp (hmem (by simp)).mp)
    exact ⟨ip, port, (hmem (by simp)).mpr hc⟩
  · refine (h.tunnels ((hmem (by simp)).mp ht)).imp_right fun ⟨hr, hx⟩ => ⟨hr, fun hx' => hx ?_⟩
    exact (hmem (by simp)).mp hx'
  · obtain ⟨ip, port, hc⟩ := h.reached (.inr ((hmem (by simp)).mp ht))
    obtain ⟨-, hport, -⟩ := h.connects ip port true hc
    obtain ⟨slot, hfind, -, hall⟩ := ConnectionConfig.found_agrees hy' hagrees hport
    refine ⟨slot, hfind, fun ip port connected hc => ?_, ?_⟩
    · obtain ⟨-, hport, hip⟩ := h.connects ip port connected ((hmem (by simp)).mp hc)
      exact ⟨(hall _ hport).symm, (hall _ hip).imp Eq.symm Eq.symm⟩
    · rcases h.tunnels ((hmem (by simp)).mp ht) with htunnel | ⟨⟨hhttp, hsocks5⟩, -⟩
      · exact htunnel.mono (hall _)
      · have hh := hall _ hhttp
        rw [hall _ hsocks5] at hh
        cases hh

/-- The request names 8.8.8.8:443, and the byte behind the reply is left for the transfer. -/
theorem transfers_reach_bound_destination_agreed : ∃ l : Ledger, Reach Ledger.step Ledger.Succeeds .init l ∧
    l.bound ⟨5000, false, false⟩ = some (.v4 0x08080808 443 1) ∧ .transfer ∈ agreedResult.deeds ∧
    agreedResult.stream.outbox.sent = [5, 1, 0, 5, 1, 0, 1, 8, 8, 8, 8, 1, 187] ∧
    agreedResult.stream.inbox.bytes = [9] ∧
    ∃ slot, socksStore.findProxyConfig 1 = some slot ∧
      boundClient.Tunnels agreeingProxy (fun _ => []) (slot.sendDomainToProxy = true) agreedResult.stream := by
  have hl : Reach Ledger.step Ledger.Succeeds .init _ :=
    .next (a := .call (.addConnection 1 100 (some 0) 5000 false 0x0100007f 0x08080808 443 1)) .start
      ⟨fun a _ => Finset.notMem_empty a, fun _ => rfl⟩ rfl
  obtain ⟨reads, hy, hagrees⟩ := Program.yields_run socksStore.answer
    (boundClient.connectionHandler .accumulated (fun _ => []) agreeingProxy)
  have ha : (loopbackClient.acceptClient boundTables).1 = some boundClient := rfl
  have ht : .transfer ∈ agreedResult.deeds := by decide +kernel
  obtain ⟨hbound, -, -, -, -, -, hstore⟩ := transfers_reach_bound_destination hl ha hy
  obtain ⟨slot, hfind, -, htunnel⟩ := hstore socksStore hagrees ht
  exact ⟨_, hl, hbound, ht, by decide +kernel, by decide +kernel, slot, hfind, htunnel⟩

end Destination
end ProxyBridge.Windows
