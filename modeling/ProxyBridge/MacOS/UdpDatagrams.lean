import ProxyBridge.Library.Runs
import ProxyBridge.MacOS.FlowRouting
import ProxyBridge.MacOS.PendingDns

/-! The datagrams of a UDP association. Three handlers run beside each other: one takes what the application
sends to the relay or, as a query, to the DNS listener, and the others bring back what these two answer. The
endpoints of the queries are all that they share. -/
namespace ProxyBridge.MacOS
open Handshake Runs

structure HostEndpoint where
  hostname : String
  port : String
  deriving DecidableEq

/-- A datagram of the application with its endpoint, if that is a host. -/
structure ClientDatagram where
  payload : List UInt8
  endpoint : Option HostEndpoint

/-- The places to which the loop over a batch takes a datagram. -/
inductive ClientRoute where
  | skipped
  | malformedDns
  | dns (nwHost : HostEndpoint) (transactionID : UInt16)
  | relay (nwHost : HostEndpoint) (destPort : UInt16)

def dnsTransactionID (datagram : List UInt8) : Option UInt16 :=
  if datagram.length ≥ 2 then some (wordAt datagram 0) else none

def ClientDatagram.route (dnsSession : Bool) (d : ClientDatagram) : ClientRoute :=
  match d.endpoint with
  | none => .skipped
  | some nwHost =>
    let destPort := (uint16 10 nwHost.port.toList).getD 0
    if destPort = 0 then .skipped
    else if destPort = 53 ∧ dnsSession = true then
      match dnsTransactionID d.payload with
      | none => .malformedDns
      | some transactionID => .dns nwHost transactionID
    else .relay nwHost destPort

/-- A batch of the application part of the way through the loop. -/
structure ClientBatch where
  rest : List ClientDatagram
  toSend : List (List UInt8)
  dnsToSend : List (List UInt8)

/-- A batch of answers to queries. -/
structure DnsBatch where
  rest : List (List UInt8)
  payloads : List (List UInt8 × HostEndpoint)

structure AssociationRelay where
  /-- A read from the application is under way. -/
  reading : Bool
  client : Option ClientBatch
  dns : Option DnsBatch
  endpoints : EndpointHistory HostEndpoint
  loggedDestinations : List StringKey
  /-- The lines for which `sendLogToApp` was called. -/
  lines : List ConnectionLine
  sentToRelay : List (List UInt8)
  sentToDns : List (List UInt8)
  /-- What was written to the application, with the ends that it is said to come from. -/
  fromRelay : List (List UInt8 × String × UInt16)
  fromDns : List (List UInt8 × HostEndpoint)
  /-- The datagrams of the application that the loop has come to. -/
  handled : List ClientDatagram
  received : List (List UInt8)

inductive RelayAction where
  /-- The read from the application ends, with nothing for an error or the end. -/
  | read (batch : Option (List (List UInt8) × List (Option HostEndpoint)))
  /-- The next datagram of the batch; a query may evict the endpoints of the key that is first. -/
  | forward (first : Option UInt16)
  /-- The end of the batch. -/
  | write
  | relayed (datagrams : List (List UInt8))
  | answered (datagrams : List (List UInt8))
  /-- The next answer of its batch. -/
  | answer
  | deliver

namespace AssociationRelay

def init : AssociationRelay := ⟨true, none, none, .init, [], [], [], [], [], [], [], []⟩

section Steps
variable (u : UnicodeData) (P : AddressParsers) (dnsSession : Bool) (displayName : String) (s : AssociationRelay)

/-- Every destination is logged when it comes first, and those that no longer fit each time. -/
def logOnce (key : String) (line : ConnectionLine) : AssociationRelay :=
  if s.loggedDestinations.contains (u.key key) then s
  else { s with
    loggedDestinations :=
      if s.loggedDestinations.length < 64 then u.key key :: s.loggedDestinations else s.loggedDestinations
    lines := s.lines ++ [line] }

/-- One turn of the loop in `readAndForwardClientUDP`. -/
def forward (batch : ClientBatch) (d : ClientDatagram) (first : Option UInt16) : Option AssociationRelay :=
  match d.route dnsSession with
  | .skipped | .malformedDns => some { s with client := some batch }
  | .dns nwHost transactionID =>
    (s.endpoints.step (.rememberDnsEndpoint nwHost transactionID first)).map fun endpoints =>
      logOnce u { s with
        endpoints
        client := some { batch with dnsToSend := batch.dnsToSend ++ [d.payload] } } ("dns:" ++ nwHost.hostname)
        ⟨"UDP", displayName, nwHost.hostname, nwHost.port, "Mihomo DNS"⟩
  | .relay nwHost destPort =>
    some (logOnce u { s with
      client := some { batch with
        toSend := batch.toSend ++ (encapsulateSOCKS5UDP P d.payload nwHost.hostname destPort).toList } }
      nwHost.hostname ⟨"UDP", displayName, nwHost.hostname, nwHost.port, "SOCKS5"⟩)

/-- The loop in `readAndForwardRelayUDP`; an access out of bounds would trap. -/
def decapsulateAll (datagrams : List (List UInt8)) : Option (List (List UInt8 × String × UInt16)) :=
  match datagrams.mapM (decapsulateSOCKS5UDPWithEndpoint P.decode) with
  | .ok results => some (results.filterMap id)
  | .error _ => none

/-- One turn of the loop in `readAndForwardDnsUDP`. -/
def answer (batch : DnsBatch) (datagram : List UInt8) : Option AssociationRelay :=
  match dnsTransactionID datagram with
  | none => some { s with dns := some batch }
  | some transactionID =>
    (s.endpoints.step (.takeDnsEndpoint transactionID)).map fun endpoints =>
      let taken := (s.endpoints.pending.takeDnsEndpoint transactionID).1
      { s with endpoints, dns := some { batch with payloads := batch.payloads ++ (taken.map (datagram, ·)).toList } }

def step : RelayAction → Option AssociationRelay
  | .read none => if s.reading then some { s with reading := false } else none
  | .read (some (datagrams, endpoints)) =>
    if !s.reading then none
    else if datagrams.isEmpty then some { s with reading := false }
    else some { s with reading := false, client := some ⟨List.zipWith .mk datagrams endpoints, [], []⟩ }
  | .forward first =>
    match s.client with
    | some ⟨d :: rest, toSend, dnsToSend⟩ =>
      forward u P dnsSession displayName { s with handled := s.handled ++ [d] } ⟨rest, toSend, dnsToSend⟩ d first
    | _ => none
  | .write =>
    match s.client with
    | some ⟨[], toSend, dnsToSend⟩ => some { s with
        sentToRelay := s.sentToRelay ++ toSend
        sentToDns := s.sentToDns ++ dnsToSend
        client := none
        reading := true }
    | _ => none
  | .relayed datagrams =>
    (decapsulateAll P datagrams).map fun payloads =>
      { s with fromRelay := s.fromRelay ++ payloads, received := s.received ++ datagrams }
  | .answered datagrams =>
    if dnsSession = true ∧ s.dns.isNone then some { s with dns := some ⟨datagrams, []⟩ } else none
  | .answer =>
    match s.dns with
    | some ⟨datagram :: rest, payloads⟩ => s.answer ⟨rest, payloads⟩ datagram
    | _ => none
  | .deliver =>
    match s.dns with
    | some ⟨[], payloads⟩ => some { s with fromDns := s.fromDns ++ payloads, dns := none }
    | _ => none

end Steps
end AssociationRelay

/-! What the handlers are for: every datagram goes one way, once and in its order. -/

section Purpose
variable (u : UnicodeData) (P : AddressParsers) (dnsSession : Bool)

/-- The SOCKS5 datagram in which a datagram goes to the relay. -/
def ClientDatagram.relayed (d : ClientDatagram) : Option (List UInt8) :=
  match d.route dnsSession with
  | .relay nwHost destPort => encapsulateSOCKS5UDP P d.payload nwHost.hostname destPort
  | _ => none

/-- A query with its transaction and the resolver that was asked. -/
def ClientDatagram.query (d : ClientDatagram) : Option (UInt16 × HostEndpoint) :=
  match d.route dnsSession with
  | .dns nwHost transactionID => some (transactionID, nwHost)
  | _ => none

def ClientDatagram.key (d : ClientDatagram) : Option StringKey :=
  match d.route dnsSession with
  | .dns nwHost _ => some (u.key ("dns:" ++ nwHost.hostname))
  | .relay nwHost _ => some (u.key nwHost.hostname)
  | _ => none

def lineKey (line : ConnectionLine) : StringKey :=
  u.key (if line.proxy = "Mihomo DNS" then "dns:" ++ line.destination else line.destination)

/-- The resolvers that were asked under a transaction, in order. -/
def resolversAsked (k : UInt16) (handled : List ClientDatagram) : List HostEndpoint :=
  ((handled.filterMap (·.query dnsSession)).filter (·.1 = k)).map (·.2)

/-- The resolvers that answers under a transaction are said to come from. -/
def resolversAnswered (k : UInt16) (answers : List (List UInt8 × HostEndpoint)) : List HostEndpoint :=
  (answers.filter (dnsTransactionID ·.1 = some k)).map (·.2)

/-- A destination in the set has one line, and one with a line is in the set while that has room. -/
structure LoggedOnce (logged : List StringKey) (lines : List ConnectionLine) (handled : List ClientDatagram) :
    Prop where
  nodup : logged.Nodup
  bounded : logged.length ≤ 64
  once : ∀ k ∈ logged, (lines.filter (lineKey u · = k)).length = 1
  every : ∀ d ∈ handled, ∀ k, d.key u dnsSession = some k → ∃ line ∈ lines, lineKey u line = k
  room : logged.length < 64 → ∀ line ∈ lines, lineKey u line ∈ logged

/-- What the relay has sent, with the end that its header names. -/
def decapsulated (datagram : List UInt8) : Option (List UInt8 × String × UInt16) :=
  match decapsulateSOCKS5UDPWithEndpoint P.decode datagram with
  | .ok result => result
  | .error _ => none

/-- Every datagram that was taken goes one way or is on it, and every answer comes from a resolver that was asked. -/
structure AssociationRelay.Moved (s : AssociationRelay) : Prop where
  idle : s.reading = true → s.client = none
  toRelay : s.sentToRelay ++ (s.client.map (·.toSend)).getD [] = s.handled.filterMap (·.relayed P dnsSession)
  toDns : s.sentToDns ++ (s.client.map (·.dnsToSend)).getD [] =
    (s.handled.filter fun d => (d.query dnsSession).isSome).map (·.payload)
  asked : ∀ k, s.endpoints.remembered k = resolversAsked dnsSession k s.handled
  answered : ∀ k, resolversAnswered k (s.fromDns ++ (s.dns.map (·.payloads)).getD []) = s.endpoints.answers k
  kept : s.endpoints.Kept
  fromRelay : s.fromRelay = s.received.filterMap (decapsulated P)

structure AssociationRelay.Sound (s : AssociationRelay) : Prop extends s.Moved P dnsSession where
  logged : LoggedOnce u dnsSession s.loggedDestinations s.lines s.handled

end Purpose

/-- The loop comes to a datagram that it does not log. -/
theorem LoggedOnce.skip {u : UnicodeData} {dnsSession : Bool} {logged : List StringKey} {lines : List ConnectionLine}
    {handled : List ClientDatagram} (h : LoggedOnce u dnsSession logged lines handled) {d : ClientDatagram}
    (hkey : d.key u dnsSession = none) :
    LoggedOnce u dnsSession logged lines (handled ++ [d]) := by
  refine ⟨h.nodup, h.bounded, h.once, fun d' hd' k hk => ?_, h.room⟩
  rcases List.mem_append.mp hd' with hd' | hd'
  · exact h.every d' hd' k hk
  · obtain rfl := List.mem_singleton.mp hd'
    cases hkey.symm.trans hk

namespace AssociationRelay
section Steps
variable {u : UnicodeData} {P : AddressParsers} {dnsSession : Bool} {displayName : String} {s s' : AssociationRelay}

theorem Sound.init : (AssociationRelay.init).Sound u P dnsSession where
  toMoved := ⟨fun _ => rfl, rfl, rfl, fun _ => rfl, fun _ => rfl, EndpointHistory.Kept.init, rfl⟩
  logged := {
    nodup := .nil
    bounded := Nat.zero_le _
    once := fun k hk => by cases hk
    every := fun d hd => by cases hd
    room := fun _ line hl => by cases hl }

theorem logOnce_frame (key : String) (line : ConnectionLine) : ∃ logged lines, logOnce u s key line =
    { s with loggedDestinations := logged, lines := lines } := by
  unfold logOnce
  split
  · exact ⟨s.loggedDestinations, s.lines, rfl⟩
  · exact ⟨_, _, rfl⟩

/-- A datagram with a destination is logged, unless its destination has a line for good. -/
theorem logOnce_logged {handled : List ClientDatagram} {d : ClientDatagram} (hhandled : s.handled = handled ++ [d])
    (h : LoggedOnce u dnsSession s.loggedDestinations s.lines handled) {key : String} {line : ConnectionLine}
    (hkey : d.key u dnsSession = some (u.key key)) (hline : lineKey u line = u.key key) :
    LoggedOnce u dnsSession (logOnce u s key line).loggedDestinations (logOnce u s key line).lines
      (logOnce u s key line).handled := by
  have hsame : (logOnce u s key line).handled = handled ++ [d] := by
    obtain ⟨logged, lines, he⟩ := logOnce_frame (u := u) (s := s) key line
    rw [he]
    exact hhandled
  rw [hsame]
  unfold AssociationRelay.logOnce
  split
  · rename_i hin
    have hmem := List.contains_iff_mem.mp hin
    refine ⟨h.nodup, h.bounded, h.once, fun d' hd' k hk => ?_, h.room⟩
    rcases List.mem_append.mp hd' with hd' | hd'
    · exact h.every d' hd' k hk
    · obtain rfl := List.mem_singleton.mp hd'
      obtain rfl := Option.some.inj (hkey.symm.trans hk)
      have hlen := h.once _ hmem
      obtain ⟨line', hline'⟩ := List.exists_mem_of_length_pos (Nat.lt_of_lt_of_eq Nat.one_pos hlen.symm)
      obtain ⟨hin', hk'⟩ := List.mem_filter.mp hline'
      exact ⟨line', hin', of_decide_eq_true hk'⟩
  · rename_i hout
    have hnot : u.key key ∉ s.loggedDestinations := fun hc => hout (List.contains_iff_mem.mpr hc)
    have hother : ∀ k ∈ s.loggedDestinations, ((s.lines ++ [line]).filter (lineKey u · = k)).length = 1 := by
      intro k hk
      have hne : lineKey u line ≠ k := fun he => hnot (hline ▸ he ▸ hk)
      rw [List.filter_append, List.length_append, h.once k hk]
      simp [hne]
    have hevery : ∀ d' ∈ handled ++ [d], ∀ k, d'.key u dnsSession = some k →
        ∃ l ∈ s.lines ++ [line], lineKey u l = k := by
      intro d' hd' k hk
      rcases List.mem_append.mp hd' with hd' | hd'
      · obtain ⟨l, hl, hlk⟩ := h.every d' hd' k hk
        exact ⟨l, List.mem_append_left _ hl, hlk⟩
      · obtain rfl := List.mem_singleton.mp hd'
        obtain rfl := Option.some.inj (hkey.symm.trans hk)
        exact ⟨line, by simp, hline⟩
    by_cases hroom : s.loggedDestinations.length < 64
    · simp only [if_pos hroom]
      refine ⟨List.nodup_cons.mpr ⟨hnot, h.nodup⟩, hroom, fun k hk => ?_, hevery, fun _ l hl => ?_⟩
      · rcases List.mem_cons.mp hk with rfl | hk
        · have hnone : s.lines.filter (lineKey u · = u.key key) = [] := by
            refine List.filter_eq_nil_iff.mpr (fun l hl hc => hnot ?_)
            exact of_decide_eq_true hc ▸ h.room hroom l hl
          rw [List.filter_append, hnone]
          simp [hline]
        · exact hother k hk
      · rcases List.mem_append.mp hl with hl | hl
        · exact List.mem_cons_of_mem _ (h.room hroom l hl)
        · rw [List.mem_singleton.mp hl, hline]
          exact List.mem_cons_self
    · simp only [if_neg hroom]
      exact ⟨h.nodup, h.bounded, hother, hevery, fun hlt => absurd hlt hroom⟩

private theorem resolversAsked_append (k : UInt16) (handled : List ClientDatagram) (d : ClientDatagram) :
    resolversAsked dnsSession k (handled ++ [d]) = resolversAsked dnsSession k handled ++
      (((d.query dnsSession).filter (·.1 = k)).map (·.2)).toList := by
  unfold resolversAsked
  rw [List.filterMap_append, List.filter_append, List.map_append]
  cases hq : d.query dnsSession with
  | none => simp [hq]
  | some q => by_cases hk : q.1 = k <;> simp [hq, hk, Option.filter]

/-- What the relay does with the endpoints of a query. -/
private theorem remember_effect {h h' : EndpointHistory HostEndpoint} {endpoint : HostEndpoint}
    {transactionID : UInt16} {first : Option UInt16}
    (hs : h.step (.rememberDnsEndpoint endpoint transactionID first) = some h') :
    (∀ k, h'.remembered k = h.remembered k ++ if k = transactionID then [endpoint] else []) ∧
      h'.answers = h.answers := by
  rw [EndpointHistory.step] at hs
  split at hs
  · obtain rfl := Option.some.inj hs
    exact ⟨fun _ => rfl, rfl⟩
  · cases hs

/-- No read is under way while a batch is. -/
private theorem Moved.busy (h : s.Moved P dnsSession) {batch : ClientBatch} (hc : s.client = some batch)
    {client : Option ClientBatch} : s.reading = true → client = none := by
  intro hreading
  cases hc.symm.trans (h.idle hreading)

/-- A datagram that is not sent anywhere. -/
private theorem Moved.skip (h : s.Moved P dnsSession) {d : ClientDatagram} {rest : List ClientDatagram}
    {toSend dnsToSend : List (List UInt8)} (hc : s.client = some ⟨d :: rest, toSend, dnsToSend⟩)
    (hrelayed : d.relayed P dnsSession = none) (hquery : d.query dnsSession = none) :
    ({ s with handled := s.handled ++ [d], client := some ⟨rest, toSend, dnsToSend⟩ }).Moved P dnsSession := by
  have htoRelay := h.toRelay
  have htoDns := h.toDns
  rw [hc] at htoRelay htoDns
  refine ⟨h.busy hc, ?_, ?_, fun k => ?_, h.answered, h.kept, h.fromRelay⟩
  · simpa [hrelayed] using htoRelay
  · simpa [hquery] using htoDns
  · rw [resolversAsked_append, hquery]
    simpa using h.asked k

private theorem Moved.relay (h : s.Moved P dnsSession) {d : ClientDatagram} {rest : List ClientDatagram}
    {toSend dnsToSend : List (List UInt8)} (hc : s.client = some ⟨d :: rest, toSend, dnsToSend⟩)
    (hquery : d.query dnsSession = none) :
    ({ s with
      handled := s.handled ++ [d]
      client := some ⟨rest, toSend ++ (d.relayed P dnsSession).toList, dnsToSend⟩ }).Moved P dnsSession := by
  have htoRelay := h.toRelay
  have htoDns := h.toDns
  rw [hc] at htoRelay htoDns
  refine ⟨h.busy hc, ?_, ?_, fun k => ?_, h.answered, h.kept, h.fromRelay⟩
  · rw [List.filterMap_append, ← htoRelay]
    cases hd : d.relayed P dnsSession <;> simp [hd]
  · simpa [hquery] using htoDns
  · rw [resolversAsked_append, hquery]
    simpa using h.asked k

private theorem Moved.query (h : s.Moved P dnsSession) {d : ClientDatagram} {rest : List ClientDatagram}
    {toSend dnsToSend : List (List UInt8)} (hc : s.client = some ⟨d :: rest, toSend, dnsToSend⟩)
    {nwHost : HostEndpoint} {transactionID : UInt16} {first : Option UInt16}
    (hrelayed : d.relayed P dnsSession = none) (hquery : d.query dnsSession = some (transactionID, nwHost))
    {endpoints : EndpointHistory HostEndpoint}
    (hs : s.endpoints.step (.rememberDnsEndpoint nwHost transactionID first) = some endpoints) :
    ({ s with
      handled := s.handled ++ [d]
      endpoints
      client := some ⟨rest, toSend, dnsToSend ++ [d.payload]⟩ }).Moved P dnsSession := by
  have htoRelay := h.toRelay
  have htoDns := h.toDns
  rw [hc] at htoRelay htoDns
  obtain ⟨hremembered, hanswers⟩ := remember_effect hs
  refine ⟨h.busy hc, ?_, ?_, fun k => ?_, fun k => ?_, h.kept.step hs, h.fromRelay⟩
  · simpa [hrelayed] using htoRelay
  · rw [List.filter_append, List.map_append, ← htoDns]
    simp [hquery]
  · rw [resolversAsked_append, hquery, hremembered, h.asked]
    by_cases hk : k = transactionID
    · simp [hk, Option.filter]
    · simp [hk, Ne.symm hk, Option.filter]
  · rw [hanswers]
    exact h.answered k

private theorem Moved.relog (h : s.Moved P dnsSession) (logged : List StringKey) (lines : List ConnectionLine) :
    ({ s with loggedDestinations := logged, lines := lines }).Moved P dnsSession :=
  ⟨h.idle, h.toRelay, h.toDns, h.asked, h.answered, h.kept, h.fromRelay⟩

private theorem Moved.logOnce (h : s.Moved P dnsSession) {handled : List ClientDatagram} {d : ClientDatagram}
    (hhandled : s.handled = handled ++ [d]) (hlogged : LoggedOnce u dnsSession s.loggedDestinations s.lines handled)
    {key : String} {line : ConnectionLine} (hkey : d.key u dnsSession = some (u.key key))
    (hline : lineKey u line = u.key key) : (logOnce u s key line).Sound u P dnsSession := by
  refine ⟨?_, logOnce_logged hhandled hlogged hkey hline⟩
  obtain ⟨logged, lines, he⟩ := logOnce_frame (u := u) (s := s) key line
  rw [he]
  exact h.relog logged lines

private theorem Sound.forward (h : s.Sound u P dnsSession) {d : ClientDatagram} {rest : List ClientDatagram}
    {toSend dnsToSend : List (List UInt8)} {first : Option UInt16}
    (hc : s.client = some ⟨d :: rest, toSend, dnsToSend⟩)
    (hs : AssociationRelay.forward u P dnsSession displayName { s with handled := s.handled ++ [d] }
      ⟨rest, toSend, dnsToSend⟩ d first = some s') : s'.Sound u P dnsSession := by
  unfold AssociationRelay.forward at hs
  split at hs
  · rename_i hr
    obtain rfl := Option.some.inj hs
    have hmoved := h.toMoved.skip hc (by rw [ClientDatagram.relayed, hr]) (by rw [ClientDatagram.query, hr])
    exact ⟨hmoved, h.logged.skip (by rw [ClientDatagram.key, hr])⟩
  · rename_i hr
    obtain rfl := Option.some.inj hs
    have hmoved := h.toMoved.skip hc (by rw [ClientDatagram.relayed, hr]) (by rw [ClientDatagram.query, hr])
    exact ⟨hmoved, h.logged.skip (by rw [ClientDatagram.key, hr])⟩
  · rename_i nwHost transactionID hr
    obtain ⟨endpoints, hremember, rfl⟩ := Option.map_eq_some_iff.mp hs
    have hmoved := h.toMoved.query hc (by rw [ClientDatagram.relayed, hr]) (by rw [ClientDatagram.query, hr]) hremember
    exact hmoved.logOnce rfl h.logged (by rw [ClientDatagram.key, hr]) (by rw [lineKey, if_pos rfl])
  · rename_i nwHost destPort hr
    obtain rfl := Option.some.inj hs
    have hrelayed : d.relayed P dnsSession = encapsulateSOCKS5UDP P d.payload nwHost.hostname destPort := by
      rw [ClientDatagram.relayed, hr]
    have hmoved := h.toMoved.relay hc (by rw [ClientDatagram.query, hr])
    rw [hrelayed] at hmoved
    exact hmoved.logOnce rfl h.logged (by rw [ClientDatagram.key, hr]) (by
      rw [lineKey, if_neg (show ¬"SOCKS5" = "Mihomo DNS" by decide)])

/-- The loop over the datagrams of the relay never traps. -/
theorem decapsulateAll_eq (datagrams : List (List UInt8)) :
    decapsulateAll P datagrams = some (datagrams.filterMap (decapsulated P)) := by
  have hall : datagrams.mapM (decapsulateSOCKS5UDPWithEndpoint P.decode) = .ok (datagrams.map (decapsulated P)) := by
    induction datagrams with
    | nil => rfl
    | cons d datagrams ih =>
      obtain ⟨result, hd⟩ := decapsulate_ok P.decode d
      have hresult : decapsulated P d = result := by rw [decapsulated, hd]
      rw [List.mapM_cons, hd, ih, List.map_cons, hresult]
      rfl
  rw [decapsulateAll, hall]
  change some ((datagrams.map (decapsulated P)).filterMap id) = _
  rw [List.filterMap_map]
  rfl

private theorem take_effect {h h' : EndpointHistory HostEndpoint} {transactionID : UInt16}
    (hs : h.step (.takeDnsEndpoint transactionID) = some h') :
    h'.remembered = h.remembered ∧
      ∀ k, h'.answers k = h.answers k ++
        if k = transactionID then (h.pending.takeDnsEndpoint transactionID).1.toList else [] := by
  obtain rfl := Option.some.inj hs
  exact ⟨rfl, fun _ => rfl⟩

private theorem resolversAnswered_append (k : UInt16) (answers more : List (List UInt8 × HostEndpoint)) :
    resolversAnswered k (answers ++ more) = resolversAnswered k answers ++ resolversAnswered k more := by
  rw [resolversAnswered, List.filter_append, List.map_append]
  rfl

private theorem Sound.answer (h : s.Sound u P dnsSession) {datagram : List UInt8} {rest : List (List UInt8)}
    {payloads : List (List UInt8 × HostEndpoint)} (hd : s.dns = some ⟨datagram :: rest, payloads⟩)
    (hs : s.answer ⟨rest, payloads⟩ datagram = some s') : s'.Sound u P dnsSession := by
  have hanswered := h.answered
  rw [hd] at hanswered
  unfold AssociationRelay.answer at hs
  split at hs
  · obtain rfl := Option.some.inj hs
    exact ⟨⟨h.idle, h.toRelay, h.toDns, h.asked, hanswered, h.kept, h.fromRelay⟩, h.logged⟩
  · rename_i transactionID hid
    obtain ⟨endpoints, htake, rfl⟩ := Option.map_eq_some_iff.mp hs
    obtain ⟨hremembered, hanswers⟩ := take_effect htake
    refine ⟨⟨h.idle, h.toRelay, h.toDns, fun k => ?_, fun k => ?_, h.kept.step htake, h.fromRelay⟩, h.logged⟩
    · rw [hremembered]
      exact h.asked k
    · rw [hanswers, ← hanswered k]
      change resolversAnswered k (s.fromDns ++ (payloads ++ _)) = resolversAnswered k (s.fromDns ++ payloads) ++ _
      rw [← List.append_assoc, resolversAnswered_append]
      congr 1
      cases (s.endpoints.pending.takeDnsEndpoint transactionID).1 with
      | none => simp [resolversAnswered]
      | some endpoint =>
        by_cases hk : k = transactionID
        · simp [resolversAnswered, hid, hk]
        · simp [resolversAnswered, hid, hk, Ne.symm hk]

theorem Sound.step (h : s.Sound u P dnsSession) {a : RelayAction}
    (hs : s.step u P dnsSession displayName a = some s') : s'.Sound u P dnsSession := by
  cases a with
  | read batch =>
    cases batch with
    | none =>
      simp only [AssociationRelay.step] at hs
      split at hs
      · obtain rfl := Option.some.inj hs
        exact ⟨⟨fun hr => Bool.noConfusion hr, h.toRelay, h.toDns, h.asked, h.answered, h.kept, h.fromRelay⟩, h.logged⟩
      · cases hs
    | some batch =>
      obtain ⟨datagrams, endpoints⟩ := batch
      simp only [AssociationRelay.step] at hs
      split at hs
      · cases hs
      rename_i hreading
      have hclient := h.idle (by simpa using hreading)
      split at hs
      · obtain rfl := Option.some.inj hs
        exact ⟨⟨fun hr => Bool.noConfusion hr, h.toRelay, h.toDns, h.asked, h.answered, h.kept, h.fromRelay⟩, h.logged⟩
      · obtain rfl := Option.some.inj hs
        have htoRelay := h.toRelay
        have htoDns := h.toDns
        rw [hclient] at htoRelay htoDns
        exact ⟨⟨fun hr => Bool.noConfusion hr, htoRelay, htoDns, h.asked, h.answered, h.kept, h.fromRelay⟩, h.logged⟩
  | forward first =>
    simp only [AssociationRelay.step] at hs
    split at hs
    · rename_i hc
      exact h.forward hc hs
    · cases hs
  | write =>
    simp only [AssociationRelay.step] at hs
    split at hs
    · rename_i toSend dnsToSend hc
      obtain rfl := Option.some.inj hs
      have htoRelay := h.toRelay
      have htoDns := h.toDns
      rw [hc] at htoRelay htoDns
      refine ⟨⟨fun _ => rfl, ?_, ?_, h.asked, h.answered, h.kept, h.fromRelay⟩, h.logged⟩
      · exact (List.append_nil _).trans htoRelay
      · exact (List.append_nil _).trans htoDns
    · cases hs
  | relayed datagrams =>
    simp only [AssociationRelay.step, decapsulateAll_eq, Option.map_some] at hs
    obtain rfl := Option.some.inj hs
    refine ⟨⟨h.idle, h.toRelay, h.toDns, h.asked, h.answered, h.kept, ?_⟩, h.logged⟩
    change s.fromRelay ++ _ = (s.received ++ datagrams).filterMap (decapsulated P)
    rw [List.filterMap_append, h.fromRelay]
  | answered datagrams =>
    simp only [AssociationRelay.step] at hs
    split at hs
    · rename_i hd
      obtain rfl := Option.some.inj hs
      have hanswered := h.answered
      rw [Option.isNone_iff_eq_none.mp hd.2] at hanswered
      exact ⟨⟨h.idle, h.toRelay, h.toDns, h.asked, hanswered, h.kept, h.fromRelay⟩, h.logged⟩
    · cases hs
  | answer =>
    simp only [AssociationRelay.step] at hs
    split at hs
    · rename_i hd
      exact h.answer hd hs
    · cases hs
  | deliver =>
    simp only [AssociationRelay.step] at hs
    split at hs
    · rename_i payloads hd
      obtain rfl := Option.some.inj hs
      have hanswered := h.answered
      rw [hd] at hanswered
      refine ⟨⟨h.idle, h.toRelay, h.toDns, h.asked, fun k => ?_, h.kept, h.fromRelay⟩, h.logged⟩
      rw [← hanswered k]
      exact congrArg (resolversAnswered k) (List.append_nil _)
    · cases hs

/-- What was taken for a transaction was remembered for it, in the same order. -/
private theorem Moved.answers_sublist (h : s.Moved P dnsSession) (k : UInt16) :
    (resolversAnswered k (s.fromDns ++ (s.dns.map (·.payloads)).getD [])).Sublist
      (resolversAsked dnsSession k s.handled) := by
  obtain ⟨gone, hremembered, hlen, hanswers⟩ := h.kept.order k
  rw [h.answered k, ← h.asked k, hremembered, hanswers]
  have hzip : (gone.zip (s.endpoints.fates k)).map Prod.fst = gone := List.map_fst_zip (Nat.le_of_eq hlen)
  have htaken : (EndpointHistory.takenOf gone (s.endpoints.fates k)).Sublist
      ((gone.zip (s.endpoints.fates k)).map Prod.fst) := List.filter_sublist.map _
  rw [hzip] at htaken
  exact htaken.trans (List.sublist_append_left _ _)

end Steps
end AssociationRelay

/-- No datagram goes both ways. -/
private theorem query_or_relayed (P : AddressParsers) (dnsSession : Bool) (d : ClientDatagram) :
    d.query dnsSession = none ∨ d.relayed P dnsSession = none := by
  unfold ClientDatagram.query ClientDatagram.relayed
  cases d.route dnsSession with
  | dns nwHost transactionID => exact .inr rfl
  | _ => exact .inl rfl

/-- Where there is a session for queries, what goes to port 53 is no business of the relay. -/
private theorem relayed_of_port_53 (P : AddressParsers) {d : ClientDatagram} {nwHost : HostEndpoint}
    (hd : d.endpoint = some nwHost) (hport : uint16 10 nwHost.port.toList = some 53) : d.relayed P true = none := by
  unfold ClientDatagram.relayed ClientDatagram.route
  rw [hd]
  simp only [hport, Option.getD_some]
  rw [if_neg (by decide), if_pos (by decide)]
  cases dnsTransactionID d.payload <;> rfl

section Relaying
variable {u : UnicodeData} {P : AddressParsers} {dnsSession : Bool} {displayName : String} {s : AssociationRelay}

/-- In every interleaving of the three handlers, whatever endpoints are evicted: what the relay and the DNS
listener have got are the datagrams that are for them, each once and in the order in which the application sent
them, up to the batch that is under way; no datagram goes both ways, and with a DNS session none to port 53 goes to
the relay. An answer is said to come from a resolver that was asked under its transaction, in the order of the
queries and once for each. What the relay sends comes through in its order. Every destination is logged, and
once while there are fewer than 64. -/
theorem association_relays_datagrams
    (hr : Reach (AssociationRelay.step u P dnsSession displayName) (fun _ _ => True) .init s) :
    let relayed := s.handled.filterMap (·.relayed P dnsSession)
    let queries := (s.handled.filter fun d => (d.query dnsSession).isSome).map (·.payload)
    (s.sentToRelay <+: relayed ∧ s.sentToDns <+: queries ∧
      (s.client = none → s.sentToRelay = relayed ∧ s.sentToDns = queries)) ∧
    (∀ d : ClientDatagram, d.query dnsSession = none ∨ d.relayed P dnsSession = none) ∧
    (dnsSession = true → ∀ (d : ClientDatagram) (nwHost : HostEndpoint), d.endpoint = some nwHost →
      uint16 10 nwHost.port.toList = some 53 → d.relayed P dnsSession = none) ∧
    (∀ k, (resolversAnswered k s.fromDns).Sublist (resolversAsked dnsSession k s.handled)) ∧
    s.fromRelay = s.received.filterMap (decapsulated P) ∧
    s.loggedDestinations.length ≤ 64 ∧
    (∀ d ∈ s.handled, ∀ k, d.key u dnsSession = some k → ∃ line ∈ s.lines, lineKey u line = k) ∧
    (s.loggedDestinations.length < 64 → ∀ k, (s.lines.filter (lineKey u · = k)).length ≤ 1) := by
  intro relayed queries
  have h : s.Sound u P dnsSession :=
    hr.invariant AssociationRelay.Sound.init (fun _ _ _ h _ hs => AssociationRelay.Sound.step h hs)
  refine ⟨⟨⟨_, h.toRelay⟩, ⟨_, h.toDns⟩, fun hc => ?_⟩, query_or_relayed P dnsSession, ?_, fun k => ?_, h.fromRelay,
    h.logged.bounded, h.logged.every, fun hroom k => ?_⟩
  · have htoRelay := h.toRelay
    have htoDns := h.toDns
    rw [hc] at htoRelay htoDns
    exact ⟨(List.append_nil _).symm.trans htoRelay, (List.append_nil _).symm.trans htoDns⟩
  · rintro rfl d nwHost hd hport
    exact relayed_of_port_53 P hd hport
  · have hall := h.toMoved.answers_sublist k
    rw [resolversAnswered, List.filter_append, List.map_append] at hall
    exact (List.sublist_append_left _ _).trans hall
  · by_cases hk : k ∈ s.loggedDestinations
    · exact Nat.le_of_eq (h.logged.once k hk)
    · have hnone : s.lines.filter (lineKey u · = k) = [] :=
        List.filter_eq_nil_iff.mpr fun line hl he => hk (of_decide_eq_true he ▸ h.logged.room hroom line hl)
      rw [hnone]
      exact Nat.zero_le 1

end Relaying

/-- A query to a resolver and its answer, with a datagram to the relay between them. -/
theorem association_relays_datagrams_query :
    ∃ s, Reach (AssociationRelay.step asciiData ⟨fun _ => none, fun _ => none, fun _ => none⟩ true "app")
        (fun _ _ => True) .init s ∧
      s.sentToDns = [[0, 7, 1]] ∧ s.sentToRelay = [[0, 0, 0, 3, 1, 97, 0, 80, 9]] ∧
      resolversAnswered 7 s.fromDns = [⟨"resolver", "53"⟩] ∧
      (resolversAnswered 7 s.fromDns).Sublist (resolversAsked true 7 s.handled) := by
  have hrun : Reach (AssociationRelay.step asciiData ⟨fun _ => none, fun _ => none, fun _ => none⟩ true "app")
      (fun _ _ => True) .init _ :=
    Reach.start
      |>.next (a := .read (some ([[0, 7, 1], [9]], [some ⟨"resolver", "53"⟩, some ⟨"a", "80"⟩]))) trivial rfl
      |>.next (a := .forward none) trivial rfl
      |>.next (a := .forward none) trivial rfl
      |>.next (a := .write) trivial rfl
      |>.next (a := .answered [[0, 7, 2]]) trivial rfl
      |>.next (a := .answer) trivial rfl
      |>.next (a := .deliver) trivial rfl
  obtain ⟨-, -, -, hanswers, -⟩ := association_relays_datagrams hrun
  exact ⟨_, hrun, by decide +kernel, by decide +kernel, by decide +kernel, hanswers 7⟩

end ProxyBridge.MacOS
