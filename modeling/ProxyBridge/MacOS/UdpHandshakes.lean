import ProxyBridge.Handshake.Socks5Udp
import ProxyBridge.Library.Runs
import ProxyBridge.MacOS.FlowVerdicts
import ProxyBridge.MacOS.TcpHandshakes

/-! The handshake of a UDP flow with its SOCKS5 proxy, which ends with the endpoint of a relay. That endpoint is
what the reply names in the layout of the protocol. -/
namespace ProxyBridge.MacOS
open Conversations Handshake Runs

inductive UdpOutcome where
  | relayUDPThroughSOCKS5 (relayHost : String) (relayPort : UInt16)
  /-- `failUDPHandshake` with this message. -/
  | failed (message : String)
  deriving DecidableEq

/-- The arguments of `proxyUDPFlowViaSOCKS5` that its handshake uses. -/
structure UdpTarget where
  socksHost : String
  username : Option String
  password : Option String

namespace UdpTarget
variable (R : SwiftRuntime) (t : UdpTarget)

abbrev Talk := Conversation UInt8 NSError UdpOutcome

def failedWith (message : String) (_ : NSError) : UdpOutcome := .failed message

/-- What the reply to UDP ASSOCIATE leads to. -/
def associateReply (data : List UInt8) : UdpOutcome :=
  if ¬(data.length ≥ 2 ∧ data[0]? = some 0x05) then
    .failed ("SOCKS5 UDP ASSOCIATE bad reply (" ++ toString data.length ++ " bytes)")
  else
    let rep := data.getD 1 0
    if rep ≠ 0x00 then
      .failed ("SOCKS5 UDP ASSOCIATE rejected, REP=0x" ++ (if rep < 16 then "0" else "") ++ hexadecimal rep.toNat ++
        " (" ++ socksReplyReason rep ++ ")")
    else if ¬ data.length ≥ 10 then
      .failed ("SOCKS5 UDP ASSOCIATE reply too short (" ++ toString data.length ++ " bytes)")
    else
      let parsed := parseSOCKS5Address R.parsers.decode data 3
      let relayHost := if parsed.1 = "0.0.0.0" ∨ parsed.1 = "::" ∨ parsed.1.isEmpty then t.socksHost else parsed.1
      if parsed.2 = 0 then .failed "SOCKS5 UDP ASSOCIATE returned no relay port"
      else .relayUDPThroughSOCKS5 relayHost parsed.2

def associateRequest : List UInt8 := [0x05, 0x03, 0x00, 0x01, 0, 0, 0, 0, 0, 0]

def sendSOCKS5UDPAssociate : Talk :=
  exchange failedWith associateRequest 2 512 "SOCKS5 UDP ASSOCIATE failed: "
    "SOCKS5 UDP ASSOCIATE response error: " fun data => .done (t.associateReply R (data.getD []))

def sendSOCKS5UDPAuth (username password : String) : Talk :=
  match Handshake.sendSOCKS5UDPAuth (R.unicode.swiftString username) (R.unicode.swiftString password) with
  | .written authData =>
    exchange failedWith authData 2 2 "SOCKS5 UDP auth write failed: " "SOCKS5 UDP auth response failed: " fun data =>
      match data with
      | some [_, 0x00] => t.sendSOCKS5UDPAssociate R
      | _ => .done (.failed "SOCKS5 UDP auth rejected")
  | .failed | .trapped => .done (.failed "SOCKS5 UDP credentials too long")

def proxyUDPFlowViaSOCKS5 : Talk :=
  exchange failedWith (socks5Greeting t.username t.password) 2 2 "SOCKS5 UDP greeting failed: "
    "SOCKS5 UDP greeting response failed: " fun data =>
      match data with
      | some [0x05, method] =>
        if method = 0x00 then t.sendSOCKS5UDPAssociate R
        else if method = 0x02 then t.sendSOCKS5UDPAuth R (t.username.getD "") (t.password.getD "")
        else .done (.failed "SOCKS5 UDP no acceptable auth method")
      | _ => .done (.failed "SOCKS5 UDP greeting response invalid")

/-- The reply is read as the handler of the whole stream reads it. -/
theorem associateReply_eq (i : ByteStreams.Inbox UInt8) :
    Handshake.sendSOCKS5UDPAssociate R.parsers.decode t.socksHost none i =
      match t.associateReply R (i.readMinimum 2 512).1 with
      | .relayUDPThroughSOCKS5 relayHost relayPort => .ok (relayHost, relayPort)
      | .failed message => .error message := by
  rw [Handshake.sendSOCKS5UDPAssociate, associateReply, ite_self]
  dsimp only
  repeat' split
  all_goals simp_all

end UdpTarget

/-! What the handshake is for. -/

/-- An address as it is written for an endpoint. -/
def addressText (decode : List UInt8 → Option String) : Rfc1928.Address → String
  | .ipv4 octets => ipv4Text octets.toList 0
  | .ipv6 octets => ipv6Text octets.toList 0
  | .domain name _ => (decode name).getD "unknown"

section Addresses
variable (decode : List UInt8 → Option String) (front : List UInt8) (port : UInt16) (rest : List UInt8)

private theorem parse_ipv4 {octets : List UInt8} (ho : octets.length = 4) :
    parseSOCKS5Address decode (front ++ (1 :: octets ++ (portBytes port ++ rest))) front.length =
      (ipv4Text octets 0, port) := by
  set data := front ++ (1 :: octets ++ (portBytes port ++ rest)) with hdata
  have hlen : data.length = front.length + 7 + rest.length := by
    simp [hdata, ho, portBytes]
    omega
  have hatyp : data.getD front.length 0 = 1 := by simp [hdata]
  have hhost : ipv4Text data (front.length + 1) = ipv4Text octets 0 := by
    have hbehind := ipv4Text_behind (front ++ [1]) octets (portBytes port ++ rest) ho
    rwa [List.append_assoc, List.length_append] at hbehind
  have hport : wordAt data (front.length + 5) = port := by
    have hbehind := wordAt_portBytes (front ++ 1 :: octets) port rest
    rwa [List.append_assoc, List.length_append, List.length_cons, ho] at hbehind
  rw [parseSOCKS5Address, if_pos (by omega)]
  dsimp only
  rw [hatyp, if_pos rfl, if_pos (by omega), hport]
  exact congrArg (·, port) hhost

private theorem parse_ipv6 {octets : List UInt8} (ho : octets.length = 16) :
    parseSOCKS5Address decode (front ++ (4 :: octets ++ (portBytes port ++ rest))) front.length =
      (ipv6Text octets 0, port) := by
  set data := front ++ (4 :: octets ++ (portBytes port ++ rest)) with hdata
  have hlen : data.length = front.length + 19 + rest.length := by
    simp [hdata, ho, portBytes]
    omega
  have hatyp : data.getD front.length 0 = 4 := by simp [hdata]
  have hhost : ipv6Text data (front.length + 1) = ipv6Text octets 0 := by
    have hbehind := ipv6Text_behind (front ++ [4]) octets (portBytes port ++ rest) ho
    rwa [List.append_assoc, List.length_append] at hbehind
  have hport : wordAt data (front.length + 17) = port := by
    have hbehind := wordAt_portBytes (front ++ 4 :: octets) port rest
    rwa [List.append_assoc, List.length_append, List.length_cons, ho] at hbehind
  rw [parseSOCKS5Address, if_pos (by omega)]
  dsimp only
  rw [hatyp, if_neg (by decide), if_pos rfl, if_pos (by omega), hport]
  exact congrArg (·, port) hhost

private theorem parse_domain {name : List UInt8} (hname : name.length < 256) :
    parseSOCKS5Address decode (front ++ (3 :: name.length.toUInt8 :: name ++ (portBytes port ++ rest))) front.length =
      ((decode name).getD "unknown", port) := by
  set data := front ++ (3 :: name.length.toUInt8 :: name ++ (portBytes port ++ rest)) with hdata
  have hnameLen : name.length.toUInt8.toNat = name.length := Nat.mod_eq_of_lt hname
  have hlen : data.length = front.length + 4 + name.length + rest.length := by
    simp [hdata, portBytes]
    omega
  have hatyp : data.getD front.length 0 = 3 := by simp [hdata]
  have hdomainLen : (data.getD (front.length + 1) 0).toNat = name.length := by
    rw [← hnameLen]
    have hbehind := getD_behind front (3 :: name.length.toUInt8 :: name) (portBytes port ++ rest)
      (show 1 < (3 :: name.length.toUInt8 :: name).length by simp)
    exact congrArg UInt8.toNat hbehind
  have hhost : (data.drop (front.length + 2)).take name.length = name := by
    rw [hdata, ← List.drop_drop, List.drop_left]
    exact List.take_left
  have hport : wordAt data (front.length + 2 + name.length) = port := by
    have hbehind := wordAt_portBytes (front ++ 3 :: name.length.toUInt8 :: name) port rest
    rw [List.append_assoc, List.length_append, List.length_cons, List.length_cons] at hbehind
    rwa [show front.length + 2 + name.length = front.length + (name.length + 1 + 1) by omega]
  rw [parseSOCKS5Address, if_pos (by omega)]
  dsimp only
  rw [hatyp, if_neg (by decide), if_neg (by decide), if_pos rfl, if_pos (by omega), hdomainLen, if_pos (by omega),
    hhost, hport]

/-- An address and a port in the layout of the protocol are what is parsed. -/
theorem parseSOCKS5Address_bytes (address : Rfc1928.Address) :
    parseSOCKS5Address decode (front ++ (address.bytes ++ (Rfc1928.networkOrder port ++ rest))) front.length =
      (addressText decode address, port) := by
  cases address with
  | ipv4 octets => exact parse_ipv4 decode front port rest octets.length_toList
  | ipv6 octets => exact parse_ipv6 decode front port rest octets.length_toList
  | domain name short => exact parse_domain decode front port rest short

end Addresses

/-- Octets, a port and what is behind them. -/
private theorem split_octets (n : Nat) {l : List UInt8} (h : n + 2 ≤ l.length) :
    ∃ (octets : Vector UInt8 n) (port : UInt16) (rest : List UInt8),
      l = octets.toList ++ (Rfc1928.networkOrder port ++ rest) := by
  obtain ⟨octets, tail, hl⟩ : ∃ (octets : Vector UInt8 n) (tail : List UInt8), l = octets.toList ++ tail :=
    ⟨_, _, Rfc1928.decodeOctets_eq_some_iff.mp (dif_pos (Nat.le_of_add_right_le h))⟩
  have hlen := congrArg List.length hl
  rw [List.length_append, octets.length_toList] at hlen
  match tail with
  | high :: low :: rest => exact ⟨octets, Rfc1928.word high low, rest, by rw [Rfc1928.networkOrder_word]; exact hl⟩
  | [_] =>
    simp only [List.length_cons, List.length_nil] at hlen
    omega
  | [] =>
    simp only [List.length_nil] at hlen
    omega

/-- A port that is not 0 comes from that layout. -/
theorem exists_of_parseSOCKS5Address {decode : List UInt8 → Option String} {data : List UInt8} {offset : Nat}
    (h : (parseSOCKS5Address decode data offset).2 ≠ 0) :
    ∃ (address : Rfc1928.Address) (port : UInt16) (rest : List UInt8),
      data.drop offset = address.bytes ++ (Rfc1928.networkOrder port ++ rest) := by
  have hat : ∀ i, data.length > i → data.drop i = data.getD i 0 :: data.drop (i + 1) := fun i hlen => by
    rw [List.getD_eq_getElem _ _ hlen]
    exact List.drop_eq_getElem_cons hlen
  unfold parseSOCKS5Address at h
  split at h
  · rename_i hlen
    rw [hat offset hlen]
    dsimp only at h
    split at h
    · rename_i hatyp
      split at h
      · obtain ⟨octets, port, rest, hl⟩ := split_octets 4 (l := data.drop (offset + 1)) (by simp; omega)
        exact ⟨.ipv4 octets, port, rest, by rw [hatyp, hl]; rfl⟩
      · exact absurd rfl h
    split at h
    · rename_i hatyp
      split at h
      · obtain ⟨octets, port, rest, hl⟩ := split_octets 16 (l := data.drop (offset + 1)) (by simp; omega)
        exact ⟨.ipv6 octets, port, rest, by rw [hatyp, hl]; rfl⟩
      · exact absurd rfl h
    split at h
    · rename_i hatyp
      split at h
      · rename_i hroom
        split at h
        · rename_i hname
          rw [hatyp, hat (offset + 1) (by omega)]
          generalize data.getD (offset + 1) 0 = n at hname
          obtain ⟨octets, port, rest, hl⟩ := split_octets n.toNat (l := data.drop (offset + 1 + 1)) (by simp; omega)
          have hn : octets.toList.length.toUInt8 = n := by
            rw [octets.length_toList]
            exact UInt8.ofNat_toNat
          refine ⟨.domain octets.toList (by rw [octets.length_toList]; exact n.toNat_lt), port, rest, ?_⟩
          rw [hl, Rfc1928.Address.bytes, hn]
          rfl
        · exact absurd rfl h
      · exact absurd rfl h
    · exact absurd rfl h
  · exact absurd rfl h

namespace UdpTarget
variable (R : SwiftRuntime) (t : UdpTarget)

/-- An address that stands for the host of the proxy is replaced by it. -/
def relayHost (address : Rfc1928.Address) : String :=
  let text := addressText R.parsers.decode address
  if text = "0.0.0.0" ∨ text = "::" ∨ text.isEmpty then t.socksHost else text

/-- What goes out between the greeting and the request, for what the proxy answers. -/
inductive Login : List UInt8 → List UInt8 → Prop
  | noAuth : Login [] [5, 0]
  | password {auth : List UInt8} (version : UInt8)
      (h : decodeAuth auth = some (utf8Bytes (t.username.getD ""), utf8Bytes (t.password.getD ""))) :
      Login auth [5, 2, version, 0]

/-- There is no relay yet. -/
def Unassociated (result : Option UdpOutcome) : Prop := ∀ host port, result ≠ some (.relayUDPThroughSOCKS5 host port)

/-- What has been sent and what has been received, for this result or for none so far. -/
inductive Spoken : List UInt8 → List UInt8 → Option UdpOutcome → Prop
  | greeting (taken : List UInt8) {result : Option UdpOutcome} (h : Unassociated result) :
      Spoken (socks5Greeting t.username t.password) taken result
  | password {auth : List UInt8}
      (hauth : decodeAuth auth = some (utf8Bytes (t.username.getD ""), utf8Bytes (t.password.getD "")))
      (taken : List UInt8) {result : Option UdpOutcome} (h : Unassociated result) :
      Spoken (socks5Greeting t.username t.password ++ auth) ([5, 2] ++ taken) result
  | associate {login answers : List UInt8} (hlogin : t.Login login answers) (taken : List UInt8)
      {result : Option UdpOutcome} (h : Unassociated result) :
      Spoken (socks5Greeting t.username t.password ++ login ++ associateRequest) (answers ++ taken) result
  | offered {login answers : List UInt8} (hlogin : t.Login login answers) (rsv : UInt8) (address : Rfc1928.Address)
      {port : UInt16} (rest : List UInt8) (hport : port ≠ 0) :
      Spoken (socks5Greeting t.username t.password ++ login ++ associateRequest)
        (answers ++ ([5, 0, rsv] ++ (address.bytes ++ (Rfc1928.networkOrder port ++ rest))))
        (some (.relayUDPThroughSOCKS5 (t.relayHost R address) port))

variable {R t}

private theorem utf8_swiftString (s : String) : (R.unicode.swiftString s).utf8 = utf8Bytes s := by
  have hclusters : (R.unicode.swiftString s).utf8 =
      (R.unicode.clusters s.toList).attach.flatMap (fun c => c.1.flatMap String.utf8EncodeChar) := by
    rw [SwiftString.utf8, UnicodeData.swiftString, List.flatMap_map]
    rfl
  have hattach : (R.unicode.clusters s.toList).attach.flatMap (fun c => c.1.flatMap String.utf8EncodeChar) =
      (R.unicode.clusters s.toList).flatMap (List.flatMap String.utf8EncodeChar) := by
    rw [← List.flatMap_map, List.attach_map_subtype_val]
  have hjoin : (R.unicode.clusters s.toList).flatten.flatMap String.utf8EncodeChar =
      (R.unicode.clusters s.toList).flatMap (List.flatMap String.utf8EncodeChar) := by
    rw [← List.flatMap_id, List.flatMap_assoc]
    rfl
  rw [hclusters, hattach, ← hjoin, R.unicode.flatten_clusters]
  rfl

/-- A reply that is taken names its relay. -/
private theorem associateReply_offered {data : List UInt8} {host : String} {port : UInt16}
    (h : t.associateReply R data = .relayUDPThroughSOCKS5 host port) :
    ∃ rsv address rest, data = [5, 0, rsv] ++ (Rfc1928.Address.bytes address ++ (Rfc1928.networkOrder port ++ rest)) ∧
      host = t.relayHost R address ∧ port ≠ 0 := by
  unfold associateReply at h
  dsimp only at h
  split at h
  · cases h
  rename_i hfirst
  split at h
  · cases h
  rename_i hrep
  split at h
  · cases h
  rename_i hlen
  split at h
  · cases h
  rename_i hport
  obtain ⟨hhost, rfl⟩ := UdpOutcome.relayUDPThroughSOCKS5.inj h
  obtain ⟨address, port, rest, hdrop⟩ := exists_of_parseSOCKS5Address hport
  match data, hfirst, hrep, hlen, hdrop with
  | ver :: rep :: rsv :: data, hfirst, hrep, hlen, hdrop =>
    obtain ⟨-, hver⟩ := Decidable.not_not.mp hfirst
    obtain rfl : ver = 5 := Option.some.inj hver
    obtain rfl : rep = 0 := Decidable.not_not.mp hrep
    obtain rfl : data = address.bytes ++ (Rfc1928.networkOrder port ++ rest) := hdrop
    have hparsed : parseSOCKS5Address R.parsers.decode
        (5 :: 0 :: rsv :: (address.bytes ++ (Rfc1928.networkOrder port ++ rest))) 3 =
          (addressText R.parsers.decode address, port) :=
      parseSOCKS5Address_bytes R.parsers.decode [5, 0, rsv] port rest address
    rw [hparsed] at hport hhost ⊢
    exact ⟨rsv, address, rest, rfl, hhost.symm, hport⟩
  | [], _, _, hlen, _ => exact absurd (Decidable.not_not.mp hlen) (by simp)
  | [_], _, _, hlen, _ => exact absurd (Decidable.not_not.mp hlen) (by simp)
  | [_, _], _, _, hlen, _ => exact absurd (Decidable.not_not.mp hlen) (by simp)

private theorem Login.spoken {login answers : List UInt8} (h : t.Login login answers) (taken : List UInt8)
    {result : Option UdpOutcome} (hresult : Unassociated result) :
    t.Spoken R (socks5Greeting t.username t.password ++ login) (answers ++ taken) result := by
  cases h with
  | noAuth =>
    rw [List.append_nil]
    exact .greeting _ hresult
  | password version h => exact .password h (version :: 0 :: taken) hresult

private theorem unassociated_none : Unassociated none := fun _ _ h => by cases h

private theorem unassociated_failed (message : String) : Unassociated (some (.failed message)) :=
  fun _ _ h => by cases h

private theorem sendSOCKS5UDPAssociate_always {login answers : List UInt8} (hlogin : t.Login login answers) :
    (t.sendSOCKS5UDPAssociate R).Always (fun sent taken result =>
      t.Spoken R (socks5Greeting t.username t.password ++ login ++ sent) (answers ++ taken) result) := by
  refine exchange_always (.associate hlogin [] unassociated_none)
    (fun taken message _ => .associate hlogin taken (unassociated_failed message)) fun data => ?_
  refine Conversation.Always.of_done ?_
  rw [List.append_nil, List.append_nil]
  cases hreply : t.associateReply R (data.getD []) with
  | failed message => exact .associate hlogin _ (unassociated_failed message)
  | relayUDPThroughSOCKS5 host port =>
    obtain ⟨rsv, address, rest, hdata, rfl, hport⟩ := associateReply_offered hreply
    rw [hdata]
    exact .offered hlogin rsv address rest hport

private theorem sendSOCKS5UDPAuth_always :
    (t.sendSOCKS5UDPAuth R (t.username.getD "") (t.password.getD "")).Always (fun sent taken result =>
      t.Spoken R (socks5Greeting t.username t.password ++ sent) ([5, 2] ++ taken) result) := by
  have hlong : (Conversation.done (UdpOutcome.failed "SOCKS5 UDP credentials too long") : Talk).Always
      (fun sent taken => t.Spoken R (socks5Greeting t.username t.password ++ sent) ([5, 2] ++ taken)) := by
    refine Conversation.Always.of_done ?_
    rw [List.append_nil]
    exact .greeting _ (unassociated_failed _)
  unfold sendSOCKS5UDPAuth
  split
  · rename_i auth hauth
    have hdecode : decodeAuth auth = some (utf8Bytes (t.username.getD ""), utf8Bytes (t.password.getD "")) := by
      rw [Handshake.sendSOCKS5UDPAuth, utf8_swiftString, utf8_swiftString] at hauth
      split at hauth
      · rename_i hshort
        obtain rfl := AuthResult.written.inj hauth
        exact decodeAuth_authMessage hshort.1 hshort.2
      · cases hauth
    refine exchange_always (.password hdecode [] unassociated_none)
      (fun taken message _ => .password hdecode taken (unassociated_failed message)) fun data => ?_
    split
    · rename_i version
      refine (sendSOCKS5UDPAssociate_always (.password version hdecode)).mono fun sent taken result h => ?_
      rwa [List.append_assoc] at h
    · refine Conversation.Always.of_done ?_
      rw [List.append_nil]
      exact .password hdecode _ (unassociated_failed _)
  · exact hlong
  · exact hlong

theorem proxyUDPFlowViaSOCKS5_always : (t.proxyUDPFlowViaSOCKS5 R).Always (t.Spoken R) := by
  have hgreeted : ∀ taken message, t.Spoken R (socks5Greeting t.username t.password ++ []) taken
      (some (.failed message)) := fun taken message => by
    rw [List.append_nil]
    exact .greeting taken (unassociated_failed message)
  refine exchange_always (.greeting [] unassociated_none)
    (fun taken message _ => .greeting taken (unassociated_failed message)) fun data => ?_
  split
  · rename_i method
    split
    · rename_i hmethod
      subst hmethod
      refine (sendSOCKS5UDPAssociate_always .noAuth).mono fun sent taken result h => ?_
      rwa [List.append_nil] at h
    split
    · rename_i hmethod
      subst hmethod
      exact sendSOCKS5UDPAuth_always
    · exact hgreeted _ _
  · exact hgreeted _ _

private theorem hexadecimal_length_pos (n : Nat) : 0 < (hexadecimal n).length := by
  rw [← String.length_toList, hexadecimal, String.toList_ofList]
  exact Nat.length_toDigits_pos

/-- Two words and seven colons are longer than all the texts that are looked for. -/
private theorem ipv6Text_length (data : List UInt8) : 8 ≤ (ipv6Text data 0).length := by
  have hfirst := hexadecimal_length_pos (wordAt data (0 + 0 * 2)).toNat
  have hrange : List.range 8 = [0, 1, 2, 3, 4, 5, 6, 7] := by decide
  have hcolon : ":".length = 1 := by decide
  rw [ipv6Text, hrange]
  simp only [List.map_cons, List.map_nil, String.intercalate_cons_cons, String.intercalate_singleton,
    String.length_append, hcolon]
  omega

theorem relayHost_ipv6 (octets : Vector UInt8 16) : t.relayHost R (.ipv6 octets) = ipv6Text octets.toList 0 := by
  have hne : ∀ s : String, s.length < 8 → ipv6Text octets.toList 0 ≠ s := fun s hs he =>
    Nat.not_le_of_lt hs (he ▸ ipv6Text_length octets.toList)
  unfold relayHost addressText
  dsimp only
  rw [if_neg]
  rintro (h | h | h)
  · exact hne "0.0.0.0" (by decide) h
  · exact hne "::" (by decide) h
  · exact hne "" (by decide) (String.isEmpty_iff.mp h)

theorem relayHost_unspecified : t.relayHost R (.ipv4 (.replicate 4 0)) = t.socksHost := by
  have htext : ipv4Text (Vector.replicate 4 (0 : UInt8)).toList 0 = "0.0.0.0" := by decide
  unfold relayHost addressText
  dsimp only
  rw [htext]
  exact if_pos (.inl rfl)

/-- Whatever the callbacks bring: what has been sent is a greeting, the credentials if the proxy wants them, and a
request of UDP ASSOCIATE, and the flow is associated only with the relay that a complete reply in the layout of the
protocol names. The unspecified IPv4 address stands for the host of the proxy, as a few names do, and no IPv6
address does, not even the unspecified one. -/
theorem udp_handshakes_use_offered_relay {talk : Conversations.Talk UInt8 NSError UdpOutcome}
    (hr : Reach Talk.step (fun _ _ => True) (.begin (t.proxyUDPFlowViaSOCKS5 R)) talk) :
    t.Spoken R talk.sent talk.taken talk.rest.result ∧
    Rfc1928.decodeRequest associateRequest = some ⟨3, .ipv4 (.replicate 4 0), 0⟩ ∧
    t.relayHost R (.ipv4 (.replicate 4 0)) = t.socksHost ∧
    ∀ octets, t.relayHost R (.ipv6 octets) = ipv6Text octets.toList 0 := by
  have hkeeps : talk.Keeps (t.Spoken R) := by
    apply hr.invariant
    · exact .begin proxyUDPFlowViaSOCKS5_always
    · exact fun _ _ _ h _ hs => h.step hs
  exact ⟨hkeeps.now, Rfc1928.decodeRequest_eq_some_iff.mpr (by decide), relayHost_unspecified, relayHost_ipv6⟩

def guardedProxy : UdpTarget := ⟨"proxy", some "u", some "p"⟩

/-- A proxy that asks for the credentials and offers a relay at its own address. -/
theorem udp_handshakes_use_offered_relay_own :
    ∃ talk, Reach Talk.step (fun _ _ => True) (.begin (guardedProxy.proxyUDPFlowViaSOCKS5 plainRuntime)) talk ∧
      talk.rest.result = some (.relayUDPThroughSOCKS5 "proxy" 1234) ∧
      guardedProxy.Spoken plainRuntime talk.sent talk.taken talk.rest.result := by
  obtain ⟨talk, hr, hresult⟩ := exists_reach_of_exec Talk.step (fun _ _ => True)
    (.begin (guardedProxy.proxyUDPFlowViaSOCKS5 plainRuntime))
    [.wrote none, .read (some [5, 2]) none, .wrote none, .read (some [1, 0]) none, .wrote none,
      .read (some [5, 0, 0, 1, 0, 0, 0, 0, 4, 210]) none]
    (fun talk => talk.rest.result == some (.relayUDPThroughSOCKS5 "proxy" 1234)) (by decide +kernel)
  exact ⟨talk, hr, beq_iff_eq.mp hresult, (udp_handshakes_use_offered_relay hr).1⟩

end UdpTarget

end ProxyBridge.MacOS
