import ProxyBridge.Handshake.Socks5Auth
import ProxyBridge.Library.Base64
import ProxyBridge.Library.Conversations
import ProxyBridge.Library.HttpHeads
import ProxyBridge.Library.Rfc1928
import ProxyBridge.MacOS.FlowRouting

/-! The handshakes of a TCP flow with its proxy, each a conversation by callbacks. Whatever the proxy sends, it is
asked for the destination of the flow, gets credentials only when it wants them, and the handshake succeeds only
when it agrees. -/
namespace ProxyBridge.MacOS
open Conversations Handshake

structure NSError where
  code : Int
  localizedDescription : String

/-- The grapheme clusters of a string. -/
def UnicodeData.swiftString (u : UnicodeData) (s : String) : SwiftString :=
  (u.clusters s.toList).attach.map fun cluster => ⟨cluster.1, u.cluster_nonempty cluster.2⟩

section Exchanges
variable {β : Type}

/-- What both handshakes do at each of their stages: a write, and behind it a read. -/
def exchange (failed : String → NSError → β) (data : List UInt8) (least most : Nat) (writeFailed readFailed : String)
    (next : Option (List UInt8) → Conversation UInt8 NSError β) : Conversation UInt8 NSError β :=
  .write data fun
    | some error => .done (failed (writeFailed ++ error.localizedDescription) error)
    | none => .read least most fun data error =>
      match error with
      | some error => .done (failed (readFailed ++ error.localizedDescription) error)
      | none => next data

end Exchanges

/-- The greeting of both handshakes. -/
def socks5Greeting (username password : Option String) : List UInt8 :=
  if username.isSome ∧ password.isSome then [0x05, 0x02, 0x00, 0x02] else [0x05, 0x01, 0x00]

/-- What comes of a handshake. -/
inductive TcpOutcome where
  | relayData
  /-- Log the message, close the flow with the error and cancel the connection. -/
  | failed (message : String) (error : Option NSError)
  /-- Log the message and call `closeRelay`. -/
  | closeRelay (message : String)
  /-- The extension is stopped by a trap. -/
  | trapped

/-- The arguments of `proxyTCPFlow`. -/
structure TcpTarget where
  destination : String
  port : UInt16
  config : StoredProxyConfig

def socks5DomainBytes (domain : String) : Option (List UInt8) :=
  let bytes := utf8Bytes domain
  if bytes ≠ [] ∧ bytes.length ≤ 255 then some bytes else none

namespace TcpTarget
variable (R : SwiftRuntime) (contains200 : String → Bool) (t : TcpTarget)

abbrev Talk := Conversation UInt8 NSError TcpOutcome

def failedWith (message : String) (error : NSError) : TcpOutcome := .failed message (some error)

/-- The type of the address and the address. -/
def socks5Address : Option (List UInt8) :=
  match R.parsers.ipv4Address t.destination with
  | some ipAddr => some ([0x01] ++ ipAddr.toList)
  | none =>
    match R.parsers.ipv6Address t.destination with
    | some ipAddr => some ([0x04] ++ ipAddr.toList)
    | none => (socks5DomainBytes t.destination).map fun hostBytes => [0x03, hostBytes.length.toUInt8] ++ hostBytes

def sendSOCKS5ConnectRequest : Talk :=
  match t.socks5Address R with
  | none => .done (.closeRelay "SOCKS5 destination name exceeds 255 UTF-8 bytes")
  | some address =>
    exchange failedWith ([0x05, 0x01, 0x00] ++ address ++ portBytes t.port) 10 512 "SOCKS5 connect write failed: "
      "SOCKS5 connect response failed: " fun data =>
        match data with
        | some data =>
          if data.length ≥ 10 ∧ data[0]? = some 0x05 ∧ data[1]? = some 0x00 then .done .relayData
          else .done (.failed "SOCKS5 connect failed" none)
        | none => .done (.failed "SOCKS5 connect failed" none)

def sendSOCKS5Auth (username password : String) : Talk :=
  match Handshake.sendSOCKS5Auth (R.unicode.swiftString username) (R.unicode.swiftString password) with
  | .written authData =>
    exchange failedWith authData 2 2 "SOCKS5 auth write failed: " "SOCKS5 auth response failed: " fun data =>
      match data with
      | some [_, 0x00] => t.sendSOCKS5ConnectRequest R
      | _ => .done (.failed "SOCKS5 auth failed" none)
  | .failed | .trapped => .done .trapped

def handleSOCKS5Proxy : Talk :=
  exchange failedWith (socks5Greeting t.config.username t.config.password) 2 2 "SOCKS5 greeting write failed: "
    "SOCKS5 greeting response failed: " fun data =>
      match data with
      | some [version, method] =>
        if version ≠ 0x05 then .done (.failed ("SOCKS5 invalid version: " ++ toString version.toNat) none)
        else if method = 0x00 then t.sendSOCKS5ConnectRequest R
        else if method = 0x02 then t.sendSOCKS5Auth R (t.config.username.getD "") (t.config.password.getD "")
        else .done (.failed ("SOCKS5 no acceptable auth method: " ++ toString method.toNat) none)
      | _ => .done (.failed "SOCKS5 invalid greeting response" none)

/-- The host and port of the request line and of the Host line. IPv6 literals stand in brackets. -/
def httpTarget : String :=
  (if (R.parsers.ipv6Address t.destination).isSome then "[" ++ t.destination ++ "]" else t.destination) ++ ":" ++
    toString t.port.toNat

def httpRequest : List UInt8 :=
  utf8Bytes ("CONNECT " ++ t.httpTarget R ++ " HTTP/1.1\r\n" ++ "Host: " ++ t.httpTarget R ++ "\r\n") ++
  (match t.config.username, t.config.password with
  | some username, some password =>
    utf8Bytes "Proxy-Authorization: Basic " ++ Base64.encode (utf8Bytes (username ++ ":" ++ password)) ++
      utf8Bytes "\r\n"
  | _, _ => []) ++ utf8Bytes "\r\n"

/-- `contains200` is `contains("200")`, of which nothing is assumed here: the digits may be parts of longer
characters, in which Swift does not find them. -/
def handleHTTPProxy : Talk :=
  exchange failedWith (t.httpRequest R) 1 8192 "HTTP CONNECT write failed: "
    "HTTP CONNECT response failed: " fun data =>
    match data.bind R.parsers.decode with
    | none => .done (.failed "HTTP CONNECT invalid response" none)
    | some response =>
      if contains200 response then .done .relayData else .done (.failed ("HTTP CONNECT failed: " ++ response) none)

def isType (type : String) : Bool := R.same (R.lowercased t.config.type) type

/-- The handshake for the type of the configuration, if there is one. -/
def handshake : Option Talk :=
  if t.isType R "socks5" then some (t.handleSOCKS5Proxy R)
  else if t.isType R "http" then some (t.handleHTTPProxy R contains200)
  else none

end TcpTarget

/-! What a handshake is for. -/

namespace TcpTarget
variable (R : SwiftRuntime) (contains200 : String → Bool) (t : TcpTarget)

/-- The address of the destination in a SOCKS5 request. -/
inductive Names : Rfc1928.Address → Prop
  | ipv4 {octets : Vector UInt8 4} (h : R.parsers.ipv4Address t.destination = some octets) : Names (.ipv4 octets)
  | ipv6 {octets : Vector UInt8 16} (hipv4 : R.parsers.ipv4Address t.destination = none)
      (h : R.parsers.ipv6Address t.destination = some octets) : Names (.ipv6 octets)
  | domain (hipv4 : R.parsers.ipv4Address t.destination = none) (hipv6 : R.parsers.ipv6Address t.destination = none)
      (hne : utf8Bytes t.destination ≠ []) (short : (utf8Bytes t.destination).length < 256) :
      Names (.domain (utf8Bytes t.destination) short)

/-- What goes out between the greeting and the request, for what the proxy answers. -/
inductive Login : List UInt8 → List UInt8 → Prop
  | noAuth : Login [] [5, 0]
  | password {auth : List UInt8} (version : UInt8)
      (h : Handshake.sendSOCKS5Auth (R.unicode.swiftString (t.config.username.getD ""))
        (R.unicode.swiftString (t.config.password.getD "")) = .written auth) : Login auth [5, 2, version, 0]

/-- A server reads a CONNECT to the destination, the same in the Host line, and the credentials if there are any. -/
def Connects (request : List UInt8) : Prop :=
  ∃ line credentials,
    HttpHeads.readHead request.length request =
      some (line :: utf8Bytes ("Host: " ++ t.httpTarget R) :: credentials, []) ∧
    HttpHeads.connectTarget line = some (utf8Bytes (t.httpTarget R)) ∧
    match t.config.username, t.config.password with
    | some username, some password => ∃ token, credentials = [utf8Bytes "Proxy-Authorization: Basic " ++ token] ∧
        Base64.decode token = some (utf8Bytes (username ++ ":" ++ password))
    | _, _ => credentials = []

/-- What has been sent, what has been received, and whether the proxy has agreed to reach the destination. -/
inductive Spoken : List UInt8 → List UInt8 → Bool → Prop
  | silent : Spoken [] [] false
  | greeting (htype : t.isType R "socks5" = true) (taken : List UInt8) :
      Spoken (socks5Greeting t.config.username t.config.password) taken false
  | password (htype : t.isType R "socks5" = true) {auth : List UInt8} (taken : List UInt8)
      (h : Handshake.sendSOCKS5Auth (R.unicode.swiftString (t.config.username.getD ""))
        (R.unicode.swiftString (t.config.password.getD "")) = .written auth) :
      Spoken (socks5Greeting t.config.username t.config.password ++ auth) ([5, 2] ++ taken) false
  | socks5 (htype : t.isType R "socks5" = true) {login answers request : List UInt8} {address : Rfc1928.Address}
      (taken : List UInt8) (agreed : Bool) (hlogin : t.Login R login answers)
      (hnames : t.Names R address) (hrequest : Rfc1928.decodeRequest request = some ⟨1, address, t.port⟩)
      (hagreed : agreed = true → 10 ≤ taken.length ∧ taken[0]? = some 5 ∧ taken[1]? = some 0) :
      Spoken (socks5Greeting t.config.username t.config.password ++ login ++ request) (answers ++ taken) agreed
  | http (htype : t.isType R "http" = true) (taken : List UInt8) (agreed : Bool)
      (hagreed : agreed = true → ∃ response, R.parsers.decode taken = some response ∧ contains200 response = true) :
      Spoken (t.httpRequest R) taken agreed

end TcpTarget

def TcpOutcome.agrees : Option TcpOutcome → Bool
  | some .relayData => true
  | _ => false

section Socks5
variable {R : SwiftRuntime} (contains200 : String → Bool) {t : TcpTarget}

theorem exchange_always {β : Type} {failed : String → NSError → β} {data : List UInt8} {least most : Nat}
    {writeFailed readFailed : String} {next : Option (List UInt8) → Conversation UInt8 NSError β}
    {P : List UInt8 → List UInt8 → Option β → Prop} (hsent : P data [] none)
    (hfailed : ∀ taken message error, P data taken (some (failed message error)))
    (hnext : ∀ answer, (next answer).Always (fun sent taken => P (data ++ sent) (answer.getD [] ++ taken))) :
    (exchange failed data least most writeFailed readFailed next).Always P := by
  have hdata : ∀ taken b, P data taken b → P (data ++ []) taken b := fun taken b h => by rwa [List.append_nil]
  refine ⟨hsent, fun error => ?_⟩
  cases error with
  | some error => exact hdata _ _ (hfailed _ _ _)
  | none =>
    refine ⟨hdata _ _ hsent, fun answer error => ?_⟩
    cases error with
    | some error => exact hdata _ _ (hfailed _ _ _)
    | none => exact hnext answer

private theorem TcpTarget.Login.spoken (htype : t.isType R "socks5" = true) {login answers : List UInt8}
    (h : t.Login R login answers) (taken : List UInt8) :
    t.Spoken R contains200 (socks5Greeting t.config.username t.config.password ++ login) (answers ++ taken) false := by
  cases h with
  | noAuth =>
    rw [List.append_nil]
    exact .greeting htype _
  | password version h => exact .password htype (version :: 0 :: taken) h

private theorem socks5Address_names {address : List UInt8} (h : t.socks5Address R = some address) :
    ∃ a, t.Names R a ∧ address = a.bytes := by
  unfold TcpTarget.socks5Address socks5DomainBytes at h
  split at h
  · rename_i hipv4
    exact ⟨_, .ipv4 hipv4, (Option.some.inj h).symm⟩
  rename_i hipv4
  split at h
  · rename_i hipv6
    exact ⟨_, .ipv6 hipv4 hipv6, (Option.some.inj h).symm⟩
  rename_i hipv6
  obtain ⟨hostBytes, hbytes, rfl⟩ := Option.map_eq_some_iff.mp h
  dsimp only at hbytes
  split at hbytes
  · rename_i hvalid
    obtain rfl := Option.some.inj hbytes
    exact ⟨_, .domain hipv4 hipv6 hvalid.1 (Nat.lt_succ_of_le hvalid.2), rfl⟩
  · cases hbytes

private theorem sendSOCKS5ConnectRequest_always (htype : t.isType R "socks5" = true) {login answers : List UInt8}
    (hlogin : t.Login R login answers) :
    (t.sendSOCKS5ConnectRequest R).Always (fun sent taken b =>
      t.Spoken R contains200 (socks5Greeting t.config.username t.config.password ++ login ++ sent) (answers ++ taken)
        (TcpOutcome.agrees b)) := by
  unfold TcpTarget.sendSOCKS5ConnectRequest
  split
  · have hspoken := hlogin.spoken contains200 htype []
    rwa [← List.append_nil (_ ++ login)] at hspoken
  rename_i address haddress
  obtain ⟨a, hnames, rfl⟩ := socks5Address_names haddress
  have hrequest : Rfc1928.decodeRequest ([0x05, 0x01, 0x00] ++ a.bytes ++ portBytes t.port) = some ⟨1, a, t.port⟩ :=
    Rfc1928.decodeRequest_eq_some_iff.mpr rfl
  have hasked : ∀ taken, t.Spoken R contains200 (socks5Greeting t.config.username t.config.password ++ login ++
      ([0x05, 0x01, 0x00] ++ a.bytes ++ portBytes t.port)) (answers ++ taken) false := fun taken =>
    .socks5 htype taken false hlogin hnames hrequest (fun hfalse => by cases hfalse)
  have hdone : ∀ taken agreed, (agreed = true → 10 ≤ taken.length ∧ taken[0]? = some 5 ∧ taken[1]? = some 0) →
      t.Spoken R contains200 (socks5Greeting t.config.username t.config.password ++ login ++
        ([0x05, 0x01, 0x00] ++ a.bytes ++ portBytes t.port ++ [])) (answers ++ (taken ++ [])) agreed := by
    intro taken agreed hagreed
    rw [List.append_nil, List.append_nil]
    exact .socks5 htype taken agreed hlogin hnames hrequest hagreed
  refine exchange_always (hasked []) (fun taken _ _ => hasked taken) fun data => ?_
  cases data with
  | none => exact hdone [] false (fun hfalse => by cases hfalse)
  | some data =>
    dsimp only
    split
    · rename_i hreply
      exact hdone data true (fun _ => hreply)
    · exact hdone data false (fun hfalse => by cases hfalse)

private theorem sendSOCKS5Auth_always (htype : t.isType R "socks5" = true) :
    (t.sendSOCKS5Auth R (t.config.username.getD "") (t.config.password.getD "")).Always (fun sent taken b =>
      t.Spoken R contains200 (socks5Greeting t.config.username t.config.password ++ sent) ([5, 2] ++ taken)
        (TcpOutcome.agrees b)) := by
  unfold TcpTarget.sendSOCKS5Auth
  split
  · rename_i auth hauth
    refine exchange_always (.password htype [] hauth) (fun taken _ _ => .password htype taken hauth) fun data => ?_
    split
    · rename_i version
      refine (sendSOCKS5ConnectRequest_always contains200 htype (.password version hauth)).mono fun sent taken b h => ?_
      rwa [List.append_assoc] at h
    · refine Conversation.Always.of_done ?_
      rw [List.append_nil]
      exact .password htype _ hauth
  · refine Conversation.Always.of_done ?_
    rw [List.append_nil]
    exact .greeting htype _
  · refine Conversation.Always.of_done ?_
    rw [List.append_nil]
    exact .greeting htype _

theorem handleSOCKS5Proxy_always (htype : t.isType R "socks5" = true) :
    (t.handleSOCKS5Proxy R).Always (fun sent taken b => t.Spoken R contains200 sent taken (TcpOutcome.agrees b)) := by
  refine exchange_always (.greeting htype []) (fun taken _ _ => .greeting htype taken) fun data => ?_
  have hgreeted : ∀ taken, t.Spoken R contains200 (socks5Greeting t.config.username t.config.password ++ []) taken
      false := fun taken => by
    rw [List.append_nil]
    exact .greeting htype taken
  split
  · rename_i version method
    split
    · exact hgreeted _
    rename_i hversion
    obtain rfl : version = 5 := Decidable.not_not.mp hversion
    split
    · rename_i hmethod
      subst hmethod
      refine (sendSOCKS5ConnectRequest_always contains200 htype .noAuth).mono fun sent taken b h => ?_
      rwa [List.append_nil] at h
    split
    · rename_i hmethod
      subst hmethod
      exact sendSOCKS5Auth_always contains200 htype
    · exact hgreeted _
  · exact hgreeted _

end Socks5

section Http
variable {R : SwiftRuntime} (contains200 : String → Bool) {t : TcpTarget}

theorem utf8Bytes_append (s t : String) : utf8Bytes (s ++ t) = utf8Bytes s ++ utf8Bytes t := by
  rw [utf8Bytes, String.toList_append, List.flatMap_append]
  rfl

private theorem decimal_bytes {n : Nat} {b : UInt8} (h : b ∈ utf8Bytes (toString n)) : 48 ≤ b ∧ b ≤ 57 := by
  obtain ⟨c, hc, hb⟩ := List.mem_flatMap.mp h
  rw [Nat.toString_eq_ofList_toDigits, String.toList_ofList] at hc
  have hdigit := Nat.isDigit_of_mem_toDigits (by decide) (by decide) hc
  simp only [Char.isDigit, Bool.and_eq_true, decide_eq_true_eq, ge_iff_le, UInt32.le_iff_toNat_le] at hdigit
  obtain ⟨hlow, hhigh⟩ : 48 ≤ c.val.toNat ∧ c.val.toNat ≤ 57 := hdigit
  have hsize : c.utf8Size = 1 := by
    rw [Char.utf8Size_eq_one_iff, UInt32.le_iff_toNat_le]
    exact Nat.le_trans hhigh (by decide)
  rw [String.utf8EncodeChar_eq_singleton hsize, List.mem_singleton] at hb
  subst hb
  simp only [UInt8.le_iff_toNat_le, UInt32.toNat_toUInt8]
  have hmod : c.val.toNat % 256 = c.val.toNat := Nat.mod_eq_of_lt (by omega)
  rw [show (48 : UInt8).toNat = 48 from rfl, show (57 : UInt8).toNat = 57 from rfl]
  omega

/-- Neither a carriage return nor a space. -/
private def Plain (s : List UInt8) : Prop := ∀ b ∈ s, b ≠ 13 ∧ b ≠ 32

private theorem Plain.append {s s' : List UInt8} (h : Plain s) (h' : Plain s') : Plain (s ++ s') := by
  intro b hb
  rcases List.mem_append.mp hb with hb | hb
  · exact h b hb
  · exact h' b hb

private theorem plain_singleton {b : UInt8} (h : b ≠ 13 ∧ b ≠ 32) : Plain [b] := by
  intro c hc
  rw [List.mem_singleton] at hc
  exact hc ▸ h

private theorem plain_decimal (n : Nat) : Plain (utf8Bytes (toString n)) := by
  intro b hb
  have hdigit := decimal_bytes hb
  exact ⟨by rintro rfl; exact absurd hdigit.1 (by decide), by rintro rfl; exact absurd hdigit.1 (by decide)⟩

private theorem plain_base64 (l : List UInt8) : Plain (Base64.encode l) := by
  have hletters : ∀ n < 64, Base64.letter n ≠ 13 ∧ Base64.letter n ≠ 32 := by decide
  intro b hb
  rcases Base64.mem_encode hb with rfl | ⟨n, hn, rfl⟩
  · decide
  · exact hletters n hn

private theorem plain_httpTarget (h : Plain (utf8Bytes t.destination)) : Plain (utf8Bytes (t.httpTarget R)) := by
  have hleft : utf8Bytes "[" = [91] := by decide
  have hright : utf8Bytes "]" = [93] := by decide
  have hcolon : utf8Bytes ":" = [58] := by decide
  rw [TcpTarget.httpTarget, utf8Bytes_append, utf8Bytes_append, hcolon]
  refine Plain.append (Plain.append ?_ (plain_singleton (by decide))) (plain_decimal _)
  split
  · rw [utf8Bytes_append, utf8Bytes_append, hleft, hright]
    exact ((plain_singleton (by decide)).append h).append (plain_singleton (by decide))
  · exact h

/-- The lines of the request. -/
private def headLines (R : SwiftRuntime) (t : TcpTarget) : List (List UInt8) :=
  (HttpHeads.method ++ 32 :: (utf8Bytes (t.httpTarget R) ++ 32 :: HttpHeads.version)) ::
    utf8Bytes ("Host: " ++ t.httpTarget R) ::
    match t.config.username, t.config.password with
    | some username, some password =>
      [utf8Bytes "Proxy-Authorization: Basic " ++ Base64.encode (utf8Bytes (username ++ ":" ++ password))]
    | _, _ => []

private theorem httpRequest_eq : t.httpRequest R = HttpHeads.headBytes (headLines R t) := by
  have hconnect : utf8Bytes "CONNECT " = HttpHeads.method ++ [32] := by decide
  have hversion : utf8Bytes " HTTP/1.1\r\n" = 32 :: HttpHeads.version ++ HttpHeads.crlf := by decide
  have hend : utf8Bytes "\r\n" = HttpHeads.crlf := by decide
  rw [TcpTarget.httpRequest, headLines]
  split
  · simp only [utf8Bytes_append, hconnect, hversion, hend, HttpHeads.headBytes, List.flatMap_cons, List.flatMap_nil,
      List.append_assoc, List.cons_append, List.nil_append, List.append_nil]
  · simp only [utf8Bytes_append, hconnect, hversion, hend, HttpHeads.headBytes, List.flatMap_cons, List.flatMap_nil,
      List.append_assoc, List.cons_append, List.nil_append, List.append_nil]

private theorem headLines_plain (h : Plain (utf8Bytes t.destination)) :
    ∀ line ∈ headLines R t, line ≠ [] ∧ 13 ∉ line := by
  have htarget : (13 : UInt8) ∉ utf8Bytes (t.httpTarget R) := fun hc => (plain_httpTarget h _ hc).1 rfl
  have hmethod : (13 : UInt8) ∉ HttpHeads.method ++ [32] := by decide
  have hversion : (13 : UInt8) ∉ 32 :: HttpHeads.version := by decide
  have hhost : (13 : UInt8) ∉ utf8Bytes "Host: " := by decide
  have hbasic : (13 : UInt8) ∉ utf8Bytes "Proxy-Authorization: Basic " := by decide
  have hjoin : ∀ {s s' : List UInt8}, s ≠ [] → 13 ∉ s → 13 ∉ s' → s ++ s' ≠ [] ∧ 13 ∉ s ++ s' := fun hne hs hs' =>
    ⟨List.append_ne_nil_of_left_ne_nil hne _, fun hc => (List.mem_append.mp hc).elim hs hs'⟩
  intro line hmem
  rcases List.mem_cons.mp hmem with rfl | hmem
  · rw [List.append_cons]
    exact hjoin (by decide) hmethod (fun hc => (List.mem_append.mp hc).elim htarget hversion)
  rcases List.mem_cons.mp hmem with rfl | hmem
  · rw [utf8Bytes_append]
    exact hjoin (by decide) hhost htarget
  split at hmem
  · obtain rfl := List.mem_singleton.mp hmem
    exact hjoin (by decide) hbasic (fun hc => (plain_base64 _ _ hc).1 rfl)
  · cases hmem

theorem httpRequest_connects (h : ∀ b ∈ utf8Bytes t.destination, b ≠ 13 ∧ b ≠ 32) :
    t.Connects R (t.httpRequest R) := by
  have hread := HttpHeads.readHead_headBytes (headLines_plain (R := R) h) (HttpHeads.length_lt_headBytes _) []
  rw [List.append_nil, ← httpRequest_eq] at hread
  refine ⟨_, _, hread, HttpHeads.connectTarget_append (fun hc => (plain_httpTarget h _ hc).2 rfl), ?_⟩
  split
  · exact ⟨_, rfl, Base64.decode_encode _⟩
  · rename_i hnone
    split
    · rename_i huser hpass
      exact (hnone _ _ huser hpass).elim
    · rfl

theorem handleHTTPProxy_always (htype : t.isType R "http" = true) :
    (t.handleHTTPProxy R contains200).Always (fun sent taken b =>
      t.Spoken R contains200 sent taken (TcpOutcome.agrees b)) := by
  have hasked : ∀ taken, t.Spoken R contains200 (t.httpRequest R) taken false := fun taken =>
    .http htype taken false (fun hfalse => by cases hfalse)
  refine exchange_always (hasked []) (fun taken _ _ => hasked taken) fun data => ?_
  split
  · refine Conversation.Always.of_done ?_
    rw [List.append_nil]
    exact hasked _
  rename_i response hdecode
  split
  · rename_i h200
    obtain ⟨data, rfl, hdecode⟩ := Option.bind_eq_some_iff.mp hdecode
    refine Conversation.Always.of_done ?_
    rw [List.append_nil, List.append_nil]
    exact .http htype data true (fun _ => ⟨response, hdecode, h200⟩)
  · refine Conversation.Always.of_done ?_
    rw [List.append_nil]
    exact hasked _

end Http

/-- The handshake of a flow, whatever the proxy answers. -/
theorem handshake_always {R : SwiftRuntime} {contains200 : String → Bool} {t : TcpTarget} {talk : TcpTarget.Talk}
    (h : t.handshake R contains200 = some talk) :
    talk.Always (fun sent taken b => t.Spoken R contains200 sent taken (TcpOutcome.agrees b)) := by
  unfold TcpTarget.handshake at h
  split at h
  · rename_i htype
    obtain rfl := Option.some.inj h
    exact handleSOCKS5Proxy_always contains200 htype
  · split at h
    · rename_i htype
      obtain rfl := Option.some.inj h
      exact handleHTTPProxy_always contains200 htype
    · cases h

end ProxyBridge.MacOS
