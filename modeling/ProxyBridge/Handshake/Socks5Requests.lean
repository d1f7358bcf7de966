import ProxyBridge.Handshake.Socks5Connect
import ProxyBridge.Library.BigEndian
import ProxyBridge.Library.CheckedMemory
import ProxyBridge.Library.Rfc1928

/-! The three CONNECT requests as pb_socks5.c writes them into its buffers, byte by byte, and what
a proxy that follows RFC 1928 reads in them. -/
namespace ProxyBridge.Handshake
open ByteStreams CheckedMemory

/-- `request[i] = version, command, 0x00, atyp` for `i` from 0 to 3. -/
def writeFixed (atyp : UInt8) (request : List UInt8) : Except Fault (List UInt8) := do
  let request ← write request 0 socks5Version
  let request ← write request 1 socks5CmdConnect
  let request ← write request 2 0x00
  write request 3 atyp

/-- The two bytes of the port from `request[i]` on. -/
def writePort (destPort : UInt16) (i : Nat) (request : List UInt8) : Except Fault (List UInt8) := do
  let request ← write request i (destPort >>> 8).toUInt8
  write request (i + 1) destPort.toUInt8

/-- `unsigned char request[10]` of `socks5_connect`. -/
def writeRequest (destIp : UInt32) (destPort : UInt16) (request : Vector UInt8 10) : Except Fault (List UInt8) := do
  let request ← writeFixed socks5AtypIpv4 request.toList
  let request ← write request 4 destIp.toUInt8
  let request ← write request 5 (destIp >>> 8).toUInt8
  let request ← write request 6 (destIp >>> 16).toUInt8
  let request ← write request 7 (destIp >>> 24).toUInt8
  let request ← writePort destPort 8 request
  readBytes request 0 10

/-- `unsigned char request[22]` of `socks5_connect_v6`. -/
def writeRequestV6 (destIp6 : Vector UInt8 16) (destPort : UInt16) (request : Vector UInt8 22) :
    Except Fault (List UInt8) := do
  let request ← writeFixed socks5AtypIpv6 request.toList
  let request ← memcpy request 4 destIp6.toList 0 16
  let request ← writePort destPort 20 request
  readBytes request 0 22

/-- `unsigned char request[7 + 255]` of `socks5_connect_domain`, behind its check of the length. -/
def writeRequestDomain (hostname : List UInt8) (destPort : UInt16) (request : Vector UInt8 (7 + 255)) :
    Except Fault (List UInt8) := do
  let hlen := strnlenS hostname 256
  let request ← writeFixed socks5AtypDomain request.toList
  let request ← write request 4 hlen.toUInt8
  let request ← memcpy request 5 hostname 0 hlen
  let request ← writePort destPort (5 + hlen) request
  readBytes request 0 (7 + hlen)

/-- A name that `socks5_connect_domain` accepts, without its terminator. -/
structure HostName where
  bytes : List UInt8
  nonempty : bytes ≠ []
  short : bytes.length ≤ 255
  noZero : (0 : UInt8) ∉ bytes

/-- Where a CONNECT goes. The octets of an IPv4 address are the bytes of `ip` from the lowest on. -/
inductive Destination where
  | ipv4 (ip : UInt32)
  | ipv6 (ip6 : Vector UInt8 16)
  | domain (name : HostName)

namespace Destination

/-- The call for this destination, with what lies in memory behind the terminator of a name. -/
def connect (destPort : UInt16) (behind : List UInt8) : Destination → Dialogue UInt8 ConnectOutcome
  | .ipv4 ip => socks5Connect ip destPort
  | .ipv6 ip6 => socks5ConnectV6 ip6 destPort
  | .domain name => socks5ConnectDomain (name.bytes ++ 0 :: behind) destPort

/-- The request as it was written into a buffer in which anything may have been. -/
def Writes (destPort : UInt16) (behind : List UInt8) (request : List UInt8) : Destination → Prop
  | .ipv4 ip => ∀ buffer, writeRequest ip destPort buffer = .ok request
  | .ipv6 ip6 => ∀ buffer, writeRequestV6 ip6 destPort buffer = .ok request
  | .domain name => ∀ buffer, writeRequestDomain (name.bytes ++ 0 :: behind) destPort buffer = .ok request

/-- The same destination in the terms of the protocol. -/
def address : Destination → Rfc1928.Address
  | .ipv4 ip => .ipv4 #v[ip.toUInt8, (ip >>> 8).toUInt8, (ip >>> 16).toUInt8, (ip >>> 24).toUInt8]
  | .ipv6 ip6 => .ipv6 ip6
  | .domain name => .domain name.bytes (Nat.lt_succ_of_le name.short)

def request (destPort : UInt16) (d : Destination) : Rfc1928.Request := ⟨1, d.address, destPort⟩

end Destination

/-- What the call sends is its greeting and this request: a part of them on a connection that breaks,
and all of them when the proxy wants no authentication and takes them, or when the call succeeds. -/
structure Requests (d : Dialogue UInt8 ConnectOutcome) (request : List UInt8) : Prop where
  part : ∀ s, ∃ n, (d.run s).2.outbox.sent = s.outbox.sent ++ ([5, 1, 0] ++ request).take n
  whole : ∀ s, s.inbox.bytes.take 2 = [5, 0] → 3 + request.length ≤ s.outbox.room →
    (d.run s).2.outbox.sent = s.outbox.sent ++ ([5, 1, 0] ++ request)
  success : ∀ s, (d.run s).1.result = 0 → (d.run s).2.outbox.sent = s.outbox.sent ++ ([5, 1, 0] ++ request)

section Writing
variable {size : Nat} {buffer : List UInt8} {α : Type} {f : List UInt8 → Except Fault α} {r : Except Fault α}

private theorem writeFixed_bind (h : buffer.length = size) (hsize : 4 ≤ size) (atyp : UInt8)
    (hf : ∀ next, Starts size [5, 1, 0, atyp] next → f next = r) : (writeFixed atyp buffer >>= f) = r := by
  simp only [writeFixed, bind_assoc]
  refine (Starts.nil h).write (by rfl) (by omega) _ fun next h => ?_
  refine h.write (by rfl) (by omega) _ fun next h => ?_
  refine h.write (by rfl) (by omega) _ fun next h => ?_
  exact h.write (by rfl) (by omega) _ hf

private theorem writePort_bind {text : List UInt8} {i : Nat} (h : Starts size text buffer) (hi : i = text.length)
    (hroom : i + 2 ≤ size) (destPort : UInt16)
    (hf : ∀ next, Starts size (text ++ Rfc1928.networkOrder destPort) next → f next = r) :
    (writePort destPort i buffer >>= f) = r := by
  simp only [writePort, bind_assoc]
  refine h.write hi (by omega) _ fun next h => ?_
  refine h.write (by simp [hi]) (by omega) _ fun next h => hf next ?_
  rwa [List.append_assoc] at h

/-- A request that went into its buffer is read back as the bytes of the protocol. -/
private theorem writeRequest_ok (destIp : UInt32) (destPort : UInt16) (buffer : Vector UInt8 10) :
    writeRequest destIp destPort buffer = .ok ((Destination.ipv4 destIp).request destPort).bytes := by
  refine writeFixed_bind buffer.length_toList (by decide) _ fun next h => ?_
  refine h.write (by rfl) (by decide) _ fun next h => ?_
  refine h.write (by rfl) (by decide) _ fun next h => ?_
  refine h.write (by rfl) (by decide) _ fun next h => ?_
  refine h.write (by rfl) (by decide) _ fun next h => ?_
  exact writePort_bind h (by rfl) (by decide) destPort fun next h => h.readBytes rfl

private theorem writeRequestV6_ok (destIp6 : Vector UInt8 16) (destPort : UInt16) (buffer : Vector UInt8 22) :
    writeRequestV6 destIp6 destPort buffer = .ok ((Destination.ipv6 destIp6).request destPort).bytes := by
  have hlen : destIp6.toList.length = 16 := destIp6.length_toList
  have htake : destIp6.toList.take 16 = destIp6.toList := List.take_of_length_le (Nat.le_of_eq hlen)
  refine writeFixed_bind buffer.length_toList (by decide) _ fun next h => ?_
  refine h.memcpy (by rfl) (Nat.le_of_eq hlen.symm) (by decide) fun next h => ?_
  rw [htake] at h
  refine writePort_bind h (by simp) (by decide) destPort fun next h => ?_
  exact h.readBytes (by simp [Rfc1928.networkOrder])

private theorem strnlenS_hostName (name : HostName) (behind : List UInt8) :
    strnlenS (name.bytes ++ 0 :: behind) 256 = name.bytes.length := by
  have htake : (name.bytes ++ 0 :: behind).takeWhile (· != 0) = name.bytes := by
    have hall : ∀ b ∈ name.bytes, (b != 0) = true := by
      intro b hb
      rw [bne_iff_ne]
      rintro rfl
      exact name.noZero hb
    rw [List.takeWhile_append_of_pos hall, List.takeWhile_cons]
    simp
  rw [strnlenS, htake]
  have hshort := name.short
  omega

private theorem writeRequestDomain_ok (name : HostName) (behind : List UInt8) (destPort : UInt16)
    (buffer : Vector UInt8 (7 + 255)) : writeRequestDomain (name.bytes ++ 0 :: behind) destPort buffer =
      .ok ((Destination.domain name).request destPort).bytes := by
  have hshort := name.short
  simp only [writeRequestDomain, strnlenS_hostName]
  refine writeFixed_bind buffer.length_toList (by decide) _ fun next h => ?_
  refine h.write (by rfl) (by decide) _ fun next h => ?_
  refine h.memcpy (by rfl) (by simp) (by omega) fun next h => ?_
  rw [List.take_left] at h
  refine writePort_bind h (by simp; omega) (by omega) destPort fun next h => ?_
  exact h.readBytes (by simp [Rfc1928.networkOrder]; omega)

/-- Whatever was in the buffer, the request is the bytes of the protocol and nothing else. -/
theorem Destination.writes_iff (d : Destination) (destPort : UInt16) (behind request : List UInt8) :
    d.Writes destPort behind request ↔ request = (d.request destPort).bytes := by
  have hunique {n : Nat} {write : Vector UInt8 n → Except Fault (List UInt8)} {bytes : List UInt8}
      (hwrite : ∀ buffer, write buffer = .ok bytes) : (∀ buffer, write buffer = .ok request) ↔ request = bytes := by
    constructor
    · intro h
      have heq := (h (Vector.replicate n 0)).symm.trans (hwrite _)
      exact Except.ok.inj heq
    · rintro rfl
      exact hwrite
  cases d with
  | ipv4 ip => exact hunique (writeRequest_ok ip destPort)
  | ipv6 ip6 => exact hunique (writeRequestV6_ok ip6 destPort)
  | domain name => exact hunique (writeRequestDomain_ok name behind destPort)

end Writing

section Decoding

private theorem octets_inj {x y : UInt32}
    (h : #v[x.toUInt8, (x >>> 8).toUInt8, (x >>> 16).toUInt8, (x >>> 24).toUInt8] =
      #v[y.toUInt8, (y >>> 8).toUInt8, (y >>> 16).toUInt8, (y >>> 24).toUInt8]) : x = y := by
  have hlist := congrArg Vector.toList h
  obtain ⟨h0, h1, h2, h3, -⟩ : x.toUInt8 = y.toUInt8 ∧ (x >>> 8).toUInt8 = (y >>> 8).toUInt8 ∧
      (x >>> 16).toUInt8 = (y >>> 16).toUInt8 ∧ (x >>> 24).toUInt8 = (y >>> 24).toUInt8 ∧ True := by
    simpa using hlist
  rw [← BigEndian.octets_word x, ← BigEndian.octets_word y, h0, h1, h2, h3]

theorem Destination.address_inj {d d' : Destination} (h : d.address = d'.address) : d = d' := by
  cases d with
  | ipv4 ip =>
    cases d' with
    | ipv4 ip' => rw [octets_inj (Rfc1928.Address.ipv4.inj h)]
    | ipv6 ip6 => cases h
    | domain name => cases h
  | ipv6 ip6 =>
    cases d' with
    | ipv4 ip => cases h
    | ipv6 ip6' => rw [Rfc1928.Address.ipv6.inj h]
    | domain name => cases h
  | domain name =>
    cases d' with
    | ipv4 ip => cases h
    | ipv6 ip6 => cases h
    | domain name' =>
      obtain ⟨bytes, _, _, _⟩ := name
      obtain ⟨bytes', _, _, _⟩ := name'
      obtain rfl : bytes = bytes' := Rfc1928.Address.domain.inj h
      rfl

theorem Destination.request_inj {d d' : Destination} {destPort destPort' : UInt16}
    (h : d.request destPort = d'.request destPort') : d = d' ∧ destPort = destPort' := by
  obtain ⟨-, haddress, hport⟩ := Rfc1928.Request.mk.inj h
  exact ⟨Destination.address_inj haddress, hport⟩

end Decoding

section Sending
variable {request : List UInt8}

private theorem readReply_reads : socks5ReadConnectReply.Reads := by
  have hdrain (reply : Int) (drain : Nat) : (drainAddress reply drain).Reads := .recv fun _ => .done _
  refine .recv fun header => ?_
  split
  · split
    · exact .done _
    split
    · exact hdrain _ _
    split
    · exact hdrain _ _
    split
    · refine .recv fun dlen => ?_
      split
      · exact hdrain _ _
      · exact .done _
    · exact .done _
  · exact .done _

theorem negotiate_sent (l : Line UInt8) :
    (socks5NegotiateNoAuth.runLine l).2.sent = l.sent ++ [5, 1, 0].take l.room ∧
      (socks5NegotiateNoAuth.runLine l).2.room = l.room - 3 := by
  have hlen : [socks5Version, 0x01, socks5AuthNone].length = 3 := rfl
  simp only [socks5NegotiateNoAuth, Dialogue.runLine, hlen]
  by_cases hroom : 3 ≤ l.room
  · rw [decide_eq_true hroom]
    exact ⟨rfl, rfl⟩
  · rw [decide_eq_false hroom]
    exact ⟨rfl, rfl⟩

/-- The negotiation succeeds when the greeting went out and the answer takes it. -/
theorem negotiate_iff (l : Line UInt8) :
    (socks5NegotiateNoAuth.runLine l).1 = true ↔ 3 ≤ l.room ∧ l.incoming.take 2 = [5, 0] := by
  have hlen : [socks5Version, 0x01, socks5AuthNone].length = 3 := rfl
  simp only [socks5NegotiateNoAuth, Dialogue.runLine, hlen]
  by_cases hroom : 3 ≤ l.room
  · rw [decide_eq_true hroom]
    simp only [Dialogue.runLine, beq_iff_eq, hroom, true_and, socks5Version, socks5AuthNone]
    split
    · rw [Option.some.injEq]
    · rename_i hshort
      constructor
      · intro h
        cases h
      · intro h
        have hlen := congrArg List.length h
        rw [List.length_take] at hlen
        simp only [List.length_cons, List.length_nil] at hlen
        omega
  · rw [decide_eq_false hroom]
    simp [hroom, Dialogue.runLine]

private theorem request_sent (kind : String) (destPort : UInt16) (notSent : Option ConnectLog) (l : Line UInt8) :
    ((socks5Request request kind destPort notSent).runLine l).2.sent = l.sent ++ request.take l.room := by
  simp only [socks5Request, Dialogue.runLine]
  by_cases hroom : request.length ≤ l.room
  · rw [decide_eq_true hroom]
    change ((socks5ReadConnectReply.bind _).runLine _).2.sent = _
    rw [Dialogue.runLine_bind]
    exact readReply_reads.runLine_sent _
  · rw [decide_eq_false hroom]
    rfl

private theorem request_failed (kind : String) (destPort : UInt16) (notSent : Option ConnectLog) {l : Line UInt8}
    (h : ((socks5Request request kind destPort notSent).runLine l).1.result = 0) : request.length ≤ l.room := by
  by_contra hroom
  simp only [socks5Request, Dialogue.runLine, decide_eq_false hroom] at h
  exact absurd h (by decide)

/-- The calls differ in their request and in what they log. -/
private theorem requests_of_negotiation {f : Bool → Dialogue UInt8 ConnectOutcome} {failed : Option ConnectLog}
    {kind : String} {destPort : UInt16} {notSent : Option ConnectLog} (hfalse : f false = .done ⟨-1, failed⟩)
    (htrue : f true = socks5Request request kind destPort notSent) :
    Requests (socks5NegotiateNoAuth.bind f) request := by
  set d := socks5NegotiateNoAuth.bind f with hd
  have hresult (s : Socket UInt8) : (d.run s).1 = (d.runLine s.line).1 := by rw [← Dialogue.run_eq_runLine]
  have hsent (s : Socket UInt8) : (d.run s).2.outbox.sent = (d.runLine s.line).2.sent := by
    rw [← Dialogue.run_eq_runLine]
    rfl
  have hrefused (l : Line UInt8) (h : (socks5NegotiateNoAuth.runLine l).1 = false) :
      (d.runLine l).1.result = -1 ∧ (d.runLine l).2.sent = l.sent ++ [5, 1, 0].take l.room := by
    rw [hd, Dialogue.runLine_bind, h, hfalse]
    exact ⟨rfl, (negotiate_sent l).1⟩
  have htaken (l : Line UInt8) (h : (socks5NegotiateNoAuth.runLine l).1 = true) :
      ((d.runLine l).1.result = 0 → 3 + request.length ≤ l.room) ∧
        (d.runLine l).2.sent = l.sent ++ ([5, 1, 0] ++ request).take l.room := by
    obtain ⟨hgreeting, hleft⟩ := negotiate_sent l
    rw [hd, Dialogue.runLine_bind, h, htrue]
    refine ⟨fun hzero => ?_, ?_⟩
    · have hfits := request_failed kind destPort notSent hzero
      have hroom := ((negotiate_iff l).mp h).1
      omega
    · rw [request_sent, hgreeting, hleft, List.take_append, List.append_assoc]
      rfl
  have hall (n : Nat) (h : 3 + request.length ≤ n) : ([5, 1, 0] ++ request).take n = [5, 1, 0] ++ request :=
    List.take_of_length_le (by rw [List.length_append]; exact h)
  refine ⟨fun s => ?_, fun s hanswer hroom => ?_, fun s hzero => ?_⟩
  · rw [hsent]
    cases h : (socks5NegotiateNoAuth.runLine s.line).1 with
    | false =>
      refine ⟨min s.line.room 3, ?_⟩
      rw [(hrefused _ h).2, ← List.take_take]
      rfl
    | true => exact ⟨_, (htaken _ h).2⟩
  · have h := (negotiate_iff s.line).mpr ⟨by change 3 ≤ s.outbox.room; omega, hanswer⟩
    rw [hsent, (htaken _ h).2, hall s.line.room hroom]
    rfl
  · rw [hresult] at hzero
    cases h : (socks5NegotiateNoAuth.runLine s.line).1 with
    | false =>
      rw [(hrefused _ h).1] at hzero
      cases hzero
    | true =>
      rw [hsent, (htaken _ h).2, hall _ ((htaken _ h).1 hzero)]
      rfl

theorem negotiate_taken {l : Line UInt8} (h : (socks5NegotiateNoAuth.runLine l).1 = true) :
    l.incoming = [5, 0] ++ (socks5NegotiateNoAuth.runLine l).2.incoming := by
  obtain ⟨hroom, htake⟩ := (negotiate_iff l).mp h
  have hleft : (socks5NegotiateNoAuth.runLine l).2.incoming = l.incoming.drop 2 := by
    have hlen : [socks5Version, 0x01, socks5AuthNone].length = 3 := rfl
    simp only [socks5NegotiateNoAuth, Dialogue.runLine, hlen, decide_eq_true hroom]
  rw [hleft, ← htake, List.take_append_drop]

/-- A call that succeeds has taken the answer to its greeting and one reply off the stream. -/
private theorem replied_of_negotiation {f : Bool → Dialogue UInt8 ConnectOutcome} {failed : Option ConnectLog}
    {kind : String} {destPort : UInt16} {notSent : Option ConnectLog} (hfalse : f false = .done ⟨-1, failed⟩)
    (htrue : f true = socks5Request request kind destPort notSent) {l : Line UInt8}
    (hzero : ((socks5NegotiateNoAuth.bind f).runLine l).1.result = 0) :
    ∃ reply, ConnectReply reply ∧
      l.incoming = [5, 0] ++ reply ++ ((socks5NegotiateNoAuth.bind f).runLine l).2.incoming := by
  rw [Dialogue.runLine_bind] at hzero ⊢
  cases h : (socks5NegotiateNoAuth.runLine l).1 with
  | false =>
    rw [h, hfalse] at hzero
    exact absurd (show (-1 : Int) = 0 from hzero) (by decide)
  | true =>
    rw [h, htrue] at hzero
    rw [htrue]
    have hroom := request_failed kind destPort notSent hzero
    simp only [socks5Request, Dialogue.runLine, decide_eq_true hroom, Dialogue.runLine_bind] at hzero ⊢
    split at hzero
    · exact absurd (show (-1 : Int) = 0 from hzero) (by decide)
    · rename_i hread
      obtain ⟨reply, hreply, hleft⟩ := socks5ReadConnectReply_taken (not_not.mp hread)
      refine ⟨reply, hreply, ?_⟩
      rw [negotiate_taken h, List.append_assoc]
      exact congrArg _ hleft

/-- The bytes that a call sends behind its greeting are those of its request. -/
theorem Destination.connect_requests (d : Destination) (destPort : UInt16) (behind : List UInt8) :
    Requests (d.connect destPort behind) (d.request destPort).bytes := by
  cases d with
  | ipv4 ip => exact requests_of_negotiation rfl rfl
  | ipv6 ip6 => exact requests_of_negotiation rfl rfl
  | domain name =>
    have hshort := name.short
    have hpos := List.length_pos_of_ne_nil name.nonempty
    have hvalid : ¬ (name.bytes.length = 0 ∨ name.bytes.length > 255) := by omega
    simp only [connect, socks5ConnectDomain, strnlenS_hostName, hvalid, if_false, List.take_left]
    exact requests_of_negotiation rfl rfl

/-- A call that returns 0 leaves on the stream what is behind the reply to it. -/
theorem Destination.connect_replied {d : Destination} {destPort : UInt16} {behind : List UInt8} {s : Socket UInt8}
    (h : ((d.connect destPort behind).run s).1.result = 0) :
    ∃ reply, ConnectReply reply ∧
      s.inbox.bytes = [5, 0] ++ reply ++ ((d.connect destPort behind).run s).2.inbox.bytes := by
  have hrun := Dialogue.run_eq_runLine (d.connect destPort behind) s
  have hresult : ((d.connect destPort behind).runLine s.line).1.result = 0 := by
    rw [← hrun]
    exact h
  have hbytes : ((d.connect destPort behind).run s).2.inbox.bytes =
      ((d.connect destPort behind).runLine s.line).2.incoming := by
    rw [← hrun]
    rfl
  rw [hbytes]
  cases d with
  | ipv4 ip => exact replied_of_negotiation rfl rfl hresult
  | ipv6 ip6 => exact replied_of_negotiation rfl rfl hresult
  | domain name =>
    have hshort := name.short
    have hpos := List.length_pos_of_ne_nil name.nonempty
    have hvalid : ¬ (name.bytes.length = 0 ∨ name.bytes.length > 255) := by omega
    simp only [connect, socks5ConnectDomain, strnlenS_hostName, hvalid, if_false, List.take_left] at hresult ⊢
    exact replied_of_negotiation rfl rfl hresult

end Sending

end ProxyBridge.Handshake
