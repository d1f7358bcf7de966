import ProxyBridge.Handshake.Socks5Requests
import ProxyBridge.MacOS.UdpHandshakes

/-! UDP ASSOCIATE as pb_socks5.c asks for it. The endpoint that it takes is decided by the stream of the proxy alone,
and it is the one that the macOS handshake takes from the same reply. -/
namespace ProxyBridge.Handshake
open ByteStreams

/-- `*relay_addr`, with the port as a number. -/
structure RelayAddr where
  addr : Vector UInt8 4
  port : UInt16

def socks5CmdUdpAssociate : UInt8 := 0x03

def udpAssociateRequest : List UInt8 := [socks5Version, socks5CmdUdpAssociate, 0x00, socks5AtypIpv4, 0, 0, 0, 0, 0, 0]

def readAssociateReply : Dialogue UInt8 (Option RelayAddr) :=
  .recv 4 fun
    | some [ver, rep, _, atyp] =>
      if ver ≠ socks5Version ∨ rep ≠ 0x00 then .done none
      else if atyp ≠ socks5AtypIpv4 then .done none
      else .recv 6 fun
        | some [a, b, c, d, high, low] => .done (some ⟨#v[a, b, c, d], Rfc1928.word high low⟩)
        | _ => .done none
    | _ => .done none

/-- Nothing stands for the result -1. -/
def socks5UdpAssociateWithConfig : Dialogue UInt8 (Option RelayAddr) :=
  socks5NegotiateNoAuth.bind fun
    | false => .done none
    | true => .send udpAssociateRequest fun
      | false => .done none
      | true => readAssociateReply

/-- A successful reply with this endpoint, in the layout of the protocol. -/
def RelayAddr.reply (endpoint : RelayAddr) (rsv : UInt8) : List UInt8 :=
  [5, 0, rsv] ++ ((Rfc1928.Address.ipv4 endpoint.addr).bytes ++ Rfc1928.networkOrder endpoint.port)

private theorem readAssociateReply_reply (endpoint : RelayAddr) (rsv : UInt8) (rest : List UInt8) (room : Nat)
    (sent : List UInt8) :
    readAssociateReply.runLine ⟨endpoint.reply rsv ++ rest, room, sent⟩ = (some endpoint, ⟨rest, room, sent⟩) := by
  obtain ⟨⟨⟨octets⟩, hlen⟩, port⟩ := endpoint
  match octets, hlen with
  | [a, b, c, d], _ =>
    have hport : Rfc1928.word (port >>> 8).toUInt8 port.toUInt8 = port := Rfc1928.word_networkOrder port
    simp [readAssociateReply, Dialogue.runLine, RelayAddr.reply, Rfc1928.Address.bytes, Rfc1928.networkOrder,
      socks5Version, socks5AtypIpv4, hport]

private theorem readAssociateReply_some {incoming sent : List UInt8} {room : Nat} {endpoint : RelayAddr}
    (h : (readAssociateReply.runLine ⟨incoming, room, sent⟩).1 = some endpoint) :
    ∃ rsv rest, incoming = endpoint.reply rsv ++ rest := by
  match incoming with
  | [] | [_] | [_, _] | [_, _, _] => cases h
  | ver :: rep :: rsv :: atyp :: tail =>
    rw [readAssociateReply, Dialogue.runLine, if_pos (by simp)] at h
    simp only [List.take_succ_cons, List.take_zero, List.drop_succ_cons, List.drop_zero] at h
    split at h
    · cases h
    rename_i hok
    split at h
    · cases h
    rename_i hatyp
    obtain ⟨rfl, rfl⟩ : ver = 5 ∧ rep = 0 := by simpa [socks5Version] using hok
    obtain rfl : atyp = 1 := Decidable.not_not.mp hatyp
    rw [Dialogue.runLine] at h
    split at h
    · rename_i a b c d high low hread
      obtain rfl := Option.some.inj h
      split at hread
      · refine ⟨rsv, tail.drop 6, ?_⟩
        have htail : tail = [a, b, c, d, high, low] ++ tail.drop 6 := by
          rw [← Option.some.inj hread, List.take_append_drop]
        rw [RelayAddr.reply, Rfc1928.networkOrder_word]
        exact congrArg (fun tail => 5 :: 0 :: rsv :: 1 :: tail) htail
      · cases hread
    · cases h

private theorem readAssociateReply_reads : readAssociateReply.Reads := by
  refine .recv fun header => ?_
  split
  · split
    · exact .done _
    split
    · exact .done _
    refine .recv fun ap => ?_
    split <;> exact .done _
  · exact .done _

section Associate
variable {l : Line UInt8}

private theorem udpAssociate_refused (h : (socks5NegotiateNoAuth.runLine l).1 = false) :
    (socks5UdpAssociateWithConfig.runLine l).1 = none ∧
      (socks5UdpAssociateWithConfig.runLine l).2.sent = l.sent ++ [5, 1, 0].take l.room := by
  rw [socks5UdpAssociateWithConfig, Dialogue.runLine_bind, h]
  exact ⟨rfl, (negotiate_sent l).1⟩

/-- Behind a negotiation the request goes out as far as there is room, and the reply is read if it went out in full. -/
private theorem udpAssociate_taken (h : (socks5NegotiateNoAuth.runLine l).1 = true) :
    (socks5UdpAssociateWithConfig.runLine l).2.sent = l.sent ++ ([5, 1, 0] ++ udpAssociateRequest).take l.room ∧
      ((socks5UdpAssociateWithConfig.runLine l).1 ≠ none → 13 ≤ l.room) := by
  obtain ⟨hgreeting, hleft⟩ := negotiate_sent l
  have hroom := ((negotiate_iff l).mp h).1
  have hsent : l.sent ++ [5, 1, 0].take l.room ++ udpAssociateRequest.take (l.room - 3) =
      l.sent ++ ([5, 1, 0] ++ udpAssociateRequest).take l.room := by
    rw [List.take_append, List.append_assoc]
    rfl
  rw [socks5UdpAssociateWithConfig, Dialogue.runLine_bind, h]
  simp only [Dialogue.runLine]
  rw [hgreeting, hleft, hsent]
  by_cases hfits : udpAssociateRequest.length ≤ l.room - 3
  · rw [decide_eq_true hfits]
    refine ⟨readAssociateReply_reads.runLine_sent _, fun _ => ?_⟩
    have hlen : udpAssociateRequest.length = 10 := rfl
    omega
  · rw [decide_eq_false hfits]
    exact ⟨rfl, fun hsome => absurd rfl hsome⟩

private theorem udpAssociate_reads (h : (socks5NegotiateNoAuth.runLine l).1 = true) (hroom : 13 ≤ l.room) :
    ∃ room sent, socks5UdpAssociateWithConfig.runLine l =
      readAssociateReply.runLine ⟨(socks5NegotiateNoAuth.runLine l).2.incoming, room, sent⟩ := by
  have hlen : udpAssociateRequest.length = 10 := rfl
  have hfits : udpAssociateRequest.length ≤ (socks5NegotiateNoAuth.runLine l).2.room := by
    rw [(negotiate_sent l).2]
    omega
  rw [socks5UdpAssociateWithConfig, Dialogue.runLine_bind, h]
  simp only [Dialogue.runLine, decide_eq_true hfits]
  exact ⟨_, _, rfl⟩

private theorem udpAssociate_sent (l : Line UInt8) :
    ∃ n, (socks5UdpAssociateWithConfig.runLine l).2.sent = l.sent ++ ([5, 1, 0] ++ udpAssociateRequest).take n ∧
      ((socks5UdpAssociateWithConfig.runLine l).1 ≠ none → 13 ≤ n) := by
  cases h : (socks5NegotiateNoAuth.runLine l).1 with
  | false =>
    obtain ⟨hnone, hsent⟩ := udpAssociate_refused h
    refine ⟨min l.room 3, ?_, fun hsome => absurd hnone hsome⟩
    rw [hsent, ← List.take_take]
    rfl
  | true =>
    obtain ⟨hsent, hroom⟩ := udpAssociate_taken h
    exact ⟨l.room, hsent, hroom⟩

/-- The association succeeds when both messages went out and the proxy sent a reply with an IPv4 endpoint, and it
takes off the stream just what the proxy sent for it. -/
private theorem udpAssociate_iff (endpoint : RelayAddr) (rest : List UInt8) :
    (socks5UdpAssociateWithConfig.runLine l).1 = some endpoint ∧
        (socks5UdpAssociateWithConfig.runLine l).2.incoming = rest ↔
      13 ≤ l.room ∧ ∃ rsv, l.incoming = [5, 0] ++ (endpoint.reply rsv ++ rest) := by
  constructor
  · rintro ⟨hresult, hrest⟩
    cases h : (socks5NegotiateNoAuth.runLine l).1 with
    | false =>
      rw [(udpAssociate_refused h).1] at hresult
      cases hresult
    | true =>
      have hroom := (udpAssociate_taken h).2 (hresult ▸ Option.some_ne_none endpoint)
      obtain ⟨room, sent, hrun⟩ := udpAssociate_reads h hroom
      rw [hrun] at hresult hrest
      obtain ⟨rsv, behind, hleft⟩ := readAssociateReply_some hresult
      rw [hleft, readAssociateReply_reply] at hrest
      obtain rfl : behind = rest := hrest
      exact ⟨hroom, rsv, hleft ▸ negotiate_taken h⟩
  · rintro ⟨hroom, rsv, hincoming⟩
    have h : (socks5NegotiateNoAuth.runLine l).1 = true :=
      (negotiate_iff l).mpr ⟨by omega, by rw [hincoming]; rfl⟩
    obtain ⟨room, sent, hrun⟩ := udpAssociate_reads h hroom
    have hleft : (socks5NegotiateNoAuth.runLine l).2.incoming = endpoint.reply rsv ++ rest :=
      List.append_cancel_left ((negotiate_taken h).symm.trans hincoming)
    rw [hrun, hleft, readAssociateReply_reply]
    exact ⟨rfl, rfl⟩

end Associate

/-- The reply handler of the macOS handshake takes the same endpoint, except that it wants a port. -/
private theorem associateReply_reply (R : MacOS.SwiftRuntime) (t : MacOS.UdpTarget) (endpoint : RelayAddr)
    (rsv : UInt8) (rest : List UInt8) : t.associateReply R (endpoint.reply rsv ++ rest) =
      if endpoint.port = 0 then .failed "SOCKS5 UDP ASSOCIATE returned no relay port"
      else .relayUDPThroughSOCKS5 (t.relayHost R (.ipv4 endpoint.addr)) endpoint.port := by
  have hbytes : endpoint.reply rsv ++ rest =
      [5, 0, rsv] ++ ((Rfc1928.Address.ipv4 endpoint.addr).bytes ++ (Rfc1928.networkOrder endpoint.port ++ rest)) := by
    rw [RelayAddr.reply, List.append_assoc, List.append_assoc]
  have hlen : 10 ≤ (endpoint.reply rsv ++ rest).length := by
    rw [hbytes]
    simp [Rfc1928.Address.bytes, Rfc1928.networkOrder]
    omega
  have hfirst : (endpoint.reply rsv ++ rest)[0]? = some 5 := rfl
  have hrep : (endpoint.reply rsv ++ rest).getD 1 0 = 0 := rfl
  have hparsed : parseSOCKS5Address R.parsers.decode (endpoint.reply rsv ++ rest) 3 =
      (MacOS.addressText R.parsers.decode (.ipv4 endpoint.addr), endpoint.port) := by
    rw [hbytes]
    exact MacOS.parseSOCKS5Address_bytes R.parsers.decode [5, 0, rsv] endpoint.port rest (.ipv4 endpoint.addr)
  unfold MacOS.UdpTarget.associateReply
  dsimp only
  rw [if_neg (not_not.mpr ⟨by omega, hfirst⟩), hrep, if_neg (not_not.mpr rfl), if_neg (not_not.mpr hlen), hparsed]
  rfl

/-- Whatever the segments are: the call takes an endpoint just when both of its messages went out and the proxy sent a
complete successful reply with this IPv4 endpoint, and it leaves on the stream what is behind that reply. What goes
out is the greeting and a request of UDP ASSOCIATE for no particular endpoint, or the beginning of them. From the
same reply the macOS handshake takes the same endpoint, but no endpoint with port 0, which this call takes, and in
place of 0.0.0.0 the host of the proxy, which this call leaves to its caller. -/
theorem socks5_udp_associate_takes_ipv4_endpoint (s : Socket UInt8) :
    (∀ endpoint rest, (socks5UdpAssociateWithConfig.run s).1 = some endpoint ∧
        (socks5UdpAssociateWithConfig.run s).2.inbox.bytes = rest ↔
      13 ≤ s.outbox.room ∧ ∃ rsv, s.inbox.bytes = [5, 0] ++ (endpoint.reply rsv ++ rest)) ∧
    (∃ n, (socks5UdpAssociateWithConfig.run s).2.outbox.sent =
        s.outbox.sent ++ ([5, 1, 0] ++ udpAssociateRequest).take n ∧
      ((socks5UdpAssociateWithConfig.run s).1 ≠ none → 13 ≤ n)) ∧
    Rfc1928.decodeRequest udpAssociateRequest = some ⟨3, .ipv4 (.replicate 4 0), 0⟩ ∧
    ∀ (R : MacOS.SwiftRuntime) (t : MacOS.UdpTarget) (endpoint : RelayAddr) (rsv : UInt8) (rest : List UInt8),
      t.associateReply R (endpoint.reply rsv ++ rest) =
        if endpoint.port = 0 then .failed "SOCKS5 UDP ASSOCIATE returned no relay port"
        else .relayUDPThroughSOCKS5 (t.relayHost R (.ipv4 endpoint.addr)) endpoint.port := by
  have hrun := Dialogue.run_eq_runLine socks5UdpAssociateWithConfig s
  have hresult : (socks5UdpAssociateWithConfig.run s).1 = (socks5UdpAssociateWithConfig.runLine s.line).1 := by
    rw [← hrun]
  have hbytes : (socks5UdpAssociateWithConfig.run s).2.inbox.bytes =
      (socks5UdpAssociateWithConfig.runLine s.line).2.incoming := by
    rw [← hrun]
    rfl
  have hsent : (socks5UdpAssociateWithConfig.run s).2.outbox.sent =
      (socks5UdpAssociateWithConfig.runLine s.line).2.sent := by
    rw [← hrun]
    rfl
  rw [hresult, hbytes, hsent]
  refine ⟨udpAssociate_iff, udpAssociate_sent s.line, ?_, associateReply_reply⟩
  exact Rfc1928.decodeRequest_eq_some_iff.mpr (by decide)

end ProxyBridge.Handshake
