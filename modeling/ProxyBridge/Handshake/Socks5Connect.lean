import ProxyBridge.Library.ByteStreams

/-! The SOCKS5 handshake of pb_socks5.c: the no-authentication greeting, the three CONNECT requests
and the reader of their common reply. -/
namespace ProxyBridge.Handshake
open ByteStreams

def socks5Version : UInt8 := 0x05
def socks5CmdConnect : UInt8 := 0x01
def socks5AtypIpv4 : UInt8 := 0x01
def socks5AtypDomain : UInt8 := 0x03
def socks5AtypIpv6 : UInt8 := 0x04
def socks5AuthNone : UInt8 := 0x00

/-- The return value of `socks5_read_connect_reply` and the `*reply` it reports. -/
structure ConnectRead where
  result : Int
  reply : Int
deriving DecidableEq, Repr

/-- The last step: BND.ADDR and BND.PORT are read and dropped. -/
def drainAddress (reply : Int) (drain : Nat) : Dialogue UInt8 ConnectRead :=
  .recv drain fun scratch => .done ⟨if scratch.isSome then 0 else -1, reply⟩

/-- `recv_n` gives four bytes or an error, so the reply code is known only with the whole header. -/
def socks5ReadConnectReply : Dialogue UInt8 ConnectRead :=
  .recv 4 fun
    | some [ver, rep, _, atyp] =>
      if ver ≠ socks5Version ∨ rep ≠ 0 then .done ⟨-1, rep.toNat⟩
      else if atyp = socks5AtypIpv4 then drainAddress rep.toNat (4 + 2)
      else if atyp = socks5AtypIpv6 then drainAddress rep.toNat (16 + 2)
      else if atyp = socks5AtypDomain then
        .recv 1 fun
          | some [dlen] => drainAddress rep.toNat (dlen.toNat + 2)
          | _ => .done ⟨-1, rep.toNat⟩
      else .done ⟨-1, rep.toNat⟩
    | _ => .done ⟨-1, -1⟩

/-- Whether `socks5_negotiate_no_auth` returned 0. -/
def socks5NegotiateNoAuth : Dialogue UInt8 Bool :=
  .send [socks5Version, 0x01, socks5AuthNone] fun
    | false => .done false
    | true => .recv 2 fun reply => .done (reply == some [socks5Version, socks5AuthNone])

/-- What a failed attempt writes to the log. `connectFailed` is `socks5_log_connect_failure`. -/
inductive ConnectLog where
  | noAuthFailed
  | sendFailed
  | connectFailed (kind : String) (port : UInt16) (reply : Int)
deriving DecidableEq, Repr

structure ConnectOutcome where
  result : Int
  log : Option ConnectLog
deriving DecidableEq, Repr

def portBytes (port : UInt16) : List UInt8 := [(port >>> 8).toUInt8, port.toUInt8]

/-- The exchange after the negotiation: the request goes out and the reply comes in. -/
def socks5Request (request : List UInt8) (kind : String) (destPort : UInt16) (notSent : Option ConnectLog) :
    Dialogue UInt8 ConnectOutcome :=
  .send request fun
    | false => .done ⟨-1, notSent⟩
    | true => socks5ReadConnectReply.bind fun r =>
      .done (if r.result ≠ 0 then ⟨-1, some (.connectFailed kind destPort r.reply)⟩ else ⟨0, none⟩)

def socks5Connect (destIp : UInt32) (destPort : UInt16) : Dialogue UInt8 ConnectOutcome :=
  socks5NegotiateNoAuth.bind fun
    | false => .done ⟨-1, some .noAuthFailed⟩
    | true =>
      let request := [socks5Version, socks5CmdConnect, 0x00, socks5AtypIpv4, destIp.toUInt8, (destIp >>> 8).toUInt8,
        (destIp >>> 16).toUInt8, (destIp >>> 24).toUInt8] ++ portBytes destPort
      socks5Request request "IPv4" destPort (some .sendFailed)

def socks5ConnectV6 (destIp6 : Vector UInt8 16) (destPort : UInt16) : Dialogue UInt8 ConnectOutcome :=
  socks5NegotiateNoAuth.bind fun
    | false => .done ⟨-1, none⟩
    | true =>
      let request := [socks5Version, socks5CmdConnect, 0x00, socks5AtypIpv6] ++ destIp6.toList ++ portBytes destPort
      socks5Request request "IPv6" destPort none

/-- `hostname` is the memory from the pointer on. -/
def strnlenS (hostname : List UInt8) (max : Nat) : Nat := min (hostname.takeWhile (· != 0)).length max

/-- The length of the name is checked before anything is sent. -/
def socks5ConnectDomain (hostname : List UInt8) (destPort : UInt16) : Dialogue UInt8 ConnectOutcome :=
  let hlen := strnlenS hostname 256
  if hlen = 0 ∨ hlen > 255 then .done ⟨-1, none⟩
  else socks5NegotiateNoAuth.bind fun
    | false => .done ⟨-1, none⟩
    | true =>
      let request := [socks5Version, socks5CmdConnect, 0x00, socks5AtypDomain, hlen.toUInt8] ++ hostname.take hlen ++
        portBytes destPort
      socks5Request request "domain" destPort none

/-! What the reader is for. -/

/-- A successful reply to CONNECT, with any of the three address types. -/
inductive ConnectReply : List UInt8 → Prop
  | ipv4 (rsv : UInt8) (addr port : List UInt8) (haddr : addr.length = 4) (hport : port.length = 2) :
    ConnectReply ([5, 0, rsv, 1] ++ addr ++ port)
  | ipv6 (rsv : UInt8) (addr port : List UInt8) (haddr : addr.length = 16) (hport : port.length = 2) :
    ConnectReply ([5, 0, rsv, 4] ++ addr ++ port)
  | domain (rsv dlen : UInt8) (name port : List UInt8) (hname : name.length = dlen.toNat) (hport : port.length = 2) :
    ConnectReply ([5, 0, rsv, 3, dlen] ++ name ++ port)

/-- How long a reply that starts like this is, if it can be a successful one. -/
def replyLength : List UInt8 → Option Nat
  | ver :: rep :: _ :: atyp :: rest =>
    if ver ≠ 5 ∨ rep ≠ 0 then none
    else if atyp = 1 then some 10
    else if atyp = 4 then some 22
    else if atyp = 3 then rest.head?.map (fun dlen => 7 + dlen.toNat)
    else none
  | _ => none

private theorem replyLength_of_connectReply {reply : List UInt8} (h : ConnectReply reply) (rest : List UInt8) :
    replyLength (reply ++ rest) = some reply.length := by
  cases h with
  | ipv4 rsv addr port haddr hport => simp [replyLength, haddr, hport]
  | ipv6 rsv addr port haddr hport => simp [replyLength, haddr, hport]
  | domain rsv dlen name port hname hport => simp [replyLength, hname, hport]; omega

/-- Four bytes and `n` more split into header, address and port. -/
private theorem take_split (l : List UInt8) (n : Nat) (h : n + 2 ≤ l.length) :
    ∃ addr port, addr.length = n ∧ port.length = 2 ∧ l.take (n + 2) = addr ++ port :=
  ⟨l.take n, (l.drop n).take 2, by simp; omega, by simp; omega, List.take_add⟩

private theorem connectReply_of_replyLength {s : List UInt8} {n : Nat} (h : replyLength s = some n)
    (hn : n ≤ s.length) : ConnectReply (s.take n) := by
  match s, h with
  | ver :: rep :: rsv :: atyp :: rest, h =>
    simp only [replyLength] at h
    split at h
    · cases h
    rename_i hok
    obtain ⟨rfl, rfl⟩ : ver = 5 ∧ rep = 0 := by simpa using hok
    simp only [List.length_cons] at hn
    split at h
    · rename_i ha
      obtain rfl := Option.some.inj h
      obtain ⟨addr, port, haddr, hport, he⟩ := take_split rest 4 (by omega)
      have := ConnectReply.ipv4 rsv addr port haddr hport
      rw [List.append_assoc, ← he] at this
      simpa [ha] using this
    split at h
    · rename_i ha
      obtain rfl := Option.some.inj h
      obtain ⟨addr, port, haddr, hport, he⟩ := take_split rest 16 (by omega)
      have := ConnectReply.ipv6 rsv addr port haddr hport
      rw [List.append_assoc, ← he] at this
      simpa [ha] using this
    split at h
    · rename_i ha
      cases rest with
      | nil => cases h
      | cons dlen rest =>
        obtain rfl : 7 + dlen.toNat = n := Option.some.inj h
        simp only [List.length_cons] at hn
        obtain ⟨name, port, hname, hport, he⟩ := take_split rest dlen.toNat (by omega)
        have := ConnectReply.domain rsv dlen name port hname hport
        rw [List.append_assoc, ← he] at this
        have hsum : 7 + dlen.toNat = (dlen.toNat + 2) + 5 := by omega
        rw [hsum, ha]
        simpa using this
    · cases h

/-- A stream starts with a reply exactly when all of the bytes that its beginning announces are there. -/
theorem exists_connectReply_iff (s rest : List UInt8) :
    (∃ reply, ConnectReply reply ∧ s = reply ++ rest) ↔
      ∃ n, replyLength s = some n ∧ n ≤ s.length ∧ rest = s.drop n := by
  constructor
  · rintro ⟨reply, hreply, rfl⟩
    exact ⟨reply.length, replyLength_of_connectReply hreply rest, by simp, by simp⟩
  · rintro ⟨n, hlen, hn, rfl⟩
    exact ⟨s.take n, connectReply_of_replyLength hlen hn, (List.take_append_drop n s).symm⟩

private theorem drainAddress_runLine (reply : Int) (drain : Nat) (l : Line UInt8) :
    ((drainAddress reply drain).runLine l).1.result = (if drain ≤ l.incoming.length then 0 else -1) ∧
      ((drainAddress reply drain).runLine l).2.incoming = l.incoming.drop drain := by
  refine ⟨?_, rfl⟩
  simp only [drainAddress, Dialogue.runLine]
  split <;> rfl

/-- Reading a header of which all bytes are there. -/
private theorem readReply_runLine (ver rep rsv atyp : UInt8) (rest : List UInt8) (room : Nat) (sent : List UInt8) :
    socks5ReadConnectReply.runLine ⟨ver :: rep :: rsv :: atyp :: rest, room, sent⟩ =
      (if ver ≠ socks5Version ∨ rep ≠ 0 then .done ⟨-1, rep.toNat⟩
      else if atyp = socks5AtypIpv4 then drainAddress rep.toNat (4 + 2)
      else if atyp = socks5AtypIpv6 then drainAddress rep.toNat (16 + 2)
      else if atyp = socks5AtypDomain then
        .recv 1 fun
          | some [dlen] => drainAddress rep.toNat (dlen.toNat + 2)
          | _ => .done ⟨-1, rep.toNat⟩
      else .done ⟨-1, rep.toNat⟩ : Dialogue UInt8 ConnectRead).runLine ⟨rest, room, sent⟩ := by
  simp [socks5ReadConnectReply, Dialogue.runLine]

/-- The first `n` bytes announce a reply of length `n`: then it is read, if they are all there. -/
private def ReadsReply (n : Option Nat) (incoming : List UInt8) (read : ConnectRead × Line UInt8) : Prop :=
  (read.1.result = 0 ↔ ∃ k, n = some k ∧ k ≤ incoming.length) ∧
    (read.1.result = 0 → ∀ k, n = some k → read.2.incoming = incoming.drop k)

private theorem readsReply_none (reply : Int) (incoming : List UInt8) (l : Line UInt8) :
    ReadsReply none incoming (⟨-1, reply⟩, l) :=
  ⟨⟨fun h => (by decide : ¬ (-1 : Int) = 0) h |>.elim, fun ⟨_, h, _⟩ => nomatch h⟩, fun _ _ h => nomatch h⟩

private theorem readsReply_drain (front rest : List UInt8) (reply : Int) (drain room : Nat) (sent : List UInt8) :
    ReadsReply (some (front.length + drain)) (front ++ rest)
      ((drainAddress reply drain).runLine ⟨rest, room, sent⟩) := by
  obtain ⟨hresult, hleft⟩ := drainAddress_runLine reply drain ⟨rest, room, sent⟩
  refine ⟨?_, fun _ k hk => ?_⟩
  · rw [hresult]
    by_cases hd : drain ≤ rest.length <;> simp [hd]
  · obtain rfl := Option.some.inj hk
    rw [hleft, List.drop_length_add_append]

private theorem readsReply_readReply (l : Line UInt8) :
    ReadsReply (replyLength l.incoming) l.incoming (socks5ReadConnectReply.runLine l) := by
  obtain ⟨incoming, room, sent⟩ := l
  match incoming with
  | [] | [_] | [_, _] | [_, _, _] => exact readsReply_none _ _ _
  | ver :: rep :: rsv :: atyp :: rest =>
    rw [readReply_runLine]
    simp only [replyLength, socks5Version, socks5AtypIpv4, socks5AtypIpv6, socks5AtypDomain]
    by_cases hok : ver ≠ 5 ∨ rep ≠ 0
    · simp only [hok, if_true]
      exact readsReply_none _ _ _
    by_cases h1 : atyp = 1
    · subst h1
      simp only [hok, if_true, if_false]
      exact readsReply_drain [ver, rep, rsv, 1] rest _ 6 room sent
    by_cases h4 : atyp = 4
    · subst h4
      simp only [hok, h1, if_true, if_false]
      exact readsReply_drain [ver, rep, rsv, 4] rest _ 18 room sent
    by_cases h3 : atyp = 3
    · subst h3
      simp only [hok, h1, h4, if_true, if_false]
      cases rest with
      | nil => exact readsReply_none _ _ _
      | cons dlen rest =>
        have hlen : 7 + dlen.toNat = [ver, rep, rsv, 3, dlen].length + (dlen.toNat + 2) := by simp; omega
        simp only [List.head?_cons, Option.map_some, hlen]
        exact readsReply_drain [ver, rep, rsv, 3, dlen] rest _ (dlen.toNat + 2) room sent
    · simp only [hok, h1, h4, h3, if_false]
      exact readsReply_none _ _ _

/-- A reader that succeeds has taken one reply off the stream. -/
theorem socks5ReadConnectReply_taken {l : Line UInt8} (h : (socks5ReadConnectReply.runLine l).1.result = 0) :
    ∃ reply, ConnectReply reply ∧ l.incoming = reply ++ (socks5ReadConnectReply.runLine l).2.incoming := by
  obtain ⟨hzero, hleft⟩ := readsReply_readReply l
  obtain ⟨n, hn, hle⟩ := hzero.mp h
  exact (exists_connectReply_iff l.incoming _).mpr ⟨n, hn, hle, hleft h n hn⟩

/-- Two ways in which one stream arrives and one amount is taken for sending give one outcome. -/
def SameOutcome {β : Type} (d : Dialogue UInt8 β) (s t : Socket UInt8) : Prop :=
  (d.run s).1 = (d.run t).1 ∧ (d.run s).2.inbox.bytes = (d.run t).2.inbox.bytes

private theorem sameOutcome_of_line {β : Type} (d : Dialogue UInt8 β) {s t : Socket UInt8} (h : s.line = t.line) :
    SameOutcome d s t := by
  have he : ((d.run s).1, (d.run s).2.line) = ((d.run t).1, (d.run t).2.line) := by
    rw [Dialogue.run_eq_runLine, Dialogue.run_eq_runLine, h]
  obtain ⟨hresult, hline⟩ := Prod.mk.inj he
  exact ⟨hresult, congrArg Line.incoming hline⟩

/-- The reader accepts exactly the successful replies and takes exactly their bytes, and neither it
nor an exchange around it depends on how the stream was cut. -/
theorem socks5_replies_read_exactly (s t : Socket UInt8) (h : s.line = t.line) :
    ((socks5ReadConnectReply.run s).1.result = 0 ↔
      ∃ reply rest, ConnectReply reply ∧ s.inbox.bytes = reply ++ rest) ∧
    ((socks5ReadConnectReply.run s).1.result = 0 → ∃ reply, ConnectReply reply ∧
      s.inbox.bytes = reply ++ (socks5ReadConnectReply.run s).2.inbox.bytes) ∧
    SameOutcome socks5ReadConnectReply s t ∧
    SameOutcome socks5NegotiateNoAuth s t ∧
    (∀ destIp destPort, SameOutcome (socks5Connect destIp destPort) s t) ∧
    (∀ destIp6 destPort, SameOutcome (socks5ConnectV6 destIp6 destPort) s t) ∧
    (∀ hostname destPort, SameOutcome (socks5ConnectDomain hostname destPort) s t) := by
  have hrun := Dialogue.run_eq_runLine socks5ReadConnectReply s
  obtain ⟨hzero, hleft⟩ := readsReply_readReply s.line
  rw [← hrun] at hzero hleft
  refine ⟨?_, fun hr => ?_, sameOutcome_of_line _ h, sameOutcome_of_line _ h,
    fun _ _ => sameOutcome_of_line _ h, fun _ _ => sameOutcome_of_line _ h, fun _ _ => sameOutcome_of_line _ h⟩
  · rw [hzero]
    constructor
    · rintro ⟨n, hn, hle⟩
      obtain ⟨reply, hreply⟩ := (exists_connectReply_iff s.inbox.bytes _).mpr ⟨n, hn, hle, rfl⟩
      exact ⟨reply, _, hreply⟩
    · rintro ⟨reply, rest, hreply⟩
      obtain ⟨n, hn, hle, -⟩ := (exists_connectReply_iff s.inbox.bytes rest).mp ⟨reply, hreply⟩
      exact ⟨n, hn, hle⟩
  · obtain ⟨n, hn, hle⟩ := hzero.mp hr
    exact (exists_connectReply_iff s.inbox.bytes _).mpr ⟨n, hn, hle, hleft hr n hn⟩

/-- A reply for 10.0.0.1:80 with one byte of the tunnel behind it, in one segment. -/
def replyInOne : Socket UInt8 :=
  ⟨⟨[[5, 0, 0, 1, 10, 0, 0, 1, 0, 80, 9]], by decide⟩, ⟨[100], [], by decide⟩⟩

/-- The same bytes in three segments. -/
def replyInThree : Socket UInt8 :=
  ⟨⟨[[5], [0, 0, 1, 10, 0], [0, 1, 0, 80, 9]], by decide⟩, ⟨[2, 98], [], by decide⟩⟩

theorem socks5_replies_read_exactly_cut : replyInThree.line = replyInOne.line ∧
    (socks5ReadConnectReply.run replyInThree).1 = ⟨0, 0⟩ ∧
    (∃ reply, ConnectReply reply ∧
      replyInThree.inbox.bytes = reply ++ (socks5ReadConnectReply.run replyInThree).2.inbox.bytes) ∧
    SameOutcome (socks5ConnectDomain [97, 46, 98, 0] 80) replyInThree replyInOne := by
  obtain ⟨-, hread, -, -, -, -, hdomain⟩ := socks5_replies_read_exactly replyInThree replyInOne rfl
  exact ⟨rfl, by decide, hread (by decide), hdomain _ _⟩

end ProxyBridge.Handshake
