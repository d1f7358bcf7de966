import Mathlib.Data.List.GetD
import ProxyBridge.Handshake.Socks5Requests
import ProxyBridge.Library.BigEndian
import ProxyBridge.Windows.UdpRelay

/-! The buffers of `udp_relay_server`: the two headers that it writes in front of a payload, and the
branch that takes a datagram of a proxy apart, byte by byte. -/
namespace ProxyBridge.Windows
open CheckedMemory

/-- The branch for an IPv4 destination, from the guard on `recv_len` to `sendto`. -/
def encapsulateIpv4 (destIp : UInt32) (destPort : UInt16) (recvBuf : Vector UInt8 maxBuf) (recvLen : Nat)
    (sendBuf : Vector UInt8 maxBuf) : Except Fault (Option (List UInt8)) :=
  if recvLen = 0 ∨ recvLen > maxBuf - 10 then .ok none
  else do
    let sendBuf ← write sendBuf.toList 0 0
    let sendBuf ← write sendBuf 1 0
    let sendBuf ← write sendBuf 2 0
    let sendBuf ← write sendBuf 3 1
    let sendBuf ← write sendBuf 4 destIp.toUInt8
    let sendBuf ← write sendBuf 5 (destIp >>> 8).toUInt8
    let sendBuf ← write sendBuf 6 (destIp >>> 16).toUInt8
    let sendBuf ← write sendBuf 7 (destIp >>> 24).toUInt8
    let sendBuf ← write sendBuf 8 (destPort >>> 8).toUInt8
    let sendBuf ← write sendBuf 9 destPort.toUInt8
    let sendBuf ← memcpy sendBuf 10 recvBuf.toList 0 recvLen
    let datagram ← readBytes sendBuf 0 (10 + recvLen)
    return some datagram

/-- The branch for an IPv6 destination. -/
def encapsulateIpv6 (destIp6 : Ip6) (destPort : UInt16) (recvBuf : Vector UInt8 maxBuf) (recvLen : Nat)
    (sendBuf : Vector UInt8 maxBuf) : Except Fault (Option (List UInt8)) :=
  if recvLen = 0 ∨ recvLen > maxBuf - 22 then .ok none
  else do
    let sendBuf ← write sendBuf.toList 0 0
    let sendBuf ← write sendBuf 1 0
    let sendBuf ← write sendBuf 2 0
    let sendBuf ← write sendBuf 3 4
    let sendBuf ← memcpy sendBuf 4 destIp6.toList 0 16
    let sendBuf ← write sendBuf 20 (destPort >>> 8).toUInt8
    let sendBuf ← write sendBuf 21 destPort.toUInt8
    let sendBuf ← memcpy sendBuf 22 recvBuf.toList 0 recvLen
    let datagram ← readBytes sendBuf 0 (22 + recvLen)
    return some datagram

/-- `(recv_buf[i]<<8)|recv_buf[i+1]`. -/
def readPort (recvBuf : List UInt8) (i : Nat) : Except Fault UInt16 := do
  let high ← read recvBuf i
  let low ← read recvBuf (i + 1)
  return high.toUInt16 <<< 8 ||| low.toUInt16

/-- The branch for a datagram of `recv_len` bytes from a proxy: the source that it names and what is
forwarded to the client of that source. -/
def receiveReply (recvBuf : Vector UInt8 maxBuf) (recvLen : Nat) :
    Except Fault (Option ((IpAddr × UInt16) × List UInt8)) :=
  let recvBuf := recvBuf.toList
  if recvLen < 10 then .ok none
  else do
    let frag ← read recvBuf 2
    if frag ≠ 0 then return none
    else
      let atyp ← read recvBuf 3
      if atyp = 1 ∧ recvLen ≥ 10 then do
        let b4 ← read recvBuf 4
        let b5 ← read recvBuf 5
        let b6 ← read recvBuf 6
        let b7 ← read recvBuf 7
        let srcIp := b4.toUInt32 ||| b5.toUInt32 <<< 8 ||| b6.toUInt32 <<< 16 ||| b7.toUInt32 <<< 24
        let srcPort ← readPort recvBuf 8
        let payload ← readBytes recvBuf 10 (recvLen - 10)
        return some ((.v4 srcIp, srcPort), payload)
      else if atyp = 4 ∧ recvLen ≥ 22 then do
        let srcIp6 ← readBytes recvBuf 4 16
        let srcPort ← readPort recvBuf 20
        let payload ← readBytes recvBuf 22 (recvLen - 22)
        return some ((.v6 (Vector.ofFn (fun i : Fin 16 => srcIp6.getD i 0)), srcPort), payload)
      else return none

/-- The branch for the family of the destination. -/
def encapsulateFor (dest : IpAddr) (destPort : UInt16) (recvBuf : Vector UInt8 maxBuf) (recvLen : Nat)
    (sendBuf : Vector UInt8 maxBuf) : Except Fault (Option (List UInt8)) :=
  match dest with
  | .v4 destIp => encapsulateIpv4 destIp destPort recvBuf recvLen sendBuf
  | .v6 destIp6 => encapsulateIpv6 destIp6 destPort recvBuf recvLen sendBuf

/-- What the guards leave for the payload next to the header. -/
def payloadRoom (dest : IpAddr) : Nat := if dest.isIpv6 then maxBuf - 22 else maxBuf - 10

section Writing
variable {recvBuf sendBuf : Vector UInt8 maxBuf} {recvLen : Nat} (destPort : UInt16)

private theorem encapsulateIpv4_ok (destIp : UInt32) (hpos : 0 < recvLen) (hroom : recvLen ≤ maxBuf - 10) :
    encapsulateIpv4 destIp destPort recvBuf recvLen sendBuf =
      .ok (some (socks5UdpHeader (.v4 destIp) destPort ++ recvBuf.toList.take recvLen)) := by
  have hguard : ¬ (recvLen = 0 ∨ recvLen > maxBuf - 10) := by omega
  have hmax : maxBuf = 65535 := rfl
  have hsend : sendBuf.toList.length = maxBuf := sendBuf.length_toList
  have hrecv : recvBuf.toList.length = maxBuf := recvBuf.length_toList
  rw [encapsulateIpv4, if_neg hguard]
  refine (Starts.nil hsend).write (by rfl) (by decide) _ fun next h => ?_
  refine h.write (by rfl) (by decide) _ fun next h => ?_
  refine h.write (by rfl) (by decide) _ fun next h => ?_
  refine h.write (by rfl) (by decide) _ fun next h => ?_
  refine h.write (by rfl) (by decide) _ fun next h => ?_
  refine h.write (by rfl) (by decide) _ fun next h => ?_
  refine h.write (by rfl) (by decide) _ fun next h => ?_
  refine h.write (by rfl) (by decide) _ fun next h => ?_
  refine h.write (by rfl) (by decide) _ fun next h => ?_
  refine h.write (by rfl) (by decide) _ fun next h => ?_
  refine h.memcpy (by rfl) (by omega) (by omega) fun next h => ?_
  have hread := h.readBytes (n := 10 + recvLen) (by simp; omega)
  rw [hread]
  rfl

private theorem encapsulateIpv6_ok (destIp6 : Ip6) (hpos : 0 < recvLen) (hroom : recvLen ≤ maxBuf - 22) :
    encapsulateIpv6 destIp6 destPort recvBuf recvLen sendBuf =
      .ok (some (socks5UdpHeader (.v6 destIp6) destPort ++ recvBuf.toList.take recvLen)) := by
  have hguard : ¬ (recvLen = 0 ∨ recvLen > maxBuf - 22) := by omega
  have hmax : maxBuf = 65535 := rfl
  have hsend : sendBuf.toList.length = maxBuf := sendBuf.length_toList
  have hrecv : recvBuf.toList.length = maxBuf := recvBuf.length_toList
  have hip : destIp6.toList.length = 16 := destIp6.length_toList
  have htake : destIp6.toList.take 16 = destIp6.toList := List.take_of_length_le (Nat.le_of_eq hip)
  rw [encapsulateIpv6, if_neg hguard]
  refine (Starts.nil hsend).write (by rfl) (by decide) _ fun next h => ?_
  refine h.write (by rfl) (by decide) _ fun next h => ?_
  refine h.write (by rfl) (by decide) _ fun next h => ?_
  refine h.write (by rfl) (by decide) _ fun next h => ?_
  refine h.memcpy (by rfl) (Nat.le_of_eq hip.symm) (by decide) fun next h => ?_
  rw [htake] at h
  refine h.write (by simp) (by decide) _ fun next h => ?_
  refine h.write (by simp) (by decide) _ fun next h => ?_
  refine h.memcpy (by simp) (by omega) (by omega) fun next h => ?_
  have hread := h.readBytes (n := 22 + recvLen) (by simp; omega)
  rw [hread]
  simp [socks5UdpHeader, IpAddr.isIpv6, IpAddr.bytes]

/-- Within the guards no write leaves the buffer, and what is sent is the header with the payload. -/
theorem encapsulateFor_ok (dest : IpAddr) (hpos : 0 < recvLen) (hroom : recvLen ≤ payloadRoom dest) :
    encapsulateFor dest destPort recvBuf recvLen sendBuf =
      .ok (some (socks5UdpHeader dest destPort ++ recvBuf.toList.take recvLen)) := by
  cases dest with
  | v4 destIp => exact encapsulateIpv4_ok destPort destIp hpos hroom
  | v6 destIp6 => exact encapsulateIpv6_ok destPort destIp6 hpos hroom

end Writing

section Reading

private theorem readPort_ok {recvBuf : List UInt8} {i : Nat} (h : i + 2 ≤ recvBuf.length) :
    readPort recvBuf i = .ok (Rfc1928.word (recvBuf.getD i 0) (recvBuf.getD (i + 1) 0)) := by
  rw [readPort, read_getD (by omega), read_getD (by omega)]
  rfl

private theorem getD_take {l : List UInt8} {i n : Nat} (h : i < n) : (l.take n).getD i 0 = l.getD i 0 := by
  rw [List.getD_eq_getElem?_getD, List.getD_eq_getElem?_getD, List.getElem?_take, if_pos h]

private theorem decapsulate_eq {buf : List UInt8} (h : 10 ≤ buf.length) :
    decapsulate buf =
      if buf.getD 2 0 ≠ 0 then none
      else if buf.getD 3 0 = 1 then
        some ((.v4 ((buf.getD 4 0).toUInt32 ||| (buf.getD 5 0).toUInt32 <<< 8 ||| (buf.getD 6 0).toUInt32 <<< 16 |||
          (buf.getD 7 0).toUInt32 <<< 24), Rfc1928.word (buf.getD 8 0) (buf.getD 9 0)), buf.drop 10)
      else if buf.getD 3 0 = 4 ∧ 22 ≤ buf.length then
        some ((.v6 (Vector.ofFn (fun i : Fin 16 => buf.getD (4 + i) 0)), Rfc1928.word (buf.getD 20 0) (buf.getD 21 0)),
          buf.drop 22)
      else none := by
  have hshort : decide (buf.length < 10) = false := decide_eq_false (Nat.not_lt.mpr h)
  simp only [decapsulate, hshort, Bool.false_or, bne_iff_ne, beq_iff_eq, Bool.and_eq_true, decide_eq_true_eq]
  rfl

/-- The branch reads within the datagram, so it takes apart just the bytes of the datagram. -/
theorem receiveReply_eq (recvBuf : Vector UInt8 maxBuf) {recvLen : Nat} (h : recvLen ≤ maxBuf) :
    receiveReply recvBuf recvLen = .ok (decapsulate (recvBuf.toList.take recvLen)) := by
  have hlen : recvBuf.toList.length = maxBuf := recvBuf.length_toList
  have htake : (recvBuf.toList.take recvLen).length = recvLen := by
    rw [List.length_take]
    omega
  have hget (i : Nat) (hi : i < recvLen) : (recvBuf.toList.take recvLen).getD i 0 = recvBuf.toList.getD i 0 :=
    getD_take hi
  have hrest (n : Nat) : (recvBuf.toList.take recvLen).drop n = (recvBuf.toList.drop n).take (recvLen - n) :=
    List.drop_take ..
  rw [receiveReply]
  generalize recvBuf.toList = buf at *
  by_cases hshort : recvLen < 10
  · have hlong : (buf.take recvLen).length < 10 := htake.symm ▸ hshort
    simp only [hshort, if_true, decapsulate, hlong, decide_true, Bool.true_or]
  rw [if_neg hshort, decapsulate_eq (by omega), htake, read_getD (by omega), ok_bind, hget 2 (by omega),
    hget 3 (by omega)]
  by_cases hfrag : buf.getD 2 0 ≠ 0
  · rw [if_pos hfrag, if_pos hfrag]
    rfl
  rw [if_neg hfrag, if_neg hfrag, read_getD (by omega), ok_bind]
  by_cases h1 : buf.getD 3 0 = 1
  · rw [if_pos ⟨h1, Nat.not_lt.mp hshort⟩, if_pos h1, read_getD (by omega), read_getD (by omega), read_getD (by omega),
      read_getD (by omega), readPort_ok (by omega), readBytes_ok (by omega), hget 4 (by omega), hget 5 (by omega),
      hget 6 (by omega), hget 7 (by omega), hget 8 (by omega), hget 9 (by omega), hrest]
    rfl
  rw [if_neg (fun hc => h1 hc.1), if_neg h1]
  by_cases h4 : buf.getD 3 0 = 4 ∧ 22 ≤ recvLen
  · obtain ⟨h4, hlong⟩ := h4
    rw [if_pos ⟨h4, hlong⟩, if_pos ⟨h4, hlong⟩, readBytes_ok (by omega), readPort_ok (by omega),
      readBytes_ok (by omega), hget 20 (by omega), hget 21 (by omega), hrest]
    have haddress : (fun i : Fin 16 => ((buf.drop 4).take 16).getD i 0) =
        fun i : Fin 16 => (buf.take recvLen).getD (4 + i) 0 := by
      funext i
      rw [hget (4 + i) (by omega), getD_take i.isLt, List.getD_eq_getElem?_getD, List.getElem?_drop,
        List.getD_eq_getElem?_getD]
    rw [← haddress]
    rfl
  · rw [if_neg h4, if_neg h4]
    rfl

private theorem decapsulate_ipv6 (ip6 : Ip6) (high low : UInt8) (payload : List UInt8) :
    decapsulate ([0, 0, 0, 4] ++ ip6.toList ++ [high, low] ++ payload) =
      some ((.v6 ip6, Rfc1928.word high low), payload) := by
  have hlen : ([0, 0, 0, 4] ++ ip6.toList).length = 20 := by simp
  have hfront : ([0, 0, 0, 4] ++ ip6.toList ++ [high, low]).length = 22 := by simp
  have hport : ([0, 0, 0, 4] ++ ip6.toList ++ [high, low] ++ payload).getD 20 0 = high ∧
      ([0, 0, 0, 4] ++ ip6.toList ++ [high, low] ++ payload).getD 21 0 = low := by
    rw [List.append_assoc _ [high, low], List.getD_append_right _ _ _ 20 (Nat.le_of_eq hlen),
      List.getD_append_right _ _ _ 21 (hlen.symm ▸ Nat.le_succ 20), hlen]
    exact ⟨rfl, rfl⟩
  have haddress : Vector.ofFn (fun i : Fin 16 =>
      ([0, 0, 0, 4] ++ ip6.toList ++ [high, low] ++ payload).getD (4 + i) 0) = ip6 := by
    apply Vector.ext
    intro i hi
    have hin : i < ip6.toList.length := ip6.length_toList.symm ▸ hi
    rw [Vector.getElem_ofFn, List.append_assoc, List.append_assoc,
      List.getD_append_right _ _ _ _ (Nat.le_add_right 4 i)]
    change (ip6.toList ++ _).getD (4 + i - 4) 0 = _
    rw [Nat.add_sub_cancel_left, List.getD_append _ _ _ _ hin, List.getD_eq_getElem _ _ hin, Vector.getElem_toList]
  have hlong : 22 ≤ ([0, 0, 0, 4] ++ ip6.toList ++ [high, low] ++ payload).length := by
    rw [List.length_append, hfront]
    exact Nat.le_add_right 22 _
  have h2 : ([0, 0, 0, 4] ++ ip6.toList ++ [high, low] ++ payload).getD 2 0 = 0 := rfl
  have h3 : ([0, 0, 0, 4] ++ ip6.toList ++ [high, low] ++ payload).getD 3 0 = 4 := rfl
  rw [decapsulate_eq (by omega), haddress, hport.1, hport.2, h2, h3, if_neg (fun hc => hc rfl), if_neg (by decide),
    if_pos ⟨rfl, hlong⟩, List.drop_left' hfront]

/-- A header is taken apart into what was put into it. -/
theorem decapsulate_header (dest : IpAddr) (destPort : UInt16) (payload : List UInt8) :
    decapsulate (socks5UdpHeader dest destPort ++ payload) = some ((dest, destPort), payload) := by
  cases dest with
  | v4 destIp =>
    rw [decapsulate_eq (by simp [socks5UdpHeader, IpAddr.bytes])]
    change some ((IpAddr.v4 (destIp.toUInt8.toUInt32 ||| (destIp >>> 8).toUInt8.toUInt32 <<< 8 |||
      (destIp >>> 16).toUInt8.toUInt32 <<< 16 ||| (destIp >>> 24).toUInt8.toUInt32 <<< 24),
      Rfc1928.word (destPort >>> 8).toUInt8 destPort.toUInt8), payload) = _
    rw [BigEndian.octets_word, Rfc1928.word_networkOrder]
  | v6 destIp6 =>
    have hdecode := decapsulate_ipv6 destIp6 (destPort >>> 8).toUInt8 destPort.toUInt8 payload
    rwa [Rfc1928.word_networkOrder] at hdecode

end Reading

section Layouts
open Handshake

private theorem header_length (dest : IpAddr) (destPort : UInt16) {n : Nat} (h : n ≤ payloadRoom dest) :
    (socks5UdpHeader dest destPort).length + n ≤ maxBuf := by
  have hmax : maxBuf = 65535 := rfl
  cases dest with
  | v4 destIp =>
    have hlen : (socks5UdpHeader (.v4 destIp) destPort).length = 10 := rfl
    have hroom : payloadRoom (.v4 destIp) = maxBuf - 10 := rfl
    omega
  | v6 destIp6 =>
    have hlen : (socks5UdpHeader (.v6 destIp6) destPort).length = 22 := by simp [socks5UdpHeader, IpAddr.bytes]
    have hroom : payloadRoom (.v6 destIp6) = maxBuf - 22 := rfl
    omega

/-- A datagram that the guards let through fits into the buffer, and the branch for datagrams of a
proxy takes it apart into its destination and payload. A CONNECT request is read by the protocol as
its destination and port, and so no two destinations have the same one. -/
theorem socks5_layouts_decode :
    (∀ (dest : IpAddr) (destPort : UInt16) (recvBuf sendBuf : Vector UInt8 maxBuf) (recvLen : Nat),
      0 < recvLen → recvLen ≤ payloadRoom dest →
      ∃ datagram, encapsulateFor dest destPort recvBuf recvLen sendBuf = .ok (some datagram) ∧
        datagram.length ≤ maxBuf ∧
        ∀ received : Vector UInt8 maxBuf, received.toList.take datagram.length = datagram →
          receiveReply received datagram.length = .ok (some ((dest, destPort), recvBuf.toList.take recvLen))) ∧
    (∀ (d : Destination) (destPort : UInt16) (behind : List UInt8), ∃ request, d.Writes destPort behind request ∧
      Requests (d.connect destPort behind) request ∧
      Rfc1928.decodeRequest request = some (d.request destPort)) ∧
    (∀ (d d' : Destination) (destPort destPort' : UInt16) (behind behind' request : List UInt8),
      d.Writes destPort behind request → d'.Writes destPort' behind' request → d = d' ∧ destPort = destPort') := by
  refine ⟨fun dest destPort recvBuf sendBuf recvLen hpos hroom => ?_, fun d destPort behind => ?_,
    fun d d' destPort destPort' behind behind' request h h' => ?_⟩
  · have hfits := header_length dest destPort hroom
    have hlen : (socks5UdpHeader dest destPort ++ recvBuf.toList.take recvLen).length ≤ maxBuf := by
      have htake := List.length_take_le recvLen recvBuf.toList
      rw [List.length_append]
      omega
    refine ⟨_, encapsulateFor_ok destPort dest hpos hroom, hlen, fun received hreceived => ?_⟩
    rw [receiveReply_eq received hlen, hreceived, decapsulate_header]
  · exact ⟨_, (d.writes_iff destPort behind _).mpr rfl, d.connect_requests destPort behind,
      Rfc1928.decodeRequest_eq_some_iff.mpr rfl⟩
  · have hbytes := ((d.writes_iff ..).mp h).symm.trans ((d'.writes_iff ..).mp h')
    have hdecode := Rfc1928.decodeRequest_eq_some_iff.mpr hbytes
    rw [Rfc1928.decodeRequest_eq_some_iff.mpr rfl] at hdecode
    exact Destination.request_inj (Option.some.inj hdecode)

/-- The longest payload for an IPv6 destination, whose datagram fills the buffer. -/
theorem socks5_layouts_decode_longest :
    ∃ datagram, encapsulateFor (.v6 Ip6.zero) 53 (Vector.replicate maxBuf 7) 65513 (Vector.replicate maxBuf 0) =
        .ok (some datagram) ∧ datagram.length ≤ maxBuf ∧
      ∀ received : Vector UInt8 maxBuf, received.toList.take datagram.length = datagram →
        receiveReply received datagram.length =
          .ok (some ((.v6 Ip6.zero, 53), (Vector.replicate maxBuf (7 : UInt8)).toList.take 65513)) :=
  socks5_layouts_decode.1 (.v6 Ip6.zero) 53 (Vector.replicate maxBuf 7) (Vector.replicate maxBuf 0) 65513 (by decide)
    (by decide)

end Layouts

end ProxyBridge.Windows
