import ProxyBridge.Handshake.Socks5Mac
import ProxyBridge.Library.CheckedMemory
import ProxyBridge.Library.Rfc1928

/-! The datagrams between the macOS extension and a SOCKS5 UDP relay. They carry the other end in
front of the payload, and every index into one is checked. -/
namespace ProxyBridge.Handshake
open CheckedMemory

/-- The address parsers of the Network framework, and `String(data:encoding:)` for UTF-8. -/
structure AddressParsers where
  ipv4Address : String → Option (Vector UInt8 4)
  ipv6Address : String → Option (Vector UInt8 16)
  decode : List UInt8 → Option String

def utf8Bytes (s : String) : List UInt8 := s.toList.flatMap String.utf8EncodeChar

section Reading

def readWord (data : List UInt8) (i : Nat) : Except Fault UInt16 := do
  let high ← read data i
  let low ← read data (i + 1)
  return high.toUInt16 <<< 8 ||| low.toUInt16

def ipv4Text (data : List UInt8) (i : Nat) : String :=
  ".".intercalate ((List.range 4).map fun k => toString (data.getD (i + k) 0).toNat)

def readIpv4Text (data : List UInt8) (i : Nat) : Except Fault String := do
  let parts ← (List.range 4).mapM fun k => do
    let b ← read data (i + k)
    return toString b.toNat
  return ".".intercalate parts

def ipv6Text (data : List UInt8) (i : Nat) : String :=
  ":".intercalate ((List.range 8).map fun k => hexadecimal (wordAt data (i + k * 2)).toNat)

def readIpv6Text (data : List UInt8) (i : Nat) : Except Fault String := do
  let parts ← (List.range 8).mapM fun k => do
    let part ← readWord data (i + k * 2)
    return hexadecimal part.toNat
  return ":".intercalate parts

/-- `parseSOCKS5Address` with its accesses checked. -/
def readSOCKS5Address (decode : List UInt8 → Option String) (data : List UInt8) (offset : Nat) :
    Except Fault (String × UInt16) :=
  if data.length > offset then do
    let atyp ← read data offset
    if atyp = 0x01 then
      if data.length ≥ offset + 7 then do
        let ip ← readIpv4Text data (offset + 1)
        let port ← readWord data (offset + 5)
        return (ip, port)
      else return ("0.0.0.0", 0)
    else if atyp = 0x04 then
      if data.length ≥ offset + 19 then do
        let ip ← readIpv6Text data (offset + 1)
        let port ← readWord data (offset + 17)
        return (ip, port)
      else return ("0.0.0.0", 0)
    else if atyp = 0x03 then
      if data.length ≥ offset + 2 then do
        let len ← read data (offset + 1)
        if data.length ≥ offset + 2 + len.toNat + 2 then do
          let domain ← readBytes data (offset + 2) len.toNat
          let port ← readWord data (offset + 2 + len.toNat)
          return ((decode domain).getD "unknown", port)
        else return ("0.0.0.0", 0)
      else return ("0.0.0.0", 0)
    else return ("0.0.0.0", 0)
  else return ("0.0.0.0", 0)

/-- The end of `decapsulateSOCKS5UDPWithEndpoint`. -/
def readPayload (datagram : List UInt8) (headerLen : Nat) (destHost : String) (destPort : UInt16) :
    Except Fault (Option (List UInt8 × String × UInt16)) :=
  if datagram.length > headerLen then do
    let payload ← readBytes datagram headerLen (datagram.length - headerLen)
    return some (payload, destHost, destPort)
  else return none

def decapsulateSOCKS5UDPWithEndpoint (decode : List UInt8 → Option String) (datagram : List UInt8) :
    Except Fault (Option (List UInt8 × String × UInt16)) :=
  if datagram.length > 10 then do
    let frag ← read datagram 2
    if frag = 0x00 then do
      let atyp ← read datagram 3
      if atyp = 0x01 then do
        let destHost ← readIpv4Text datagram 4
        let destPort ← readWord datagram 8
        readPayload datagram (4 + 6) destHost destPort
      else if atyp = 0x04 then
        if datagram.length ≥ 22 then do
          let destHost ← readIpv6Text datagram 4
          let destPort ← readWord datagram 20
          readPayload datagram (4 + 18) destHost destPort
        else return none
      else if atyp = 0x03 then
        if datagram.length ≥ 6 then do
          let domainLen ← read datagram 4
          if datagram.length ≥ 5 + domainLen.toNat + 2 then do
            let domain ← readBytes datagram 5 domainLen.toNat
            let destPort ← readWord datagram (5 + domainLen.toNat)
            readPayload datagram (4 + (1 + domainLen.toNat + 2)) ((decode domain).getD "unknown") destPort
          else return none
        else return none
      else return none
    else return none
  else return none

end Reading

def encapsulateSOCKS5UDP (P : AddressParsers) (datagram : List UInt8) (destHost : String) (destPort : UInt16) :
    Option (List UInt8) :=
  if datagram.length > 65507 then none
  else
    let header : List UInt8 := [0, 0, 0x00]
    match P.ipv4Address destHost with
    | some ipv4 => some (header ++ [0x01] ++ ipv4.toList ++ portBytes destPort ++ datagram)
    | none =>
      match P.ipv6Address destHost with
      | some ipv6 => some (header ++ [0x04] ++ ipv6.toList ++ portBytes destPort ++ datagram)
      | none =>
        let hostBytes := utf8Bytes destHost
        if hostBytes.length ≤ 255 then
          some (header ++ [0x03] ++ [hostBytes.length.toUInt8] ++ hostBytes ++ portBytes destPort ++ datagram)
        else none

/-! The reads that are made stay within the data. -/

theorem readWord_ok {data : List UInt8} {i : Nat} (h : i + 2 ≤ data.length) :
    readWord data i = .ok (wordAt data i) := by
  rw [readWord, read_getD (by omega), read_getD (by omega)]
  rfl

private theorem mapM_ok {α β : Type} {f : α → Except Fault β} {g : α → β} (l : List α) (h : ∀ x ∈ l, f x = .ok (g x)) :
    l.mapM f = .ok (l.map g) := by
  induction l with
  | nil => rfl
  | cons x l ih =>
    rw [List.mapM_cons, h x List.mem_cons_self, ih (fun y hy => h y (List.mem_cons_of_mem _ hy))]
    rfl

theorem readIpv4Text_ok {data : List UInt8} {i : Nat} (h : i + 4 ≤ data.length) :
    readIpv4Text data i = .ok (ipv4Text data i) := by
  rw [readIpv4Text, mapM_ok (g := fun k => toString (data.getD (i + k) 0).toNat)]
  · rfl
  · intro k hk
    have hlt := List.mem_range.mp hk
    rw [read_getD (by omega)]
    rfl

theorem readIpv6Text_ok {data : List UInt8} {i : Nat} (h : i + 16 ≤ data.length) :
    readIpv6Text data i = .ok (ipv6Text data i) := by
  rw [readIpv6Text, mapM_ok (g := fun k => hexadecimal (wordAt data (i + k * 2)).toNat)]
  · rfl
  · intro k hk
    have hlt := List.mem_range.mp hk
    rw [readWord_ok (by omega)]
    rfl

theorem readSOCKS5Address_ok (decode : List UInt8 → Option String) (data : List UInt8) (offset : Nat) :
    readSOCKS5Address decode data offset = .ok (parseSOCKS5Address decode data offset) := by
  unfold readSOCKS5Address parseSOCKS5Address
  by_cases hlen : data.length > offset
  · simp only [if_pos hlen]
    rw [read_getD (by omega), ok_bind]
    by_cases hipv4 : data.getD offset 0 = 0x01
    · simp only [if_pos hipv4]
      by_cases hroom : data.length ≥ offset + 7
      · simp only [if_pos hroom]
        rw [readIpv4Text_ok (by omega), readWord_ok (by omega)]
        rfl
      · simp only [if_neg hroom]
        rfl
    · simp only [if_neg hipv4]
      by_cases hipv6 : data.getD offset 0 = 0x04
      · simp only [if_pos hipv6]
        by_cases hroom : data.length ≥ offset + 19
        · simp only [if_pos hroom]
          rw [readIpv6Text_ok (by omega), readWord_ok (by omega)]
          rfl
        · simp only [if_neg hroom]
          rfl
      · simp only [if_neg hipv6]
        by_cases hdomain : data.getD offset 0 = 0x03
        · simp only [if_pos hdomain]
          by_cases hroom : data.length ≥ offset + 2
          · simp only [if_pos hroom]
            rw [read_getD (by omega), ok_bind]
            by_cases hname : data.length ≥ offset + 2 + (data.getD (offset + 1) 0).toNat + 2
            · simp only [if_pos hname]
              rw [readBytes_ok (by omega), readWord_ok (by omega)]
              rfl
            · simp only [if_neg hname]
              rfl
          · simp only [if_neg hroom]
            rfl
        · simp only [if_neg hdomain]
          rfl
  · simp only [if_neg hlen]
    rfl

theorem readPayload_ok (datagram : List UInt8) (headerLen : Nat) (destHost : String) (destPort : UInt16) :
    readPayload datagram headerLen destHost destPort = .ok (if datagram.length > headerLen then
      some (datagram.drop headerLen, destHost, destPort) else none) := by
  unfold readPayload
  by_cases h : datagram.length > headerLen
  · simp only [if_pos h]
    rw [readBytes_ok (by omega), List.take_of_length_le (by rw [List.length_drop])]
    rfl
  · simp only [if_neg h]
    rfl

theorem decapsulate_ok (decode : List UInt8 → Option String) (datagram : List UInt8) :
    ∃ r, decapsulateSOCKS5UDPWithEndpoint decode datagram = .ok r := by
  unfold decapsulateSOCKS5UDPWithEndpoint
  split
  · rw [read_getD (by omega), ok_bind]
    split
    · rw [read_getD (by omega), ok_bind]
      split
      · rw [readIpv4Text_ok (by omega), readWord_ok (by omega), ok_bind, ok_bind, readPayload_ok]
        exact ⟨_, rfl⟩
      · split
        · split
          · rw [readIpv6Text_ok (by omega), readWord_ok (by omega), ok_bind, ok_bind, readPayload_ok]
            exact ⟨_, rfl⟩
          · exact ⟨_, rfl⟩
        · split
          · split
            · rw [read_getD (by omega), ok_bind]
              split
              · rw [readBytes_ok (by omega), readWord_ok (by omega), ok_bind, ok_bind, readPayload_ok]
                exact ⟨_, rfl⟩
              · exact ⟨_, rfl⟩
            · exact ⟨_, rfl⟩
          · exact ⟨_, rfl⟩
    · exact ⟨_, rfl⟩
  · exact ⟨_, rfl⟩

/-! What the datagrams are for. -/

/-- What the parsers are relied on for: an address they read is read again from the text that the
extension writes for it, and a name is decoded from its own bytes. -/
structure AddressParsers.Reads (P : AddressParsers) (host : String) : Prop where
  ipv4 : ∀ raw, P.ipv4Address host = some raw → P.ipv4Address (ipv4Text raw.toList 0) = some raw
  ipv6 : ∀ raw, P.ipv6Address host = some raw → P.ipv6Address (ipv6Text raw.toList 0) = some raw
  name : P.decode (utf8Bytes host) = some host

def AddressParsers.IsDomain (P : AddressParsers) (host : String) : Prop :=
  P.ipv4Address host = none ∧ P.ipv6Address host = none

instance (P : AddressParsers) (host : String) : Decidable (P.IsDomain host) :=
  inferInstanceAs (Decidable (P.ipv4Address host = none ∧ P.ipv6Address host = none))

/-- The same address if the host is a literal, and else the same name. -/
def AddressParsers.SameHost (P : AddressParsers) (host host' : String) : Prop :=
  (∀ raw, P.ipv4Address host = some raw → P.ipv4Address host' = some raw) ∧
  (∀ raw, P.ipv4Address host = none → P.ipv6Address host = some raw → P.ipv6Address host' = some raw) ∧
  (P.IsDomain host → host' = host)

/-- A datagram for a host comes back with the same payload, port and host. -/
def RoundTrips (P : AddressParsers) (host : String) (port : UInt16) (payload : List UInt8) : Prop :=
  ∃ datagram host', encapsulateSOCKS5UDP P payload host port = some datagram ∧
    decapsulateSOCKS5UDPWithEndpoint P.decode datagram = .ok (some (payload, host', port)) ∧ P.SameHost host host'

theorem getD_behind (front data back : List UInt8) {j : Nat} (h : j < data.length) :
    (front ++ (data ++ back)).getD (front.length + j) 0 = data.getD j 0 := by
  rw [List.getD_eq_getElem?_getD, List.getD_eq_getElem?_getD, List.getElem?_append_right (Nat.le_add_right _ _),
    Nat.add_sub_cancel_left, List.getElem?_append_left h]

theorem wordAt_behind (front data back : List UInt8) {j : Nat} (h : j + 2 ≤ data.length) :
    wordAt (front ++ (data ++ back)) (front.length + j) = wordAt data j := by
  rw [wordAt, wordAt, Nat.add_assoc, getD_behind front data back (by omega), getD_behind front data back (by omega)]

theorem ipv4Text_behind (front data back : List UInt8) (h : data.length = 4) :
    ipv4Text (front ++ (data ++ back)) front.length = ipv4Text data 0 := by
  unfold ipv4Text
  refine congrArg (".".intercalate) ?_
  apply List.map_congr_left
  intro k hk
  have hlt := List.mem_range.mp hk
  rw [getD_behind front data back (by omega), Nat.zero_add]

theorem ipv6Text_behind (front data back : List UInt8) (h : data.length = 16) :
    ipv6Text (front ++ (data ++ back)) front.length = ipv6Text data 0 := by
  unfold ipv6Text
  refine congrArg (":".intercalate) ?_
  apply List.map_congr_left
  intro k hk
  have hlt := List.mem_range.mp hk
  rw [wordAt_behind front data back (by omega), Nat.zero_add]

theorem wordAt_portBytes (front : List UInt8) (port : UInt16) (back : List UInt8) :
    wordAt (front ++ (portBytes port ++ back)) front.length = port := by
  have hsplit : wordAt (portBytes port) 0 = port := Rfc1928.word_networkOrder port
  have hbehind := wordAt_behind front (portBytes port) back (j := 0) (Nat.le_refl 2)
  rwa [Nat.add_zero, hsplit] at hbehind

section Forms
variable (decode : List UInt8 → Option String) (port : UInt16) (payload : List UInt8)

private theorem decapsulate_ipv4 {raw : List UInt8} (hraw : raw.length = 4) :
    decapsulateSOCKS5UDPWithEndpoint decode ([0, 0, 0] ++ [1] ++ raw ++ portBytes port ++ payload) =
      .ok (if payload ≠ [] then some (payload, ipv4Text raw 0, port) else none) := by
  set datagram := [0, 0, 0] ++ [1] ++ raw ++ portBytes port ++ payload with hdatagram
  have hlen : datagram.length = 10 + payload.length := by
    simp [hdatagram, hraw, portBytes]
    omega
  have hfrag : datagram.getD 2 0 = 0 := by simp [hdatagram]
  have hatyp : datagram.getD 3 0 = 1 := by simp [hdatagram]
  have hhost : ipv4Text datagram 4 = ipv4Text raw 0 := by
    rw [hdatagram, List.append_assoc, List.append_assoc _ raw]
    exact ipv4Text_behind ([0, 0, 0] ++ [1]) raw (portBytes port ++ payload) hraw
  have hport : wordAt datagram 8 = port := by
    have hbehind := wordAt_portBytes ([0, 0, 0] ++ [1] ++ raw) port payload
    rw [← List.append_assoc, List.length_append, hraw] at hbehind
    exact hbehind
  have hdrop : datagram.drop 10 = payload := by
    apply List.drop_left'
    simp [hraw, portBytes]
  have hpayload : datagram.length > 10 ↔ payload ≠ [] := by
    rw [hlen, ← List.length_pos_iff]
    omega
  unfold decapsulateSOCKS5UDPWithEndpoint
  by_cases hshort : datagram.length > 10
  · simp only [if_pos hshort]
    rw [read_getD (by omega), ok_bind, hfrag, if_pos rfl, read_getD (by omega), ok_bind, hatyp, if_pos rfl,
      readIpv4Text_ok (by omega), ok_bind, readWord_ok (by omega), ok_bind, readPayload_ok, hhost, hport, hdrop,
      if_pos hshort, if_pos (hpayload.mp hshort)]
  · simp only [if_neg hshort]
    rw [if_neg (fun h => hshort (hpayload.mpr h))]
    rfl

private theorem decapsulate_ipv6 {raw : List UInt8} (hraw : raw.length = 16) :
    decapsulateSOCKS5UDPWithEndpoint decode ([0, 0, 0] ++ [4] ++ raw ++ portBytes port ++ payload) =
      .ok (if payload ≠ [] then some (payload, ipv6Text raw 0, port) else none) := by
  set datagram := [0, 0, 0] ++ [4] ++ raw ++ portBytes port ++ payload with hdatagram
  have hlen : datagram.length = 22 + payload.length := by
    simp [hdatagram, hraw, portBytes]
    omega
  have hfrag : datagram.getD 2 0 = 0 := by simp [hdatagram]
  have hatyp : datagram.getD 3 0 = 4 := by simp [hdatagram]
  have hhost : ipv6Text datagram 4 = ipv6Text raw 0 := by
    rw [hdatagram, List.append_assoc, List.append_assoc _ raw]
    exact ipv6Text_behind ([0, 0, 0] ++ [4]) raw (portBytes port ++ payload) hraw
  have hport : wordAt datagram 20 = port := by
    have hbehind := wordAt_portBytes ([0, 0, 0] ++ [4] ++ raw) port payload
    rw [← List.append_assoc, List.length_append, hraw] at hbehind
    exact hbehind
  have hdrop : datagram.drop 22 = payload := by
    apply List.drop_left'
    simp [hraw, portBytes]
  have hpayload : datagram.length > 22 ↔ payload ≠ [] := by
    rw [hlen, ← List.length_pos_iff]
    omega
  have hshort : datagram.length > 10 := by omega
  have hroom : datagram.length ≥ 22 := by omega
  unfold decapsulateSOCKS5UDPWithEndpoint
  simp only [if_pos hshort, if_pos hroom]
  rw [read_getD (by omega), ok_bind, hfrag, if_pos rfl, read_getD (by omega), ok_bind, hatyp,
    if_neg (by decide), if_pos rfl, readIpv6Text_ok (by omega), ok_bind, readWord_ok (by omega), ok_bind,
    readPayload_ok, hhost, hport]
  simp only [hpayload, hdrop]

private theorem decapsulate_domain {name : List UInt8} (hname : name.length ≤ 255) :
    decapsulateSOCKS5UDPWithEndpoint decode
        ([0, 0, 0] ++ [3] ++ [name.length.toUInt8] ++ name ++ portBytes port ++ payload) =
      .ok (if payload ≠ [] ∧ 4 ≤ name.length + payload.length then
        some (payload, (decode name).getD "unknown", port) else none) := by
  set datagram := [0, 0, 0] ++ [3] ++ [name.length.toUInt8] ++ name ++ portBytes port ++ payload with hdatagram
  have hnameLen : name.length.toUInt8.toNat = name.length := Nat.mod_eq_of_lt (Nat.lt_succ_of_le hname)
  have hlen : datagram.length = 7 + name.length + payload.length := by
    simp [hdatagram, portBytes]
    omega
  have hfrag : datagram.getD 2 0 = 0 := by simp [hdatagram]
  have hatyp : datagram.getD 3 0 = 3 := by simp [hdatagram]
  have hdomainLen : (datagram.getD 4 0).toNat = name.length := by
    rw [← hnameLen]
    simp [hdatagram]
  have hhost : (datagram.drop 5).take name.length = name := by
    simp [hdatagram]
  have hport : wordAt datagram (5 + name.length) = port := by
    have hbehind := wordAt_portBytes ([0, 0, 0] ++ [3] ++ [name.length.toUInt8] ++ name) port payload
    rw [← List.append_assoc, List.length_append] at hbehind
    exact hbehind
  have hdrop : datagram.drop (4 + (1 + name.length + 2)) = payload := by
    apply List.drop_left'
    simp [portBytes]
    omega
  have hpayload : datagram.length > 4 + (1 + name.length + 2) ↔ payload ≠ [] := by
    rw [hlen, ← List.length_pos_iff]
    omega
  unfold decapsulateSOCKS5UDPWithEndpoint
  by_cases hshort : datagram.length > 10
  · have hlong : 4 ≤ name.length + payload.length := by omega
    have hroom : datagram.length ≥ 6 := by omega
    have hfits : datagram.length ≥ 5 + name.length + 2 := by omega
    simp only [if_pos hshort, if_pos hroom]
    rw [read_getD (by omega), ok_bind, hfrag, if_pos rfl, read_getD (by omega), ok_bind, hatyp,
      if_neg (by decide), if_neg (by decide), if_pos rfl, read_getD (by omega), ok_bind, hdomainLen, if_pos hfits,
      readBytes_ok (by omega), ok_bind, readWord_ok (by omega), ok_bind, readPayload_ok, hhost, hport]
    simp only [hpayload, hdrop, hlong, and_true]
  · simp only [if_neg hshort]
    rw [if_neg (by omega)]
    rfl

end Forms

/-- What comes back from the datagram for a literal or a name. -/
private theorem decapsulate_encapsulate (P : AddressParsers) (host : String) (port : UInt16) (payload : List UInt8)
    (hP : P.Reads host) (hname : P.IsDomain host → (utf8Bytes host).length ≤ 255) (hpayload : payload.length ≤ 65507) :
    ∃ datagram host', encapsulateSOCKS5UDP P payload host port = some datagram ∧ P.SameHost host host' ∧
      decapsulateSOCKS5UDPWithEndpoint P.decode datagram =
        .ok (if payload ≠ [] ∧ (P.IsDomain host → 4 ≤ (utf8Bytes host).length + payload.length) then
          some (payload, host', port) else none) := by
  have hlong : ¬ payload.length > 65507 := Nat.not_lt.mpr hpayload
  unfold encapsulateSOCKS5UDP
  rw [if_neg hlong]
  cases hipv4 : P.ipv4Address host with
  | some raw =>
    have hdomain : ¬ P.IsDomain host := fun h => nomatch hipv4.symm.trans h.1
    refine ⟨_, ipv4Text raw.toList 0, rfl, ⟨fun raw' h => ?_, fun raw' h => ?_, fun h => absurd h hdomain⟩, ?_⟩
    · exact hP.ipv4 raw' h ▸ (Option.some.inj (hipv4.symm.trans h) ▸ rfl)
    · rw [hipv4] at h
      cases h
    · rw [decapsulate_ipv4 _ _ _ (Vector.length_toList ..)]
      simp only [hdomain, false_implies, and_true]
  | none =>
    cases hipv6 : P.ipv6Address host with
    | some raw =>
      have hdomain : ¬ P.IsDomain host := fun h => nomatch hipv6.symm.trans h.2
      refine ⟨_, ipv6Text raw.toList 0, rfl, ⟨fun raw' h => ?_, fun raw' _ h => ?_, fun h => absurd h hdomain⟩, ?_⟩
      · rw [hipv4] at h
        cases h
      · exact hP.ipv6 raw' h ▸ (Option.some.inj (hipv6.symm.trans h) ▸ rfl)
      · rw [decapsulate_ipv6 _ _ _ (Vector.length_toList ..)]
        simp only [hdomain, false_implies, and_true]
    | none =>
      have hdomain : P.IsDomain host := ⟨hipv4, hipv6⟩
      refine ⟨_, host, if_pos (hname hdomain), ⟨fun raw' h => ?_, fun raw' _ h => ?_, fun _ => rfl⟩, ?_⟩
      · rw [hipv4] at h
        cases h
      · rw [hipv6] at h
        cases h
      · rw [decapsulate_domain _ _ _ (hname hdomain), hP.name]
        simp only [hdomain, true_implies, Option.getD_some]

/-- A datagram comes back as it went out exactly if its payload is not empty and, for a name, has
four bytes together with the name. No index is out of bounds, whatever was received. -/
theorem udp_encapsulation_round_trips_iff (P : AddressParsers) (host : String) (port : UInt16) (payload : List UInt8)
    (hP : P.Reads host) (hname : P.IsDomain host → utf8Bytes host ≠ [] ∧ (utf8Bytes host).length ≤ 255)
    (hpayload : payload.length ≤ 65507) :
    (RoundTrips P host port payload ↔
      payload ≠ [] ∧ (P.IsDomain host → 4 ≤ (utf8Bytes host).length + payload.length)) ∧
    (∀ datagram, ∃ r, decapsulateSOCKS5UDPWithEndpoint P.decode datagram = .ok r) ∧
    ∀ data offset, readSOCKS5Address P.decode data offset = .ok (parseSOCKS5Address P.decode data offset) := by
  refine ⟨?_, decapsulate_ok P.decode, readSOCKS5Address_ok P.decode⟩
  obtain ⟨datagram, host', hsent, hsame, hback⟩ :=
    decapsulate_encapsulate P host port payload hP (fun h => (hname h).2) hpayload
  constructor
  · rintro ⟨datagram', host'', hsent', hback', _⟩
    obtain rfl := Option.some.inj (hsent.symm.trans hsent')
    by_contra hshort
    rw [hback, if_neg hshort] at hback'
    cases Except.ok.inj hback'
  · intro hlong
    rw [if_pos hlong] at hback
    exact ⟨datagram, host', hsent, hback, hsame⟩

/-- Parsers that know one address and one name. -/
def oneAddress : AddressParsers where
  ipv4Address s := if s = "1.2.3.4" then some #v[1, 2, 3, 4] else none
  ipv6Address _ := none
  decode bytes := if bytes = utf8Bytes "1.2.3.4" then some "1.2.3.4" else if bytes = [97] then some "a" else none

theorem oneAddress_reads : oneAddress.Reads "1.2.3.4" where
  ipv4 raw h := by
    have hraw : oneAddress.ipv4Address "1.2.3.4" = some #v[1, 2, 3, 4] := rfl
    obtain rfl := Option.some.inj (hraw.symm.trans h)
    decide
  ipv6 raw h := nomatch h
  name := by decide

theorem udp_encapsulation_round_trips_iff_at : RoundTrips oneAddress "1.2.3.4" 53 [7] := by
  refine (udp_encapsulation_round_trips_iff oneAddress "1.2.3.4" 53 [7] oneAddress_reads ?_ (by decide)).1.mpr ?_
  · rintro ⟨h, _⟩
    exact absurd h (by decide)
  · refine ⟨by decide, ?_⟩
    rintro ⟨h, _⟩
    exact absurd h (by decide)

/-- Two bytes for a host with a name of one byte are dropped on their way back. -/
theorem udp_encapsulation_drops_short : ¬ RoundTrips oneAddress "a" 53 [1, 2] := by
  rintro ⟨datagram, host', hsent, hback, _⟩
  obtain rfl := Option.some.inj hsent
  have hdropped : decapsulateSOCKS5UDPWithEndpoint oneAddress.decode [0, 0, 0, 3, 1, 97, 0, 53, 1, 2] = .ok none := by
    decide
  cases Except.ok.inj (hback.symm.trans hdropped)

end ProxyBridge.Handshake
