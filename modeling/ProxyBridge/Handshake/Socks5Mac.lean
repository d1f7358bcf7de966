import ProxyBridge.Handshake.Socks5Connect

/-! The SOCKS5 replies on macOS. Each handler makes one read with a least and a greatest length and
takes what it returned for the reply. -/
namespace ProxyBridge.Handshake
open ByteStreams

/-- The connection that is handed to `relayData`, if it is reached. -/
def sendSOCKS5ConnectRequest (requestSent : Bool) (i : Inbox UInt8) : Option (Inbox UInt8) :=
  if !requestSent then none
  else
    let data := (i.readMinimum 10 512).1
    if data.length ≥ 10 ∧ data[0]? = some 0x05 ∧ data[1]? = some 0x00 then some (i.readMinimum 10 512).2 else none

/-- What is written to the client flow until the proxy closes. -/
def relayProxyToClient (i : Inbox UInt8) : List UInt8 := i.drain 65536

def socksReplyReason (rep : UInt8) : String :=
  match rep.toNat with
  | 0x01 => "general failure"
  | 0x02 => "not allowed by ruleset"
  | 0x03 => "network unreachable"
  | 0x04 => "host unreachable"
  | 0x05 => "connection refused"
  | 0x06 => "TTL expired"
  | 0x07 => "command not supported"
  | 0x08 => "address type not supported"
  | _ => "unknown"

def hexadecimal (n : Nat) : String := String.ofList (Nat.toDigits 16 n)

section Swift
variable (decode : List UInt8 → Option String)

def wordAt (data : List UInt8) (i : Nat) : UInt16 := (data.getD i 0).toUInt16 <<< 8 ||| (data.getD (i + 1) 0).toUInt16

/-- `decode` is `String(data:encoding:)` for UTF-8. -/
def parseSOCKS5Address (data : List UInt8) (offset : Nat) : String × UInt16 :=
  if data.length > offset then
    let atyp := data.getD offset 0
    if atyp = 0x01 then
      if data.length ≥ offset + 7 then
        (".".intercalate ((List.range 4).map fun i => toString (data.getD (offset + 1 + i) 0).toNat),
          wordAt data (offset + 5))
      else ("0.0.0.0", 0)
    else if atyp = 0x04 then
      if data.length ≥ offset + 19 then
        (":".intercalate ((List.range 8).map fun i => hexadecimal (wordAt data (offset + 1 + i * 2)).toNat),
          wordAt data (offset + 17))
      else ("0.0.0.0", 0)
    else if atyp = 0x03 then
      if data.length ≥ offset + 2 then
        let len := (data.getD (offset + 1) 0).toNat
        if data.length ≥ offset + 2 + len + 2 then
          ((decode ((data.drop (offset + 2)).take len)).getD "unknown", wordAt data (offset + 2 + len))
        else ("0.0.0.0", 0)
      else ("0.0.0.0", 0)
    else ("0.0.0.0", 0)
  else ("0.0.0.0", 0)

/-- The endpoint of the relay, or what the failed handshake is logged with. `failure` is the error with
which reading ends, if it does not end with a close. -/
def sendSOCKS5UDPAssociate (socksHost : String) (failure : Option String) (i : Inbox UInt8) :
    Except String (String × UInt16) :=
  let data := (i.readMinimum 2 512).1
  match (if data.length < 2 then failure else none) with
  | some error => .error ("SOCKS5 UDP ASSOCIATE response error: " ++ error)
  | none =>
    if ¬(data.length ≥ 2 ∧ data[0]? = some 0x05) then
      .error ("SOCKS5 UDP ASSOCIATE bad reply (" ++ toString data.length ++ " bytes)")
    else
      let rep := data.getD 1 0
      if rep ≠ 0x00 then
        .error ("SOCKS5 UDP ASSOCIATE rejected, REP=0x" ++ (if rep < 16 then "0" else "") ++ hexadecimal rep.toNat ++
          " (" ++ socksReplyReason rep ++ ")")
      else if ¬ data.length ≥ 10 then
        .error ("SOCKS5 UDP ASSOCIATE reply too short (" ++ toString data.length ++ " bytes)")
      else
        let parsed := parseSOCKS5Address decode data 3
        let relayHost := if parsed.1 = "0.0.0.0" ∨ parsed.1 = "::" ∨ parsed.1.isEmpty then socksHost else parsed.1
        if parsed.2 = 0 then .error "SOCKS5 UDP ASSOCIATE returned no relay port"
        else .ok (relayHost, parsed.2)

end Swift

/-! What the handlers are for. -/

/-- The relay starts exactly on a successful reply, and the client gets exactly what follows it. -/
def RelaysAfterReply (i : Inbox UInt8) : Prop :=
  ∀ rest, (sendSOCKS5ConnectRequest true i).map relayProxyToClient = some rest ↔
    ∃ reply, ConnectReply reply ∧ i.bytes = reply ++ rest

/-- The endpoint depends on the stream alone. -/
def AssociatesByStream (decode : List UInt8 → Option String) (socksHost : String) (stream : List UInt8) : Prop :=
  ∀ i j : Inbox UInt8, i.bytes = stream → j.bytes = stream → ∀ failure,
    (sendSOCKS5UDPAssociate decode socksHost failure i).toOption =
      (sendSOCKS5UDPAssociate decode socksHost failure j).toOption

/-- Enough bytes, of which the first two say that a request succeeded. -/
def LooksSuccessful (stream : List UInt8) : Prop := 10 ≤ stream.length ∧ stream[0]? = some 5 ∧ stream[1]? = some 0

/-- The read returns a successful reply, no more and no less. -/
def ReadsReplyAlone (i : Inbox UInt8) : Prop :=
  ConnectReply (i.readMinimum 10 512).1 ∧ 10 ≤ (i.readMinimum 10 512).1.length

def StartsWithReply (stream : List UInt8) : Prop := ∃ reply rest, ConnectReply reply ∧ stream = reply ++ rest

/-- The stream starts with a successful reply that names a port. -/
def OffersRelay (stream : List UInt8) : Prop :=
  10 ≤ stream.length ∧
    ∃ reply rest, ConnectReply reply ∧ stream = reply ++ rest ∧ wordAt reply (reply.length - 2) ≠ 0

private theorem looksSuccessful_append (data rest : List UInt8) (h : 10 ≤ data.length) :
    LooksSuccessful (data ++ rest) ↔ data.length ≥ 10 ∧ data[0]? = some 0x05 ∧ data[1]? = some 0x00 := by
  have hlen : 10 ≤ (data ++ rest).length := by
    rw [List.length_append]
    omega
  rw [LooksSuccessful, List.getElem?_append_left (by omega), List.getElem?_append_left (by omega)]
  exact and_congr_left fun _ => ⟨fun _ => h, fun _ => hlen⟩

private theorem ConnectReply.first_bytes {reply : List UInt8} (h : ConnectReply reply) :
    reply[0]? = some 5 ∧ reply[1]? = some 0 := by
  cases h <;> exact ⟨rfl, rfl⟩

private theorem ConnectReply.length_le {reply : List UInt8} (h : ConnectReply reply) :
    7 ≤ reply.length ∧ reply.length ≤ 262 := by
  cases h with
  | ipv4 rsv addr port haddr hport => simp [haddr, hport]
  | ipv6 rsv addr port haddr hport => simp [haddr, hport]
  | domain rsv dlen name port hname hport =>
    have := dlen.toNat_lt
    simp only [List.length_append, List.length_cons, List.length_nil, hname, hport]
    omega

/-- What follows a reply is determined by the stream. -/
private theorem rest_unique {stream r₁ r₂ s₁ s₂ : List UInt8} (h₁ : ConnectReply r₁) (h₂ : ConnectReply r₂)
    (e₁ : stream = r₁ ++ s₁) (e₂ : stream = r₂ ++ s₂) : s₁ = s₂ := by
  obtain ⟨n, hn, -, he⟩ := (exists_connectReply_iff stream s₁).mp ⟨r₁, h₁, e₁⟩
  obtain ⟨m, hm, -, he'⟩ := (exists_connectReply_iff stream s₂).mp ⟨r₂, h₂, e₂⟩
  obtain rfl := Option.some.inj (hn.symm.trans hm)
  exact he.trans he'.symm

private theorem sendSOCKS5ConnectRequest_eq (i : Inbox UInt8) [Decidable (LooksSuccessful i.bytes)] :
    (sendSOCKS5ConnectRequest true i).map relayProxyToClient =
      if LooksSuccessful i.bytes then some (i.readMinimum 10 512).2.bytes else none := by
  have hall := i.readMinimum_append 10 512
  have hlook : LooksSuccessful i.bytes ↔ (i.readMinimum 10 512).1.length ≥ 10 ∧
      (i.readMinimum 10 512).1[0]? = some 0x05 ∧ (i.readMinimum 10 512).1[1]? = some 0x00 := by
    by_cases h : 10 ≤ i.bytes.length
    · have := looksSuccessful_append _ (i.readMinimum 10 512).2.bytes
        (Inbox.le_readMinimum_length (by decide : 10 ≤ 512) h)
      rwa [hall] at this
    · have hle : (i.readMinimum 10 512).1.length ≤ i.bytes.length := by
        rw [← hall, List.length_append]
        omega
      exact ⟨fun hl => (h hl.1).elim, fun hd => (h (by omega)).elim⟩
  simp only [sendSOCKS5ConnectRequest, Bool.not_true, Bool.false_eq_true, if_false, ← hlook]
  split
  · exact congrArg some (Inbox.drain_eq (by decide) _)
  · rfl

private theorem relaysAfterReply_iff (i : Inbox UInt8) :
    RelaysAfterReply i ↔ ReadsReplyAlone i ∨ (¬ StartsWithReply i.bytes ∧ ¬ LooksSuccessful i.bytes) := by
  classical
  have hall := i.readMinimum_append 10 512
  unfold RelaysAfterReply
  rw [sendSOCKS5ConnectRequest_eq]
  by_cases hlook : LooksSuccessful i.bytes
  · simp only [hlook, if_true, not_true, and_false, or_false, Option.some.injEq]
    have hlen := Inbox.le_readMinimum_length (by decide : 10 ≤ 512) hlook.1
    constructor
    · intro h
      obtain ⟨reply, hreply, he⟩ := (h _).mp rfl
      obtain rfl : (i.readMinimum 10 512).1 = reply := List.append_cancel_right (hall.trans he)
      exact ⟨hreply, hlen⟩
    · intro ⟨hreply, _⟩ rest
      refine ⟨fun hr => ⟨_, hreply, hr ▸ hall.symm⟩, fun ⟨reply, hreply', he⟩ => ?_⟩
      exact rest_unique hreply hreply' hall.symm he
  · simp only [hlook, if_false, not_false_eq_true, and_true]
    constructor
    · intro h
      refine Or.inr fun ⟨reply, rest, hreply, he⟩ => ?_
      cases (h rest).mpr ⟨reply, hreply, he⟩
    · rintro (⟨hreply, hlen⟩ | hno) rest
      · refine (hlook ?_).elim
        rw [← hall]
        exact (looksSuccessful_append _ _ hlen).mpr ⟨hlen, hreply.first_bytes⟩
      · exact ⟨fun hr => (nomatch hr), fun ⟨reply, hreply, he⟩ => (hno ⟨reply, rest, hreply, he⟩).elim⟩

private theorem parseSOCKS5Address_port (decode : List UInt8 → Option String) (rsv atyp : UInt8) (rest : List UInt8) :
    (parseSOCKS5Address decode (5 :: 0 :: rsv :: atyp :: rest) 3).2 =
      ((replyLength (5 :: 0 :: rsv :: atyp :: rest)).map fun n =>
        if n ≤ rest.length + 4 then wordAt (5 :: 0 :: rsv :: atyp :: rest) (n - 2) else 0).getD 0 := by
  have hlen : (5 :: 0 :: rsv :: atyp :: rest).length = rest.length + 4 := rfl
  have hatyp : (5 :: 0 :: rsv :: atyp :: rest).getD 3 0 = atyp := rfl
  have hlong : rest.length + 4 > 3 := by omega
  simp only [parseSOCKS5Address, replyLength, hlen, hatyp, hlong, if_true, ge_iff_le, ne_eq, not_true, or_self,
    if_false]
  by_cases h1 : atyp = 1
  · simp only [h1, if_true, Option.map_some, Option.getD_some]
    split <;> rfl
  by_cases h4 : atyp = 4
  · subst h4
    simp only [h1, if_true, if_false, Option.map_some, Option.getD_some]
    split <;> rfl
  by_cases h3 : atyp = 3
  · subst h3
    cases rest with
    | nil => simp
    | cons dlen rest =>
      have hdlen : (5 :: 0 :: rsv :: 3 :: dlen :: rest).getD (3 + 1) 0 = dlen := rfl
      have hport : 7 + dlen.toNat - 2 = 3 + 2 + dlen.toNat := by omega
      have hneed : 3 + 2 + dlen.toNat + 2 = 7 + dlen.toNat := by omega
      have htwo : 3 + 2 ≤ (dlen :: rest).length + 4 := by simp
      simp only [h1, h4, if_false, if_true, hdlen, htwo, hneed, hport, List.head?_cons, Option.map_some,
        Option.getD_some]
      split <;> rfl
  · simp only [h1, h4, h3, if_false]
    rfl

private theorem getD_append_of_lt {a b : List UInt8} {n : Nat} (h : n < a.length) :
    (a ++ b).getD n 0 = a.getD n 0 := by
  rw [List.getD_eq_getElem?_getD, List.getElem?_append_left h, List.getD_eq_getElem?_getD]

/-- The port of a reply is where the length of the reply says. -/
private theorem wordAt_reply {reply : List UInt8} (h : ConnectReply reply) (rest : List UInt8) :
    wordAt (reply ++ rest) (reply.length - 2) = wordAt reply (reply.length - 2) := by
  have hlen := h.length_le.1
  rw [wordAt, wordAt, getD_append_of_lt (by omega), getD_append_of_lt (by omega)]

private theorem looksSuccessful_cons {data : List UInt8} (h : LooksSuccessful data) :
    ∃ rsv atyp rest, data = 5 :: 0 :: rsv :: atyp :: rest := by
  obtain ⟨hlen, h0, h1⟩ := h
  match data, hlen, h0, h1 with
  | _ :: _ :: rsv :: atyp :: rest, _, h0, h1 =>
    obtain rfl := Option.some.inj h0
    obtain rfl := Option.some.inj h1
    exact ⟨rsv, atyp, rest, rfl⟩

/-- The handler finds a port in what it read exactly when that starts with a reply that names one. -/
private theorem offersRelay_iff (decode : List UInt8 → Option String) (data : List UInt8) :
    OffersRelay data ↔ LooksSuccessful data ∧ (parseSOCKS5Address decode data 3).2 ≠ 0 := by
  constructor
  · rintro ⟨hlen, reply, rest, hreply, rfl, hport⟩
    have hlook : LooksSuccessful (reply ++ rest) := by
      have h7 := hreply.length_le.1
      rw [LooksSuccessful, List.getElem?_append_left (by omega), List.getElem?_append_left (by omega)]
      exact ⟨hlen, hreply.first_bytes⟩
    refine ⟨hlook, ?_⟩
    obtain ⟨n, hn, hle, hdrop⟩ := (exists_connectReply_iff (reply ++ rest) rest).mp ⟨reply, hreply, rfl⟩
    have hreplyLength : n = reply.length := by
      have := congrArg List.length hdrop
      rw [List.length_drop, List.length_append] at this
      rw [List.length_append] at hle
      omega
    rw [← wordAt_reply hreply rest, ← hreplyLength] at hport
    obtain ⟨rsv, atyp, tail, he⟩ := looksSuccessful_cons hlook
    rw [he] at hn hle hport ⊢
    have hle' : n ≤ tail.length + 4 := hle
    rw [parseSOCKS5Address_port, hn, Option.map_some, Option.getD_some, if_pos hle']
    exact hport
  · rintro ⟨hlook, hport⟩
    obtain ⟨rsv, atyp, tail, rfl⟩ := looksSuccessful_cons hlook
    rw [parseSOCKS5Address_port] at hport
    cases hn : replyLength (5 :: 0 :: rsv :: atyp :: tail) with
    | none => exact (hport (by rw [hn]; rfl)).elim
    | some n =>
      rw [hn, Option.map_some, Option.getD_some] at hport
      by_cases hle : n ≤ tail.length + 4
      · rw [if_pos hle] at hport
        obtain ⟨reply, hreply, he⟩ := (exists_connectReply_iff _ _).mpr ⟨n, hn, hle, rfl⟩
        have hreplyLength : reply.length = n := by
          have := congrArg List.length he
          rw [List.length_append, List.length_drop] at this
          simp only [List.length_cons] at this
          omega
        refine ⟨hlook.1, reply, _, hreply, he, ?_⟩
        rw [← wordAt_reply hreply _, ← he, hreplyLength]
        exact hport
      · rw [if_neg hle] at hport
        exact (hport rfl).elim

private theorem OffersRelay.append {data : List UInt8} (h : OffersRelay data) (rest : List UInt8) :
    OffersRelay (data ++ rest) := by
  obtain ⟨hlen, reply, tail, hreply, rfl, hport⟩ := h
  rw [List.append_assoc] at *
  exact ⟨by simp only [List.length_append] at hlen ⊢; omega, reply, tail ++ rest, hreply, rfl, hport⟩

private theorem OffersRelay.take {stream : List UInt8} (h : OffersRelay stream) : OffersRelay (stream.take 512) := by
  obtain ⟨hlen, reply, rest, hreply, rfl, hport⟩ := h
  have hle := hreply.length_le.2
  refine ⟨by rw [List.length_take]; omega, reply, rest.take (512 - reply.length), hreply, ?_, hport⟩
  rw [List.take_append, List.take_of_length_le (by omega)]

/-- Acceptance as a property of what was read. -/
private theorem associate_eq_none_iff (decode : List UInt8 → Option String) (socksHost : String)
    (failure : Option String) (i : Inbox UInt8) :
    (sendSOCKS5UDPAssociate decode socksHost failure i).toOption = none ↔
      ¬ OffersRelay (i.readMinimum 2 512).1 := by
  rw [offersRelay_iff decode, LooksSuccessful]
  unfold sendSOCKS5UDPAssociate
  generalize (i.readMinimum 2 512).1 = data
  have hrep : data.length ≥ 2 → (data[1]? = some 0 ↔ data.getD 1 0 = 0) := by
    intro h
    rw [List.getD_eq_getElem?_getD, List.getElem?_eq_getElem (by omega)]
    simp
  dsimp only
  split
  · rename_i error herror
    by_cases hlen : data.length < 2
    · exact ⟨fun _ h => by have := h.1.1; omega, fun _ => rfl⟩
    · rw [if_neg hlen] at herror
      cases herror
  split
  · rename_i hbad
    exact ⟨fun _ h => hbad ⟨by have := h.1.1; omega, h.1.2.1⟩, fun _ => rfl⟩
  rename_i hgood
  obtain ⟨htwo, hver⟩ := not_not.mp hgood
  split
  · rename_i hbad
    exact ⟨fun _ h => hbad ((hrep htwo).mp h.1.2.2), fun _ => rfl⟩
  rename_i hok
  split
  · rename_i hbad
    exact ⟨fun _ h => hbad h.1.1, fun _ => rfl⟩
  rename_i hlen
  split
  · rename_i hbad
    exact ⟨fun _ h => h.2 hbad, fun _ => rfl⟩
  · rename_i hport
    refine ⟨fun h => (nomatch h), fun h => (h ⟨⟨not_not.mp hlen, hver, (hrep htwo).mpr (not_not.mp hok)⟩, hport⟩).elim⟩

private theorem associatesByStream_iff (decode : List UInt8 → Option String) (socksHost : String)
    (stream : List UInt8) : AssociatesByStream decode socksHost stream ↔ ¬ OffersRelay stream := by
  constructor
  · intro h hoffers
    have hlen := hoffers.1
    have htake : stream.take 2 ≠ [] := by
      intro he
      have := congrArg List.length he
      rw [List.length_take, List.length_nil] at this
      omega
    have hdrop : stream.drop 2 ≠ [] := by
      intro he
      have := congrArg List.length he
      rw [List.length_drop, List.length_nil] at this
      omega
    have hne : stream ≠ [] := fun he => by simp [he] at hlen
    let cut : Inbox UInt8 := ⟨[stream.take 2, stream.drop 2], by simp [htake.symm, hdrop.symm]⟩
    let whole : Inbox UInt8 := ⟨[stream], by simp [hne.symm]⟩
    have hcut : (sendSOCKS5UDPAssociate decode socksHost none cut).toOption = none := by
      rw [associate_eq_none_iff, Inbox.readMinimum_first 512 _ (by decide) (by rw [List.length_take]; omega)]
      intro hread
      have hten := hread.1
      simp only [List.length_take] at hten
      omega
    have hwhole : (sendSOCKS5UDPAssociate decode socksHost none whole).toOption ≠ none := by
      rw [Ne, associate_eq_none_iff, Inbox.readMinimum_first 512 _ (by decide) (by omega)]
      exact not_not.mpr hoffers.take
    apply hwhole
    rw [h whole cut (by simp [Inbox.bytes, whole]) (by simp [Inbox.bytes, cut]) none]
    exact hcut
  · intro hno i j hi hj failure
    have hnone : ∀ k : Inbox UInt8, k.bytes = stream →
        (sendSOCKS5UDPAssociate decode socksHost failure k).toOption = none := by
      intro k hk
      rw [associate_eq_none_iff]
      intro hread
      exact hno (hk ▸ k.readMinimum_append 2 512 ▸ hread.append _)
    rw [hnone i hi, hnone j hj]

/-- The relay starts rightly exactly when the one read returned the reply alone, or neither the reply
nor its look is there; the association is independent of the segments exactly when it always fails. -/
theorem socks5_handlers_right_iff_read_alone (decode : List UInt8 → Option String) (socksHost : String) :
    (∀ i, RelaysAfterReply i ↔
      ReadsReplyAlone i ∨ (¬ StartsWithReply i.bytes ∧ ¬ LooksSuccessful i.bytes)) ∧
    (∀ stream, AssociatesByStream decode socksHost stream ↔ ¬ OffersRelay stream) :=
  ⟨relaysAfterReply_iff, associatesByStream_iff decode socksHost⟩

/-- A reply with an IPv6 address, cut after ten bytes. -/
def cutReply : Inbox UInt8 :=
  ⟨[[5, 0, 0, 4, 0, 0, 0, 0, 0, 0], [0, 0, 0, 0, 0, 0, 0, 0, 0, 1, 4, 210]], by decide⟩

/-- A reply that the first byte of the tunnel follows at once. -/
def followedReply : Inbox UInt8 := ⟨[[5, 0, 0, 1, 127, 0, 0, 1, 4, 210, 72]], by decide⟩

/-- The rest of the cut reply reaches the client, the byte of the tunnel does not, and the association
fails where the same bytes in one segment make it. -/
theorem cut_and_followed_replies_misread :
    ¬ RelaysAfterReply cutReply ∧ ¬ RelaysAfterReply followedReply ∧
      ¬ ∀ stream, AssociatesByStream (fun _ => none) "localhost" stream := by
  refine ⟨fun h => ?_, fun h => ?_, fun h => ?_⟩
  · have hrelay := (h []).mpr ⟨_, ConnectReply.ipv6 0 (List.replicate 15 0 ++ [1]) [4, 210] rfl rfl, rfl⟩
    exact absurd hrelay (by decide)
  · have hrelay := (h [72]).mpr ⟨_, ConnectReply.ipv4 0 [127, 0, 0, 1] [4, 210] rfl rfl, rfl⟩
    exact absurd hrelay (by decide)
  · have hsame :=
      h followedReply.bytes followedReply ⟨[[5, 0], [0, 1, 127, 0, 0, 1, 4, 210, 72]], by decide⟩ rfl rfl none
    exact absurd (congrArg Option.isSome hsame) (by decide)

end ProxyBridge.Handshake
