import ProxyBridge.Library.CStrings

/-! The answer of an HTTP proxy to CONNECT, as `http_connect`, `http_connect_v6` and the macOS
`handleHTTPProxy` read it: each makes one read and looks at what that read returned. -/
namespace ProxyBridge.Handshake
open CStrings

/-- What a proxy sends in all, and how much of it has arrived when the first read returns. A read
waits until there is something to return. -/
structure Incoming where
  stream : List UInt8
  arrived : Nat
  arrived_pos : 0 < arrived

namespace Incoming
variable (i : Incoming)

/-- The bytes that a read of at most `max` bytes returns; none after the end of the stream. -/
def read (max : Nat) : List UInt8 := i.stream.take (min i.arrived max)

/-- What is left for the relay after that read. -/
def left (max : Nat) : List UInt8 := i.stream.drop (min i.arrived max)

end Incoming

/-- The text up to the first zero byte, in a buffer that ends with one. -/
def cText (buffer : List UInt8) : List UInt8 := buffer.takeWhile (· != 0)

/-- `"HTTP/1."`. -/
def httpVersion : List UInt8 := lit ['H', 'T', 'T', 'P', '/', '1', '.']

/-- Each function gives what it leaves for the relay, or nothing if it refuses. `requestSent` says
whether the request went out in full. -/
def httpConnect (requestSent : Bool) (i : Incoming) : Option (List UInt8) :=
  let response := i.read 4095
  let statusLine := cText response
  if !requestSent then none
  else if response.length = 0 ∨ response.length ≥ 4096 then none
  else if statusLine.take 7 != httpVersion then none
  else
    let statusCode := if statusLine.contains (byte ' ') then atoi (afterFirst (byte ' ') statusLine) else 0
    if statusCode != 200 then none else some (i.left 4095)

/-- Unlike the IPv4 function it does not look at what stands in front of the first space. -/
def httpConnectV6 (requestSent : Bool) (i : Incoming) : Option (List UInt8) :=
  let response := i.read 4095
  let statusLine := cText response
  if !requestSent then none
  else if response.length = 0 ∨ response.length ≥ 4096 then none
  else if !statusLine.contains (byte ' ') || atoi (afterFirst (byte ' ') statusLine) != 200 then none
  else some (i.left 4095)

section Swift
variable {Text : Type} (decode : List UInt8 → Option Text) (contains200 : Text → Bool)

/-- `decode` is `String(data:encoding:)` for UTF-8 and `contains200` is `contains("200")`. -/
def handleHTTPProxy (requestSent : Bool) (i : Incoming) : Option (List UInt8) :=
  let data := i.read 8192
  if !requestSent || data.isEmpty then none
  else
    match decode data with
    | none => none
    | some response => if contains200 response then some (i.left 8192) else none

/-- Characters around an occurrence cannot merge with it unless they lie outside of ASCII. -/
def FindsPlain : Prop :=
  ∀ a b t, (∀ c ∈ a.getLast?, c < 128) → (∀ c ∈ b.head?, c < 128) →
    decode (a ++ lit ['2', '0', '0'] ++ b) = some t → contains200 t = true

end Swift

/-! What the functions are for: a complete response head with status 200, and the bytes behind it. -/

/-- The bytes up to the first empty line and those after it. -/
def splitHead : List UInt8 → Option (List UInt8 × List UInt8)
  | [] => none
  | c :: s =>
    if (c :: s).take 4 = lit ['\r', '\n', '\r', '\n'] then some ((c :: s).take 4, (c :: s).drop 4)
    else (splitHead s).map (fun v => (c :: v.1, v.2))

/-- `HTTP/1.x 200`, with or without a reason phrase. -/
def StatusOk (head : List UInt8) : Prop :=
  ∃ version next tail, isDigit version = true ∧ (next = byte ' ' ∨ next = byte '\r') ∧
    head = httpVersion ++ version :: lit [' ', '2', '0', '0'] ++ next :: tail

/-- The stream starts with a complete head of status 200, which `rest` follows. -/
def OkHead (stream rest : List UInt8) : Prop := ∃ head, splitHead stream = some (head, rest) ∧ StatusOk head

/-- Acceptance exactly of the streams with such a head, leaving exactly what follows it. -/
def AcceptsOkHead (stream : List UInt8) (result : Option (List UInt8)) : Prop :=
  ∀ rest, result = some rest ↔ OkHead stream rest

/-- The number after the first space of the read is 200. -/
def NumberOk (response : List UInt8) : Prop :=
  ∃ a b, cText response = a ++ byte ' ' :: b ∧ byte ' ' ∉ a ∧ atoi b = 200

/-- The read is the head of the stream, no more and no less. -/
def Incoming.ReadsHead (i : Incoming) (max : Nat) : Prop :=
  ∃ rest, splitHead i.stream = some (i.read max, rest) ∧ StatusOk (i.read max)

theorem splitHead_append {s head rest : List UInt8} (h : splitHead s = some (head, rest)) : s = head ++ rest := by
  induction s generalizing head with
  | nil => cases h
  | cons c s ih =>
    simp only [splitHead] at h
    split at h
    · obtain ⟨rfl, rfl⟩ := Prod.mk.inj (Option.some.inj h)
      exact (List.take_append_drop 4 (c :: s)).symm
    · obtain ⟨v, hv, he⟩ := Option.map_eq_some_iff.mp h
      obtain ⟨rfl, rfl⟩ := Prod.mk.inj he
      rw [ih hv, List.cons_append]

/-- A function that accepts by a test of its one read meets the specification exactly when that read
is the head, or when there is no head and the test fails. -/
private theorem acceptsOkHead_iff (i : Incoming) (max : Nat) (seemsOk : List UInt8 → Prop)
    (result : Option (List UInt8)) (hyes : seemsOk (i.read max) → result = some (i.left max))
    (hno : ¬ seemsOk (i.read max) → result = none) :
    AcceptsOkHead i.stream result ↔
      (i.ReadsHead max ∧ seemsOk (i.read max)) ∨
      ((∀ rest, ¬ OkHead i.stream rest) ∧ ¬ seemsOk (i.read max)) := by
  by_cases hs : seemsOk (i.read max)
  · rw [hyes hs]
    simp only [hs, and_true, not_true, and_false, or_false]
    constructor
    · intro h
      obtain ⟨head, hsplit, hok⟩ := (h (i.left max)).mp rfl
      have hread : i.read max = head := by
        have hstream := splitHead_append hsplit
        rw [← List.take_append_drop (min i.arrived max) i.stream] at hstream
        exact List.append_cancel_right hstream
      exact ⟨i.left max, hread ▸ hsplit, hread ▸ hok⟩
    · intro ⟨rest, hsplit, hok⟩ r
      have hleft : i.left max = rest := by
        have hstream := splitHead_append hsplit
        rw [← List.take_append_drop (min i.arrived max) i.stream] at hstream
        exact List.append_cancel_left hstream
      rw [hleft]
      refine ⟨fun hr => ⟨i.read max, Option.some.inj hr ▸ hsplit, hok⟩, fun ⟨head, hsplit', _⟩ => ?_⟩
      rw [hsplit] at hsplit'
      rw [(Prod.mk.inj (Option.some.inj hsplit')).2]
  · rw [hno hs]
    simp only [hs, and_false, false_or, not_false_eq_true, and_true]
    refine ⟨fun h rest hr => ?_, fun h rest => ⟨fun hr => ?_, fun hr => (h rest hr).elim⟩⟩
    · cases (h rest).mpr hr
    · cases hr

private theorem numberOk_iff (response : List UInt8) :
    NumberOk response ↔ byte ' ' ∈ cText response ∧ atoi (afterFirst (byte ' ') (cText response)) = 200 := by
  constructor
  · intro ⟨a, b, he, ha, hb⟩
    rw [he, afterFirst_append ha]
    exact ⟨List.mem_append_right _ List.mem_cons_self, hb⟩
  · intro ⟨hmem, hb⟩
    obtain ⟨a, ha, he⟩ := eq_append_afterFirst hmem
    exact ⟨a, _, he, ha, hb⟩

/-- A head of status 200 passes the tests of both Windows functions. -/
private theorem StatusOk.passes {head : List UInt8} (h : StatusOk head) :
    (cText head).take 7 = httpVersion ∧ NumberOk head := by
  obtain ⟨v, next, tail, hv, hnext, rfl⟩ := h
  have hv0 : v ≠ 0 := fun he => by simp [he, isDigit] at hv
  have hspace : byte ' ' ≠ v := fun he => by simp [← he, isDigit, byte] at hv
  have hnext0 : next ≠ 0 := by
    rcases hnext with rfl | rfl <;> decide
  have hdigit : isDigit next = false := by
    rcases hnext with rfl | rfl <;> decide
  have htext : cText (httpVersion ++ v :: lit [' ', '2', '0', '0'] ++ next :: tail) =
      (httpVersion ++ [v]) ++ byte ' ' :: (lit ['2', '0', '0'] ++ next :: cText tail) := by
    simp [cText, httpVersion, lit, byte, hv0, hnext0]
  refine ⟨by rw [htext]; rfl, httpVersion ++ [v], _, htext, ?_, ?_⟩
  · simp only [List.mem_append, List.mem_singleton, hspace, or_false]
    decide
  · have hcode : (lit ['2', '0', '0']).all isDigit = true := by decide
    exact atoi_digits (cText tail) (List.all_eq_true.mp hcode) (by decide) hdigit (by decide)

/-- The length checks never refuse a read that has a space in it. -/
private theorem read_length {i : Incoming} (h : byte ' ' ∈ cText (i.read 4095)) :
    i.read 4095 ≠ [] ∧ (i.read 4095).length < 4096 := by
  have hlen : (i.read 4095).length ≤ min i.arrived 4095 := List.length_take_le ..
  refine ⟨fun he => ?_, by omega⟩
  rw [he] at h
  cases h

private theorem httpConnect_eq (i : Incoming) [Decidable (NumberOk (i.read 4095))] :
    httpConnect true i = if (cText (i.read 4095)).take 7 = httpVersion ∧ NumberOk (i.read 4095)
      then some (i.left 4095) else none := by
  simp only [httpConnect, numberOk_iff]
  by_cases hmem : byte ' ' ∈ cText (i.read 4095)
  · by_cases hversion : (cText (i.read 4095)).take 7 = httpVersion
    · by_cases hcode : atoi (afterFirst (byte ' ') (cText (i.read 4095))) = 200
      · simp [read_length hmem, hmem, hversion, hcode]
      · simp [hmem, hversion, hcode]
    · simp [hversion]
  · simp [hmem]

private theorem httpConnectV6_eq (i : Incoming) [Decidable (NumberOk (i.read 4095))] :
    httpConnectV6 true i = if NumberOk (i.read 4095) then some (i.left 4095) else none := by
  simp only [httpConnectV6, numberOk_iff]
  by_cases hmem : byte ' ' ∈ cText (i.read 4095)
  · by_cases hcode : atoi (afterFirst (byte ' ') (cText (i.read 4095))) = 200
    · simp [read_length hmem, hmem, hcode]
    · simp [hmem, hcode]
  · simp [hmem]

/-- What both Windows functions ask of the read, and what they leave. -/
theorem httpConnect_some {i : Incoming} {rest : List UInt8}
    (h : httpConnect true i = some rest ∨ httpConnectV6 true i = some rest) :
    NumberOk (i.read 4095) ∧ rest = i.left 4095 := by
  classical
  rcases h with h | h
  · rw [httpConnect_eq] at h
    split at h
    · rename_i hok
      exact ⟨hok.2, (Option.some.inj h).symm⟩
    · cases h
  · rw [httpConnectV6_eq] at h
    split at h
    · rename_i hok
      exact ⟨hok, (Option.some.inj h).symm⟩
    · cases h

section Swift
variable {Text : Type} (decode : List UInt8 → Option Text) (contains200 : Text → Bool)

/-- The read is text with `200` somewhere in it. -/
def Mentions200 (data : List UInt8) : Prop := data ≠ [] ∧ ∃ t, decode data = some t ∧ contains200 t = true

private theorem handleHTTPProxy_eq (i : Incoming) [Decidable (Mentions200 decode contains200 (i.read 8192))] :
    handleHTTPProxy decode contains200 true i =
      if Mentions200 decode contains200 (i.read 8192) then some (i.left 8192) else none := by
  split
  · rename_i h
    obtain ⟨hne, t, ht, hc⟩ := h
    simp [handleHTTPProxy, hne, ht, hc]
  · rename_i h
    by_cases hne : i.read 8192 = []
    · simp [handleHTTPProxy, hne]
    · cases ht : decode (i.read 8192) with
      | none => simp [handleHTTPProxy, ht]
      | some t =>
        have hc : contains200 t ≠ true := fun hc => h ⟨hne, t, ht, hc⟩
        simp [handleHTTPProxy, ht, hc]

/-- A head of status 200 that is text mentions it. -/
private theorem StatusOk.mentions200 (hfind : FindsPlain decode contains200) {head : List UInt8}
    (h : StatusOk head) : Mentions200 decode contains200 head ↔ decode head ≠ none := by
  obtain ⟨v, next, tail, hv, hnext, rfl⟩ := h
  constructor
  · intro ⟨_, t, ht, _⟩ hn
    rw [ht] at hn
    cases hn
  · intro hn
    obtain ⟨t, ht⟩ := Option.ne_none_iff_exists'.mp hn
    refine ⟨by simp [httpVersion, lit], t, ht, ?_⟩
    refine hfind (httpVersion ++ [v, byte ' ']) (next :: tail) t ?_ ?_ ?_
    · simp [byte]
    · rcases hnext with rfl | rfl <;> simp [byte]
    · rw [← ht]
      simp [lit]

end Swift

/-- The three functions meet the specification exactly when the one read they make returns the
whole head and nothing else, which on macOS must be text, or when the stream has no head of status
200 and the read does not look as if it had one. -/
theorem http_tunnel_opened_iff_read_at_head {Text : Type} (decode : List UInt8 → Option Text)
    (contains200 : Text → Bool) (hfind : FindsPlain decode contains200) (i : Incoming) :
    (AcceptsOkHead i.stream (httpConnect true i) ↔
      i.ReadsHead 4095 ∨ (∀ rest, ¬ OkHead i.stream rest) ∧
        ¬ ((cText (i.read 4095)).take 7 = httpVersion ∧ NumberOk (i.read 4095))) ∧
    (AcceptsOkHead i.stream (httpConnectV6 true i) ↔
      i.ReadsHead 4095 ∨ (∀ rest, ¬ OkHead i.stream rest) ∧ ¬ NumberOk (i.read 4095)) ∧
    (AcceptsOkHead i.stream (handleHTTPProxy decode contains200 true i) ↔
      (i.ReadsHead 8192 ∧ decode (i.read 8192) ≠ none) ∨
        (∀ rest, ¬ OkHead i.stream rest) ∧ ¬ Mentions200 decode contains200 (i.read 8192)) := by
  classical
  refine ⟨?_, ?_, ?_⟩
  · rw [acceptsOkHead_iff i 4095 (fun r => (cText r).take 7 = httpVersion ∧ NumberOk r) _
      (fun h => (httpConnect_eq i).trans (if_pos h)) (fun h => (httpConnect_eq i).trans (if_neg h))]
    exact or_congr_left (and_iff_left_of_imp (fun ⟨_, _, h⟩ => h.passes))
  · rw [acceptsOkHead_iff i 4095 NumberOk _
      (fun h => (httpConnectV6_eq i).trans (if_pos h)) (fun h => (httpConnectV6_eq i).trans (if_neg h))]
    exact or_congr_left (and_iff_left_of_imp (fun ⟨_, _, h⟩ => h.passes.2))
  · rw [acceptsOkHead_iff i 8192 (Mentions200 decode contains200) _
      (fun h => (handleHTTPProxy_eq decode contains200 i).trans (if_pos h))
      (fun h => (handleHTTPProxy_eq decode contains200 i).trans (if_neg h))]
    exact or_congr_left (and_congr_right (fun ⟨_, _, h⟩ => h.mentions200 decode contains200 hfind))

/-- `HTTP/1.1 200 OK` and an empty line. -/
def okHead : List UInt8 :=
  lit ['H', 'T', 'T', 'P', '/', '1', '.', '1', ' ', '2', '0', '0', ' ', 'O', 'K', '\r', '\n', '\r', '\n']

/-- The first bytes of a server that speaks first. -/
def greeting : List UInt8 := lit ['S', 'S', 'H']

/-- Text that is all ASCII, as its bytes. -/
def decodeAscii (data : List UInt8) : Option (List UInt8) := if data.all (· < 128) then some data else none

def asciiContains200 (text : List UInt8) : Bool :=
  (List.range text.length).any (fun n => (lit ['2', '0', '0']).isPrefixOf (text.drop n))

private theorem findsPlain_ascii : FindsPlain decodeAscii asciiContains200 := by
  intro a b t _ _ ht
  obtain ⟨_, ht⟩ := Option.ite_none_right_eq_some.mp ht
  rw [← Option.some.inj ht, asciiContains200, List.any_eq_true]
  exact ⟨a.length, by simp [lit], by simp⟩

private theorem statusOk_okHead : StatusOk okHead :=
  ⟨byte '1', byte ' ', lit ['O', 'K', '\r', '\n', '\r', '\n'], by decide, .inl rfl, by decide⟩

/-- The head arrives by itself. -/
theorem http_tunnel_opened_iff_read_at_head_alone :
    let i : Incoming := ⟨okHead ++ greeting, 19, by decide⟩
    AcceptsOkHead i.stream (httpConnect true i) ∧ AcceptsOkHead i.stream (httpConnectV6 true i) ∧
      AcceptsOkHead i.stream (handleHTTPProxy decodeAscii asciiContains200 true i) := by
  intro i
  obtain ⟨h4, h6, hmac⟩ := http_tunnel_opened_iff_read_at_head decodeAscii asciiContains200 findsPlain_ascii i
  have hsplit : splitHead i.stream = some (okHead, greeting) := by decide
  have hread : i.ReadsHead 4095 := ⟨greeting, hsplit, statusOk_okHead⟩
  exact ⟨h4.mpr (.inl hread), h6.mpr (.inl hread), hmac.mpr (.inl ⟨⟨greeting, hsplit, statusOk_okHead⟩, by decide⟩)⟩

/-- The head arrives together with the greeting: all three accept, and the greeting is lost. -/
theorem greeting_lost_with_head :
    let i : Incoming := ⟨okHead ++ greeting, 22, by decide⟩
    OkHead i.stream greeting ∧ httpConnect true i = some [] ∧ httpConnectV6 true i = some [] ∧
      handleHTTPProxy decodeAscii asciiContains200 true i = some [] ∧
      ¬ AcceptsOkHead i.stream (httpConnect true i) ∧ ¬ AcceptsOkHead i.stream (httpConnectV6 true i) ∧
      ¬ AcceptsOkHead i.stream (handleHTTPProxy decodeAscii asciiContains200 true i) := by
  intro i
  have hok : OkHead i.stream greeting := ⟨okHead, by decide, statusOk_okHead⟩
  have hlost : ∀ result : Option (List UInt8), result = some [] → ¬ AcceptsOkHead i.stream result := by
    intro result hr h
    have hsame := hr.symm.trans ((h _).mpr hok)
    cases hsame
  have h4 : httpConnect true i = some [] := by decide
  have h6 : httpConnectV6 true i = some [] := by decide
  have hmac : handleHTTPProxy decodeAscii asciiContains200 true i = some [] := by decide
  exact ⟨hok, h4, h6, hmac, hlost _ h4, hlost _ h6, hlost _ hmac⟩

end ProxyBridge.Handshake
