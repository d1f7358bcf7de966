import ProxyBridge.Library.CheckedMemory
import ProxyBridge.Windows.DnsSnoop

/-! The accesses of the DNS snoop. The functions are modelled once more with every read of the
payload and every write to a buffer checked, and they compute the same without a fault. -/
namespace ProxyBridge.Windows
open CStrings CheckedMemory Handshake

namespace Checked

/-- What `dns_parse_name` leaves behind: its result, the offset and the destination. -/
structure ParsedName where
  found : Bool
  offset : Nat
  dst : List UInt8

/-- The dot behind the labels that are in `dst`, with the index that follows. -/
def addDot (dst : List UInt8) (out : Nat) : Except Fault (List UInt8 × Nat) :=
  if out > 0 then do
    let dst ← write dst out (byte '.')
    return (dst, out + 1)
  else return (dst, out)

/-- The loop of `dns_parse_name`, where `start` is the offset that it was called with. -/
def parseName (msg : List UInt8) (start : Nat) :
    Nat → Nat → List UInt8 → Nat → Nat → Option Nat → Except Fault ParsedName
  | 0, _, _, _, _, _ => .error .turns
  | fuel+1, pos, dst, out, jumps, jumpedEnd =>
    if pos < msg.length then do
      let b ← read msg pos
      if b == 0 then
        let dst ← write dst out 0
        return ⟨true, jumpedEnd.getD (pos + 1), dst⟩
      else if b &&& 0xC0 == 0xC0 then
        if pos + 1 ≥ msg.length then return ⟨false, start, dst⟩
        else
          let low ← read msg (pos + 1)
          if jumps + 1 > 10 then return ⟨false, start, dst⟩
          else
            let target := (b &&& 0x3F).toNat * 256 + low.toNat
            parseName msg start fuel target dst out (jumps + 1) (some (jumpedEnd.getD (pos + 2)))
      else if pos + 1 + b.toNat > msg.length then return ⟨false, start, dst⟩
      else if out + b.toNat + 2 ≥ dst.length then return ⟨false, start, dst⟩
      else
        let (dst, out) ← addDot dst out
        let dst ← memcpy dst out msg (pos + 1) b.toNat
        parseName msg start fuel (pos + 1 + b.toNat) dst (out + b.toNat) jumps jumpedEnd
    else return ⟨false, start, dst⟩

def dnsParseName (msg dst : List UInt8) (offset : Nat) : Except Fault ParsedName :=
  parseName msg offset (parseFuel msg) offset dst 0 0 none

def word (payload : List UInt8) (i : Nat) : Except Fault Nat := do
  let high ← read payload i
  let low ← read payload (i + 1)
  return high.toNat * 256 + low.toNat

/-- What is in a fresh array of 256 bytes, for the call at an offset. -/
abbrev FreshArrays := Nat → Vector UInt8 256

def skipQuestions (payload : List UInt8) (fresh : FreshArrays) : Nat → Nat → Except Fault (Option Nat)
  | 0, offset => return some offset
  | n+1, offset =>
    if offset < payload.length then do
      let tmp ← dnsParseName payload (fresh offset).toList offset
      if tmp.found then skipQuestions payload fresh n (tmp.offset + 4)
      else return none
    else return some offset

/-- The loop over the answers, which stores the name for each address; the clock and `malloc` are
asked anew each time. -/
def storeAnswers (payload : List UInt8) (fresh : FreshArrays) (now : Nat → UInt64) (malloc : Nat → Bool)
    (qname : List UInt8) : Nat → Nat → Nat → DnsCaches → Except Fault DnsCaches
  | 0, _, _, s => return s
  | n+1, stored, offset, s =>
    if offset < payload.length then do
      let rname ← dnsParseName payload (fresh offset).toList offset
      if rname.found then
        if rname.offset + 10 > payload.length then return s
        else
          let rtype ← word payload rname.offset
          let rclass ← word payload (rname.offset + 2)
          let rdlen ← word payload (rname.offset + 8)
          if rname.offset + 10 + rdlen > payload.length then return s
          else if rtype == 1 && rclass == 1 && rdlen == 4 then
            let ip ← readBytes payload (rname.offset + 10) 4
            storeAnswers payload fresh now malloc qname n (stored + 1) (rname.offset + 10 + rdlen)
              (s.store (now stored) (malloc stored) (cText qname) (.a (addressAt ip 0)))
          else if rtype == 28 && rclass == 1 && rdlen == 16 then
            let ip6 ← readBytes payload (rname.offset + 10) 16
            storeAnswers payload fresh now malloc qname n (stored + 1) (rname.offset + 10 + rdlen)
              (s.store (now stored) (malloc stored) (cText qname) (.aaaa (addressV6At ip6 0)))
          else storeAnswers payload fresh now malloc qname n stored (rname.offset + 10 + rdlen) s
      else return s
    else return s

def snoopDnsResponse (s : DnsCaches) (payload : List UInt8) (fresh : FreshArrays) (now : Nat → UInt64)
    (malloc : Nat → Bool) : Except Fault DnsCaches :=
  if payload.length < 12 then return s
  else do
    let flags ← word payload 2
    if flags < 0x8000 then return s
    else if flags % 16 != 0 then return s
    else
      let qdcount ← word payload 4
      let ancount ← word payload 6
      if ancount == 0 then return s
      else
        let qname ← dnsParseName payload (fresh 12).toList 12
        if qname.found then
          let offset ← skipQuestions payload fresh (qdcount - 1) (qname.offset + 4)
          match offset with
          | none => return s
          | some offset => storeAnswers payload fresh now malloc qname.dst ancount 0 offset s
        else return s

section Names

/-- A checked call and the result that the function has for it. -/
structure Agrees (start size : Nat) (r : ParsedName) (result : Option (List UInt8 × Nat)) : Prop where
  length : r.dst.length = size
  missing : result = none → r.found = false ∧ r.offset = start
  present : ∀ name offset, result = some (name, offset) →
    r.found = true ∧ r.offset = offset ∧ r.dst.take (name.length + 1) = name ++ [0]

private theorem agrees_missing (start : Nat) (dst : List UInt8) : Agrees start dst.length ⟨false, start, dst⟩ none :=
  ⟨rfl, fun _ => ⟨rfl, rfl⟩, fun _ _ h => nomatch h⟩

private theorem addDot_written {dst text : List UInt8} (htext : dst.take text.length = text)
    (hroom : text.length < dst.length) :
    ∃ dst', addDot dst text.length = .ok (dst', (if text.isEmpty then text else text ++ [byte '.']).length) ∧
      dst'.length = dst.length ∧ dst'.take (if text.isEmpty then text else text ++ [byte '.']).length =
        if text.isEmpty then text else text ++ [byte '.'] := by
  cases text with
  | nil => exact ⟨dst, rfl, rfl, rfl⟩
  | cons c text =>
    obtain ⟨dst', hwrite, hlen, htake⟩ := write_behind htext hroom (byte '.')
    have hout : (c :: text).length > 0 := Nat.succ_pos _
    refine ⟨dst', ?_, hlen, ?_⟩
    · rw [addDot, if_pos hout, hwrite, ok_bind]
      simp [pure, Except.pure]
    · simpa using htake

/-- A label that fits is written behind the text and its dot. -/
private theorem addLabel_written {msg dst text : List UInt8} {i n : Nat} (htext : dst.take text.length = text)
    (hmsg : i + n ≤ msg.length) (hroom : text.length + n + 2 < dst.length) :
    ∃ dst₁ dst₂ out, addDot dst text.length = .ok (dst₁, out) ∧ memcpy dst₁ out msg i n = .ok dst₂ ∧
      dst₂.length = dst.length ∧ out + n = (addLabel text ((msg.drop i).take n)).length ∧
      (addLabel text ((msg.drop i).take n)).length < dst.length ∧
      dst₂.take (addLabel text ((msg.drop i).take n)).length = addLabel text ((msg.drop i).take n) := by
  obtain ⟨dst₁, hdot, hlen₁, htake₁⟩ := addDot_written htext (by omega)
  have hdotted : (if text.isEmpty then text else text ++ [byte '.']).length ≤ text.length + 1 := by
    split
    · omega
    · rw [List.length_append, List.length_singleton]
  obtain ⟨dst₂, hcopy, hlen₂, htake₂⟩ := memcpy_behind htake₁ hmsg (by omega)
  have hlabel : (addLabel text ((msg.drop i).take n)).length =
      (if text.isEmpty then text else text ++ [byte '.']).length + n := by
    rw [addLabel, List.length_append, List.length_take, List.length_drop]
    omega
  refine ⟨dst₁, dst₂, _, hdot, hcopy, hlen₂.trans hlen₁, hlabel.symm, by omega, ?_⟩
  rw [hlabel]
  exact htake₂

private theorem parseName_agrees {msg dst : List UInt8} (text : List UInt8) {start fuel pos jumps : Nat}
    {jumpedEnd : Option Nat} (hf : turnsLeft msg pos jumps ≤ fuel) (htext : dst.take text.length = text)
    (hroom : text.length < dst.length) :
    ∃ r, parseName msg start fuel pos dst text.length jumps jumpedEnd = .ok r ∧
      Agrees start dst.length r (Windows.parseName msg dst.length fuel pos text jumps jumpedEnd) := by
  induction fuel generalizing pos dst text jumps jumpedEnd with
  | zero => exact absurd hf (by simp [turnsLeft])
  | succ fuel ih =>
    rw [parseName, Windows.parseName]
    by_cases hpos : pos < msg.length
    · have hb : msg[pos]? = some msg[pos] := List.getElem?_eq_getElem hpos
      simp only [hpos, if_true, read_ok hpos, hb, ok_bind]
      generalize msg[pos] = b at hb
      by_cases hz : b = 0
      · obtain ⟨dst', hwrite, hlen, htake⟩ := write_behind htext hroom 0
        have hzb : (b == 0) = true := beq_iff_eq.mpr hz
        rw [if_pos hzb, if_pos hzb, hwrite, ok_bind]
        refine ⟨_, rfl, hlen, ?_, ?_⟩
        · intro h
          cases h
        · intro name offset h
          obtain ⟨rfl, rfl⟩ := Prod.mk.inj (Option.some.inj h)
          exact ⟨rfl, rfl, htake⟩
      · have hz' : b.toNat ≠ 0 := fun h0 => hz (UInt8.toNat_inj.mp (h0.trans UInt8.toNat_zero.symm))
        have hzb : ¬ (b == 0) = true := fun he => hz (eq_of_beq he)
        rw [if_neg hzb, if_neg hzb]
        by_cases hp : b &&& 0xC0 = 0xC0
        · have hpb : (b &&& 0xC0 == 0xC0) = true := beq_iff_eq.mpr hp
          rw [if_pos hpb, if_pos hpb]
          by_cases hnext : pos + 1 < msg.length
          · have hlow : msg[pos + 1]? = some msg[pos + 1] := List.getElem?_eq_getElem hnext
            have hhigh : ¬ pos + 1 ≥ msg.length := Nat.not_le.mpr hnext
            rw [if_neg hhigh, read_ok hnext, ok_bind, hlow]
            simp only
            by_cases hj : jumps + 1 > 10
            · rw [if_pos hj, if_pos hj]
              exact ⟨_, rfl, agrees_missing start dst⟩
            · rw [if_neg hj, if_neg hj]
              have hlt := turnsLeft_jump msg pos ((b &&& 0x3F).toNat * 256 + msg[pos + 1].toNat) (Nat.not_lt.mp hj)
              exact ih text (by omega) htext hroom
          · have hlow : msg[pos + 1]? = none := List.getElem?_eq_none (Nat.not_lt.mp hnext)
            rw [if_pos (Nat.not_lt.mp hnext), hlow]
            exact ⟨_, rfl, agrees_missing start dst⟩
        · have hpb : ¬ (b &&& 0xC0 == 0xC0) = true := fun he => hp (eq_of_beq he)
          rw [if_neg hpb, if_neg hpb]
          by_cases hmsg : pos + 1 + b.toNat > msg.length
          · rw [if_pos hmsg, if_pos hmsg]
            exact ⟨_, rfl, agrees_missing start dst⟩
          · rw [if_neg hmsg, if_neg hmsg]
            by_cases hfull : text.length + b.toNat + 2 ≥ dst.length
            · rw [if_pos hfull, if_pos hfull]
              exact ⟨_, rfl, agrees_missing start dst⟩
            · rw [if_neg hfull, if_neg hfull]
              obtain ⟨dst₁, dst₂, out, hdot, hcopy, hlen, hout, hlabel, htake⟩ :=
                addLabel_written htext (Nat.not_lt.mp hmsg) (Nat.not_le.mp hfull)
              simp only [hdot, ok_bind, hcopy, hout]
              rw [← hlen]
              apply ih
              · simp only [turnsLeft] at hf ⊢
                omega
              · exact htake
              · omega
    · have hb : msg[pos]? = none := List.getElem?_eq_none (Nat.not_lt.mp hpos)
      simp only [hpos, if_false, hb]
      exact ⟨_, rfl, agrees_missing start dst⟩

theorem dnsParseName_agrees (msg dst : List UInt8) (offset : Nat) (hdst : 1 ≤ dst.length) :
    ∃ r, dnsParseName msg dst offset = .ok r ∧
      Agrees offset dst.length r (Windows.parseName msg dst.length (parseFuel msg) offset [] 0 none) := by
  have hfuel : turnsLeft msg offset 0 ≤ parseFuel msg := by
    simp only [turnsLeft, parseFuel]
    omega
  exact parseName_agrees [] hfuel rfl hdst

/-- The calls with an array of 256 bytes. -/
theorem dnsParseName_array (msg : List UInt8) (fresh : Vector UInt8 256) (offset : Nat) :
    ∃ r, dnsParseName msg fresh.toList offset = .ok r ∧ Agrees offset 256 r (Windows.dnsParseName msg offset) := by
  have hlen : fresh.toList.length = 256 := by simp
  obtain ⟨r, hr, hagrees⟩ := dnsParseName_agrees msg fresh.toList offset (by omega)
  rw [hlen] at hagrees
  exact ⟨r, hr, hagrees⟩

end Names

section Payloads
variable {payload : List UInt8}

private theorem word_ok {i : Nat} (h : i + 1 < payload.length) : word payload i = .ok (Windows.word payload i) := by
  rw [word, read_getD (by omega), ok_bind, read_getD h, ok_bind]
  rfl

theorem cText_written {dst name : List UInt8} (h : dst.take (name.length + 1) = name ++ [0]) :
    cText dst = cText name := by
  have hdst : dst = name ++ 0 :: dst.drop (name.length + 1) := by
    rw [List.append_cons, ← h, List.take_append_drop]
  rw [hdst, cText, cText]
  by_cases hz : (0 : UInt8) ∈ name
  · obtain ⟨a, ha, hname⟩ := eq_append_afterFirst hz
    rw [hname, List.append_assoc, List.cons_append, takeWhile_ne_append ha, takeWhile_ne_append ha]
  · have hall : ∀ c ∈ name, (c != 0) = true := by
      intro c hc
      simpa using fun he : c = 0 => hz (he ▸ hc)
    rw [takeWhile_ne_append hz, List.takeWhile_eq_self_iff.mpr hall]

private theorem skipQuestions_ok (fresh : FreshArrays) (n offset : Nat) :
    skipQuestions payload fresh n offset = .ok (Windows.skipQuestions payload n offset) := by
  induction n generalizing offset with
  | zero => rfl
  | succ n ih =>
    rw [skipQuestions, Windows.skipQuestions]
    by_cases hlen : offset < payload.length
    · obtain ⟨r, hr, hagrees⟩ := dnsParseName_array payload (fresh offset) offset
      rw [if_pos hlen, if_pos hlen, hr, ok_bind]
      cases hname : Windows.dnsParseName payload offset with
      | none =>
        rw [(hagrees.missing hname).1]
        rfl
      | some v =>
        obtain ⟨hfound, hoffset, -⟩ := hagrees.present v.1 v.2 hname
        rw [hfound, hoffset, if_pos rfl]
        exact ih (v.2 + 4)
    · rw [if_neg hlen, if_neg hlen]
      rfl

/-- The four bytes of an answer, as they are copied, are its address. -/
theorem addressAt_copied (payload : List UInt8) (i : Nat) :
    addressAt ((payload.drop i).take 4) 0 = addressAt payload i := by
  simp [addressAt, List.getElem?_drop]

theorem addressV6At_copied (payload : List UInt8) (i : Nat) :
    addressV6At ((payload.drop i).take 16) 0 = addressV6At payload i := by
  simp [addressV6At, List.getElem?_drop]

private theorem storeAnswers_ok (fresh : FreshArrays) (now : Nat → UInt64) (malloc : Nat → Bool) (qname : List UInt8)
    (n stored offset : Nat) (s : DnsCaches) :
    storeAnswers payload fresh now malloc qname n stored offset s =
      .ok (s.storeAll (cText qname)
        (((answersFrom payload n offset).zipIdx stored).map (fun x => (x.1, now x.2, malloc x.2)))) := by
  induction n generalizing stored offset s with
  | zero => rfl
  | succ n ih =>
    rw [storeAnswers, answersFrom]
    by_cases hlen : offset < payload.length
    · obtain ⟨r, hr, hagrees⟩ := dnsParseName_array payload (fresh offset) offset
      rw [if_pos hlen, if_pos hlen, hr, ok_bind]
      cases hname : Windows.dnsParseName payload offset with
      | none =>
        rw [(hagrees.missing hname).1]
        rfl
      | some v =>
        obtain ⟨hfound, hoffset, -⟩ := hagrees.present v.1 v.2 hname
        rw [hfound, hoffset, if_pos rfl]
        simp only
        by_cases hfixed : v.2 + 10 > payload.length
        · rw [if_pos hfixed, if_pos hfixed]
          rfl
        · rw [if_neg hfixed, if_neg hfixed, word_ok (by omega), ok_bind, word_ok (by omega), ok_bind,
            word_ok (by omega), ok_bind]
          by_cases hdata : v.2 + 10 + Windows.word payload (v.2 + 8) > payload.length
          · rw [if_pos hdata, if_pos hdata]
            rfl
          · rw [if_neg hdata, if_neg hdata]
            by_cases ha : (Windows.word payload v.2 == 1 && Windows.word payload (v.2 + 2) == 1 &&
                Windows.word payload (v.2 + 8) == 4) = true
            · have hrdlen : Windows.word payload (v.2 + 8) = 4 := eq_of_beq (Bool.and_eq_true_iff.mp ha).2
              rw [if_pos ha, if_pos ha, readBytes_ok (by omega), ok_bind, addressAt_copied, ih]
              rfl
            · rw [if_neg ha, if_neg ha]
              by_cases haaaa : (Windows.word payload v.2 == 28 && Windows.word payload (v.2 + 2) == 1 &&
                  Windows.word payload (v.2 + 8) == 16) = true
              · have hrdlen : Windows.word payload (v.2 + 8) = 16 := eq_of_beq (Bool.and_eq_true_iff.mp haaaa).2
                rw [if_pos haaaa, if_pos haaaa, readBytes_ok (by omega), ok_bind, addressV6At_copied, ih]
                rfl
              · rw [if_neg haaaa, if_neg haaaa]
                exact ih stored _ s
    · rw [if_neg hlen, if_neg hlen]
      rfl

/-- The walk over a payload makes no access outside of it, and it computes what the model without
checks does. -/
theorem snoopDnsResponse_ok (s : DnsCaches) (payload : List UInt8) (fresh : FreshArrays) (now : Nat → UInt64)
    (malloc : Nat → Bool) :
    snoopDnsResponse s payload fresh now malloc = .ok (s.snoopDnsResponse payload now malloc) := by
  unfold snoopDnsResponse DnsCaches.snoopDnsResponse snoopDnsPayload
  by_cases hlen : payload.length < 12
  · rw [if_pos hlen, if_pos hlen]
    rfl
  · rw [if_neg hlen, if_neg hlen, word_ok (by omega), ok_bind]
    by_cases hresponse : Windows.word payload 2 < 0x8000
    · rw [if_pos hresponse, if_pos hresponse]
      rfl
    · rw [if_neg hresponse, if_neg hresponse]
      by_cases hrcode : (Windows.word payload 2 % 16 != 0) = true
      · rw [if_pos hrcode, if_pos hrcode]
        rfl
      · rw [if_neg hrcode, if_neg hrcode, word_ok (by omega), ok_bind, word_ok (by omega), ok_bind]
        by_cases hcount : (Windows.word payload 6 == 0) = true
        · rw [if_pos hcount, if_pos hcount]
          rfl
        · rw [if_neg hcount, if_neg hcount]
          obtain ⟨r, hr, hagrees⟩ := dnsParseName_array payload (fresh 12) 12
          rw [hr, ok_bind]
          cases hname : Windows.dnsParseName payload 12 with
          | none =>
            rw [(hagrees.missing hname).1]
            rfl
          | some v =>
            obtain ⟨hfound, hoffset, hwritten⟩ := hagrees.present v.1 v.2 hname
            rw [hfound, hoffset, if_pos rfl, skipQuestions_ok, ok_bind]
            simp only
            cases Windows.skipQuestions payload (Windows.word payload 4 - 1) (v.2 + 4) with
            | none => rfl
            | some offset =>
              simp only
              rw [storeAnswers_ok, cText_written hwritten]

end Payloads

section Offsets
variable {msg : List UInt8}

/-- A name ends behind the offset at which it starts, within the message. -/
theorem parseName_offset {dstLen fuel pos jumps offset : Nat} {dst name : List UInt8} {jumpedEnd : Option Nat}
    (h : Windows.parseName msg dstLen fuel pos dst jumps jumpedEnd = some (name, offset)) :
    (jumpedEnd = none → pos < offset ∧ offset ≤ msg.length) ∧ ∀ e, jumpedEnd = some e → offset = e := by
  induction fuel generalizing pos dst jumps jumpedEnd with
  | zero => cases h
  | succ fuel ih =>
    rw [Windows.parseName] at h
    cases hb : msg[pos]? with
    | none =>
      rw [hb] at h
      cases h
    | some b =>
      have hpos : pos < msg.length := (List.getElem?_eq_some_iff.mp hb).1
      simp only [hb] at h
      split at h
      · obtain ⟨-, rfl⟩ := Prod.mk.inj (Option.some.inj h)
        constructor
        · rintro rfl
          exact ⟨Nat.lt_succ_self pos, hpos⟩
        · rintro e rfl
          rfl
      · split at h
        · cases hlow : msg[pos + 1]? with
          | none =>
            rw [hlow] at h
            cases h
          | some low =>
            have hnext : pos + 1 < msg.length := (List.getElem?_eq_some_iff.mp hlow).1
            simp only [hlow] at h
            split at h
            · cases h
            · have hend := (ih h).2 _ rfl
              constructor
              · rintro rfl
                rw [Option.getD_none] at hend
                omega
              · rintro e rfl
                exact hend
        · split at h
          · cases h
          · split at h
            · cases h
            · obtain ⟨hnone, hsome⟩ := ih h
              refine ⟨fun he => ?_, hsome⟩
              have hrest := hnone he
              omega

end Offsets

end Checked

open Checked in
/-- `dns_parse_name` ends and keeps to its message and its destination, and `snoop_dns_response` to
its payload. A name that is found is terminated and ends behind its start and within the message;
otherwise the offset stays. -/
theorem dnsParseName_in_bounds {dst : List UInt8} (hdst : 1 ≤ dst.length) (msg : List UInt8) (offset : Nat)
    (s : DnsCaches) (payload : List UInt8) (fresh : FreshArrays) (now : Nat → UInt64) (malloc : Nat → Bool) :
    (∃ r, Checked.dnsParseName msg dst offset = .ok r ∧ r.dst.length = dst.length ∧
      (r.found = true → offset < r.offset ∧ r.offset ≤ msg.length ∧
        ∃ name, name.length < dst.length ∧ r.dst.take (name.length + 1) = name ++ [0]) ∧
      (r.found = false → r.offset = offset)) ∧
    ∃ s', Checked.snoopDnsResponse s payload fresh now malloc = .ok s' := by
  refine ⟨?_, _, snoopDnsResponse_ok s payload fresh now malloc⟩
  obtain ⟨r, hr, hagrees⟩ := dnsParseName_agrees msg dst offset hdst
  refine ⟨r, hr, hagrees.length, ?_, ?_⟩
  · intro hfound
    cases hname : parseName msg dst.length (parseFuel msg) offset [] 0 none with
    | none =>
      rw [(hagrees.missing hname).1] at hfound
      cases hfound
    | some v =>
      obtain ⟨-, hoffset, hwritten⟩ := hagrees.present v.1 v.2 hname
      obtain ⟨hlow, hhigh⟩ := (parseName_offset hname).1 rfl
      have hlen := congrArg List.length hwritten
      rw [List.length_take, List.length_append, List.length_singleton, hagrees.length] at hlen
      rw [hoffset]
      exact ⟨hlow, hhigh, v.1, by omega, hwritten⟩
  · intro hmissing
    cases hname : parseName msg dst.length (parseFuel msg) offset [] 0 none with
    | none => exact (hagrees.missing hname).2
    | some v =>
      rw [(hagrees.present v.1 v.2 hname).1] at hmissing
      cases hmissing

/-- A response that gives 1.2.3.4 to `w.a.bc`: the name of its answer is a label and a pointer to the `a.bc` of its
question. -/
def aliasResponse : List UInt8 :=
  [0, 0, 0x80, 0, 0, 1, 0, 1, 0, 0, 0, 0, 1, 97, 2, 98, 99, 0, 0, 1, 0, 1,
    1, 119, 0xC0, 12, 0, 1, 0, 1, 0, 0, 0, 0, 0, 4, 1, 2, 3, 4]

open Checked in
theorem dnsParseName_in_bounds_alias :
    (∃ r, Checked.dnsParseName aliasResponse (List.replicate 256 255) 22 = .ok r ∧ 22 < r.offset ∧ r.offset ≤ 40 ∧
      ∃ name, name.length < 256 ∧ r.dst.take (name.length + 1) = name ++ [0]) ∧
    ∃ s', Checked.snoopDnsResponse DnsCaches.empty aliasResponse (fun _ => Vector.replicate 256 255) (fun _ => 7)
      (fun _ => true) = .ok s' := by
  obtain ⟨⟨r, hr, -, hfound, -⟩, hsnoop⟩ := dnsParseName_in_bounds (by rw [List.length_replicate]; decide :
    1 ≤ (List.replicate 256 (255 : UInt8)).length) aliasResponse 22 DnsCaches.empty aliasResponse
    (fun _ => Vector.replicate 256 255) (fun _ => 7) (fun _ => true)
  have hname : (Checked.dnsParseName aliasResponse (List.replicate 256 255) 22).toOption.map (·.found) = some true := by
    decide +kernel
  rw [hr] at hname
  obtain ⟨hlow, hhigh, name, hlen, htext⟩ := hfound (Option.some.inj hname)
  rw [List.length_replicate] at hlen
  exact ⟨⟨r, hr, hlow, hhigh, name, hlen, htext⟩, hsnoop⟩

end ProxyBridge.Windows
