import Mathlib.Data.Fin.VecNotation
import ProxyBridge.Handshake.ConnectRequest
import ProxyBridge.Library.NumberTexts
import ProxyBridge.Windows.HostPatterns

/-! Address literals: `parse_ipv4` against `format_ip_address`, the texts it accepts, and what
`resolve_hostname` makes of them. -/
namespace ProxyBridge.Windows
open CStrings Handshake

/-- The `unsigned int` that `%u` stores for the number it reads, which is that number if it fits. -/
structure UnsignedScan where
  value : Int → UInt32
  fits (n : Nat) : n < 4294967296 → value n = n.toUInt32

/-- The number is accumulated in 64 bits, where it saturates, and its low half is stored. -/
def UnsignedScan.accumulated : UnsignedScan where
  value n := if n.natAbs < 18446744073709551616 then UInt32.ofInt n else 0xFFFFFFFF
  fits n hn := by
    rw [if_pos (by rw [Int.natAbs_natCast]; omega), UInt32.ofInt]
    apply UInt32.toNat_inj.mp
    rw [UInt32.toNat_ofNat', Nat.toUInt32_eq, UInt32.toNat_ofNat']
    omega

section
variable (S : UnsignedScan)

def scanUnsigned (s : List UInt8) : Option (UInt32 × List UInt8) :=
  (scanInt s).map (fun x => (S.value x.1, x.2))

/-- `sscanf_s(s, "%u.%u.%u.%u", ..) == 4`. -/
def scanQuad (s : List UInt8) : Option (UInt32 × UInt32 × UInt32 × UInt32) := do
  let (a, s) ← scanUnsigned S s
  let (b, s) ← scanUnsigned S (← scanByte (byte '.') s)
  let (c, s) ← scanUnsigned S (← scanByte (byte '.') s)
  let (d, _) ← scanUnsigned S (← scanByte (byte '.') s)
  return (a, b, c, d)

def parseIpv4 (ip : List UInt8) : UInt32 :=
  match scanQuad S ip with
  | none => 0
  | some (a, b, c, d) =>
    if a > 255 ∨ b > 255 ∨ c > 255 ∨ d > 255 then 0
    else a <<< 0 ||| b <<< 8 ||| c <<< 16 ||| d <<< 24

/-- The first entry of a result of `getaddrinfo`. -/
structure AddrInfo where
  family : UInt32
  sAddr : UInt32

def afInet : UInt32 := 2

/-- The part of `resolve_hostname` behind the literal; `getaddrinfo` is absent where it fails. -/
def lookupHostname (getaddrinfo : List UInt8 → Option (Option AddrInfo)) (hostname : List UInt8) : UInt32 :=
  match getaddrinfo hostname with
  | none => 0
  | some none => 0
  | some (some result) => if result.family ≠ afInet then 0 else result.sAddr

def resolveHostname (getaddrinfo : List UInt8 → Option (Option AddrInfo)) (hostname : Option (List UInt8)) : UInt32 :=
  match hostname with
  | none => 0
  | some s =>
    if s.isEmpty then 0
    else
      let ip := parseIpv4 S s
      if ip ≠ 0 then ip else lookupHostname getaddrinfo s

end

/-- Four decimal numbers of at most 255 with dots between them. -/
def IsAddressText (s : List UInt8) : Prop :=
  ∃ f : Fin 4 → List UInt8, s = dottedQuad f ∧
    ∀ i, f i ≠ [] ∧ (∀ d ∈ f i, isDigit d = true) ∧ decimal (f i) ≤ 255

/-- A text seen as four numbers with dots between them, each of which is stored as an octet, and a rest
that does not go on with a digit. -/
structure QuadReading (S : UnsignedScan) (s : List UInt8) (f : Fin 4 → NumberText) (rest : List UInt8) : Prop where
  text : s = dottedQuad (fun i => (f i).text) ++ rest
  stops : StopsNumber rest
  octets (i : Fin 4) : S.value (f i).value ≤ 255
  nonzero : ∃ i, S.value (f i).value ≠ 0

/-- A text read as an address that is not 0.0.0.0, with a blank or a sign in front of one of its
numbers, with a number that was wrapped to an octet, or with more behind the last one. -/
def LaxLiteral (S : UnsignedScan) (s : List UInt8) : Prop :=
  ∃ f rest, QuadReading S s f rest ∧
    (rest ≠ [] ∨ ∃ i, (f i).blanks ≠ [] ∨ (f i).minus ≠ none ∨ 255 < decimal (f i).digits)

private theorem scanUnsigned_text (S : UnsignedScan) (t : NumberText) {rest : List UInt8} (hrest : StopsNumber rest) :
    scanUnsigned S (t.text ++ rest) = some (S.value t.value, rest) := by
  rw [scanUnsigned, t.scanInt_text hrest]
  rfl

private theorem stopsNumber_dot (tail : List UInt8) : StopsNumber (byte '.' :: tail) := by
  intro c hc
  obtain rfl := Option.some.inj hc
  decide

private theorem dottedQuad_append (f : Fin 4 → List UInt8) (rest : List UInt8) :
    dottedQuad f ++ rest = f 0 ++ byte '.' :: (f 1 ++ byte '.' :: (f 2 ++ byte '.' :: (f 3 ++ rest))) := by
  simp [dottedQuad_eq]

private theorem scanQuad_text (S : UnsignedScan) (f : Fin 4 → NumberText) {rest : List UInt8}
    (hrest : StopsNumber rest) :
    scanQuad S (dottedQuad (fun i => (f i).text) ++ rest) =
      some (S.value (f 0).value, S.value (f 1).value, S.value (f 2).value, S.value (f 3).value) := by
  have hbyte (tail : List UInt8) : scanByte (byte '.') (byte '.' :: tail) = some tail := rfl
  rw [scanQuad, dottedQuad_append]
  simp only [scanUnsigned_text S _ (stopsNumber_dot _), scanUnsigned_text S _ hrest, hbyte, Option.bind_eq_bind,
    Option.bind_some]
  rfl

/-- A number that is read, with the text it was read from. -/
private theorem exists_of_scanUnsigned {S : UnsignedScan} {s rest : List UInt8} {x : UInt32}
    (h : scanUnsigned S s = some (x, rest)) :
    ∃ t : NumberText, s = t.text ++ rest ∧ S.value t.value = x ∧ StopsNumber rest := by
  obtain ⟨⟨n, r⟩, hscan, hx⟩ := Option.map_eq_some_iff.mp h
  obtain ⟨rfl, rfl⟩ := Prod.mk.inj hx
  obtain ⟨t, hs, rfl, hstop⟩ := NumberText.exists_of_scanInt hscan
  exact ⟨t, hs, rfl, hstop⟩

private theorem eq_of_scanByte {c : UInt8} {s r : List UInt8} (h : scanByte c s = some r) : s = c :: r := by
  cases s with
  | nil => cases h
  | cons d s =>
    rw [scanByte] at h
    split at h
    · rename_i hd
      rw [beq_iff_eq.mp hd, Option.some.inj h]
    · cases h

private theorem exists_of_scanQuad {S : UnsignedScan} {s : List UInt8} {a b c d : UInt32}
    (h : scanQuad S s = some (a, b, c, d)) :
    ∃ (f : Fin 4 → NumberText) (rest : List UInt8), s = dottedQuad (fun i => (f i).text) ++ rest ∧ StopsNumber rest ∧
      S.value (f 0).value = a ∧ S.value (f 1).value = b ∧ S.value (f 2).value = c ∧ S.value (f 3).value = d := by
  simp only [scanQuad, Option.bind_eq_bind, Option.bind_eq_some_iff] at h
  obtain ⟨⟨a', s0⟩, h0, s0', hb0, ⟨b', s1⟩, h1, s1', hb1, ⟨c', s2⟩, h2, s2', hb2, ⟨d', s3⟩, h3, hpure⟩ := h
  cases hpure
  obtain ⟨t0, rfl, rfl, -⟩ := exists_of_scanUnsigned h0
  obtain rfl := eq_of_scanByte hb0
  obtain ⟨t1, rfl, rfl, -⟩ := exists_of_scanUnsigned h1
  obtain rfl := eq_of_scanByte hb1
  obtain ⟨t2, rfl, rfl, -⟩ := exists_of_scanUnsigned h2
  obtain rfl := eq_of_scanByte hb2
  obtain ⟨t3, rfl, rfl, hstop⟩ := exists_of_scanUnsigned h3
  exact ⟨![t0, t1, t2, t3], s3, by rw [dottedQuad_append]; rfl, hstop, rfl, rfl, rfl, rfl⟩

private theorem ofInt_toNat (x : UInt32) : UInt32.ofInt (x.toNat : Int) = x := by
  apply UInt32.toNat_inj.mp
  have hx := x.toNat_lt
  rw [UInt32.ofInt, UInt32.toNat_ofNat']
  omega

/-- The word that the four numbers make. -/
private theorem pack_eq (v : Fin 4 → UInt32) :
    v 0 <<< 0 ||| v 1 <<< 8 ||| v 2 <<< 16 ||| v 3 <<< 24 = packOctets (fun i => ((v i).toNat : Int)) := by
  rw [packOctets_eq]
  simp only [ofInt_toNat, UInt32.shiftLeft_zero]

/-- The word is zero for zeros alone. -/
private theorem pack_ne_zero_iff {v : Fin 4 → UInt32} (hv : ∀ i, v i ≤ 255) :
    packOctets (fun i => ((v i).toNat : Int)) ≠ 0 ↔ ∃ i, v i ≠ 0 := by
  have hoctet := @octet_packOctets (fun i => (v i).toNat) (fun i => UInt32.le_iff_toNat_le.mp (hv i))
  constructor
  · intro hne
    by_contra hall
    refine hne ?_
    have hzero (i : Fin 4) : v i = 0 := not_not.mp (fun h => hall ⟨i, h⟩)
    simp only [hzero]
    rfl
  · rintro ⟨i, hi⟩ hpack
    rw [hpack] at hoctet
    have hat := congrFun hoctet i
    refine hi (UInt32.toNat_inj.mp ?_)
    rw [← hat, octet]
    exact Nat.zero_shiftRight _ ▸ rfl

private theorem parseIpv4_of_reading {S : UnsignedScan} {s rest : List UInt8} {f : Fin 4 → NumberText}
    (hs : s = dottedQuad (fun i => (f i).text) ++ rest) (hstop : StopsNumber rest)
    (hoctets : ∀ i, S.value (f i).value ≤ 255) :
    parseIpv4 S s = packOctets (fun i => ((S.value (f i).value).toNat : Int)) := by
  have hsmall (i : Fin 4) : ¬S.value (f i).value > 255 := UInt32.not_lt.mpr (hoctets i)
  rw [parseIpv4, hs, scanQuad_text S f hstop]
  simp only [hsmall, or_self, if_false]
  exact pack_eq (fun i => S.value (f i).value)

/-- The texts that are read as an address other than 0.0.0.0. -/
theorem parseIpv4_ne_zero_iff (S : UnsignedScan) (s : List UInt8) :
    parseIpv4 S s ≠ 0 ↔ ∃ f rest, QuadReading S s f rest := by
  constructor
  · intro hne
    cases hscan : scanQuad S s with
    | none =>
      rw [parseIpv4, hscan] at hne
      exact absurd rfl hne
    | some x =>
      obtain ⟨a, b, c, d⟩ := x
      obtain ⟨f, rest, hs, hstop, rfl, rfl, rfl, rfl⟩ := exists_of_scanQuad hscan
      have hoctets : ∀ i, S.value (f i).value ≤ 255 := by
        intro i
        by_contra hbig
        refine hne ?_
        rw [parseIpv4, hscan]
        refine if_pos ?_
        have hgt := UInt32.not_le.mp hbig
        rcases octet_index i with rfl | rfl | rfl | rfl
        · exact .inl hgt
        · exact .inr (.inl hgt)
        · exact .inr (.inr (.inl hgt))
        · exact .inr (.inr (.inr hgt))
      rw [parseIpv4_of_reading hs hstop hoctets] at hne
      exact ⟨f, rest, hs, hstop, hoctets, (pack_ne_zero_iff hoctets).mp hne⟩
  · rintro ⟨f, rest, hr⟩
    rw [parseIpv4_of_reading hr.text hr.stops hr.octets]
    exact (pack_ne_zero_iff hr.octets).mpr hr.nonzero

/-- A text is seen as four numbers and a rest in one way only. -/
private theorem reading_inj {f g : Fin 4 → NumberText} {rest rest' : List UInt8}
    (h : dottedQuad (fun i => (f i).text) ++ rest = dottedQuad (fun i => (g i).text) ++ rest')
    (hstop : StopsNumber rest) (hstop' : StopsNumber rest') : f = g ∧ rest = rest' := by
  rw [dottedQuad_append, dottedQuad_append] at h
  obtain ⟨h0, h⟩ := NumberText.text_append_inj h (stopsNumber_dot _) (stopsNumber_dot _)
  obtain ⟨h1, h⟩ := NumberText.text_append_inj (List.cons.inj h).2 (stopsNumber_dot _) (stopsNumber_dot _)
  obtain ⟨h2, h⟩ := NumberText.text_append_inj (List.cons.inj h).2 (stopsNumber_dot _) (stopsNumber_dot _)
  obtain ⟨h3, h⟩ := NumberText.text_append_inj (List.cons.inj h).2 hstop hstop'
  refine ⟨?_, h⟩
  funext i
  rcases octet_index i with rfl | rfl | rfl | rfl
  · exact h0
  · exact h1
  · exact h2
  · exact h3

/-- An address text has the plain reading alone. -/
private theorem isAddressText_iff {S : UnsignedScan} {s rest : List UInt8} {f : Fin 4 → NumberText}
    (hr : QuadReading S s f rest) :
    IsAddressText s ↔
      ¬(rest ≠ [] ∨ ∃ i, (f i).blanks ≠ [] ∨ (f i).minus ≠ none ∨ 255 < decimal (f i).digits) := by
  constructor
  · rintro ⟨d, hs, hd⟩ hlax
    have hplain : dottedQuad (fun i => (NumberText.plain (d i) (hd i).2.1 (hd i).1).text) ++ [] = s := by
      rw [List.append_nil, hs]
      rfl
    obtain ⟨rfl, rfl⟩ := reading_inj (hr.text.symm.trans hplain.symm) hr.stops stopsNumber_nil
    rcases hlax with hrest | ⟨i, hblanks | hminus | hbig⟩
    · exact hrest rfl
    · exact hblanks rfl
    · exact hminus rfl
    · exact absurd hbig (Nat.not_lt.mpr (hd i).2.2)
  · intro hstrict
    obtain ⟨hrest, hnumbers⟩ := not_or.mp hstrict
    refine ⟨fun i => (f i).digits, ?_, ?_⟩
    · rw [hr.text, not_not.mp hrest, List.append_nil]
      congr 1
      funext i
      have hi := not_or.mp (fun h => hnumbers ⟨i, h⟩)
      rw [NumberText.text, not_not.mp hi.1, not_not.mp (not_or.mp hi.2).1]
      rfl
    · intro i
      have hi := not_or.mp (fun h => hnumbers ⟨i, h⟩)
      exact ⟨(f i).nonempty, (f i).isDigits, Nat.not_lt.mp (not_or.mp hi.2).2⟩

private theorem parseIpv4_exact_iff (S : UnsignedScan) (s : List UInt8) :
    (parseIpv4 S s ≠ 0 → IsAddressText s) ↔ ¬LaxLiteral S s := by
  rw [parseIpv4_ne_zero_iff]
  constructor
  · rintro h ⟨f, rest, hr, hlax⟩
    exact (isAddressText_iff hr).mp (h ⟨f, rest, hr⟩) hlax
  · rintro h ⟨f, rest, hr⟩
    exact (isAddressText_iff hr).mpr (fun hlax => h ⟨f, rest, hr, hlax⟩)

/-- The literal is not used exactly when the resolver gets to answer, whatever it answers. -/
private theorem resolveHostname_asks_iff (S : UnsignedScan) (s : List UInt8) :
    (∀ getaddrinfo, resolveHostname S getaddrinfo (some s) =
      if s.isEmpty then 0 else lookupHostname getaddrinfo s) ↔ parseIpv4 S s = 0 := by
  cases s with
  | nil => exact ⟨fun _ => rfl, fun _ _ => rfl⟩
  | cons c s =>
    constructor
    · intro h
      by_contra hne
      have hfail := h (fun _ => none)
      simp only [resolveHostname, List.isEmpty_cons, Bool.false_eq_true, if_false, if_pos hne] at hfail
      exact hne hfail
    · intro hzero getaddrinfo
      simp [resolveHostname, hzero]

private theorem ip_toNat_eq (ip : UInt32) :
    ip.toNat = octet ip 0 + 256 * octet ip 1 + 65536 * octet ip 2 + 16777216 * octet ip 3 := by
  have hip := ip.toNat_lt
  simp only [octet, Nat.shiftRight_eq_div_pow]
  change _ = ip.toNat / 1 % 256 + 256 * (ip.toNat / 256 % 256) + 65536 * (ip.toNat / 65536 % 256) +
    16777216 * (ip.toNat / 16777216 % 256)
  omega

private theorem packOctets_octet (ip : UInt32) : packOctets (fun i => (octet ip i : Int)) = ip := by
  have hoctet := @octet_packOctets (octet ip) (fun i => Nat.le_of_lt_succ (Nat.mod_lt _ (by decide)))
  apply UInt32.toNat_inj.mp
  rw [ip_toNat_eq, hoctet, ← ip_toNat_eq]

private theorem formatIpAddress_eq (ip : UInt32) :
    formatIpAddress ip = dottedQuad (fun i => showDecimal 3 (octet ip i)) := by
  obtain ⟨h0, h8, h16, h24⟩ := ipOctets_toNat ip
  rw [formatIpAddress, dottedQuad_eq]
  simp only [UInt32.shiftRight_zero, h0, h8, h16, h24, List.append_assoc, List.cons_append]

theorem parseIpv4_formatIpAddress (S : UnsignedScan) (ip : UInt32) : parseIpv4 S (formatIpAddress ip) = ip := by
  have hsmall (i : Fin 4) : octet ip i < 256 := Nat.mod_lt _ (by decide)
  have hvalue (i : Fin 4) : decimal (showDecimal 3 (octet ip i)) = octet ip i :=
    decimal_showDecimal 3 (Nat.lt_trans (hsmall i) (by decide))
  let f (i : Fin 4) : NumberText :=
    .plain (showDecimal 3 (octet ip i)) (fun _ hd => isDigit_of_mem_showDecimal hd) (showDecimal_ne_nil 2 _)
  have hscan (i : Fin 4) : S.value (f i).value = (octet ip i).toUInt32 := by
    change S.value (Int.ofNat (decimal (showDecimal 3 (octet ip i)))) = _
    rw [hvalue]
    exact S.fits _ (Nat.lt_trans (hsmall i) (by decide))
  have hnat (i : Fin 4) : (octet ip i).toUInt32.toNat = octet ip i := by
    rw [Nat.toUInt32_eq, UInt32.toNat_ofNat']
    exact Nat.mod_eq_of_lt (Nat.lt_trans (hsmall i) (by decide))
  have htext : formatIpAddress ip = dottedQuad (fun i => (f i).text) ++ [] := by
    rw [List.append_nil, formatIpAddress_eq]
    rfl
  rw [parseIpv4_of_reading htext stopsNumber_nil (fun i => ?_)]
  · simp only [hscan, hnat, packOctets_octet]
  · rw [hscan, UInt32.le_iff_toNat_le, hnat]
    exact Nat.le_of_lt_succ (hsmall i)

/-- A printed address is always read back. Any other text is taken for an address only if it is one,
and a host name is looked up, exactly when it is not read loosely. -/
theorem parseIpv4_round_trip_and_exact_iff (S : UnsignedScan) :
    (∀ ip, parseIpv4 S (formatIpAddress ip) = ip) ∧
    ∀ s, ((parseIpv4 S s ≠ 0 → IsAddressText s) ↔ ¬LaxLiteral S s) ∧
      ((IsAddressText s ∨ ∀ getaddrinfo, resolveHostname S getaddrinfo (some s) =
        if s.isEmpty then 0 else lookupHostname getaddrinfo s) ↔ ¬LaxLiteral S s) := by
  refine ⟨parseIpv4_formatIpAddress S, fun s => ⟨parseIpv4_exact_iff S s, ?_⟩⟩
  rw [resolveHostname_asks_iff, ← parseIpv4_exact_iff]
  constructor
  · rintro (h | h) hne
    · exact h
    · exact absurd h hne
  · intro h
    by_cases hzero : parseIpv4 S s = 0
    · exact .inr hzero
    · exact .inl (h hzero)

private def fourLabels : List UInt8 :=
  lit ['1', '.', '2', '.', '3', '.', '4', '.', 'e', 'x', 'a', 'm', 'p', 'l', 'e', '.', 'c', 'o', 'm']

/-- A host name with four numeric labels in front is taken for 1.2.3.4 without a lookup. -/
theorem fourLabels_taken_for_address :
    parseIpv4 .accumulated fourLabels = 0x04030201 ∧
      resolveHostname .accumulated (fun _ => none) (some fourLabels) = 0x04030201 ∧ ¬IsAddressText fourLabels := by
  refine ⟨by decide, by decide, ?_⟩
  rintro ⟨f, hs, hf⟩
  have hletter : byte 'e' ∈ dottedQuad f := hs ▸ (by decide)
  rcases mem_dottedQuad hletter with hdot | ⟨i, hi⟩
  · exact absurd hdot (by decide)
  · exact absurd ((hf i).2.1 _ hi) (by decide)

end ProxyBridge.Windows
