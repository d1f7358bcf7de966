import Mathlib.Data.List.Count
import ProxyBridge.Library.IpLiterals

/-! The destinations that the macOS extension leaves to the system without asking the rules. It
recognises them by their spelling. -/
namespace ProxyBridge.MacOS
open CStrings IpLiterals

/-- A character of a Swift string: an ASCII byte, or any other grapheme cluster by its scalars. -/
inductive Character where
  | ascii (c : UInt8)
  | cluster (scalars : List Char)
  deriving DecidableEq

def ascii (text : List UInt8) : List Character := text.map .ascii

/-- The lower case of the characters outside of ASCII. Only the Kelvin sign has one in ASCII, `k`. -/
structure CaseMapping where
  lower : List Char → Character
  onlyKelvin : ∀ {scalars c}, lower scalars = .ascii c → c = byte 'k'

def Character.lowercased (mapping : CaseMapping) : Character → Character
  | .ascii c => .ascii (toLower c)
  | .cluster scalars => mapping.lower scalars

def lowercased (mapping : CaseMapping) (s : List Character) : List Character := s.map (·.lowercased mapping)

/-- `split(separator: ".")`, which leaves out the empty pieces. -/
def splitAtDots (s : List Character) : List (List Character) :=
  (s.splitOn (.ascii (byte '.'))).filter (fun piece => !piece.isEmpty)

def Character.asciiByte : Character → Option UInt8
  | .ascii c => some c
  | .cluster _ => none

def uint8OfAscii (text : List UInt8) : Option UInt8 :=
  let signed := text.head? == some (byte '+') || text.head? == some (byte '-')
  let digits := if signed then text.tail else text
  if digits.isEmpty || !digits.all isDigit then none
  else if text.head? == some (byte '-') then
    if decimal digits == 0 then some 0 else none
  else if decimal digits ≤ 255 then some (decimal digits).toUInt8
  else none

/-- `UInt8(_:)` of a text: a sign or none, and decimal digits of a value that fits. -/
def uint8 (piece : List Character) : Option UInt8 := (piece.mapM Character.asciiByte).bind uint8OfAscii

/-- The numbers between the dots; the pieces that are none are dropped. -/
def octetsOf (value : List Character) : List UInt8 := (splitAtDots value).filterMap uint8

def localhost : List Character := ascii (lit ['l', 'o', 'c', 'a', 'l', 'h', 'o', 's', 't'])

def loopback : List Character := ascii (lit [':', ':', '1'])

def linkLocal : List Character := ascii (lit ['f', 'e', '8', '0', ':'])

def multicast : List Character := ascii (lit ['f', 'f'])

def isDirectNetworkTarget (mapping : CaseMapping) (destination : List Character) : Bool :=
  let value := lowercased mapping destination
  if value == localhost || value == loopback || linkLocal.isPrefixOf value || multicast.isPrefixOf value then true
  else
    let octets := octetsOf value
    if octets.length != 4 then false
    else if octets.getD 0 0 == 127 || (octets.getD 0 0 == 169 && octets.getD 1 0 == 254) then true
    else if octets.getD 0 0 ≥ 224 then true
    else octets.getD 3 0 == 255

/-- The IPv6 networks of `kokoroBoxExcludedNetworkRules`. -/
def kokoroBoxExcludedIpv6Networks : List (List Nat × Nat) :=
  [([0, 0, 0, 0, 0, 0, 0, 1], 128), ([0xfe80, 0, 0, 0, 0, 0, 0, 0], 10), ([0xff00, 0, 0, 0, 0, 0, 0, 0], 8)]

def DirectIpv4 (q : Ipv4Literal) : Prop :=
  q.first.value = 127 ∨ (q.first.value = 169 ∧ q.second.value = 254) ∨ 224 ≤ q.first.value ∨ q.fourth.value = 255

def DirectIpv6 (a : Ipv6Literal) : Prop :=
  ∃ network ∈ kokoroBoxExcludedIpv6Networks, InNetwork a.words network.1 network.2

/-- Four numbers of a direct IPv4 address. -/
def DirectOctets (octets : List UInt8) : Prop :=
  octets.length = 4 ∧ (octets.getD 0 0 = 127 ∨ (octets.getD 0 0 = 169 ∧ octets.getD 1 0 = 254) ∨
    224 ≤ octets.getD 0 0 ∨ octets.getD 3 0 = 255)

/-- Direct are `localhost` and literals only, and of these the ones with such an address. -/
structure DirectOnlyByAddress (mapping : CaseMapping) (s : List Character) : Prop where
  literals : isDirectNetworkTarget mapping s = true →
    lowercased mapping s = localhost ∨ (∃ q : Ipv4Literal, s = ascii q.text) ∨ ∃ a : ScopedLiteral, s = ascii a.text
  ipv4 : ∀ q : Ipv4Literal, s = ascii q.text → (isDirectNetworkTarget mapping s = true ↔ DirectIpv4 q)
  ipv6 : ∀ a : ScopedLiteral, s = ascii a.text → (isDirectNetworkTarget mapping s = true ↔ DirectIpv6 a.address)

/-- A name that is spelled like an address: it starts with `ff` and is no multicast literal, it
starts with `fe80:` and is no IPv6 literal, or four of the pieces between its dots are the numbers
of a direct address and it is no IPv4 literal. -/
def SpelledLikeAddress (mapping : CaseMapping) (s : List Character) : Prop :=
  (multicast <+: lowercased mapping s ∧ ¬ ∃ a : ScopedLiteral, s = ascii a.text ∧ 0xff00 ≤ a.address.words.getD 0 0) ∨
  (linkLocal <+: lowercased mapping s ∧ ¬ ∃ a : ScopedLiteral, s = ascii a.text) ∨
  (DirectOctets (octetsOf (lowercased mapping s)) ∧ ¬ ∃ q : Ipv4Literal, s = ascii q.text)

/-- An address in another spelling: the loopback address not as `::1`, or a link-local address that
does not start with `fe80:`. -/
def SpelledOtherwise (mapping : CaseMapping) (s : List Character) : Prop :=
  ∃ a : ScopedLiteral, s = ascii a.text ∧
    (a.address.words = [0, 0, 0, 0, 0, 0, 0, 1] ∧ lowercased mapping s ≠ loopback ∨
      0xfe80 < a.address.words.getD 0 0 ∧ a.address.words.getD 0 0 ≤ 0xfebf)

section Strings

theorem ascii_injective : Function.Injective ascii :=
  List.map_injective_iff.mpr (fun _ _ h => Character.ascii.inj h)

theorem ascii_prefix_iff {p t : List UInt8} : ascii p <+: ascii t ↔ p <+: t :=
  List.prefix_map_iff_of_injective (fun _ _ h => Character.ascii.inj h)

theorem mem_ascii {c : UInt8} {t : List UInt8} : Character.ascii c ∈ ascii t ↔ c ∈ t := by
  simp [ascii]

theorem lowercased_ascii (mapping : CaseMapping) (t : List UInt8) :
    lowercased mapping (ascii t) = ascii (t.map toLower) := by
  simp [lowercased, ascii, Character.lowercased]

theorem isDirectNetworkTarget_iff (mapping : CaseMapping) (s : List Character) :
    isDirectNetworkTarget mapping s = true ↔ lowercased mapping s = localhost ∨ lowercased mapping s = loopback ∨
      linkLocal <+: lowercased mapping s ∨ multicast <+: lowercased mapping s ∨
      DirectOctets (octetsOf (lowercased mapping s)) := by
  simp only [isDirectNetworkTarget]
  generalize lowercased mapping s = value
  by_cases hspelled : (value == localhost || value == loopback || linkLocal.isPrefixOf value ||
      multicast.isPrefixOf value) = true
  · rw [if_pos hspelled]
    simp only [Bool.or_eq_true, beq_iff_eq, List.isPrefixOf_iff_prefix] at hspelled
    refine iff_of_true rfl ?_
    rcases hspelled with ((h | h) | h) | h
    · exact .inl h
    · exact .inr (.inl h)
    · exact .inr (.inr (.inl h))
    · exact .inr (.inr (.inr (.inl h)))
  · rw [if_neg hspelled]
    simp only [Bool.or_eq_true, beq_iff_eq, List.isPrefixOf_iff_prefix, not_or] at hspelled
    obtain ⟨⟨⟨hlocalhost, hloopback⟩, hlinkLocal⟩, hmulticast⟩ := hspelled
    simp only [hlocalhost, hloopback, hlinkLocal, hmulticast, false_or, DirectOctets]
    generalize octetsOf value = octets
    by_cases hlen : octets.length = 4
    · simp only [hlen, bne_self_eq_false, Bool.false_eq_true, if_false, true_and]
      split
      · rename_i h
        simp only [Bool.or_eq_true, Bool.and_eq_true, beq_iff_eq] at h
        exact iff_of_true rfl (h.elim .inl (fun h => .inr (.inl h)))
      · rename_i h
        simp only [Bool.or_eq_true, Bool.and_eq_true, beq_iff_eq, not_or] at h
        simp only [h.1, h.2, false_or, ge_iff_le]
        by_cases hhigh : 224 ≤ octets.getD 0 0
        · simp only [hhigh, if_true, true_or]
        · simp only [hhigh, if_false, false_or, beq_iff_eq]
    · simp [hlen]

end Strings

section Numbers

private theorem mapM_asciiByte (t : List UInt8) : (ascii t).mapM Character.asciiByte = some t := by
  induction t with
  | nil => rfl
  | cons c t ih =>
    have hcons : (ascii (c :: t)).mapM Character.asciiByte =
        (do let c ← (Character.ascii c).asciiByte; let t ← (ascii t).mapM Character.asciiByte; return c :: t) :=
      List.mapM_cons
    rw [hcons, ih]
    rfl

private theorem eq_ascii_of_mapM {s : List Character} {t : List UInt8} (h : s.mapM Character.asciiByte = some t) :
    s = ascii t := by
  induction s generalizing t with
  | nil =>
    cases h
    rfl
  | cons c s ih =>
    rw [List.mapM_cons] at h
    cases c with
    | cluster scalars => cases h
    | ascii c =>
      cases hs : s.mapM Character.asciiByte with
      | none =>
        rw [hs] at h
        cases h
      | some t' =>
        rw [hs] at h
        cases h
        rw [ih hs]
        rfl

/-- The number of an octet of a literal. -/
theorem uint8_decimalText {width : Nat} (t : DecimalText width 255) :
    uint8 (ascii t.digits) = some t.value.toUInt8 := by
  obtain ⟨c, digits, hdigits⟩ := List.exists_cons_of_ne_nil t.nonempty
  have hc : isDigit c = true := t.isDigits c (hdigits ▸ List.mem_cons_self)
  have hplus : c ≠ byte '+' := by
    rintro rfl
    cases hc
  have hminus : c ≠ byte '-' := by
    rintro rfl
    cases hc
  have hplusHead : (t.digits.head? == some (byte '+')) = false := by simpa [hdigits] using hplus
  have hminusHead : (t.digits.head? == some (byte '-')) = false := by simpa [hdigits] using hminus
  have hnonempty : t.digits.isEmpty = false := List.isEmpty_eq_false_iff.mpr t.nonempty
  rw [uint8, mapM_asciiByte, Option.bind_some, uint8OfAscii]
  simp only [hplusHead, hminusHead, hnonempty, Bool.or_self, Bool.false_eq_true, if_false,
    List.all_eq_true.mpr t.isDigits, Bool.not_true, t.small, if_true]
  rfl

/-- A piece with a byte that is neither a digit nor a sign is no number. -/
theorem uint8_eq_none {piece : List Character} {c : UInt8} (hmem : .ascii c ∈ piece) (hdigit : isDigit c = false)
    (hplus : c ≠ byte '+') (hminus : c ≠ byte '-') : uint8 piece = none := by
  rw [uint8]
  cases hpiece : piece.mapM Character.asciiByte with
  | none => rfl
  | some t =>
    have hc : c ∈ t := by rwa [eq_ascii_of_mapM hpiece, mem_ascii] at hmem
    have hrest : c ∈ (if t.head? == some (byte '+') || t.head? == some (byte '-') then t.tail else t) := by
      split
      · rename_i hsigned
        cases t with
        | nil => cases hc
        | cons d t =>
          simp only [List.head?_cons, Bool.or_eq_true, beq_iff_eq, Option.some.injEq] at hsigned
          rcases List.mem_cons.mp hc with rfl | hc
          · exact absurd hsigned (not_or.mpr ⟨hplus, hminus⟩)
          · exact hc
      · exact hc
    rw [Option.bind_some, uint8OfAscii, if_pos]
    rw [Bool.or_eq_true, Bool.not_eq_true', List.all_eq_false]
    exact .inr ⟨c, hrest, by simpa using hdigit⟩

end Numbers

section Pieces

/-- A list has one piece more than separators. -/
private theorem length_splitOn {α : Type} [DecidableEq α] (x : α) (l : List α) :
    (l.splitOn x).length = l.count x + 1 := by
  induction l with
  | nil => rfl
  | cons c l ih =>
    rw [List.splitOn_cons_eq_if_modifyHead]
    by_cases hc : c = x
    · subst hc
      simp [ih]
    · simp [hc, ih]

/-- What is no separator stands in one of the pieces. -/
private theorem mem_of_mem_intercalate {α : Type} {x c : α} {pieces : List (List α)} (hc : c ≠ x)
    (h : c ∈ [x].intercalate pieces) : ∃ piece ∈ pieces, c ∈ piece := by
  induction pieces with
  | nil => exact absurd h List.not_mem_nil
  | cons piece pieces ih =>
    by_cases hne : pieces = []
    · subst hne
      rw [List.intercalate_singleton] at h
      exact ⟨piece, List.mem_singleton_self _, h⟩
    · rw [List.intercalate_cons_of_ne_nil hne, List.append_assoc] at h
      rcases List.mem_append.mp h with h | h
      · exact ⟨piece, List.mem_cons_self, h⟩
      · rcases List.mem_append.mp h with h | h
        · exact absurd (List.mem_singleton.mp h) hc
        · obtain ⟨p, hp, hmem⟩ := ih h
          exact ⟨p, List.mem_cons_of_mem _ hp, hmem⟩

/-- The empty pieces are no numbers, so it does not matter that they are left out. -/
private theorem octetsOf_eq (value : List Character) :
    octetsOf value = (value.splitOn (.ascii (byte '.'))).filterMap uint8 := by
  rw [octetsOf, splitAtDots, List.filterMap_filter]
  apply List.filterMap_congr
  intro piece _
  cases piece with
  | nil => rfl
  | cons c piece => rfl

/-- Less than four numbers are found where a colon stands and at most three dots. -/
theorem length_octetsOf_lt {value : List Character} (hcolon : .ascii (byte ':') ∈ value)
    (hdots : value.count (.ascii (byte '.')) ≤ 3) : (octetsOf value).length < 4 := by
  have hwhole : [.ascii (byte '.')].intercalate (value.splitOn (.ascii (byte '.'))) = value :=
    List.intercalate_splitOn _
  rw [← hwhole] at hcolon
  obtain ⟨piece, hpiece, hmem⟩ := mem_of_mem_intercalate (by decide) hcolon
  have hnone : uint8 piece = none := uint8_eq_none hmem rfl (by decide) (by decide)
  have hlt := List.length_filterMap_lt_length_iff_exists.mpr ⟨piece, hpiece, hnone⟩
  rw [length_splitOn] at hlt
  rw [octetsOf_eq]
  omega

/-- The numbers of an IPv4 literal are its octets. -/
theorem octetsOf_ipv4 (q : Ipv4Literal) : octetsOf (ascii q.text) =
    [q.first.value.toUInt8, q.second.value.toUInt8, q.third.value.toUInt8, q.fourth.value.toUInt8] := by
  have htext : ascii q.text = [.ascii (byte '.')].intercalate (q.items.map ascii) := by
    simp [ascii, Ipv4Literal.text, Ipv4Literal.items]
  have hplain : ∀ piece ∈ q.items.map ascii, Character.ascii (byte '.') ∉ piece := by
    intro piece hpiece
    obtain ⟨item, hitem, rfl⟩ := List.mem_map.mp hpiece
    rw [mem_ascii]
    exact q.items_plain rfl item hitem
  have hsplit := List.splitOn_intercalate _ hplain (by simp [Ipv4Literal.items])
  rw [octetsOf_eq, htext, hsplit]
  simp [Ipv4Literal.items, uint8_decimalText]

end Pieces

section Literals
variable (mapping : CaseMapping)

/-- A string whose lower case is `::1` is `::1`. -/
theorem eq_of_lowercased_loopback {s : List Character} (h : lowercased mapping s = loopback) : s = loopback := by
  have hchar {c : Character} {b : UInt8} (hb : b.toNat < 65) (hc : c.lowercased mapping = .ascii b) : c = .ascii b := by
    cases c with
    | ascii c => rw [(toLower_eq_iff c hb).mp (Character.ascii.inj hc)]
    | cluster scalars =>
      have hk := mapping.onlyKelvin hc
      rw [hk] at hb
      exact absurd hb (by decide)
  obtain ⟨c, s', rfl, hc, hs⟩ := List.map_eq_cons_iff.mp h
  obtain ⟨d, s', rfl, hd, hs⟩ := List.map_eq_cons_iff.mp hs
  obtain ⟨e, s', rfl, he, hs⟩ := List.map_eq_cons_iff.mp hs
  rw [hchar (by decide) hc, hchar (by decide) hd, hchar (by decide) he, List.map_eq_nil_iff.mp hs]
  rfl

theorem loopbackLiteral_exists : ∃ a : ScopedLiteral, loopback = ascii a.text :=
  ⟨⟨.gap [] ⟨[⟨lit ['1'], List.all_eq_true.mp rfl, by decide, by decide⟩], none⟩ (by decide), none⟩, rfl⟩

/-- A direct IPv6 address in numbers. -/
theorem directIpv6_iff (a : Ipv6Literal) :
    DirectIpv6 a ↔ a.words = [0, 0, 0, 0, 0, 0, 0, 1] ∨
      (0xfe80 ≤ a.words.getD 0 0 ∧ a.words.getD 0 0 ≤ 0xfebf) ∨ 0xff00 ≤ a.words.getD 0 0 := by
  have hfirst : a.words.getD 0 0 < 65536 := by
    have hlen := a.length_words
    cases hwords : a.words with
    | nil => decide
    | cons w words => exact a.words_lt w (hwords ▸ List.mem_cons_self)
  have hwhole : InNetwork a.words [0, 0, 0, 0, 0, 0, 0, 1] 128 ↔ a.words = [0, 0, 0, 0, 0, 0, 0, 1] :=
    inNetwork_whole a.length_words rfl a.words_lt (by simp)
  have hlinkLocal : InNetwork a.words [0xfe80, 0, 0, 0, 0, 0, 0, 0] 10 ↔
      0xfe80 ≤ a.words.getD 0 0 ∧ a.words.getD 0 0 ≤ 0xfebf := by
    rw [inNetwork_first (by decide) hfirst (by decide), Nat.shiftRight_eq_div_pow, Nat.shiftRight_eq_div_pow]
    simp only [List.getD_cons_zero]
    omega
  have hmulticast : InNetwork a.words [0xff00, 0, 0, 0, 0, 0, 0, 0] 8 ↔ 0xff00 ≤ a.words.getD 0 0 := by
    rw [inNetwork_first (by decide) hfirst (by decide), Nat.shiftRight_eq_div_pow, Nat.shiftRight_eq_div_pow]
    simp only [List.getD_cons_zero]
    omega
  simp only [DirectIpv6, kokoroBoxExcludedIpv6Networks, List.mem_cons, List.not_mem_nil, or_false, exists_eq_or_imp,
    exists_eq_left, hwhole, hlinkLocal, hmulticast]

/-- The direct octets of an IPv4 literal. -/
theorem directOctets_ipv4 (q : Ipv4Literal) : DirectOctets (octetsOf (ascii q.text)) ↔ DirectIpv4 q := by
  have hfirst : q.first.value ≤ 255 := q.first.small
  have hsecond : q.second.value ≤ 255 := q.second.small
  have hfourth : q.fourth.value ≤ 255 := q.fourth.small
  have heq {n m : Nat} (hn : n ≤ 255) (hm : m ≤ 255) : n.toUInt8 = m.toUInt8 ↔ n = m := by
    rw [← UInt8.toNat_inj, Nat.toUInt8_eq, Nat.toUInt8_eq, UInt8.toNat_ofNat', UInt8.toNat_ofNat']
    omega
  have hle : 224 ≤ q.first.value.toUInt8 ↔ 224 ≤ q.first.value := by
    rw [UInt8.le_iff_toNat_le, Nat.toUInt8_eq, UInt8.toNat_ofNat']
    simp only [UInt8.reduceToNat]
    omega
  rw [octetsOf_ipv4, DirectOctets, DirectIpv4, ← heq hfirst (by decide : 127 ≤ 255),
    ← heq hfirst (by decide : 169 ≤ 255), ← heq hsecond (by decide : 254 ≤ 255), ← hle,
    ← heq hfourth (by decide : 255 ≤ 255)]
  simp

/-- What the function says of an IPv4 literal. -/
theorem isDirect_ipv4 (q : Ipv4Literal) :
    isDirectNetworkTarget mapping (ascii q.text) = true ↔ DirectIpv4 q := by
  have hno {c : UInt8} (hdigit : isDigit c = false) (hdot : c ≠ byte '.') : Character.ascii c ∉ ascii q.text := by
    intro hmem
    rcases q.mem_text (mem_ascii.mp hmem) with h | h
    · rw [hdigit] at h
      cases h
    · exact hdot h
  rw [isDirectNetworkTarget_iff, lowercased_ascii, q.toLower_text, directOctets_ipv4]
  constructor
  · rintro (h | h | h | h | h)
    · exact absurd (h ▸ (by decide : Character.ascii (byte 'l') ∈ localhost)) (hno rfl (by decide))
    · exact absurd (h ▸ (by decide : Character.ascii (byte ':') ∈ loopback)) (hno rfl (by decide))
    · exact absurd (h.mem (by decide : Character.ascii (byte 'f') ∈ linkLocal)) (hno rfl (by decide))
    · exact absurd (h.mem (by decide : Character.ascii (byte 'f') ∈ multicast)) (hno rfl (by decide))
    · exact h
  · exact fun h => .inr (.inr (.inr (.inr h)))

/-- The pieces of an IPv6 literal are no four octets. -/
theorem not_directOctets_ipv6 (a : ScopedLiteral) :
    ¬ DirectOctets (octetsOf (lowercased mapping (ascii a.text))) := by
  rw [lowercased_ascii]
  rintro ⟨hlen, -⟩
  have hcolon : byte ':' ∈ a.text.map toLower := List.mem_map_of_mem a.colon_mem
  have hdots : (a.text.map toLower).count (byte '.') = a.text.count (byte '.') := by
    simp only [List.count, List.countP_map]
    apply List.countP_congr
    intro c _
    simp [toLower_eq_iff c (by decide : (byte '.').toNat < 65)]
  have hcount : (ascii (a.text.map toLower)).count (.ascii (byte '.')) ≤ 3 := by
    have hinj : Function.Injective Character.ascii := fun _ _ h => Character.ascii.inj h
    rw [ascii, List.count_map_of_injective _ _ hinj, hdots]
    exact a.dots
  have hlt := length_octetsOf_lt (mem_ascii.mpr hcolon) hcount
  omega

/-- What the function says of an IPv6 literal. -/
theorem isDirect_ipv6 (a : ScopedLiteral) :
    isDirectNetworkTarget mapping (ascii a.text) = true ↔ lowercased mapping (ascii a.text) = loopback ∨
      a.address.words.getD 0 0 = 0xfe80 ∨ multicast <+: lowercased mapping (ascii a.text) := by
  have hcolon : byte ':' ∈ a.text.map toLower := List.mem_map_of_mem a.colon_mem
  have hfew := not_directOctets_ipv6 mapping a
  rw [lowercased_ascii] at hfew
  have hlocalhost : ascii (a.text.map toLower) ≠ localhost := by
    intro h
    have hmem := h ▸ mem_ascii.mpr hcolon
    exact absurd hmem (by decide)
  rw [isDirectNetworkTarget_iff, lowercased_ascii, linkLocal, ascii_prefix_iff, a.starts_fe80_iff]
  constructor
  · rintro (h | h | h | h | h)
    · exact absurd h hlocalhost
    · exact .inl h
    · exact .inr (.inl h)
    · exact .inr (.inr h)
    · exact absurd h hfew
  · rintro (h | h | h)
    · exact .inr (.inl h)
    · exact .inr (.inr (.inl h))
    · exact .inr (.inr (.inr (.inl h)))

end Literals

section Exclusion
variable {mapping : CaseMapping} {s : List Character}

/-- A literal that starts with `ff` has a first number that is neither zero nor link-local. -/
private theorem first_of_multicast (a : ScopedLiteral) (h : multicast <+: lowercased mapping (ascii a.text)) :
    0 < a.address.words.getD 0 0 ∧
      (a.address.words.getD 0 0 < 0x1000 ∨ 0xff00 ≤ a.address.words.getD 0 0) := by
  rw [lowercased_ascii, multicast, ascii_prefix_iff] at h
  exact a.first_of_ff h

/-- An IPv4 literal has no letters. -/
private theorem not_ipv4 {c : UInt8} (hdigit : isDigit c = false) (hdot : c ≠ byte '.')
    (hmem : .ascii c ∈ lowercased mapping s) : ¬ ∃ q : Ipv4Literal, s = ascii q.text := by
  rintro ⟨q, rfl⟩
  rw [lowercased_ascii, q.toLower_text, mem_ascii] at hmem
  rcases q.mem_text hmem with h | h
  · rw [hdigit] at h
    cases h
  · exact hdot h

private theorem DirectOnlyByAddress.not_like (h : DirectOnlyByAddress mapping s) : ¬ SpelledLikeAddress mapping s := by
  rintro (⟨hstarts, hno⟩ | ⟨hstarts, hno⟩ | ⟨hoctets, hno⟩)
  · have hdirect : isDirectNetworkTarget mapping s = true :=
      (isDirectNetworkTarget_iff mapping s).mpr (.inr (.inr (.inr (.inl hstarts))))
    have hf : Character.ascii (byte 'f') ∈ lowercased mapping s := hstarts.mem (by decide)
    rcases h.literals hdirect with hlocal | hquad | ⟨a, rfl⟩
    · rw [hlocal] at hf
      exact absurd hf (by decide)
    · exact not_ipv4 rfl (by decide) hf hquad
    · obtain ⟨hpos, hsize⟩ := first_of_multicast a hstarts
      rcases (directIpv6_iff a.address).mp ((h.ipv6 a rfl).mp hdirect) with hwords | ⟨hlow, hhigh⟩ | hhigh
      · rw [hwords] at hpos
        exact absurd hpos (by decide)
      · omega
      · exact hno ⟨a, rfl, hhigh⟩
  · have hdirect : isDirectNetworkTarget mapping s = true :=
      (isDirectNetworkTarget_iff mapping s).mpr (.inr (.inr (.inl hstarts)))
    have hf : Character.ascii (byte 'f') ∈ lowercased mapping s := hstarts.mem (by decide)
    rcases h.literals hdirect with hlocal | hquad | hliteral
    · rw [hlocal] at hf
      exact absurd hf (by decide)
    · exact not_ipv4 rfl (by decide) hf hquad
    · exact hno hliteral
  · have hdirect : isDirectNetworkTarget mapping s = true :=
      (isDirectNetworkTarget_iff mapping s).mpr (.inr (.inr (.inr (.inr hoctets))))
    rcases h.literals hdirect with hlocal | hquad | ⟨a, rfl⟩
    · rw [hlocal] at hoctets
      exact absurd hoctets.1 (by decide)
    · exact hno hquad
    · exact not_directOctets_ipv6 mapping a hoctets

private theorem DirectOnlyByAddress.not_otherwise (h : DirectOnlyByAddress mapping s) :
    ¬ SpelledOtherwise mapping s := by
  rintro ⟨a, rfl, hother⟩
  have hdirect : DirectIpv6 a.address := by
    rw [directIpv6_iff]
    rcases hother with ⟨hwords, -⟩ | ⟨hlow, hhigh⟩
    · exact .inl hwords
    · exact .inr (.inl ⟨Nat.le_of_lt hlow, hhigh⟩)
  rcases (isDirect_ipv6 mapping a).mp ((h.ipv6 a rfl).mpr hdirect) with hloopback | hfirst | hstarts
  · rcases hother with ⟨-, hne⟩ | ⟨hlow, -⟩
    · exact hne hloopback
    · rw [a.loopback_words (ascii_injective (eq_of_lowercased_loopback mapping hloopback))] at hlow
      exact absurd hlow (by decide)
  · rcases hother with ⟨hwords, -⟩ | ⟨hlow, -⟩
    · rw [hwords] at hfirst
      cases hfirst
    · omega
  · obtain ⟨hpos, hsize⟩ := first_of_multicast a hstarts
    rcases hother with ⟨hwords, -⟩ | ⟨hlow, hhigh⟩
    · rw [hwords] at hpos
      exact absurd hpos (by decide)
    · omega

private theorem directOnlyByAddress_of_not (hlike : ¬ SpelledLikeAddress mapping s)
    (hother : ¬ SpelledOtherwise mapping s) : DirectOnlyByAddress mapping s := by
  obtain ⟨hmulticast, hlinkLocal, hoctets⟩ : (multicast <+: lowercased mapping s →
      ∃ a : ScopedLiteral, s = ascii a.text ∧ 0xff00 ≤ a.address.words.getD 0 0) ∧
      (linkLocal <+: lowercased mapping s → ∃ a : ScopedLiteral, s = ascii a.text) ∧
      (DirectOctets (octetsOf (lowercased mapping s)) → ∃ q : Ipv4Literal, s = ascii q.text) := by
    refine ⟨fun h => ?_, fun h => ?_, fun h => ?_⟩
    · exact Classical.not_not.mp (fun hno => hlike (.inl ⟨h, hno⟩))
    · exact Classical.not_not.mp (fun hno => hlike (.inr (.inl ⟨h, hno⟩)))
    · exact Classical.not_not.mp (fun hno => hlike (.inr (.inr ⟨h, hno⟩)))
  refine ⟨?_, ?_, ?_⟩
  · intro hdirect
    rcases (isDirectNetworkTarget_iff mapping s).mp hdirect with h | h | h | h | h
    · exact .inl h
    · obtain ⟨a, ha⟩ := loopbackLiteral_exists
      exact .inr (.inr ⟨a, (eq_of_lowercased_loopback mapping h).trans ha⟩)
    · exact .inr (.inr (hlinkLocal h))
    · obtain ⟨a, ha, -⟩ := hmulticast h
      exact .inr (.inr ⟨a, ha⟩)
    · exact .inr (.inl (hoctets h))
  · rintro q rfl
    exact isDirect_ipv4 mapping q
  · rintro a rfl
    rw [isDirect_ipv6, directIpv6_iff]
    constructor
    · rintro (h | h | h)
      · exact .inl (a.loopback_words (ascii_injective (eq_of_lowercased_loopback mapping h)))
      · exact .inr (.inl (by omega))
      · obtain ⟨b, hb, hfirst⟩ := hmulticast h
        rw [a.first_eq, ascii_injective hb, ← b.first_eq]
        exact .inr (.inr hfirst)
    · rintro (h | ⟨hlow, hhigh⟩ | h)
      · exact .inl (Classical.not_not.mp (fun hne => hother ⟨a, rfl, .inl ⟨h, hne⟩⟩))
      · refine .inr (.inl (Nat.le_antisymm (Nat.not_lt.mp (fun hlt => hother ⟨a, rfl, .inr ⟨hlt, hhigh⟩⟩)) hlow))
      · refine .inr (.inr ?_)
        rw [lowercased_ascii, multicast, ascii_prefix_iff]
        exact a.starts_ff h

end Exclusion

/-- Direct are `localhost` and the literals of the direct addresses only, exactly for the texts that
are neither a name that is spelled like an address nor an address in another spelling. -/
theorem isDirectNetworkTarget_by_address_iff (mapping : CaseMapping) (s : List Character) :
    DirectOnlyByAddress mapping s ↔ ¬ SpelledLikeAddress mapping s ∧ ¬ SpelledOtherwise mapping s := by
  constructor
  · exact fun h => ⟨h.not_like, h.not_otherwise⟩
  · exact fun h => directOnlyByAddress_of_not h.1 h.2

/-- Without a lower case for what is not ASCII. -/
def asciiMapping : CaseMapping := ⟨.cluster, fun h => by cases h⟩

def ffmpegOrg : List Character := ascii (lit ['f', 'f', 'm', 'p', 'e', 'g', '.', 'o', 'r', 'g'])

/-- A host name is direct, since it starts like a multicast address. -/
theorem host_name_is_direct :
    isDirectNetworkTarget asciiMapping ffmpegOrg = true ∧ lowercased asciiMapping ffmpegOrg ≠ localhost ∧
    (¬ ∃ q : Ipv4Literal, ffmpegOrg = ascii q.text) ∧ ¬ ∃ a : ScopedLiteral, ffmpegOrg = ascii a.text := by
  refine ⟨by decide, by decide, ?_, ?_⟩
  · rintro ⟨q, hq⟩
    have hmem : byte 'f' ∈ q.text := by
      rw [← ascii_injective hq]
      decide
    rcases q.mem_text hmem with h | h
    · exact absurd h (by decide)
    · exact absurd h (by decide)
  · rintro ⟨a, ha⟩
    have hmem := a.colon_mem
    rw [← ascii_injective ha] at hmem
    exact absurd hmem (by decide)

end ProxyBridge.MacOS
