import ProxyBridge.Library.BigEndian
import ProxyBridge.Library.CheckedMemory
import ProxyBridge.Windows.Packet
import ProxyBridge.Windows.RuleMatchers

/-! The IPv6 patterns of `match_ip_pattern_v6`: a network compares the first bits of an address, a
range its value, and no comparison leaves the 16 bytes. -/
namespace ProxyBridge.Windows
open CStrings CheckedMemory

/-- What an address parser relies on to tell the three forms of a pattern apart: an IPv6 literal is
made of hexadecimal digits, dots and at least one colon, and has at most 45 characters. -/
def isLiteralByte (c : UInt8) : Bool :=
  isDigit c || (decide (97 ≤ toLower c) && decide (toLower c ≤ 102)) || c == byte ':' || c == byte '.'

structure Ipv6Literals (inetPton : List UInt8 → Option Ip6) : Prop where
  letters : ∀ {s a}, inetPton s = some a → ∀ c ∈ s, isLiteralByte c = true
  colon : ∀ {s a}, inetPton s = some a → byte ':' ∈ s
  short : ∀ {s a}, inetPton s = some a → s.length ≤ 45

namespace Checked

def compareFullBytes (ip6 network : List UInt8) (fullBytes : Nat) : Except Fault Ordering :=
  if fullBytes > 0 then memcmp ip6 network fullBytes else return .eq

/-- The comparison with a network, with its accesses to the two arrays of 16 bytes. -/
def samePrefix (ip6 network : List UInt8) (prefixLen : Nat) : Except Fault Bool := do
  let fullBytes := prefixLen / 8
  let remBits := prefixLen % 8
  let order ← compareFullBytes ip6 network fullBytes
  if order != .eq then return false
  else if remBits > 0 then
    let mask : UInt8 := (0xFF : UInt8) <<< (8 - remBits).toUInt8
    let a ← read ip6 fullBytes
    let b ← read network fullBytes
    return (a &&& mask) == (b &&& mask)
  else return true

/-- `match_ip_pattern_v6` with its accesses to the arrays of 16 bytes. -/
def matchIpPatternV6 (inetPton : List UInt8 → Option Ip6) (pattern : List UInt8) (ip6 : Ip6) : Except Fault Bool :=
  let patCopy := strncpyTruncate 128 pattern
  if pattern == wildcard then return true
  else if !pattern.contains (byte ':') then return false
  else if patCopy.contains (byte '/') then
    let prefixLen := atoi (afterFirst (byte '/') patCopy)
    if prefixLen < 0 ∨ prefixLen > 128 then return false
    else
      match inetPton (patCopy.takeWhile (· != byte '/')) with
      | none => return false
      | some network => samePrefix ip6.toList network.toList prefixLen.toNat
  else if patCopy.contains (byte '-') then
    match inetPton (patCopy.takeWhile (· != byte '-')), inetPton (afterFirst (byte '-') patCopy) with
    | some start6, some end6 => do
      let low ← memcmp ip6.toList start6.toList 16
      if low == .lt then return false
      else
        let high ← memcmp ip6.toList end6.toList 16
        return high != .gt
    | _, _ => return false
  else
    match inetPton pattern with
    | none => return false
    | some addr6 => do
      let order ← memcmp ip6.toList addr6.toList 16
      return order == .eq

end Checked

section Accesses

private theorem compare_eq (x y : List UInt8) : (compareOfLessAndEq x y == .eq) = (x == y) := by
  unfold compareOfLessAndEq
  by_cases hlt : x < y
  · have hne : x ≠ y := by
      rintro rfl
      exact List.lt_irrefl x hlt
    simp [hlt, hne]
  · by_cases he : x = y
    · simp [he]
    · simp [hlt, he]

private theorem compare_lt (x y : List UInt8) : (compareOfLessAndEq x y == .lt) = decide (x < y) := by
  unfold compareOfLessAndEq
  by_cases hlt : x < y
  · simp [hlt]
  · by_cases he : x = y
    · subst he
      simp [List.lt_irrefl]
    · simp [hlt, he]

private theorem compare_gt (x y : List UInt8) : (compareOfLessAndEq x y == .gt) = decide (y < x) := by
  unfold compareOfLessAndEq
  by_cases hlt : x < y
  · have hnot : ¬ y < x := List.lt_asymm hlt
    simp [hlt, hnot]
  · by_cases he : x = y
    · subst he
      simp [List.lt_irrefl]
    · have hle : y ≤ x := List.not_lt.mp hlt
      have hgt : y < x := by
        rcases List.le_iff_lt_or_eq.mp hle with hgt | heq
        · exact hgt
        · exact absurd heq.symm he
      simp [hlt, he, hgt]

private theorem compare_whole (a b : Ip6) :
    memcmp a.toList b.toList 16 = .ok (compareOfLessAndEq a.toList b.toList) := by
  rw [memcmp_ok (by simp) (by simp), List.take_of_length_le (by simp), List.take_of_length_le (by simp)]

/-- The accesses of a comparison with a network stay inside of the 16 bytes. -/
private theorem samePrefix_checked (a network : Ip6) {n : Nat} (hn : n ≤ 128) :
    Checked.samePrefix a.toList network.toList n = .ok (samePrefix a network n) := by
  have hfull : Checked.compareFullBytes a.toList network.toList (n / 8) =
      .ok (compareOfLessAndEq (a.toList.take (n / 8)) (network.toList.take (n / 8))) := by
    unfold Checked.compareFullBytes
    split
    · exact memcmp_ok (by simp; omega) (by simp; omega)
    · rename_i hzero
      have hnil : n / 8 = 0 := by omega
      rw [hnil]
      rfl
  have hbytes : (compareOfLessAndEq (a.toList.take (n / 8)) (network.toList.take (n / 8)) != .eq) =
      !(a.toList.take (n / 8) == network.toList.take (n / 8)) := congrArg not (compare_eq _ _)
  rw [Checked.samePrefix, hfull, samePrefix]
  change (if (_ != Ordering.eq) = true then _ else _) = _
  rw [hbytes]
  by_cases hsame : a.toList.take (n / 8) = network.toList.take (n / 8)
  · by_cases hrest : n % 8 > 0
    · have ha : n / 8 < a.toList.length := by simp; omega
      have hb : n / 8 < network.toList.length := by simp; omega
      have hne : n % 8 ≠ 0 := by omega
      simp only [hsame, beq_self_eq_true, Bool.not_true, Bool.false_eq_true, if_false, hrest, if_true, read_getD ha,
        read_getD hb, Bool.true_and, beq_eq_false_iff_ne.mpr hne, Bool.false_or]
      rfl
    · have hzero : n % 8 = 0 := by omega
      simp only [hsame, beq_self_eq_true, Bool.not_true, Bool.false_eq_true, if_false, Bool.true_and, hzero,
        Bool.true_or]
      rfl
  · simp only [beq_eq_false_iff_ne.mpr hsame, Bool.not_false, if_true, Bool.false_and]
    rfl

/-- No comparison of `match_ip_pattern_v6` leaves the 16 bytes, whatever the pattern is. -/
private theorem matchIpPatternV6_checked (inetPton : List UInt8 → Option Ip6) (pattern : List UInt8) (a : Ip6) :
    Checked.matchIpPatternV6 inetPton pattern a = .ok (matchIpPatternV6 inetPton pattern a) := by
  rw [Checked.matchIpPatternV6, matchIpPatternV6]
  split
  · rfl
  split
  · rfl
  split
  · simp only
    split
    · rfl
    · rename_i hlen
      cases inetPton ((strncpyTruncate 128 pattern).takeWhile (· != byte '/')) with
      | none => rfl
      | some network => exact samePrefix_checked a network (by omega)
  split
  · cases inetPton ((strncpyTruncate 128 pattern).takeWhile (· != byte '-')) with
    | none => rfl
    | some start6 =>
      cases inetPton (afterFirst (byte '-') (strncpyTruncate 128 pattern)) with
      | none => rfl
      | some end6 =>
        simp only [compare_whole]
        change (if (compareOfLessAndEq a.toList start6.toList == .lt) = true then Except.ok false
          else Except.ok (compareOfLessAndEq a.toList end6.toList != .gt)) = _
        rw [compare_lt, bne, compare_gt]
        by_cases hlow : a.toList < start6.toList
        · have hnot : ¬ start6.toList ≤ a.toList := fun hle => List.not_lt.mpr hle hlow
          simp [hlow, hnot]
        · have hle : start6.toList ≤ a.toList := List.not_lt.mp hlow
          have hhigh : (!decide (end6.toList < a.toList)) = decide (a.toList ≤ end6.toList) := by
            rw [← decide_not]
            exact decide_eq_decide.mpr List.not_lt
          simp only [hlow, decide_false, Bool.false_eq_true, if_false, hle, decide_true, Bool.true_and, hhigh]
  · cases inetPton pattern with
    | none => rfl
    | some addr6 =>
      simp only [compare_whole]
      change Except.ok (compareOfLessAndEq a.toList addr6.toList == .eq) = _
      rw [compare_eq]
      congr 1
      rw [Bool.eq_iff_iff, beq_iff_eq, beq_iff_eq, Option.some.injEq, Vector.toList_inj, eq_comm]

end Accesses

section Meaning
variable {inetPton : List UInt8 → Option Ip6}

private theorem separator_ne (hpton : Ipv6Literals inetPton) {s : List UInt8} {a : Ip6} (h : inetPton s = some a) :
    byte '/' ∉ s ∧ byte '-' ∉ s := by
  constructor
  · intro hmem
    exact absurd (hpton.letters h _ hmem) (by decide)
  · intro hmem
    exact absurd (hpton.letters h _ hmem) (by decide)

private theorem truncate_short {s : List UInt8} (h : s.length < 128) : strncpyTruncate 128 s = s :=
  List.take_of_length_le (Nat.le_of_lt_succ h)

/-- A pattern with a colon goes to the three forms. -/
private theorem not_wildcard {s : List UInt8} (h : byte ':' ∈ s) : (s == wildcard) = false := by
  apply beq_eq_false_iff_ne.mpr
  rintro rfl
  exact absurd h (by decide)

private theorem samePrefix_iff_bits (a network : Ip6) {n : Nat} (hn : n ≤ 128) :
    samePrefix a network n = true ↔ ∀ i < n, BigEndian.bit a.toList i = BigEndian.bit network.toList i := by
  rw [BigEndian.bits_eq_iff (by simp; omega) (by simp; omega), samePrefix]
  simp only [Bool.and_eq_true, Bool.or_eq_true, beq_iff_eq]
  refine and_congr_right (fun _ => ?_)
  by_cases hzero : n % 8 = 0
  · simp [hzero]
  · rw [BigEndian.masked_eq_iff (Nat.mod_lt n (by decide)) (Nat.pos_of_ne_zero hzero)]
    simp [hzero]

private theorem matches_network (hpton : Ipv6Literals inetPton) {s digits : List UInt8} {network : Ip6} (a : Ip6)
    (hs : inetPton s = some network) (hne : digits ≠ []) (hd : ∀ d ∈ digits, isDigit d = true)
    (hn : decimal digits ≤ 128) (hshort : (s ++ byte '/' :: digits).length < 128) :
    matchIpPatternV6 inetPton (s ++ byte '/' :: digits) a = true ↔
      ∀ i < decimal digits, BigEndian.bit a.toList i = BigEndian.bit network.toList i := by
  have hcolon : byte ':' ∈ s ++ byte '/' :: digits := List.mem_append_left _ (hpton.colon hs)
  have hfront := takeWhile_ne_append (separator_ne hpton hs).1 digits
  have hback := afterFirst_append (separator_ne hpton hs).1 digits
  have hslash : byte '/' ∈ s ++ byte '/' :: digits := List.mem_append_right _ List.mem_cons_self
  have hvalue : atoi digits = decimal digits := atoi_decimal hd hne (by omega)
  have hrange : ¬ ((decimal digits : Int) < 0 ∨ (decimal digits : Int) > 128) := by omega
  simp only [matchIpPatternV6, not_wildcard hcolon, Bool.false_eq_true, if_false, List.contains_iff_mem.mpr hcolon,
    Bool.not_true, truncate_short hshort, List.contains_iff_mem.mpr hslash, if_true, hfront, hback, hvalue, hrange, hs,
    Int.toNat_natCast]
  exact samePrefix_iff_bits a network hn

private theorem matches_range (hpton : Ipv6Literals inetPton) {s e : List UInt8} {low high : Ip6} (a : Ip6)
    (hs : inetPton s = some low) (he : inetPton e = some high) (hshort : (s ++ byte '-' :: e).length < 128) :
    matchIpPatternV6 inetPton (s ++ byte '-' :: e) a = true ↔
      BigEndian.value low.toList ≤ BigEndian.value a.toList ∧
        BigEndian.value a.toList ≤ BigEndian.value high.toList := by
  have hcolon : byte ':' ∈ s ++ byte '-' :: e := List.mem_append_left _ (hpton.colon hs)
  have hfront := takeWhile_ne_append (separator_ne hpton hs).2 e
  have hback := afterFirst_append (separator_ne hpton hs).2 e
  have hdash : byte '-' ∈ s ++ byte '-' :: e := List.mem_append_right _ List.mem_cons_self
  have hslash : (s ++ byte '-' :: e).contains (byte '/') = false := by
    apply Bool.eq_false_iff.mpr
    intro hmem
    rcases List.mem_append.mp (List.contains_iff_mem.mp hmem) with hmem | hmem
    · exact (separator_ne hpton hs).1 hmem
    · exact (separator_ne hpton he).1 ((List.mem_cons.mp hmem).resolve_left (by decide))
  simp only [matchIpPatternV6, not_wildcard hcolon, Bool.false_eq_true, if_false, List.contains_iff_mem.mpr hcolon,
    Bool.not_true, truncate_short hshort, hslash, List.contains_iff_mem.mpr hdash, if_true, hfront, hback, hs, he,
    Bool.and_eq_true, decide_eq_true_eq]
  rw [BigEndian.le_iff_value_le (by simp), BigEndian.le_iff_value_le (by simp)]

private theorem matches_literal (hpton : Ipv6Literals inetPton) {s : List UInt8} {b : Ip6} (a : Ip6)
    (hs : inetPton s = some b) (hshort : s.length < 128) : matchIpPatternV6 inetPton s a = true ↔ a = b := by
  have hcolon := hpton.colon hs
  have hslash : s.contains (byte '/') = false :=
    Bool.eq_false_iff.mpr (fun hmem => (separator_ne hpton hs).1 (List.contains_iff_mem.mp hmem))
  have hdash : s.contains (byte '-') = false :=
    Bool.eq_false_iff.mpr (fun hmem => (separator_ne hpton hs).2 (List.contains_iff_mem.mp hmem))
  simp only [matchIpPatternV6, not_wildcard hcolon, Bool.false_eq_true, if_false, List.contains_iff_mem.mpr hcolon,
    Bool.not_true, truncate_short hshort, hslash, hdash, hs]
  rw [beq_iff_eq, Option.some.injEq, eq_comm]

/-- A network matches the addresses with its first bits, a range the addresses between its ends as
numbers, and a literal its own address; no access leaves the 16 bytes. -/
theorem matchIpPatternV6_meaning (hpton : Ipv6Literals inetPton) (a : Ip6) :
    (∀ pattern, Checked.matchIpPatternV6 inetPton pattern a = .ok (matchIpPatternV6 inetPton pattern a)) ∧
    (∀ s digits network, inetPton s = some network → digits ≠ [] → (∀ d ∈ digits, isDigit d = true) →
      decimal digits ≤ 128 → (s ++ byte '/' :: digits).length < 128 →
      (matchIpPatternV6 inetPton (s ++ byte '/' :: digits) a = true ↔
        ∀ i < decimal digits, BigEndian.bit a.toList i = BigEndian.bit network.toList i)) ∧
    (∀ s e low high, inetPton s = some low → inetPton e = some high → (s ++ byte '-' :: e).length < 128 →
      (matchIpPatternV6 inetPton (s ++ byte '-' :: e) a = true ↔
        BigEndian.value low.toList ≤ BigEndian.value a.toList ∧
          BigEndian.value a.toList ≤ BigEndian.value high.toList)) ∧
    (∀ s b, inetPton s = some b → s.length < 128 → (matchIpPatternV6 inetPton s a = true ↔ a = b)) := by
  refine ⟨fun pattern => matchIpPatternV6_checked inetPton pattern a, ?_, ?_, ?_⟩
  · intro s digits network hs hne hd hn hshort
    exact matches_network hpton a hs hne hd hn hshort
  · intro s e low high hs he hshort
    exact matches_range hpton a hs he hshort
  · intro s b hs hshort
    exact matches_literal hpton a hs hshort

end Meaning

/-- An address parser for two literals. -/
def smallInetPton (s : List UInt8) : Option Ip6 :=
  if s == lit [':', ':', '1'] then some Ip6.loopback
  else if s == lit [':', ':'] then some Ip6.zero
  else none

theorem smallInetPton_literals : Ipv6Literals smallInetPton := by
  have hcases {s : List UInt8} {a : Ip6} (h : smallInetPton s = some a) :
      s = lit [':', ':', '1'] ∨ s = lit [':', ':'] := by
    unfold smallInetPton at h
    split at h
    · exact .inl (eq_of_beq ‹_›)
    · split at h
      · exact .inr (eq_of_beq ‹_›)
      · cases h
  constructor
  · intro s a h
    rcases hcases h with rfl | rfl
    · exact List.all_eq_true.mp rfl
    · exact List.all_eq_true.mp rfl
  · intro s a h
    rcases hcases h with rfl | rfl
    · decide
    · decide
  · intro s a h
    rcases hcases h with rfl | rfl
    · decide
    · decide

theorem matchIpPatternV6_meaning_loopback :
    (matchIpPatternV6 smallInetPton (lit [':', ':', '/', '1', '2', '7']) Ip6.loopback = true ↔
      ∀ i < 127, BigEndian.bit Ip6.loopback.toList i = BigEndian.bit Ip6.zero.toList i) ∧
    matchIpPatternV6 smallInetPton (lit [':', ':', '-', ':', ':', '1']) Ip6.loopback = true ∧
    matchIpPatternV6 smallInetPton (lit [':', ':', '1']) Ip6.loopback = true := by
  obtain ⟨-, hnetwork, hrange, hliteral⟩ := matchIpPatternV6_meaning smallInetPton_literals Ip6.loopback
  refine ⟨?_, ?_, ?_⟩
  · exact hnetwork (lit [':', ':']) (lit ['1', '2', '7']) Ip6.zero (by decide) (by decide) (List.all_eq_true.mp rfl)
      (by decide) (by decide)
  · exact (hrange (lit [':', ':']) (lit [':', ':', '1']) Ip6.zero Ip6.loopback (by decide) (by decide)
      (by decide)).mpr (by decide)
  · exact (hliteral (lit [':', ':', '1']) Ip6.loopback (by decide) (by decide)).mpr rfl

end ProxyBridge.Windows
