import ProxyBridge.Windows.HostPatterns
import ProxyBridge.Windows.Ipv6Patterns

/-! Host patterns outside of the documented forms. `atoi` and `sscanf_s` stop at the first byte that
they cannot use, so some of these patterns are read as one of the forms and match addresses. -/
namespace ProxyBridge.Windows
open CStrings

def IsNumber (bound : Nat) (s : List UInt8) : Prop := s ≠ [] ∧ (∀ c ∈ s, isDigit c = true) ∧ decimal s ≤ bound

/-- The documented forms of a host pattern. -/
inductive Documented (inetPton : List UInt8 → Option Ip6) : List UInt8 → Prop where
  | any : Documented inetPton wildcard
  | octets {f : Fin 4 → List UInt8} : (∀ i, f i = wildcard ∨ IsNumber 255 (f i)) → Documented inetPton (dottedQuad f)
  | range {low high : Fin 4 → List UInt8} : (∀ i, IsNumber 255 (low i)) → (∀ i, IsNumber 255 (high i)) →
      Documented inetPton (dottedQuad low ++ byte '-' :: dottedQuad high)
  | literal {s : List UInt8} {a : Ip6} : inetPton s = some a → Documented inetPton s
  | network {s digits : List UInt8} {a : Ip6} : inetPton s = some a → IsNumber 128 digits →
      Documented inetPton (s ++ byte '/' :: digits)
  | rangeV6 {s e : List UInt8} {low high : Ip6} : inetPton s = some low → inetPton e = some high →
      Documented inetPton (s ++ byte '-' :: e)

/-- Without a dash, the first 255 bytes start with four items, and `atoi` reads the first 15 bytes
of each as an octet unless it is a star. -/
def ReadsAsOctets (p : List UInt8) : Prop :=
  byte '-' ∉ p ∧ ∃ (f : Fin 4 → List UInt8) (rest : List UInt8), p.take 255 = dottedQuad f ++ rest ∧
    (rest = [] ∨ ∃ behind, rest = byte '.' :: behind) ∧
    ∀ i, byte '.' ∉ f i ∧
      ((f i).take 15 = wildcard ∨ 0 ≤ atoi ((f i).take 15) ∧ atoi ((f i).take 15) ≤ 255)

/-- `sscanf_s` reads an address from the fewer than 64 bytes in front of the first dash and from the
first 63 behind it, and the first address is not above the second. -/
def ReadsAsRange (p : List UInt8) : Prop :=
  ∃ (front back : List UInt8) (low high : UInt32), p = front ++ byte '-' :: back ∧ byte '-' ∉ front ∧
    front.length < 64 ∧ scanIpv4 front = some low ∧ scanIpv4 (back.take 63) = some high ∧
    toBigEndian low ≤ toBigEndian high

/-- In the first 127 bytes a slash follows an IPv6 literal, and `atoi` reads what is behind it as a
prefix length. -/
def ReadsAsNetwork (inetPton : List UInt8 → Option Ip6) (p : List UInt8) : Prop :=
  ∃ (s suffix : List UInt8) (network : Ip6), p.take 127 = s ++ byte '/' :: suffix ∧ inetPton s = some network ∧
    0 ≤ atoi suffix ∧ atoi suffix ≤ 128

section Ipv4

/-- A text splits at its first dot, or has none. -/
private theorem splitOnP_dot (l : List UInt8) :
    (byte '.' ∉ l ∧ l.splitOnP (· == byte '.') = [l]) ∨
      ∃ a b, l = a ++ byte '.' :: b ∧ byte '.' ∉ a ∧ l.splitOnP (· == byte '.') = a :: b.splitOnP (· == byte '.') := by
  have hplain {s : List UInt8} (h : byte '.' ∉ s) : ∀ c ∈ s, (c == byte '.') = false := by
    intro c hc
    exact beq_eq_false_iff_ne.mpr (fun he => h (he ▸ hc))
  by_cases hdot : byte '.' ∈ l
  · obtain ⟨a, ha, hl⟩ := eq_append_afterFirst hdot
    refine .inr ⟨a, afterFirst (byte '.') l, hl, ha, ?_⟩
    conv_lhs => rw [hl]
    rw [List.splitOnP_append_cons_of_forall_mem (hplain ha) _ rfl]
  · exact .inl ⟨hdot, List.splitOnP_eq_singleton (hplain hdot)⟩

/-- Four items are only found where the text starts with them. -/
private theorem dottedQuad_of_length {l : List UInt8} (h : ((l.splitOnP (· == byte '.')).take 4).length = 4) :
    ∃ (f : Fin 4 → List UInt8) (rest : List UInt8), l = dottedQuad f ++ rest ∧
      (rest = [] ∨ ∃ behind, rest = byte '.' :: behind) ∧ ∀ i, byte '.' ∉ f i := by
  have hall {a b c d : List UInt8} (ha : byte '.' ∉ a) (hb : byte '.' ∉ b) (hc : byte '.' ∉ c) (hd : byte '.' ∉ d) :
      ∀ i : Fin 4, byte '.' ∉ [a, b, c, d].getD i.val [] := by
    intro i
    rcases octet_index i with rfl | rfl | rfl | rfl
    · exact ha
    · exact hb
    · exact hc
    · exact hd
  rcases splitOnP_dot l with ⟨-, hs⟩ | ⟨a, l', rfl, ha, hs⟩
  · simp [hs] at h
  rw [hs] at h
  rcases splitOnP_dot l' with ⟨-, hs⟩ | ⟨b, l', rfl, hb, hs⟩
  · simp [hs] at h
  rw [hs] at h
  rcases splitOnP_dot l' with ⟨-, hs⟩ | ⟨c, l', rfl, hc, hs⟩
  · simp [hs] at h
  rcases splitOnP_dot l' with ⟨hd, -⟩ | ⟨d, behind, rfl, hd, -⟩
  · refine ⟨fun i => [a, b, c, l'].getD i.val [], [], ?_, .inl rfl, hall ha hb hc hd⟩
    rw [dottedQuad_eq]
    exact (List.append_nil _).symm
  · refine ⟨fun i => [a, b, c, d].getD i.val [], byte '.' :: behind, ?_, .inr ⟨behind, rfl⟩, hall ha hb hc hd⟩
    rw [dottedQuad_eq]
    change _ = (a ++ byte '.' :: (b ++ byte '.' :: (c ++ byte '.' :: d))) ++ byte '.' :: behind
    simp

private theorem octet_le (ip : UInt32) (i : Fin 4) : octet ip i ≤ 255 :=
  Nat.le_of_lt_succ (Nat.mod_lt _ (by decide))

private theorem matchesV4_of_octets {p : List UInt8} (hne : p ≠ wildcard) (hdash : byte '-' ∉ p) :
    (∃ ip, matchIpPattern p ip = true) ↔ ReadsAsOctets p := by
  constructor
  · rintro ⟨ip, h⟩
    have hlength : (patternOctets p).length = 4 := by
      have hnodash : p.contains (byte '-') = false :=
        Bool.eq_false_iff.mpr (fun hmem => hdash (List.contains_iff_mem.mp hmem))
      rw [matchIpPattern, if_neg (by simpa using hne), hnodash] at h
      exact eq_of_beq (Bool.and_eq_true_iff.mp h).1
    rw [patternOctets, List.length_map] at hlength
    obtain ⟨f, rest, hcut, hrest, hf⟩ := dottedQuad_of_length hlength
    rw [matchIpPattern_octets hne hdash hcut hf hrest] at h
    refine ⟨hdash, f, rest, hcut, hrest, fun i => ⟨hf i, (h i).imp id ?_⟩⟩
    intro hvalue
    have hle := octet_le ip i
    omega
  · rintro ⟨-, f, rest, hcut, hrest, hf⟩
    have hbound (i : Fin 4) : (if (f i).take 15 = wildcard then 0 else (atoi ((f i).take 15)).toNat) ≤ 255 := by
      split
      · exact Nat.zero_le _
      · rename_i hi
        have hvalue := (hf i).2.resolve_left hi
        omega
    refine ⟨packOctets (fun i =>
      ((if (f i).take 15 = wildcard then 0 else (atoi ((f i).take 15)).toNat : Nat) : Int)), ?_⟩
    rw [matchIpPattern_octets hne hdash hcut (fun i => (hf i).1) hrest, octet_packOctets hbound]
    intro i
    by_cases hi : (f i).take 15 = wildcard
    · exact .inl hi
    · have hvalue := (hf i).2.resolve_left hi
      refine .inr ?_
      simp only [hi, if_false]
      omega

private theorem matchesV4_of_range {p : List UInt8} (hdash : byte '-' ∈ p) :
    (∃ ip, matchIpPattern p ip = true) ↔ ReadsAsRange p := by
  obtain ⟨front, hfront, hp⟩ := eq_append_afterFirst hdash
  generalize afterFirst (byte '-') p = back at hp
  subst hp
  have hne : (front ++ byte '-' :: back == wildcard) = false := by
    apply beq_eq_false_iff_ne.mpr
    intro he
    rw [he] at hdash
    exact absurd hdash (by decide)
  have hmatch (ip : UInt32) : matchIpPattern (front ++ byte '-' :: back) ip = true ↔
      front.length < 64 ∧ ∃ low high, scanIpv4 front = some low ∧ scanIpv4 (back.take 63) = some high ∧
        toBigEndian low ≤ toBigEndian ip ∧ toBigEndian ip ≤ toBigEndian high := by
    have hcut : strncpyTruncate 64 back = back.take 63 := rfl
    rw [matchIpPattern]
    simp only [hne, Bool.false_eq_true, if_false, List.contains_iff_mem.mpr hdash, if_true,
      takeWhile_ne_append hfront, afterFirst_append hfront, hcut]
    by_cases hlen : front.length ≥ 64
    · simp [hlen]
    · have hlt : front.length < 64 := by omega
      rw [if_neg hlen]
      cases scanIpv4 front with
      | none => simp
      | some low =>
        cases scanIpv4 (back.take 63) with
        | none => simp
        | some high => simp [hlt]
  constructor
  · rintro ⟨ip, h⟩
    obtain ⟨hlen, low, high, hlow, hhigh, hle, hle'⟩ := (hmatch ip).mp h
    exact ⟨front, back, low, high, rfl, hfront, hlen, hlow, hhigh, UInt32.le_trans hle hle'⟩
  · rintro ⟨front', back', low, high, hsplit, hfront', hlen, hlow, hhigh, hle⟩
    have hsame : front' = front := by
      rw [← takeWhile_ne_append hfront' back', ← hsplit, takeWhile_ne_append hfront]
    have hback : back' = back := by
      rw [← afterFirst_append hfront' back', ← hsplit, afterFirst_append hfront]
    subst hsame hback
    exact ⟨low, (hmatch low).mpr ⟨hlen, low, high, hlow, hhigh, UInt32.le_refl _, hle⟩⟩

/-- The malformed patterns that match some IPv4 address. -/
private theorem matchesV4_iff {p : List UInt8} (hne : p ≠ wildcard) :
    (∃ ip, matchIpPattern p ip = true) ↔ ReadsAsOctets p ∨ ReadsAsRange p := by
  by_cases hdash : byte '-' ∈ p
  · rw [matchesV4_of_range hdash]
    constructor
    · exact .inr
    · rintro (h | h)
      · exact absurd hdash h.1
      · exact h
  · rw [matchesV4_of_octets hne hdash]
    constructor
    · exact .inl
    · rintro (h | ⟨front, back, low, high, rfl, -⟩)
      · exact h
      · exact absurd (List.mem_append_right _ List.mem_cons_self) hdash

end Ipv4

section Ipv6
variable {inetPton : List UInt8 → Option Ip6}

private theorem samePrefix_self (a : Ip6) (n : Nat) : samePrefix a a n = true := by
  simp [samePrefix]

/-- A text splits at the first occurrence of a byte. -/
private theorem split_first {c : UInt8} {s : List UInt8} (h : c ∈ s) :
    s = s.takeWhile (· != c) ++ c :: afterFirst c s := by
  obtain ⟨a, ha, hs⟩ := eq_append_afterFirst h
  have htake : s.takeWhile (· != c) = a := by
    conv_lhs => rw [hs]
    exact takeWhile_ne_append ha _
  rw [htake]
  exact hs

/-- The range of two literals is short enough to be copied whole. -/
private theorem documented_rangeV6 (hpton : Ipv6Literals inetPton) {p s e : List UInt8} {low high : Ip6}
    (hs : inetPton s = some low) (he : inetPton e = some high) (hcut : p.take 127 = s ++ byte '-' :: e) :
    Documented inetPton p := by
  have hlength : (p.take 127).length ≤ 91 := by
    have h1 := hpton.short hs
    have h2 := hpton.short he
    rw [hcut, List.length_append, List.length_cons]
    omega
  have hwhole : p.take 127 = p := by
    apply List.take_of_length_le
    rw [List.length_take] at hlength
    omega
  rw [← hwhole, hcut]
  exact .rangeV6 hs he

/-- The malformed patterns that match some IPv6 address. -/
private theorem matchesV6_iff (hpton : Ipv6Literals inetPton) {p : List UInt8} (h : ¬ Documented inetPton p) :
    (∃ ip6, matchIpPatternV6 inetPton p ip6 = true) ↔ ReadsAsNetwork inetPton p := by
  have hne : (p == wildcard) = false := by
    apply beq_eq_false_iff_ne.mpr
    rintro rfl
    exact h .any
  have hcut : strncpyTruncate 128 p = p.take 127 := rfl
  constructor
  · rintro ⟨ip6, hmatch⟩
    rw [matchIpPatternV6] at hmatch
    simp only [hne, Bool.false_eq_true, if_false, hcut] at hmatch
    split at hmatch
    · cases hmatch
    split at hmatch
    · rename_i hslash
      have hsplit := split_first (List.contains_iff_mem.mp hslash)
      split at hmatch
      · cases hmatch
      · rename_i hrange
        cases hs : inetPton ((p.take 127).takeWhile (· != byte '/')) with
        | none =>
          rw [hs] at hmatch
          cases hmatch
        | some network => exact ⟨_, _, network, hsplit, hs, by omega, by omega⟩
    split at hmatch
    · rename_i hdash
      have hsplit := split_first (List.contains_iff_mem.mp hdash)
      cases hs : inetPton ((p.take 127).takeWhile (· != byte '-')) with
      | none =>
        rw [hs] at hmatch
        cases hmatch
      | some low =>
        cases he : inetPton (afterFirst (byte '-') (p.take 127)) with
        | none =>
          rw [hs, he] at hmatch
          cases hmatch
        | some high => exact absurd (documented_rangeV6 hpton hs he hsplit) h
    · exact absurd (.literal (eq_of_beq hmatch)) h
  · rintro ⟨s, suffix, network, hsplit, hs, hlow, hhigh⟩
    have hslash : byte '/' ∉ s := fun hmem => absurd (hpton.letters hs _ hmem) (by decide)
    have hmem : byte '/' ∈ s ++ byte '/' :: suffix := List.mem_append_right _ List.mem_cons_self
    have hcolon : byte ':' ∈ p := by
      apply List.mem_of_mem_take (i := 127)
      rw [hsplit]
      exact List.mem_append_left _ (hpton.colon hs)
    have hrange : ¬ (atoi suffix < 0 ∨ atoi suffix > 128) := by omega
    refine ⟨network, ?_⟩
    simp only [matchIpPatternV6, hne, Bool.false_eq_true, if_false, List.contains_iff_mem.mpr hcolon, Bool.not_true,
      hcut,
      hsplit, List.contains_iff_mem.mpr hmem, if_true, takeWhile_ne_append hslash, afterFirst_append hslash, hrange, hs]
    exact samePrefix_self network _

end Ipv6

/-- A malformed pattern matches no address unless the parsers read one of the forms from it. -/
theorem malformed_matches_nothing_iff {inetPton : List UInt8 → Option Ip6} (hpton : Ipv6Literals inetPton)
    {p : List UInt8} (h : ¬ Documented inetPton p) :
    ((∀ ip, matchIpPattern p ip = false) ∧ ∀ ip6, matchIpPatternV6 inetPton p ip6 = false) ↔
      ¬ (ReadsAsOctets p ∨ ReadsAsRange p ∨ ReadsAsNetwork inetPton p) := by
  have hne : p ≠ wildcard := by
    rintro rfl
    exact h .any
  have hv4 : (∀ ip, matchIpPattern p ip = false) ↔ ¬ (ReadsAsOctets p ∨ ReadsAsRange p) := by
    rw [← matchesV4_iff hne, not_exists]
    simp only [Bool.not_eq_true]
  have hv6 : (∀ ip6, matchIpPatternV6 inetPton p ip6 = false) ↔ ¬ ReadsAsNetwork inetPton p := by
    rw [← matchesV6_iff hpton h, not_exists]
    simp only [Bool.not_eq_true]
  rw [hv4, hv6, ← or_assoc]
  exact not_or.symm

section Inputs

private theorem number_bytes {bound : Nat} {s : List UInt8} (h : IsNumber bound s) :
    ∀ c ∈ s, isLiteralByte c = true := by
  intro c hc
  simp [isLiteralByte, h.2.1 c hc]

private theorem dottedQuad_bytes {f : Fin 4 → List UInt8} (hf : ∀ i, IsNumber 255 (f i)) :
    ∀ c ∈ dottedQuad f, isLiteralByte c = true := by
  intro c hc
  rcases mem_dottedQuad hc with rfl | ⟨i, hi⟩
  · rfl
  · exact number_bytes (hf i) c hi

/-- Documented patterns hold the bytes of numbers and literals, stars and separators. -/
private theorem documented_bytes {inetPton : List UInt8 → Option Ip6} (hpton : Ipv6Literals inetPton) {p : List UInt8}
    (h : Documented inetPton p) :
    ∀ c ∈ p, isLiteralByte c = true ∨ c = byte '*' ∨ c = byte '-' ∨ c = byte '/' := by
  intro c hc
  cases h with
  | any => exact .inr (.inl (List.mem_singleton.mp hc))
  | octets hf =>
    rcases mem_dottedQuad hc with rfl | ⟨i, hi⟩
    · exact .inl rfl
    · rcases hf i with hwild | hnumber
      · rw [hwild] at hi
        exact .inr (.inl (List.mem_singleton.mp hi))
      · exact .inl (number_bytes hnumber c hi)
  | range hlow hhigh =>
    rcases List.mem_append.mp hc with hc | hc
    · exact .inl (dottedQuad_bytes hlow c hc)
    · rcases List.mem_cons.mp hc with rfl | hc
      · exact .inr (.inr (.inl rfl))
      · exact .inl (dottedQuad_bytes hhigh c hc)
  | literal hs => exact .inl (hpton.letters hs c hc)
  | network hs hdigits =>
    rcases List.mem_append.mp hc with hc | hc
    · exact .inl (hpton.letters hs c hc)
    · rcases List.mem_cons.mp hc with rfl | hc
      · exact .inr (.inr (.inr rfl))
      · exact .inl (number_bytes hdigits c hc)
  | rangeV6 hs he =>
    rcases List.mem_append.mp hc with hc | hc
    · exact .inl (hpton.letters hs c hc)
    · rcases List.mem_cons.mp hc with rfl | hc
      · exact .inr (.inr (.inl rfl))
      · exact .inl (hpton.letters he c hc)

private theorem not_documented_of_x {p : List UInt8} (h : byte 'x' ∈ p) : ¬ Documented smallInetPton p := by
  intro hdoc
  exact absurd (documented_bytes smallInetPton_literals hdoc _ h) (by decide)

end Inputs

/-- The pattern `10.0.0.1x` is malformed and matches 10.0.0.1, and so is `::1/x`, which matches
every IPv6 address. -/
theorem malformed_pattern_widens :
    ¬ Documented smallInetPton (lit ['1', '0', '.', '0', '.', '0', '.', '1', 'x']) ∧
    matchIpPattern (lit ['1', '0', '.', '0', '.', '0', '.', '1', 'x']) 16777226 = true ∧
    ¬ Documented smallInetPton (lit [':', ':', '1', '/', 'x']) ∧
    matchIpPatternV6 smallInetPton (lit [':', ':', '1', '/', 'x']) Ip6.zero = true := by
  refine ⟨not_documented_of_x (by decide), ?_, not_documented_of_x (by decide), by decide⟩
  have hitems : strncpyTruncate 256 (lit ['1', '0', '.', '0', '.', '0', '.', '1', 'x']) =
      dottedQuad (fun i => [lit ['1', '0'], lit ['0'], lit ['0'], lit ['1', 'x']].getD i.val []) ++ [] := rfl
  rw [matchIpPattern_octets (by decide) (by decide) hitems (by decide) (.inl rfl)]
  decide

/-- That `::1/x` matches something shows that a network is read from it. -/
theorem malformed_matches_nothing_iff_network :
    matchIpPatternV6 smallInetPton (lit [':', ':', '1', '/', 'x']) Ip6.zero = true ∧
    (ReadsAsOctets (lit [':', ':', '1', '/', 'x']) ∨ ReadsAsRange (lit [':', ':', '1', '/', 'x']) ∨
      ReadsAsNetwork smallInetPton (lit [':', ':', '1', '/', 'x'])) := by
  have hmatch : matchIpPatternV6 smallInetPton (lit [':', ':', '1', '/', 'x']) Ip6.zero = true := by decide
  refine ⟨hmatch, ?_⟩
  by_contra hnone
  have hnothing := (malformed_matches_nothing_iff smallInetPton_literals (not_documented_of_x (by decide))).mpr hnone
  cases hmatch.symm.trans (hnothing.2 Ip6.zero)

end ProxyBridge.Windows
