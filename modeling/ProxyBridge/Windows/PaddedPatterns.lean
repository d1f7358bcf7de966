import ProxyBridge.Windows.Ipv6Patterns

/-! Items of lists with blanks behind them. `parse_token_list` leaves those to the matcher, and some of the patterns
break with them. -/
namespace ProxyBridge.Windows
open CStrings

/-- Four octets, of which the last is a star at the end of the text. -/
def starLast (text : List UInt8) : Bool :=
  let octets := text.splitOnP (· == byte '.')
  !text.contains (byte '-') && decide (text.length < 255) && octets.length == 4 && octets.getLast? == some wildcard

/-- A star with blanks is no longer a star: as a whole item it has no four octets, and as an octet it
is read as 0. -/
def brokenIp (ip : UInt32) (text after : List UInt8) : Bool :=
  !after.isEmpty && (text == wildcard || (starLast text && (ip >>> 24) &&& 0xFF != 0))

/-- Only the length of a network may have blanks behind it, and what does not fit into the copy. -/
def brokenIpV6 (text after : List UInt8) : Bool :=
  let patCopy := strncpyTruncate 128 text
  !after.isEmpty && (text == wildcard ||
    (!patCopy.contains (byte '/') && !(patCopy.contains (byte '-') && decide (127 ≤ text.length))))

/-- A star with blanks is the number 0. -/
def brokenPort (port : UInt16) (text after : List UInt8) : Bool :=
  !after.isEmpty && text == wildcard && port != 0

section Items
variable {text after : List UInt8}

theorem isBlank_cases {c : UInt8} (h : isBlank c = true) : c = byte ' ' ∨ c = byte '\t' := by
  simpa [isBlank] using h

private theorem isSpace_of_isBlank {c : UInt8} (h : isBlank c = true) : isSpace c = true := by
  rcases isBlank_cases h with rfl | rfl
  · decide
  · decide

private theorem not_mem_blanks (h : ∀ c ∈ after, isBlank c = true) {c : UInt8} (hc : isBlank c = false) :
    c ∉ after := by
  intro hmem
  rw [h c hmem] at hc
  cases hc

private theorem contains_append_blanks (s : List UInt8) (h : ∀ c ∈ after, isBlank c = true) {c : UInt8}
    (hc : isBlank c = false) : (s ++ after).contains c = s.contains c := by
  rw [Bool.eq_iff_iff, List.contains_iff_mem, List.contains_iff_mem, List.mem_append]
  exact or_iff_left (not_mem_blanks h hc)

/-- Blanks make no star. -/
private theorem append_blanks_ne_wildcard (h : ∀ c ∈ after, isBlank c = true) (hne : after ≠ []) :
    text ++ after ≠ wildcard := by
  intro hw
  have hstar : byte '*' ∉ after := not_mem_blanks h (by decide)
  cases text with
  | nil =>
    rw [List.nil_append] at hw
    rw [hw] at hstar
    exact hstar List.mem_cons_self
  | cons c text =>
    have htail : text ++ after = [] := (List.cons.inj hw).2
    exact hne (List.append_eq_nil_iff.mp htail).2

/-- A star with blanks behind it is no number. -/
private theorem atoi_star (h : ∀ c ∈ after, isBlank c = true) : atoi (wildcard ++ after) = 0 := by
  rw [atoi_append_spaces _ (fun c hc => isSpace_of_isBlank (h c hc))]
  rfl

theorem matchPortPattern_append_blanks (h : ∀ c ∈ after, isBlank c = true) (port : UInt16) :
    matchPortPattern (text ++ after) port = (matchPortPattern text port && !brokenPort port text after) := by
  by_cases hne : after = []
  · simp [hne, brokenPort]
  have hspaces : ∀ c ∈ after, isSpace c = true := fun c hc => isSpace_of_isBlank (h c hc)
  have hpadded : (text ++ after == wildcard) = false := by simpa using append_blanks_ne_wildcard h hne
  have hdash := contains_append_blanks text h (by decide : isBlank (byte '-') = false)
  by_cases hw : text = wildcard
  · subst hw
    have hstar : wildcard.contains (byte '-') = false := by decide
    rw [hstar] at hdash
    have hzero : ((port.toNat : Int) == 0) = (port == 0) := by
      rw [Bool.eq_iff_iff, beq_iff_eq, beq_iff_eq, ← UInt16.toNat_inj]
      exact Int.natCast_eq_zero
    simp only [matchPortPattern, hpadded, hdash, atoi_star h, hzero, Bool.false_eq_true, if_false]
    simp [brokenPort, hne, bne]
  · have hplain : (text == wildcard) = false := by simpa using hw
    simp only [matchPortPattern, hpadded, hdash, hplain, brokenPort, Bool.false_eq_true, if_false, Bool.and_false,
      Bool.false_and, Bool.not_false, Bool.and_true]
    split
    · rename_i hmem
      rw [afterFirst_append_of_mem (List.contains_iff_mem.mp hmem), atoi_append_spaces _ hspaces,
        atoi_append_spaces _ hspaces]
    · rw [atoi_append_spaces _ hspaces]

private theorem scanByte_append_spaces (c : UInt8) (s : List UInt8) {b : List UInt8} (hb : c ∉ b) :
    scanByte c (s ++ b) = (scanByte c s).map (· ++ b) := by
  cases s with
  | nil =>
    cases b with
    | nil => rfl
    | cons d b =>
      have hd : (d == c) = false := by simpa using fun he : d = c => hb (he ▸ List.mem_cons_self)
      simp [scanByte, hd]
  | cons d s =>
    simp only [List.cons_append, scanByte]
    split
    · rfl
    · rfl

theorem scanIpv4_append_blanks (s : List UInt8) (h : ∀ c ∈ after, isBlank c = true) :
    scanIpv4 (s ++ after) = scanIpv4 s := by
  have hspaces : ∀ c ∈ after, isSpace c = true := fun c hc => isSpace_of_isBlank (h c hc)
  have hdot : byte '.' ∉ after := not_mem_blanks h (by decide)
  have hnumber : ∀ s : List UInt8, scanInt (s ++ after) = (scanInt s).map (fun x => (x.1, x.2 ++ after)) :=
    fun s => scanInt_append_spaces s hspaces
  have hbyte : ∀ s : List UInt8, scanByte (byte '.') (s ++ after) = (scanByte (byte '.') s).map (· ++ after) :=
    fun s => scanByte_append_spaces _ s hdot
  simp only [scanIpv4, hnumber, hbyte, Option.bind_eq_bind, Option.bind_map, Function.comp_def]

/-- Blanks behind a text belong to the last of its pieces. -/
private theorem splitOnP_append_blanks (h : byte '.' ∉ after) (s : List UInt8) :
    ∃ pieces last, s.splitOnP (· == byte '.') = pieces ++ [last] ∧
      (s ++ after).splitOnP (· == byte '.') = pieces ++ [last ++ after] ∧ last <:+ s := by
  have hplain : ∀ x : List UInt8, byte '.' ∉ x → ∀ c ∈ x, (c == byte '.') = false := by
    intro x hx c hc
    simpa using fun he : c = byte '.' => hx (he ▸ hc)
  induction hn : s.length using Nat.strongRecOn generalizing s with
  | ind n ih =>
    by_cases hdot : byte '.' ∈ s
    · obtain ⟨a, ha, hs⟩ := eq_append_afterFirst hdot
      obtain ⟨pieces, last, hsplit, hpadded, hsuffix⟩ := ih (afterFirst (byte '.') s).length (by
        have hlen := congrArg List.length hs
        simp at hlen
        omega) (afterFirst (byte '.') s) rfl
      refine ⟨a :: pieces, last, ?_, ?_, ?_⟩
      · rw [hs, List.splitOnP_append_cons_of_forall_mem (hplain a ha) _ rfl, hsplit]
        rfl
      · rw [hs, List.append_assoc, List.cons_append, List.splitOnP_append_cons_of_forall_mem (hplain a ha) _ rfl,
          hpadded]
        rfl
      · rw [hs]
        exact hsuffix.trans ((List.suffix_cons _ _).trans (List.suffix_append _ _))
    · refine ⟨[], s, List.splitOnP_eq_singleton (hplain s hdot), ?_, List.suffix_rfl⟩
      refine List.splitOnP_eq_singleton (hplain _ fun hmem => ?_)
      rcases List.mem_append.mp hmem with hmem | hmem
      · exact hdot hmem
      · exact h hmem

/-- The test of the items of a dotted pattern. -/
private def octetsMatch (octets : List (List UInt8)) (ip : UInt32) : Bool :=
  octets.length == 4 && (octets.zip (ipOctets ip)).all (fun x => x.1 == wildcard || atoi x.1 == x.2.toNat)

private theorem octetsMatch_append {front : List (List UInt8)} (hfront : front.length = 3) (last : List UInt8)
    (ip : UInt32) : octetsMatch (front ++ [last]) ip =
      ((front.zip (ipOctets ip)).all (fun x => x.1 == wildcard || atoi x.1 == x.2.toNat) &&
        (last == wildcard || atoi last == ((ip >>> 24) &&& 0xFF).toNat)) := by
  obtain ⟨a, b, c, rfl⟩ := List.length_eq_three.mp hfront
  simp [octetsMatch, ipOctets, Bool.and_assoc]

private theorem eq_wildcard_of_take {x : List UInt8} (h : x.take 15 = wildcard) : x = wildcard := by
  have hlen := congrArg List.length h
  have hone : wildcard.length = 1 := rfl
  rw [List.length_take, hone] at hlen
  rwa [List.take_of_length_le (by omega)] at h

/-- At most 15 bytes of an octet are read, and of these the blanks do not count unless they follow a star. -/
private theorem octet_append_blanks (h : ∀ c ∈ after, isBlank c = true) (last : List UInt8) (n : Nat) :
    ((last ++ after).take 15 == wildcard || atoi ((last ++ after).take 15) == (n : Int)) =
      ((last.take 15 == wildcard || atoi (last.take 15) == (n : Int)) &&
        !(last == wildcard && !after.isEmpty && n != 0)) := by
  by_cases hne : after = []
  · simp [hne]
  have hnumber : atoi ((last ++ after).take 15) = atoi (last.take 15) := by
    rw [List.take_append]
    exact atoi_append_spaces _ (fun c hc => isSpace_of_isBlank (h c (List.mem_of_mem_take hc)))
  have hpadded : ((last ++ after).take 15 == wildcard) = false :=
    beq_eq_false_iff_ne.mpr fun htake => append_blanks_ne_wildcard h hne (eq_wildcard_of_take htake)
  have hempty : after.isEmpty = false := List.isEmpty_eq_false_iff.mpr hne
  rw [hpadded, hnumber, hempty]
  by_cases hw : last = wildcard
  · subst hw
    have hstar : (wildcard.take 15 == wildcard) = true := rfl
    have hzero : (atoi (wildcard.take 15) == (n : Int)) = (n == 0) := by
      have hatoi : atoi (wildcard.take 15) = 0 := rfl
      rw [hatoi, Bool.eq_iff_iff, beq_iff_eq, beq_iff_eq, eq_comm]
      exact Int.natCast_eq_zero
    rw [hstar, hzero]
    simp [bne]
  · have hplain : (last.take 15 == wildcard) = false :=
      beq_eq_false_iff_ne.mpr fun htake => hw (eq_wildcard_of_take htake)
    rw [hplain, beq_eq_false_iff_ne.mpr hw]
    simp

private theorem octetsMatch_append_blanks (h : ∀ c ∈ after, isBlank c = true) (pieces : List (List UInt8))
    (last : List UInt8) (ip : UInt32) :
    octetsMatch (((pieces ++ [last ++ after]).take 4).map (·.take 15)) ip =
      (octetsMatch (((pieces ++ [last]).take 4).map (·.take 15)) ip &&
        !(pieces.length == 3 && last == wildcard && !after.isEmpty && (ip >>> 24) &&& 0xFF != 0)) := by
  rcases Nat.lt_trichotomy pieces.length 3 with hlen | hlen | hlen
  · have hfew : ∀ x : List UInt8, octetsMatch (((pieces ++ [x]).take 4).map (·.take 15)) ip = false := by
      intro x
      have hne : (((pieces ++ [x]).take 4).map (·.take 15)).length ≠ 4 := by
        simp
        omega
      rw [octetsMatch, beq_eq_false_iff_ne.mpr hne, Bool.false_and]
    rw [hfew, hfew, Bool.false_and]
  · have hall : ∀ x : List UInt8, ((pieces ++ [x]).take 4).map (·.take 15) =
        pieces.map (·.take 15) ++ [x.take 15] := by
      intro x
      rw [List.take_of_length_le (by simp [hlen]), List.map_append]
      rfl
    have hmap : (pieces.map (·.take 15)).length = 3 := by rw [List.length_map, hlen]
    have hoctet : ((ip >>> 24) &&& 0xFF != 0) = (((ip >>> 24) &&& 0xFF).toNat != 0) := by
      rw [Bool.eq_iff_iff, bne_iff_ne, bne_iff_ne, ne_eq, ne_eq, ← UInt32.toNat_inj]
      rfl
    rw [hall, hall, octetsMatch_append hmap, octetsMatch_append hmap, octet_append_blanks h, hlen, hoctet]
    simp [Bool.and_assoc]
  · have hmany : ∀ x : List UInt8, (pieces ++ [x]).take 4 = pieces.take 4 := fun x =>
      List.take_append_of_le_length hlen
    have hne : (pieces.length == 3) = false := by
      rw [beq_eq_false_iff_ne]
      omega
    rw [hmany, hmany, hne]
    simp

/-- Of the blanks behind a text of at least `n` bytes a buffer for `n` bytes has none. -/
private theorem take_behind_eq_nil {n : Nat} (h : n ≤ text.length) : after.take (n - text.length) = [] := by
  rw [Nat.sub_eq_zero_of_le h]
  rfl

private theorem take_behind_ne_nil {n : Nat} (hne : after ≠ []) (h : text.length < n) :
    after.take (n - text.length) ≠ [] := by
  rw [ne_eq, List.take_eq_nil_iff]
  rintro (hzero | hnil)
  · omega
  · exact hne hnil

private theorem strncpyTruncate_append (n : Nat) (s t : List UInt8) :
    strncpyTruncate n (s ++ t) = strncpyTruncate n s ++ t.take (n - 1 - s.length) := by
  rw [strncpyTruncate, strncpyTruncate, List.take_append]

private theorem ne_wildcard_of_contains {c : UInt8} (h : text.contains c = true) (hc : wildcard.contains c = false) :
    (text == wildcard) = false := by
  rw [beq_eq_false_iff_ne]
  rintro rfl
  rw [hc] at h
  cases h

/-- The end of a range is read up to the blanks. -/
private theorem matchIpPattern_range_append_blanks (h : ∀ c ∈ after, isBlank c = true) (hne : after ≠ []) (ip : UInt32)
    (hmem : text.contains (byte '-') = true) : matchIpPattern (text ++ after) ip = matchIpPattern text ip := by
  have hpadded : (text ++ after == wildcard) = false := beq_eq_false_iff_ne.mpr (append_blanks_ne_wildcard h hne)
  have hdash := contains_append_blanks text h (by decide : isBlank (byte '-') = false)
  have hplain := ne_wildcard_of_contains hmem (by decide)
  have hend : scanIpv4 (strncpyTruncate 64 (afterFirst (byte '-') text ++ after)) =
      scanIpv4 (strncpyTruncate 64 (afterFirst (byte '-') text)) := by
    rw [strncpyTruncate_append]
    exact scanIpv4_append_blanks _ (fun c hc => h c (List.mem_of_mem_take hc))
  have hin := List.contains_iff_mem.mp hmem
  rw [hmem] at hdash
  simp only [matchIpPattern, hpadded, hplain, hdash, hmem, takeWhile_ne_append_of_mem hin,
    afterFirst_append_of_mem hin, hend, Bool.false_eq_true, if_false, if_true]

/-- Four octets with a star at the end, as the copy of the text and of the blanks behind it shows. -/
private theorem starLast_eq (hne : after ≠ []) (hno : text.contains (byte '-') = false) {pieces : List (List UInt8)}
    {last : List UInt8} (hsplit : (text.take 255).splitOnP (· == byte '.') = pieces ++ [last]) :
    (pieces.length == 3 && last == wildcard && !(after.take (255 - text.length)).isEmpty) = starLast text := by
  by_cases hlen : text.length < 255
  · have hsome := List.isEmpty_eq_false_iff.mpr (take_behind_ne_nil hne hlen)
    rw [List.take_of_length_le (Nat.le_of_lt hlen)] at hsplit
    have hfour : (pieces.length + 1 == 4) = (pieces.length == 3) := by
      rw [Bool.eq_iff_iff, beq_iff_eq, beq_iff_eq]
      omega
    rw [starLast, hsplit, hno, hsome]
    simp [hlen, hfour]
  · rw [starLast, take_behind_eq_nil (Nat.le_of_not_lt hlen)]
    simp [hlen]

theorem matchIpPattern_nil (ip : UInt32) : matchIpPattern [] ip = false := rfl

theorem matchIpPattern_append_blanks (h : ∀ c ∈ after, isBlank c = true) (ip : UInt32) :
    matchIpPattern (text ++ after) ip = (matchIpPattern text ip && !brokenIp ip text after) := by
  by_cases hne : after = []
  · simp [hne, brokenIp]
  have hempty : after.isEmpty = false := List.isEmpty_eq_false_iff.mpr hne
  have hpadded : (text ++ after == wildcard) = false := beq_eq_false_iff_ne.mpr (append_blanks_ne_wildcard h hne)
  by_cases hmem : text.contains (byte '-') = true
  · have hbroken : brokenIp ip text after = false := by
      rw [brokenIp, starLast, ne_wildcard_of_contains hmem (by decide), hmem]
      simp
    rw [matchIpPattern_range_append_blanks h hne ip hmem, hbroken, Bool.not_false, Bool.and_true]
  · have hno : text.contains (byte '-') = false := Bool.eq_false_of_not_eq_true hmem
    have hdash := contains_append_blanks text h (by decide : isBlank (byte '-') = false)
    rw [hno] at hdash
    have hoctets : ∀ p : List UInt8, p.contains (byte '-') = false → (p == wildcard) = false →
        matchIpPattern p ip = octetsMatch (patternOctets p) ip := by
      intro p hp hw
      simp only [matchIpPattern, hw, hp, Bool.false_eq_true, if_false]
      rfl
    have hcut : ∀ c ∈ after.take (255 - text.length), isBlank c = true := fun c hc => h c (List.mem_of_mem_take hc)
    obtain ⟨pieces, last, hsplit, hsplit', -⟩ :=
      splitOnP_append_blanks (not_mem_blanks hcut (by decide)) (text.take 255)
    have hcopy : patternOctets (text ++ after) =
        ((pieces ++ [last ++ after.take (255 - text.length)]).take 4).map (·.take 15) := by
      rw [patternOctets, strncpyTruncate, List.take_append, hsplit']
    rw [hoctets _ hdash hpadded, hcopy, octetsMatch_append_blanks hcut]
    by_cases hw : text = wildcard
    · subst hw
      obtain ⟨rfl, rfl⟩ : pieces = [] ∧ last = wildcard := by
        have hone : [wildcard] = pieces ++ [last] := hsplit
        simpa [eq_comm] using List.append_eq_singleton_iff.mp hone.symm
      simp [brokenIp, hempty, octetsMatch]
    · have hplain : (text == wildcard) = false := beq_eq_false_iff_ne.mpr hw
      have htext : patternOctets text = ((pieces ++ [last]).take 4).map (·.take 15) := by
        rw [patternOctets, strncpyTruncate, hsplit]
      rw [hoctets _ hno hplain, htext, starLast_eq hne hno hsplit]
      simp [brokenIp, hempty, hplain]

/-- No address ends in a blank. -/
private theorem inetPton_append_blanks {inetPton : List UInt8 → Option Ip6} (hpton : Ipv6Literals inetPton)
    (s : List UInt8) {blanks : List UInt8} (hne : blanks ≠ []) (h : ∀ c ∈ blanks, isBlank c = true) :
    inetPton (s ++ blanks) = none := by
  by_contra hsome
  obtain ⟨a, ha⟩ := Option.ne_none_iff_exists'.mp hsome
  obtain ⟨c, b, rfl⟩ := List.exists_cons_of_ne_nil hne
  have hletter := hpton.letters ha c (List.mem_append_right _ List.mem_cons_self)
  rcases isBlank_cases (h c List.mem_cons_self) with rfl | rfl
  · exact absurd hletter (by decide)
  · exact absurd hletter (by decide)

/-- The end of a range is broken by the blanks that its copy has. -/
private theorem brokenIpV6_range (hne : after ≠ []) (hplain : (text == wildcard) = false)
    (hno : (strncpyTruncate 128 text).contains (byte '/') = false)
    (hrange : (strncpyTruncate 128 text).contains (byte '-') = true) :
    brokenIpV6 text after = !(after.take (127 - text.length)).isEmpty := by
  have hempty : after.isEmpty = false := List.isEmpty_eq_false_iff.mpr hne
  by_cases hlen : 127 ≤ text.length
  · rw [brokenIpV6, hplain, hrange, take_behind_eq_nil hlen]
    simp [hlen]
  · rw [brokenIpV6, hplain, hno, hempty,
      List.isEmpty_eq_false_iff.mpr (take_behind_ne_nil hne (Nat.lt_of_not_le hlen))]
    simp [hlen]

theorem matchIpPatternV6_nil (inetPton : List UInt8 → Option Ip6) (ip6 : Ip6) :
    matchIpPatternV6 inetPton [] ip6 = false := rfl

theorem matchIpPatternV6_append_blanks {inetPton : List UInt8 → Option Ip6} (hpton : Ipv6Literals inetPton)
    (h : ∀ c ∈ after, isBlank c = true) (ip6 : Ip6) :
    matchIpPatternV6 inetPton (text ++ after) ip6 =
      (matchIpPatternV6 inetPton text ip6 && !brokenIpV6 text after) := by
  by_cases hne : after = []
  · simp [hne, brokenIpV6]
  have hempty : after.isEmpty = false := List.isEmpty_eq_false_iff.mpr hne
  have hpadded : (text ++ after == wildcard) = false := beq_eq_false_iff_ne.mpr (append_blanks_ne_wildcard h hne)
  have hcolon := contains_append_blanks text h (by decide : isBlank (byte ':') = false)
  by_cases hw : text = wildcard
  · subst hw
    have hstar : wildcard.contains (byte ':') = false := by decide
    rw [hstar] at hcolon
    simp only [matchIpPatternV6, hpadded, hcolon, Bool.false_eq_true, if_false, Bool.not_false, if_true]
    simp [brokenIpV6, hempty]
  have hplain : (text == wildcard) = false := beq_eq_false_iff_ne.mpr hw
  by_cases hmem : text.contains (byte ':') = true
  swap
  · have hno : text.contains (byte ':') = false := Bool.eq_false_of_not_eq_true hmem
    rw [hno] at hcolon
    simp only [matchIpPatternV6, hpadded, hplain, hcolon, hno, Bool.false_eq_true, if_false, Bool.not_false, if_true,
      Bool.false_and]
  rw [hmem] at hcolon
  have hcopy : strncpyTruncate 128 (text ++ after) = strncpyTruncate 128 text ++ after.take (127 - text.length) :=
    strncpyTruncate_append 128 text after
  have hcut : ∀ c ∈ after.take (127 - text.length), isBlank c = true := fun c hc => h c (List.mem_of_mem_take hc)
  have hslash := contains_append_blanks (strncpyTruncate 128 text) hcut
    (by decide : isBlank (byte '/') = false)
  have hdash := contains_append_blanks (strncpyTruncate 128 text) hcut
    (by decide : isBlank (byte '-') = false)
  simp only [matchIpPatternV6, hpadded, hplain, hcolon, hmem, hcopy, hslash, hdash, Bool.false_eq_true, if_false,
    Bool.not_true]
  by_cases hnetwork : (strncpyTruncate 128 text).contains (byte '/') = true
  · have hbroken : brokenIpV6 text after = false := by
      rw [brokenIpV6, hplain, hnetwork]
      simp
    have hin := List.contains_iff_mem.mp hnetwork
    simp only [hnetwork, hbroken, if_true, takeWhile_ne_append_of_mem hin, afterFirst_append_of_mem hin,
      atoi_append_spaces _ (fun c hc => isSpace_of_isBlank (hcut c hc)), Bool.not_false, Bool.and_true]
  have hno : (strncpyTruncate 128 text).contains (byte '/') = false := Bool.eq_false_of_not_eq_true hnetwork
  by_cases hrange : (strncpyTruncate 128 text).contains (byte '-') = true
  · have hin := List.contains_iff_mem.mp hrange
    simp only [hno, hrange, Bool.false_eq_true, if_false, if_true, takeWhile_ne_append_of_mem hin,
      afterFirst_append_of_mem hin]
    rw [brokenIpV6_range hne hplain hno hrange]
    by_cases hnil : after.take (127 - text.length) = []
    · rw [hnil, List.append_nil, List.isEmpty_nil, Bool.not_true, Bool.not_false, Bool.and_true]
    · rw [inetPton_append_blanks hpton _ hnil hcut, List.isEmpty_eq_false_iff.mpr hnil, Bool.not_false, Bool.not_true,
        Bool.and_false]
      split
      · rename_i hcontra
        cases hcontra
      · rfl
  · have hnodash : (strncpyTruncate 128 text).contains (byte '-') = false := Bool.eq_false_of_not_eq_true hrange
    have hbroken : brokenIpV6 text after = true := by
      rw [brokenIpV6, hno, hnodash, hempty]
      simp
    simp only [hno, hnodash, Bool.false_eq_true, if_false, inetPton_append_blanks hpton _ hne h, hbroken, Bool.not_true,
      Bool.and_false]
    rfl

end Items

end ProxyBridge.Windows
