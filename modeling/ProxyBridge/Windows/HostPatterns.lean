import ProxyBridge.Library.BigEndian
import ProxyBridge.Windows.RuleMatchers

/-! Host and port lists of IPv4 rules: what a well-formed list means, and that `match_ip_list` and
`match_port_list` compute it. -/
namespace ProxyBridge.Windows
open CStrings BigEndian

/-- The numbers of an address as they are written. The address is stored in network order, so the
first of them is the lowest byte of the word. -/
def octet (ip : UInt32) (i : Fin 4) : Nat := ip.toNat >>> (8 * i.val) % 256

/-- The number that four octets stand for, the first being the highest. -/
def quadValue (f : Fin 4 → Nat) : Nat := (List.ofFn f).foldl (fun n x => n * 256 + x) 0

/-- Four texts with dots between them. -/
def dottedQuad (f : Fin 4 → List UInt8) : List UInt8 := [byte '.'].intercalate (List.ofFn f)

abbrev OctetText := DecimalText 3 255

/-- An item of a host list; an octet that is not given is a star. -/
inductive HostItem where
  | any
  | octets (items : Fin 4 → Option OctetText)
  | range (low high : Fin 4 → OctetText)

def octetItemText : Option OctetText → List UInt8
  | none => wildcard
  | some t => t.digits

def HostItem.text : HostItem → List UInt8
  | .any => wildcard
  | .octets items => dottedQuad (fun i => octetItemText (items i))
  | .range low high => dottedQuad (fun i => (low i).digits) ++ byte '-' :: dottedQuad (fun i => (high i).digits)

def HostItem.Contains : HostItem → UInt32 → Prop
  | .any, _ => True
  | .octets items, ip => ∀ i t, items i = some t → octet ip i = t.value
  | .range low high, ip => quadValue (fun i => (low i).value) ≤ quadValue (octet ip) ∧
      quadValue (octet ip) ≤ quadValue (fun i => (high i).value)

abbrev PortText := DecimalText 5 65535

/-- An item of a port list. -/
inductive PortItem where
  | any
  | port (number : PortText)
  | range (low high : PortText)

def PortItem.text : PortItem → List UInt8
  | .any => wildcard
  | .port number => number.digits
  | .range low high => low.digits ++ byte '-' :: high.digits

def PortItem.Contains : PortItem → UInt16 → Prop
  | .any, _ => True
  | .port number, n => n.toNat = number.value
  | .range low high, n => low.value ≤ n.toNat ∧ n.toNat ≤ high.value

/-- A host list; an item that is not there is empty. -/
def hostListText (first : Option HostItem) (rest : List (Option HostItem)) : List UInt8 :=
  joinTokens (first.elim [] HostItem.text) (rest.map (fun item => (byte ';', item.elim [] HostItem.text)))

inductive PortSeparator where
  | comma
  | semicolon

def PortSeparator.byte : PortSeparator → UInt8
  | .comma => CStrings.byte ','
  | .semicolon => CStrings.byte ';'

/-- A port list, with the separator in front of each item but the first. -/
def portListText (first : Option PortItem) (rest : List (PortSeparator × Option PortItem)) : List UInt8 :=
  joinTokens (first.elim [] PortItem.text) (rest.map (fun x => (x.1.byte, x.2.elim [] PortItem.text)))

section Words

private theorem quadValue_eq (f : Fin 4 → Nat) : quadValue f = ((f 0 * 256 + f 1) * 256 + f 2) * 256 + f 3 := by
  simp [quadValue, List.ofFn_succ]

theorem dottedQuad_eq (f : Fin 4 → List UInt8) :
    dottedQuad f = f 0 ++ byte '.' :: (f 1 ++ byte '.' :: (f 2 ++ byte '.' :: f 3)) := by
  simp [dottedQuad, List.ofFn_succ, List.intercalate]

theorem toBigEndian_toNat (ip : UInt32) : (toBigEndian ip).toNat = quadValue (octet ip) := by
  have h0 : ip.toNat &&& 255 = ip.toNat % 256 := by simpa using and_mask ip.toNat 0 8
  have h1 : ip.toNat &&& 65280 = 256 * (ip.toNat / 256 % 256) := and_mask ip.toNat 8 8
  have h2 : ip.toNat &&& 16711680 = 65536 * (ip.toNat / 65536 % 256) := and_mask ip.toNat 16 8
  have h3 : ip.toNat &&& 4278190080 = 16777216 * (ip.toNat / 16777216 % 256) := and_mask ip.toNat 24 8
  have hsmall := ip.toNat_lt
  have hor := octets_or (a := ip.toNat % 256) (b := ip.toNat / 256 % 256) (c := ip.toNat / 65536 % 256)
    (d := ip.toNat / 16777216 % 256) (by omega) (by omega) (by omega)
  rw [toBigEndian]
  simp only [UInt32.toNat_or, UInt32.toNat_shiftLeft, UInt32.toNat_shiftRight, UInt32.toNat_and, UInt32.reduceToNat, h0,
    h1, h2, h3, Nat.shiftLeft_eq, Nat.shiftRight_eq_div_pow, Nat.reduceMod, Nat.reducePow]
  rw [show ip.toNat % 256 * 16777216 % 4294967296 = 16777216 * (ip.toNat % 256) by omega,
    show 256 * (ip.toNat / 256 % 256) * 256 % 4294967296 = 65536 * (ip.toNat / 256 % 256) by omega,
    show 65536 * (ip.toNat / 65536 % 256) / 256 = 256 * (ip.toNat / 65536 % 256) by omega,
    show 16777216 * (ip.toNat / 16777216 % 256) / 16777216 = ip.toNat / 16777216 % 256 by omega, hor]
  simp only [quadValue_eq, octet, Nat.shiftRight_eq_div_pow]
  change _ = ((ip.toNat / 1 % 256 * 256 + ip.toNat / 256 % 256) * 256 + ip.toNat / 65536 % 256) * 256 +
    ip.toNat / 16777216 % 256
  omega

theorem octet_index (i : Fin 4) : i = 0 ∨ i = 1 ∨ i = 2 ∨ i = 3 := by
  omega

/-- Four numbers packed as an address, the first in the lowest byte. -/
def packOctets (f : Fin 4 → Int) : UInt32 :=
  (List.zipWith (fun x shift => UInt32.ofInt x <<< shift) (List.ofFn f) [0, 8, 16, 24]).foldl (· ||| ·) 0

theorem packOctets_eq (f : Fin 4 → Int) :
    packOctets f =
      UInt32.ofInt (f 0) ||| UInt32.ofInt (f 1) <<< 8 ||| UInt32.ofInt (f 2) <<< 16 ||| UInt32.ofInt (f 3) <<< 24 := by
  simp [packOctets, List.ofFn_succ]

theorem octet_packOctets {f : Fin 4 → Nat} (hf : ∀ i, f i ≤ 255) : octet (packOctets (fun i => f i)) = f := by
  have hvalue (n : Nat) (hn : n ≤ 255) : (UInt32.ofInt n).toNat = n := by
    rw [UInt32.ofInt, UInt32.toNat_ofNat']
    omega
  have h0 := hf 0
  have h1 := hf 1
  have h2 := hf 2
  have h3 := hf 3
  have hpacked : (packOctets (fun i => f i)).toNat = 16777216 * f 3 + 65536 * f 2 + 256 * f 1 + f 0 := by
    rw [packOctets_eq]
    simp only [UInt32.toNat_or, UInt32.toNat_shiftLeft, UInt32.reduceToNat, hvalue _ h0, hvalue _ h1, hvalue _ h2,
      hvalue _ h3, Nat.shiftLeft_eq, Nat.reduceMod, Nat.reducePow]
    rw [show f 1 * 256 % 4294967296 = 256 * f 1 by omega, show f 2 * 65536 % 4294967296 = 65536 * f 2 by omega,
      show f 3 * 16777216 % 4294967296 = 16777216 * f 3 by omega,
      ← octets_or (Nat.lt_succ_of_le h2) (Nat.lt_succ_of_le h1) (Nat.lt_succ_of_le h0)]
    ac_rfl
  funext i
  rw [octet, hpacked, Nat.shiftRight_eq_div_pow]
  rcases octet_index i with rfl | rfl | rfl | rfl
  · change (_ / 1) % 256 = f 0
    omega
  · change (_ / 256) % 256 = f 1
    omega
  · change (_ / 65536) % 256 = f 2
    omega
  · change (_ / 16777216) % 256 = f 3
    omega

theorem ipOctets_toNat (ip : UInt32) :
    (ip &&& 0xFF).toNat = octet ip 0 ∧ ((ip >>> 8) &&& 0xFF).toNat = octet ip 1 ∧
      ((ip >>> 16) &&& 0xFF).toNat = octet ip 2 ∧ ((ip >>> 24) &&& 0xFF).toNat = octet ip 3 := by
  have hmask (x : Nat) : x &&& 255 = x % 256 := by simpa using and_mask x 0 8
  simp only [UInt32.toNat_and, UInt32.toNat_shiftRight, UInt32.reduceToNat, hmask]
  exact ⟨rfl, rfl, rfl, rfl⟩

end Words

section Quads

/-- The first four items of a text, whatever stands behind a dot after the fourth. -/
theorem splitOnP_dottedQuad {f : Fin 4 → List UInt8} (hf : ∀ i, byte '.' ∉ f i) {rest : List UInt8}
    (hrest : rest = [] ∨ ∃ behind, rest = byte '.' :: behind) :
    ((dottedQuad f ++ rest).splitOnP (· == byte '.')).take 4 = [f 0, f 1, f 2, f 3] := by
  have hplain (i : Fin 4) : ∀ c ∈ f i, (c == byte '.') = false := by
    intro c hc
    exact beq_eq_false_iff_ne.mpr (fun he => hf i (he ▸ hc))
  have hquad : dottedQuad f ++ rest = f 0 ++ byte '.' :: (f 1 ++ byte '.' :: (f 2 ++ byte '.' :: (f 3 ++ rest))) := by
    simp [dottedQuad_eq]
  have hdot : (byte '.' == byte '.') = true := rfl
  have hlast : ∃ more, (f 3 ++ rest).splitOnP (· == byte '.') = f 3 :: more := by
    rcases hrest with rfl | ⟨behind, rfl⟩
    · rw [List.append_nil, List.splitOnP_eq_singleton (hplain 3)]
      exact ⟨[], rfl⟩
    · rw [List.splitOnP_append_cons_of_forall_mem (hplain 3) _ hdot]
      exact ⟨_, rfl⟩
  obtain ⟨more, hmore⟩ := hlast
  rw [hquad, List.splitOnP_append_cons_of_forall_mem (hplain 0) _ hdot,
    List.splitOnP_append_cons_of_forall_mem (hplain 1) _ hdot,
    List.splitOnP_append_cons_of_forall_mem (hplain 2) _ hdot, hmore]
  rfl

/-- The octets of a pattern against those of an address, one by one. -/
theorem matchIpPattern_octets {p : List UInt8} {f : Fin 4 → List UInt8} {rest : List UInt8} (hne : p ≠ wildcard)
    (hdash : byte '-' ∉ p) (hcut : strncpyTruncate 256 p = dottedQuad f ++ rest) (hf : ∀ i, byte '.' ∉ f i)
    (hrest : rest = [] ∨ ∃ behind, rest = byte '.' :: behind) (ip : UInt32) :
    matchIpPattern p ip = true ↔ ∀ i, (f i).take 15 = wildcard ∨ atoi ((f i).take 15) = octet ip i := by
  have hoctets : patternOctets p = [(f 0).take 15, (f 1).take 15, (f 2).take 15, (f 3).take 15] := by
    rw [patternOctets, hcut, splitOnP_dottedQuad hf hrest]
    rfl
  have hnodash : p.contains (byte '-') = false :=
    Bool.eq_false_iff.mpr (fun hmem => hdash (List.contains_iff_mem.mp hmem))
  obtain ⟨h0, h1, h2, h3⟩ := ipOctets_toNat ip
  have hindex : (∀ i, (f i).take 15 = wildcard ∨ atoi ((f i).take 15) = octet ip i) ↔
      ((f 0).take 15 = wildcard ∨ atoi ((f 0).take 15) = octet ip 0) ∧
      ((f 1).take 15 = wildcard ∨ atoi ((f 1).take 15) = octet ip 1) ∧
      ((f 2).take 15 = wildcard ∨ atoi ((f 2).take 15) = octet ip 2) ∧
      ((f 3).take 15 = wildcard ∨ atoi ((f 3).take 15) = octet ip 3) := by
    constructor
    · exact fun h => ⟨h 0, h 1, h 2, h 3⟩
    · rintro ⟨g0, g1, g2, g3⟩ i
      rcases octet_index i with rfl | rfl | rfl | rfl
      · exact g0
      · exact g1
      · exact g2
      · exact g3
  rw [hindex, matchIpPattern, if_neg (by simpa using hne), hnodash]
  simp [hoctets, ipOctets, h0, h1, h2, h3]

theorem scanIpv4_dottedQuad (f : Fin 4 → OctetText) :
    scanIpv4 (dottedQuad (fun i => (f i).digits)) = some (packOctets (fun i => (f i).value)) := by
  have hdot (tail : List UInt8) : ∀ c ∈ (byte '.' :: tail).head?, isDigit c = false := by
    intro c hc
    obtain rfl := Option.some.inj hc
    rfl
  have hend := scanInt_decimal (f 3).isDigits (f 3).nonempty
  have hbyte (tail : List UInt8) : scanByte (byte '.') (byte '.' :: tail) = some tail := rfl
  rw [scanIpv4, dottedQuad_eq, packOctets_eq]
  simp only [scanInt_digits (f 0).isDigits (f 0).nonempty (hdot _),
    scanInt_digits (f 1).isDigits (f 1).nonempty (hdot _),
    scanInt_digits (f 2).isDigits (f 2).nonempty (hdot _), hend, hbyte, Option.bind_eq_bind, Option.bind_some]
  rfl

theorem length_dottedQuad (f : Fin 4 → List UInt8) :
    (dottedQuad f).length = (f 0).length + (f 1).length + (f 2).length + (f 3).length + 3 := by
  simp only [dottedQuad_eq, List.length_append, List.length_cons]
  omega

theorem mem_dottedQuad {c : UInt8} {f : Fin 4 → List UInt8} (h : c ∈ dottedQuad f) : c = byte '.' ∨ ∃ i, c ∈ f i := by
  simp only [dottedQuad_eq, List.mem_append, List.mem_cons] at h
  rcases h with h | h | h | h | h | h | h
  · exact .inr ⟨0, h⟩
  · exact .inl h
  · exact .inr ⟨1, h⟩
  · exact .inl h
  · exact .inr ⟨2, h⟩
  · exact .inl h
  · exact .inr ⟨3, h⟩

private theorem not_mem_dottedQuad {c : UInt8} {f : Fin 4 → List UInt8} (hc : c ≠ byte '.') (hf : ∀ i, c ∉ f i) :
    c ∉ dottedQuad f := by
  intro hmem
  rcases mem_dottedQuad hmem with he | ⟨i, hi⟩
  · exact hc he
  · exact hf i hi

/-- A range compares the addresses as numbers. -/
private theorem matchIpPattern_range (low high : Fin 4 → OctetText) (ip : UInt32) :
    matchIpPattern (HostItem.range low high).text ip = true ↔ (HostItem.range low high).Contains ip := by
  have hlow : byte '-' ∉ dottedQuad (fun i => (low i).digits) :=
    not_mem_dottedQuad (by decide) (fun i => (low i).not_mem rfl)
  have hcontains : (HostItem.range low high).text.contains (byte '-') = true :=
    List.contains_iff_mem.mpr (List.mem_append_right _ List.mem_cons_self)
  have hne : ((HostItem.range low high).text == wildcard) = false := by
    apply beq_eq_false_iff_ne.mpr
    intro he
    rw [he] at hcontains
    exact absurd hcontains (by decide)
  have hstart : (HostItem.range low high).text.takeWhile (· != byte '-') = dottedQuad (fun i => (low i).digits) :=
    takeWhile_ne_append hlow _
  have hend : afterFirst (byte '-') (HostItem.range low high).text = dottedQuad (fun i => (high i).digits) :=
    afterFirst_append hlow _
  have hlength (f : Fin 4 → OctetText) : (dottedQuad (fun i => (f i).digits)).length < 63 := by
    have h0 := (f 0).fits
    have h1 := (f 1).fits
    have h2 := (f 2).fits
    have h3 := (f 3).fits
    rw [length_dottedQuad]
    omega
  have hcut : strncpyTruncate 64 (dottedQuad (fun i => (high i).digits)) = dottedQuad (fun i => (high i).digits) :=
    List.take_of_length_le (Nat.le_of_lt (hlength high))
  have hfits : ¬ (dottedQuad (fun i => (low i).digits)).length ≥ 64 := by
    have hlt := hlength low
    omega
  have hoctets (f : Fin 4 → OctetText) : octet (packOctets (fun i => (f i).value)) = fun i => (f i).value :=
    octet_packOctets (f := fun i => (f i).value) (fun i => (f i).small)
  rw [matchIpPattern]
  simp only [hne, Bool.false_eq_true, if_false, hcontains, if_true, hstart, hfits, hend, hcut, scanIpv4_dottedQuad,
    Bool.and_eq_true, decide_eq_true_eq, ge_iff_le, UInt32.le_iff_toNat_le, toBigEndian_toNat, hoctets,
    HostItem.Contains]

private theorem octetItemText_not_mem (t : Option OctetText) {c : UInt8} (hc : isDigit c = false)
    (hstar : c ≠ byte '*') :
    c ∉ octetItemText t := by
  cases t with
  | none => simpa [octetItemText, wildcard, lit] using hstar
  | some t => exact t.not_mem hc

/-- A digit text is not a star. -/
private theorem digits_ne_wildcard {width bound : Nat} (t : DecimalText width bound) : t.digits ≠ wildcard := by
  intro he
  have hmem : byte '*' ∈ t.digits := he ▸ List.mem_cons_self
  exact t.not_mem rfl hmem

private theorem matchIpPattern_items (items : Fin 4 → Option OctetText) (ip : UInt32) :
    matchIpPattern (HostItem.octets items).text ip = true ↔ (HostItem.octets items).Contains ip := by
  have hshort (i : Fin 4) : (octetItemText (items i)).length ≤ 3 := by
    cases items i with
    | none => decide
    | some t => exact t.fits
  have hdot (i : Fin 4) : byte '.' ∉ octetItemText (items i) := octetItemText_not_mem _ rfl (by decide)
  have hdash : byte '-' ∉ (HostItem.octets items).text :=
    not_mem_dottedQuad (by decide) (fun i => octetItemText_not_mem _ rfl (by decide))
  have hlength : (HostItem.octets items).text.length ≤ 15 := by
    have h0 := hshort 0
    have h1 := hshort 1
    have h2 := hshort 2
    have h3 := hshort 3
    rw [HostItem.text, length_dottedQuad]
    omega
  have hcut : strncpyTruncate 256 (HostItem.octets items).text =
      dottedQuad (fun i => octetItemText (items i)) ++ [] := by
    rw [List.append_nil, strncpyTruncate, List.take_of_length_le (by omega)]
    rfl
  have hne : (HostItem.octets items).text ≠ wildcard := by
    intro he
    have hmem : byte '.' ∈ (HostItem.octets items).text := List.mem_append_right _ List.mem_cons_self
    rw [he] at hmem
    exact absurd hmem (by decide)
  rw [matchIpPattern_octets hne hdash hcut hdot (.inl rfl)]
  refine forall_congr' (fun i => ?_)
  rw [List.take_of_length_le (Nat.le_trans (hshort i) (by decide))]
  cases items i with
  | none => simp [octetItemText]
  | some t =>
    have hvalue := t.atoi_digits (by decide)
    simp only [octetItemText, digits_ne_wildcard t, false_or, hvalue, Option.some.injEq, forall_eq']
    omega

end Quads

section Items

private theorem matchIpPattern_text (item : HostItem) (ip : UInt32) :
    matchIpPattern item.text ip = true ↔ item.Contains ip := by
  cases item with
  | any => exact ⟨fun _ => trivial, fun _ => rfl⟩
  | octets items => exact matchIpPattern_items items ip
  | range low high => exact matchIpPattern_range low high ip

private theorem matchPortPattern_text (item : PortItem) (port : UInt16) :
    matchPortPattern item.text port = true ↔ item.Contains port := by
  cases item with
  | any => exact ⟨fun _ => trivial, fun _ => rfl⟩
  | port number =>
    have hdash : number.digits.contains (byte '-') = false :=
      Bool.eq_false_iff.mpr (fun hmem => number.not_mem rfl (List.contains_iff_mem.mp hmem))
    have hvalue := number.atoi_digits (by decide)
    simp only [PortItem.text, PortItem.Contains, matchPortPattern, beq_eq_false_iff_ne.mpr (digits_ne_wildcard number),
      Bool.false_eq_true, if_false, hdash, hvalue, beq_iff_eq]
    omega
  | range low high =>
    have hmem : byte '-' ∈ low.digits ++ byte '-' :: high.digits := List.mem_append_right _ List.mem_cons_self
    have hne : (low.digits ++ byte '-' :: high.digits == wildcard) = false := by
      apply beq_eq_false_iff_ne.mpr
      intro he
      rw [he] at hmem
      exact absurd hmem (by decide)
    have hlow : atoi (low.digits ++ byte '-' :: high.digits) = low.value :=
      CStrings.atoi_digits _ low.isDigits low.nonempty rfl (Nat.le_trans low.small (by decide))
    have hend : afterFirst (byte '-') (low.digits ++ byte '-' :: high.digits) = high.digits :=
      afterFirst_append (low.not_mem rfl) _
    have hhigh := high.atoi_digits (by decide)
    simp only [PortItem.text, PortItem.Contains, matchPortPattern, hne, Bool.false_eq_true, if_false,
      List.contains_iff_mem.mpr hmem, if_true, hlow, hend, hhigh, Bool.and_eq_true, decide_eq_true_eq]
    omega

end Items

section Lists

private theorem listCopy_whole {text : List UInt8} (h : text.length ≤ 65536) :
    listCopy (fun _ => true) text = some text := by
  have hlen : min text.length maxListSize = text.length := Nat.min_eq_left h
  unfold listCopy
  simp only [hlen, if_true]
  split
  · rw [strncpyTruncate, List.take_of_length_le (by omega)]
  · rw [strncpyTruncate, List.take_of_length_le (by omega)]

/-- A list that is copied whole is matched token by token; so is the one that is just a star. -/
private theorem parseTokenList_any {list delimiters : List UInt8} {matchFunc : List UInt8 → Bool}
    (hwild : matchFunc wildcard = true) (hstar : delimiters.contains (byte '*') = false) (hne : list ≠ [])
    (hlen : list.length ≤ 65536) :
    parseTokenList (fun _ => true) list delimiters matchFunc =
      (strtok delimiters list).any (fun token => matchFunc (skipWhitespace token)) := by
  rw [parseTokenList, listCopy_whole hlen, List.isEmpty_eq_false_iff.mpr hne]
  by_cases hw : list = wildcard
  · have hsplit : wildcard.splitOnP (fun c => delimiters.contains c) = [wildcard] :=
      List.splitOnP_eq_singleton (by simpa [wildcard, lit] using hstar)
    have hone : strtok delimiters wildcard = [wildcard] := by
      rw [strtok, hsplit]
      rfl
    have hskip : skipWhitespace wildcard = wildcard := rfl
    subst hw
    simp [hone, hskip, hwild]
  · simp [hw]

/-- A list whose items hold no delimiters and no leading blanks is matched item by item. -/
private theorem parseTokenList_items {Item : Type} {text : Item → List UInt8} (delimiters : List UInt8)
    (matchFunc : List UInt8 → Bool) (hplain : ∀ item, text item ≠ [] ∧ skipWhitespace (text item) = text item ∧
      ∀ c ∈ text item, delimiters.contains c = false)
    (hwild : matchFunc wildcard = true) (hstar : delimiters.contains (byte '*') = false) (first : Option Item)
    (rest : List (UInt8 × Option Item)) (hsep : ∀ x ∈ rest, delimiters.contains x.1 = true)
    (hne : joinTokens (first.elim [] text) (rest.map (fun x => (x.1, x.2.elim [] text))) ≠ [])
    (hlen : (joinTokens (first.elim [] text) (rest.map (fun x => (x.1, x.2.elim [] text)))).length ≤ 65536) :
    parseTokenList (fun _ => true) (joinTokens (first.elim [] text) (rest.map (fun x => (x.1, x.2.elim [] text))))
        delimiters matchFunc = true ↔
      ∃ item, (first = some item ∨ some item ∈ rest.map (·.2)) ∧ matchFunc (text item) = true := by
  have hitem (item : Option Item) : ∀ c ∈ item.elim [] text, delimiters.contains c = false := by
    cases item with
    | none => exact fun c hc => nomatch hc
    | some item => exact (hplain item).2.2
  have hseps : ∀ y ∈ rest.map (fun x => (x.1, x.2.elim [] text)),
      delimiters.contains y.1 = true ∧ ∀ c ∈ y.2, delimiters.contains c = false := by
    intro y hy
    obtain ⟨x, hx, rfl⟩ := List.mem_map.mp hy
    exact ⟨hsep x hx, hitem x.2⟩
  rw [parseTokenList_any hwild hstar hne hlen, strtok_joinTokens _ (hitem first) hseps, List.any_filter,
    List.any_eq_true]
  constructor
  · rintro ⟨token, hmem, htoken⟩
    obtain ⟨hnonempty, htoken⟩ := Bool.and_eq_true_iff.mp htoken
    have hsome (item : Option Item) (he : item.elim [] text = token) :
        ∃ i, item = some i ∧ matchFunc (text i) = true := by
      cases item with
      | none =>
        subst he
        cases hnonempty
      | some i =>
        obtain rfl : text i = token := he
        rw [(hplain i).2.1] at htoken
        exact ⟨i, rfl, htoken⟩
    rcases List.mem_cons.mp hmem with he | hmem
    · obtain ⟨i, hi, htext⟩ := hsome first he.symm
      exact ⟨i, .inl hi, htext⟩
    · rw [List.map_map] at hmem
      obtain ⟨x, hx, he⟩ := List.mem_map.mp hmem
      obtain ⟨i, hi, htext⟩ := hsome x.2 he
      exact ⟨i, .inr (List.mem_map.mpr ⟨x, hx, hi⟩), htext⟩
  · rintro ⟨i, hi, htext⟩
    obtain ⟨hnonempty, hskip, -⟩ := hplain i
    refine ⟨text i, ?_, ?_⟩
    · rcases hi with rfl | hi
      · exact List.mem_cons_self
      · obtain ⟨x, hx, he⟩ := List.mem_map.mp hi
        rw [List.map_map]
        refine List.mem_cons_of_mem _ (List.mem_map.mpr ⟨x, hx, ?_⟩)
        change x.2.elim [] text = text i
        rw [he]
        rfl
    · rw [hskip, htext]
      simpa using hnonempty

/-- The bytes that the items of host and port lists are made of. -/
private def itemByte (c : UInt8) : Bool := isDigit c || c == byte '*' || c == byte '.' || c == byte '-'

private theorem itemByte_plain {c : UInt8} (h : itemByte c = true) :
    isBlank c = false ∧ c ≠ byte ',' ∧ c ≠ byte ';' := by
  refine ⟨?_, ?_, ?_⟩
  · apply Bool.eq_false_iff.mpr
    intro hblank
    rcases (Bool.or_eq_true _ _).mp hblank with hc | hc
    · rw [eq_of_beq hc] at h
      exact absurd h (by decide)
    · rw [eq_of_beq hc] at h
      exact absurd h (by decide)
  · rintro rfl
    exact absurd h (by decide)
  · rintro rfl
    exact absurd h (by decide)

private theorem plain_text {s : List UInt8} (hne : s ≠ []) (h : ∀ c ∈ s, itemByte c = true) :
    s ≠ [] ∧ skipWhitespace s = s ∧ ∀ c ∈ s, c ≠ byte ',' ∧ c ≠ byte ';' := by
  refine ⟨hne, ?_, fun c hc => (itemByte_plain (h c hc)).2⟩
  obtain ⟨c, tail, rfl⟩ := List.exists_cons_of_ne_nil hne
  simp [skipWhitespace, (itemByte_plain (h c List.mem_cons_self)).1]

private theorem digits_itemByte {width bound : Nat} (t : DecimalText width bound) :
    ∀ c ∈ t.digits, itemByte c = true := by
  intro c hc
  simp [itemByte, t.isDigits c hc]

private theorem octetItemText_itemByte (t : Option OctetText) : ∀ c ∈ octetItemText t, itemByte c = true := by
  cases t with
  | none => exact List.all_eq_true.mp rfl
  | some t => exact digits_itemByte t

private theorem dottedQuad_itemByte {f : Fin 4 → List UInt8} (hf : ∀ i, ∀ c ∈ f i, itemByte c = true) :
    dottedQuad f ≠ [] ∧ ∀ c ∈ dottedQuad f, itemByte c = true := by
  constructor
  · exact List.append_ne_nil_of_right_ne_nil _ (List.cons_ne_nil _ _)
  · intro c hc
    rcases mem_dottedQuad hc with rfl | ⟨i, hi⟩
    · rfl
    · exact hf i c hi

private theorem HostItem.text_plain (item : HostItem) :
    item.text ≠ [] ∧ skipWhitespace item.text = item.text ∧ ∀ c ∈ item.text, c ≠ byte ',' ∧ c ≠ byte ';' := by
  cases item with
  | any => exact plain_text (by decide) (List.all_eq_true.mp rfl)
  | octets items =>
    obtain ⟨hne, hbytes⟩ := dottedQuad_itemByte (fun i => octetItemText_itemByte (items i))
    exact plain_text hne hbytes
  | range low high =>
    obtain ⟨-, hlow⟩ := dottedQuad_itemByte (fun i => digits_itemByte (low i))
    obtain ⟨-, hhigh⟩ := dottedQuad_itemByte (fun i => digits_itemByte (high i))
    refine plain_text (List.append_ne_nil_of_right_ne_nil _ (List.cons_ne_nil _ _)) ?_
    intro c hc
    rcases List.mem_append.mp hc with hc | hc
    · exact hlow c hc
    · rcases List.mem_cons.mp hc with rfl | hc
      · rfl
      · exact hhigh c hc

private theorem PortItem.text_plain (item : PortItem) :
    item.text ≠ [] ∧ skipWhitespace item.text = item.text ∧ ∀ c ∈ item.text, c ≠ byte ',' ∧ c ≠ byte ';' := by
  cases item with
  | any => exact plain_text (by decide) (List.all_eq_true.mp rfl)
  | port number => exact plain_text number.nonempty (digits_itemByte number)
  | range low high =>
    refine plain_text (List.append_ne_nil_of_right_ne_nil _ (List.cons_ne_nil _ _)) ?_
    intro c hc
    rcases List.mem_append.mp hc with hc | hc
    · exact digits_itemByte low c hc
    · rcases List.mem_cons.mp hc with rfl | hc
      · rfl
      · exact digits_itemByte high c hc

private theorem matchIpList_items (ip : UInt32) (first : Option HostItem) (rest : List (Option HostItem))
    (hne : hostListText first rest ≠ []) (hlen : (hostListText first rest).length ≤ 65536) :
    matchIpList (fun _ => true) (hostListText first rest) ip = true ↔
      ∃ item, (first = some item ∨ some item ∈ rest) ∧ item.Contains ip := by
  have htext : hostListText first rest = joinTokens (first.elim [] HostItem.text)
      ((rest.map (fun item => (byte ';', item))).map (fun x => (x.1, x.2.elim [] HostItem.text))) := by
    rw [List.map_map]
    rfl
  have hmap : (rest.map (fun item => (byte ';', item))).map (·.2) = rest := by
    rw [List.map_map]
    exact List.map_id _
  have hplain (item : HostItem) : item.text ≠ [] ∧ skipWhitespace item.text = item.text ∧
      ∀ c ∈ item.text, (lit [';']).contains c = false := by
    obtain ⟨hnonempty, hskip, hdelimiters⟩ := item.text_plain
    refine ⟨hnonempty, hskip, fun c hc => ?_⟩
    simpa [lit] using (hdelimiters c hc).2
  have hsep : ∀ x ∈ rest.map (fun item => (byte ';', item)), (lit [';']).contains x.1 = true := by simp [lit]
  have hlist := parseTokenList_items (lit [';']) (matchIpPattern · ip) hplain rfl rfl first _ hsep
    (by rwa [← htext]) (by rwa [← htext])
  rw [← htext, hmap] at hlist
  rw [matchIpList, hlist]
  simp only [matchIpPattern_text]

private theorem matchPortList_items (port : UInt16) (first : Option PortItem)
    (rest : List (PortSeparator × Option PortItem)) (hne : portListText first rest ≠ [])
    (hlen : (portListText first rest).length ≤ 65536) :
    matchPortList (fun _ => true) (portListText first rest) port = true ↔
      ∃ item, (first = some item ∨ some item ∈ rest.map (·.2)) ∧ item.Contains port := by
  have htext : portListText first rest = joinTokens (first.elim [] PortItem.text)
      ((rest.map (fun x => (x.1.byte, x.2))).map (fun x => (x.1, x.2.elim [] PortItem.text))) := by
    rw [List.map_map]
    rfl
  have hmap : (rest.map (fun x => (x.1.byte, x.2))).map (·.2) = rest.map (·.2) := by
    rw [List.map_map]
    rfl
  have hplain (item : PortItem) : item.text ≠ [] ∧ skipWhitespace item.text = item.text ∧
      ∀ c ∈ item.text, (lit [',', ';']).contains c = false := by
    obtain ⟨hnonempty, hskip, hdelimiters⟩ := item.text_plain
    refine ⟨hnonempty, hskip, fun c hc => ?_⟩
    simpa [lit] using hdelimiters c hc
  have hsep : ∀ y ∈ rest.map (fun x => (x.1.byte, x.2)), (lit [',', ';']).contains y.1 = true := by
    intro y hy
    obtain ⟨x, -, rfl⟩ := List.mem_map.mp hy
    cases x.1 with
    | comma => rfl
    | semicolon => rfl
  have hlist := parseTokenList_items (lit [',', ';']) (matchPortPattern · port) hplain rfl rfl first _ hsep
    (by rwa [← htext]) (by rwa [← htext])
  rw [← htext, hmap] at hlist
  rw [matchPortList, hlist]
  simp only [matchPortPattern_text]

/-- A well-formed host or port list matches what one of its items contains; empty items count for
nothing. -/
theorem matchLists_decide_items :
    (∀ (ip : UInt32) (first : Option HostItem) (rest : List (Option HostItem)), hostListText first rest ≠ [] →
      (hostListText first rest).length ≤ 65536 →
      (matchIpList (fun _ => true) (hostListText first rest) ip = true ↔
        ∃ item, (first = some item ∨ some item ∈ rest) ∧ item.Contains ip)) ∧
    (∀ (port : UInt16) (first : Option PortItem) (rest : List (PortSeparator × Option PortItem)),
      portListText first rest ≠ [] → (portListText first rest).length ≤ 65536 →
      (matchPortList (fun _ => true) (portListText first rest) port = true ↔
        ∃ item, (first = some item ∨ some item ∈ rest.map (·.2)) ∧ item.Contains port)) :=
  ⟨matchIpList_items, matchPortList_items⟩

def httpPort : PortText := ⟨lit ['8', '0'], List.all_eq_true.mp rfl, by decide, by decide, by decide⟩

theorem matchLists_decide_items_http :
    matchIpList (fun _ => true) (lit ['*', ';']) 0 = true ∧
      matchPortList (fun _ => true) (lit ['8', '0', ',']) 80 = true :=
  ⟨(matchLists_decide_items.1 0 (some .any) [none] (by decide) (by decide)).mpr ⟨.any, .inl rfl, trivial⟩,
    (matchLists_decide_items.2 80 (some (.port httpPort)) [(.comma, none)] (by decide) (by decide)).mpr
      ⟨.port httpPort, .inl rfl, rfl⟩⟩

end Lists

end ProxyBridge.Windows
