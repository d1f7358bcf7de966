import Mathlib.Algebra.Group.Nat.Defs
import ProxyBridge.Library.CStrings

/-! IP addresses as they are written. A literal is the tree of its text, from which both the text
and the address are read. -/
namespace IpLiterals
open CStrings

def isHexDigit (c : UInt8) : Bool :=
  isDigit (toLower c) || (decide (97 ≤ toLower c) && decide (toLower c ≤ 102))

def hexDigit (c : UInt8) : Nat :=
  if isDigit (toLower c) then (toLower c).toNat - 48 else (toLower c).toNat - 87

/-- The digit with a value, in lower case. -/
def hexByte (n : Nat) : UInt8 := (if n < 10 then 48 + n else 87 + n).toUInt8

def hexadecimal (digits : List UInt8) : Nat := digits.foldl (fun n c => n * 16 + hexDigit c) 0

/-- One of the eight numbers of an IPv6 address, of one to four digits in either case. -/
structure HexText where
  digits : List UInt8
  isHex : ∀ c ∈ digits, isHexDigit c = true
  nonempty : digits ≠ []
  fits : digits.length ≤ 4

def HexText.value (t : HexText) : Nat := hexadecimal t.digits

structure Ipv4Literal where
  first : DecimalText 3 255
  second : DecimalText 3 255
  third : DecimalText 3 255
  fourth : DecimalText 3 255

def Ipv4Literal.items (q : Ipv4Literal) : List (List UInt8) :=
  [q.first.digits, q.second.digits, q.third.digits, q.fourth.digits]

def Ipv4Literal.text (q : Ipv4Literal) : List UInt8 := [byte '.'].intercalate q.items

/-- The address as two numbers of 16 bits. -/
def Ipv4Literal.words (q : Ipv4Literal) : List Nat :=
  [q.first.value * 256 + q.second.value, q.third.value * 256 + q.fourth.value]

/-- Hexadecimal numbers, and perhaps an IPv4 address that stands for the last two. -/
structure Groups where
  hex : List HexText
  quad : Option Ipv4Literal

def Groups.pieces (g : Groups) : List (List UInt8) := g.hex.map HexText.digits ++ g.quad.elim [] (fun q => [q.text])

def Groups.text (g : Groups) : List UInt8 := [byte ':'].intercalate g.pieces

def Groups.words (g : Groups) : List Nat := g.hex.map HexText.value ++ g.quad.elim [] Ipv4Literal.words

/-- All eight numbers, or fewer with a double colon that stands for zeros. -/
inductive Ipv6Literal where
  | full (groups : Groups) (eight : groups.words.length = 8)
  | gap (front : List HexText) (back : Groups) (short : front.length + back.words.length ≤ 7)

def Ipv6Literal.text : Ipv6Literal → List UInt8
  | .full groups _ => groups.text
  | .gap front back _ => [byte ':'].intercalate (front.map HexText.digits) ++ byte ':' :: byte ':' :: back.text

def Ipv6Literal.words : Ipv6Literal → List Nat
  | .full groups _ => groups.words
  | .gap front back _ =>
    front.map HexText.value ++ (List.replicate (8 - (front.length + back.words.length)) 0 ++ back.words)

def isAlphanumeric (c : UInt8) : Bool :=
  isDigit c || (decide (97 ≤ toLower c) && decide (toLower c ≤ 122))

structure Zone where
  name : List UInt8
  isPlain : ∀ c ∈ name, isAlphanumeric c = true
  nonempty : name ≠ []

/-- An IPv6 address, perhaps with the interface that it belongs to. -/
structure ScopedLiteral where
  address : Ipv6Literal
  zone : Option Zone

def ScopedLiteral.text (a : ScopedLiteral) : List UInt8 :=
  a.address.text ++ a.zone.elim [] (fun zone => byte '%' :: zone.name)

/-- The bits of an address in words of 16 bits, from the highest of the first word on. -/
def wordBit (words : List Nat) (i : Nat) : Bool := (words.getD (i / 16) 0).testBit (15 - i % 16)

/-- The address has the first `n` bits of the network. -/
def InNetwork (words network : List Nat) (n : Nat) : Prop := ∀ i < n, wordBit words i = wordBit network i

section Digits

private theorem toLower_toNat_of_hex {c : UInt8} (h : isHexDigit c = true) :
    (48 ≤ (toLower c).toNat ∧ (toLower c).toNat ≤ 57 ∧ hexDigit c = (toLower c).toNat - 48) ∨
      (97 ≤ (toLower c).toNat ∧ (toLower c).toNat ≤ 102 ∧ hexDigit c = (toLower c).toNat - 87) := by
  rw [hexDigit]
  by_cases hd : isDigit (toLower c) = true
  · rw [if_pos hd]
    obtain ⟨hlow, hhigh⟩ := (isDigit_iff _).mp hd
    exact .inl ⟨hlow, hhigh, rfl⟩
  · rw [if_neg hd]
    rw [isHexDigit, Bool.or_eq_true, Bool.and_eq_true, decide_eq_true_eq, decide_eq_true_eq] at h
    obtain ⟨hlow, hhigh⟩ := h.resolve_left hd
    exact .inr ⟨UInt8.le_iff_toNat_le.mp hlow, UInt8.le_iff_toNat_le.mp hhigh, rfl⟩

theorem hexDigit_lt {c : UInt8} (h : isHexDigit c = true) : hexDigit c < 16 := by
  rcases toLower_toNat_of_hex h with ⟨-, hhigh, hvalue⟩ | ⟨-, hhigh, hvalue⟩
  · omega
  · omega

/-- A digit is determined by its value, but for its case. -/
theorem toLower_eq_hexByte {c : UInt8} (h : isHexDigit c = true) : toLower c = hexByte (hexDigit c) := by
  apply UInt8.toNat_inj.mp
  rw [hexByte, Nat.toUInt8_eq, UInt8.toNat_ofNat']
  rcases toLower_toNat_of_hex h with ⟨hlow, hhigh, hvalue⟩ | ⟨hlow, hhigh, hvalue⟩
  · rw [if_pos (by omega)]
    omega
  · rw [if_neg (by omega)]
    omega

/-- A hexadecimal digit is no separator. -/
theorem hexText_not_mem (t : HexText) {c : UInt8} (h : isHexDigit c = false) : c ∉ t.digits := by
  intro hmem
  rw [t.isHex c hmem] at h
  cases h

private theorem foldl_lt (digits : List UInt8) (h : ∀ c ∈ digits, isHexDigit c = true) (n : Nat) :
    digits.foldl (fun n c => n * 16 + hexDigit c) n < (n + 1) * 16 ^ digits.length := by
  induction digits generalizing n with
  | nil => simp
  | cons c digits ih =>
    have hc := hexDigit_lt (h c List.mem_cons_self)
    have hrest := ih (fun d hd => h d (List.mem_cons_of_mem _ hd)) (n * 16 + hexDigit c)
    have hmul := Nat.mul_le_mul_right (16 ^ digits.length) (by omega : n * 16 + hexDigit c + 1 ≤ (n + 1) * 16)
    rw [List.foldl_cons, List.length_cons, Nat.pow_succ', ← Nat.mul_assoc]
    exact Nat.lt_of_lt_of_le hrest hmul

private theorem le_foldl (digits : List UInt8) (n : Nat) :
    n * 16 ^ digits.length ≤ digits.foldl (fun n c => n * 16 + hexDigit c) n := by
  induction digits generalizing n with
  | nil => simp
  | cons c digits ih =>
    rw [List.foldl_cons, List.length_cons, Nat.pow_succ', ← Nat.mul_assoc]
    exact Nat.le_trans (Nat.mul_le_mul_right _ (Nat.le_add_right _ _)) (ih _)

/-- A number that is not small has four digits, which its value determines. -/
theorem HexText.four_digits (t : HexText) (h : 0x1000 ≤ t.value) :
    t.digits.map toLower = [hexByte (t.value / 4096), hexByte (t.value / 256 % 16), hexByte (t.value / 16 % 16),
      hexByte (t.value % 16)] := by
  have hlt := foldl_lt t.digits t.isHex 0
  have hlen : t.digits.length = 4 := by
    by_contra hne
    have hfits := t.fits
    have hpow : 16 ^ t.digits.length ≤ 16 ^ 3 := Nat.pow_le_pow_right (by decide) (by omega)
    rw [HexText.value, hexadecimal] at h
    omega
  obtain ⟨a, b, c, d, hdigits⟩ : ∃ a b c d, t.digits = [a, b, c, d] :=
    ⟨_, _, _, _, List.eq_getElem_of_length_eq_four t.digits hlen⟩
  have hhex (x : UInt8) (hx : x ∈ [a, b, c, d]) : isHexDigit x = true := t.isHex x (hdigits ▸ hx)
  have hvalue : t.value = ((hexDigit a * 16 + hexDigit b) * 16 + hexDigit c) * 16 + hexDigit d := by
    rw [HexText.value, hdigits]
    simp [hexadecimal]
  have ha := hexDigit_lt (hhex a (by simp))
  have hb := hexDigit_lt (hhex b (by simp))
  have hc := hexDigit_lt (hhex c (by simp))
  have hd := hexDigit_lt (hhex d (by simp))
  have hfirst : t.value / 4096 = hexDigit a := by omega
  have hsecond : t.value / 256 % 16 = hexDigit b := by omega
  have hthird : t.value / 16 % 16 = hexDigit c := by omega
  have hfourth : t.value % 16 = hexDigit d := by omega
  rw [hfirst, hsecond, hthird, hfourth, hdigits]
  simp [toLower_eq_hexByte (hhex a (by simp)), toLower_eq_hexByte (hhex b (by simp)),
    toLower_eq_hexByte (hhex c (by simp)), toLower_eq_hexByte (hhex d (by simp))]

theorem HexText.value_lt (t : HexText) : t.value < 65536 := by
  have hlt := foldl_lt t.digits t.isHex 0
  have hpow : 16 ^ t.digits.length ≤ 16 ^ 4 := Nat.pow_le_pow_right (by decide) t.fits
  rw [HexText.value, hexadecimal]
  omega

/-- The case of the digits does not matter. -/
theorem hexadecimal_toLower (digits : List UInt8) : hexadecimal (digits.map toLower) = hexadecimal digits := by
  have hdigit (c : UInt8) : hexDigit (toLower c) = hexDigit c := by rw [hexDigit, hexDigit, toLower_toLower]
  rw [hexadecimal, hexadecimal, List.foldl_map]
  simp only [hdigit]

/-- The numbers from `0xff00` on start with two digits `f`. -/
theorem HexText.starts_ff (t : HexText) (h : 0xff00 ≤ t.value) : lit ['f', 'f'] <+: t.digits.map toLower := by
  have hlt := t.value_lt
  have hfirst : t.value / 4096 = 15 := by omega
  have hsecond : t.value / 256 % 16 = 15 := by omega
  rw [t.four_digits (by omega), hfirst, hsecond]
  exact List.prefix_append (lit ['f', 'f']) _

/-- A number that starts with two digits `f` is at least `0xff00`, or it has at most three digits. -/
theorem HexText.of_starts_ff (t : HexText) (h : lit ['f', 'f'] <+: t.digits.map toLower) :
    0 < t.value ∧ (t.value < 0x1000 ∨ 0xff00 ≤ t.value) := by
  obtain ⟨lowered, hlowered⟩ := h
  obtain ⟨two, rest, hdigits, htwo, -⟩ := List.map_eq_append_iff.mp hlowered.symm
  have hff : hexadecimal two = 0xff := by
    rw [← hexadecimal_toLower, htwo]
    rfl
  have hvalue : t.value = rest.foldl (fun n c => n * 16 + hexDigit c) 0xff := by
    rw [HexText.value, hdigits, hexadecimal, List.foldl_append, ← hff]
    rfl
  have hlen : rest.length ≤ 2 := by
    have hfits := t.fits
    have htwoLength := congrArg List.length htwo
    rw [hdigits, List.length_append] at hfits
    simp only [lit, List.length_map, List.length_cons, List.length_nil] at htwoLength
    omega
  have hlow := le_foldl rest 0xff
  have hhigh := foldl_lt rest (fun c hc => t.isHex c (hdigits ▸ List.mem_append_right _ hc)) 0xff
  rw [← hvalue] at hlow hhigh
  by_cases hshort : rest.length ≤ 1
  · have hpow : 16 ^ rest.length ≤ 16 ^ 1 := Nat.pow_le_pow_right (by decide) hshort
    have hpos : 0 < 16 ^ rest.length := Nat.pow_pos (by decide)
    omega
  · have htwo : rest.length = 2 := by omega
    rw [htwo] at hlow
    omega

/-- The number `0xfe80` is spelled in one way, but for its case. -/
theorem HexText.eq_fe80_iff (t : HexText) : t.value = 0xfe80 ↔ t.digits.map toLower = lit ['f', 'e', '8', '0'] := by
  constructor
  · intro h
    rw [t.four_digits (by omega), h]
    rfl
  · intro h
    rw [HexText.value, ← hexadecimal_toLower, h]
    rfl

end Digits

section Literals

/-- Texts joined by colons start with the first of them. -/
private theorem intercalate_colon (first : List UInt8) {pieces : List (List UInt8)} (h : pieces ≠ []) :
    [byte ':'].intercalate (first :: pieces) = first ++ byte ':' :: [byte ':'].intercalate pieces := by
  rw [List.intercalate_cons_of_ne_nil h, List.append_assoc, List.singleton_append]

private theorem Groups.length_words (g : Groups) : g.words.length ≤ g.hex.length + 2 := by
  rw [Groups.words, List.length_append, List.length_map]
  cases g.quad with
  | none => exact Nat.add_le_add_left (Nat.zero_le _) _
  | some q => exact Nat.le_refl _

theorem Ipv6Literal.length_words (a : Ipv6Literal) : a.words.length = 8 := by
  cases a with
  | full groups eight => exact eight
  | gap front back short =>
    simp only [Ipv6Literal.words, List.length_append, List.length_map, List.length_replicate]
    omega

private theorem Groups.words_lt (g : Groups) : ∀ w ∈ g.words, w < 65536 := by
  intro w hw
  rcases List.mem_append.mp hw with hw | hw
  · obtain ⟨t, -, rfl⟩ := List.mem_map.mp hw
    exact t.value_lt
  · cases hquad : g.quad with
    | none =>
      rw [hquad] at hw
      cases hw
    | some q =>
      rw [hquad] at hw
      have hfirst := q.first.small
      have hsecond := q.second.small
      have hthird := q.third.small
      have hfourth := q.fourth.small
      simp only [Option.elim_some, Ipv4Literal.words, DecimalText.value, List.mem_cons, List.not_mem_nil,
        or_false] at hw
      omega

theorem Ipv6Literal.words_lt (a : Ipv6Literal) : ∀ w ∈ a.words, w < 65536 := by
  cases a with
  | full groups eight => exact groups.words_lt
  | gap front back short =>
    intro w hw
    rcases List.mem_append.mp hw with hw | hw
    · obtain ⟨t, -, rfl⟩ := List.mem_map.mp hw
      exact t.value_lt
    · rcases List.mem_append.mp hw with hw | hw
      · rw [List.eq_of_mem_replicate hw]
        decide
      · exact back.words_lt w hw

/-- Eight numbers are not all in an IPv4 address, so the text starts with the first of them. -/
private theorem Groups.starts_of_eight (g : Groups) (h : g.words.length = 8) :
    ∃ (t : HexText) (rest : List UInt8) (words : List Nat),
      g.text = t.digits ++ byte ':' :: rest ∧ g.words = t.value :: words := by
  obtain ⟨hex, quad⟩ := g
  cases hex with
  | nil =>
    have hlen := Groups.length_words ⟨[], quad⟩
    simp only [List.length_nil] at hlen
    omega
  | cons t hex =>
    have hne : (Groups.mk hex quad).pieces ≠ [] := by
      intro hnil
      have hhex : hex = [] := by
        rw [Groups.pieces] at hnil
        simpa using (List.append_eq_nil_iff.mp hnil).1
      have hlen := Groups.length_words ⟨[t], quad⟩
      rw [hhex] at h
      simp only [List.length_singleton] at hlen
      omega
    exact ⟨t, (Groups.mk hex quad).text, _, intercalate_colon _ hne, rfl⟩

private theorem gap_starts (t : HexText) (front : List HexText) (back : Groups)
    (short : (t :: front).length + back.words.length ≤ 7) :
    ∃ rest, (Ipv6Literal.gap (t :: front) back short).text = t.digits ++ byte ':' :: rest := by
  by_cases hfront : front = []
  · subst hfront
    exact ⟨byte ':' :: back.text, by simp [Ipv6Literal.text]⟩
  · have hne : front.map HexText.digits ≠ [] := by simpa using hfront
    refine ⟨[byte ':'].intercalate (front.map HexText.digits) ++ byte ':' :: byte ':' :: back.text, ?_⟩
    rw [Ipv6Literal.text, List.map_cons, intercalate_colon _ hne, List.append_assoc, List.cons_append]

/-- An IPv6 literal starts with a colon, and then its first number is zero, or with its first number
and a colon. -/
theorem Ipv6Literal.text_cases (a : Ipv6Literal) :
    (∃ rest, a.text = byte ':' :: rest ∧ ∃ words, a.words = 0 :: words) ∨
      ∃ (t : HexText) (rest : List UInt8), a.text = t.digits ++ byte ':' :: rest ∧
        ∃ words, a.words = t.value :: words := by
  cases a with
  | full groups eight =>
    obtain ⟨t, rest, words, htext, hwords⟩ := groups.starts_of_eight eight
    exact .inr ⟨t, rest, htext, words, hwords⟩
  | gap front back short =>
    cases front with
    | nil =>
      have hzero : 8 - (0 + back.words.length) = 7 - back.words.length + 1 := by
        simp only [List.length_nil] at short
        omega
      refine .inl ⟨_, rfl, List.replicate (7 - back.words.length) 0 ++ back.words, ?_⟩
      rw [Ipv6Literal.words, List.length_nil, hzero, List.replicate_succ]
      rfl
    | cons t front =>
      obtain ⟨rest, htext⟩ := gap_starts t front back short
      exact .inr ⟨t, rest, htext, _, rfl⟩

/-- The dots of joined texts are the dots of the texts. -/
private theorem count_dots (pieces : List (List UInt8)) :
    ([byte ':'].intercalate pieces).count (byte '.') = pieces.flatten.count (byte '.') := by
  induction pieces with
  | nil => rfl
  | cons piece pieces ih =>
    by_cases hne : pieces = []
    · subst hne
      simp
    · have hcolon : (byte ':' == byte '.') = false := by decide
      rw [intercalate_colon _ hne, List.flatten_cons, List.count_append, List.count_append, List.count_cons, ih, hcolon]
      rfl

private theorem hexTexts_dots (hex : List HexText) : (hex.map HexText.digits).flatten.count (byte '.') = 0 := by
  apply List.count_eq_zero_of_not_mem
  intro hmem
  obtain ⟨digits, hdigits, hdot⟩ := List.mem_flatten.mp hmem
  obtain ⟨t, -, rfl⟩ := List.mem_map.mp hdigits
  exact hexText_not_mem t rfl hdot

theorem Ipv4Literal.items_plain (q : Ipv4Literal) {c : UInt8} (hc : isDigit c = false) :
    ∀ item ∈ q.items, c ∉ item := by
  intro item hitem
  rcases List.mem_cons.mp hitem with rfl | hitem
  · exact q.first.not_mem hc
  rcases List.mem_cons.mp hitem with rfl | hitem
  · exact q.second.not_mem hc
  rcases List.mem_cons.mp hitem with rfl | hitem
  · exact q.third.not_mem hc
  · rw [List.mem_singleton.mp hitem]
    exact q.fourth.not_mem hc

private theorem Ipv4Literal.dots (q : Ipv4Literal) : q.text.count (byte '.') = 3 := by
  have hitems := q.items_plain (c := byte '.') rfl
  simp only [Ipv4Literal.items, List.mem_cons, List.not_mem_nil, or_false, forall_eq_or_imp, forall_eq] at hitems
  simp [Ipv4Literal.text, Ipv4Literal.items, List.count_append, List.count_eq_zero_of_not_mem, hitems]

private theorem Groups.dots (g : Groups) : g.text.count (byte '.') ≤ 3 := by
  rw [Groups.text, count_dots, Groups.pieces, List.flatten_append, List.count_append, hexTexts_dots]
  cases g.quad with
  | none => simp
  | some q => simp [q.dots]

private theorem Zone.dots (zone : Option Zone) : (zone.elim [] (fun z => byte '%' :: z.name)).count (byte '.') = 0 := by
  apply List.count_eq_zero_of_not_mem
  cases zone with
  | none => exact List.not_mem_nil
  | some z =>
    intro hmem
    rcases List.mem_cons.mp hmem with h | h
    · exact absurd h (by decide)
    · exact absurd (z.isPlain _ h) (by decide)

/-- The dots of an IPv6 literal are those of the IPv4 address in it. -/
theorem ScopedLiteral.dots (a : ScopedLiteral) : a.text.count (byte '.') ≤ 3 := by
  rw [ScopedLiteral.text, List.count_append, Zone.dots]
  cases a.address with
  | full groups eight => exact groups.dots
  | gap front back short =>
    have hcolon : (byte ':' == byte '.') = false := by decide
    have hback := back.dots
    rw [Ipv6Literal.text, List.count_append, count_dots, hexTexts_dots, List.count_cons, List.count_cons]
    simp only [hcolon, Bool.false_eq_true, if_false]
    omega

/-- An IPv6 literal has a colon. -/
theorem ScopedLiteral.colon_mem (a : ScopedLiteral) : byte ':' ∈ a.text := by
  apply List.mem_append_left
  rcases a.address.text_cases with ⟨rest, htext, -⟩ | ⟨t, rest, htext, -⟩
  · rw [htext]
    exact List.mem_cons_self
  · rw [htext]
    exact List.mem_append_right _ List.mem_cons_self

/-- A literal with its zone starts as the address does. -/
theorem ScopedLiteral.text_cases (a : ScopedLiteral) :
    (∃ rest, a.text = byte ':' :: rest ∧ a.address.words.getD 0 0 = 0) ∨
      ∃ (t : HexText) (rest : List UInt8), a.text = t.digits ++ byte ':' :: rest ∧
        a.address.words.getD 0 0 = t.value := by
  rcases a.address.text_cases with ⟨rest, htext, words, hwords⟩ | ⟨t, rest, htext, words, hwords⟩
  · refine .inl ⟨rest ++ a.zone.elim [] (fun zone => byte '%' :: zone.name), ?_, by rw [hwords]; rfl⟩
    rw [ScopedLiteral.text, htext, List.cons_append]
  · refine .inr ⟨t, rest ++ a.zone.elim [] (fun zone => byte '%' :: zone.name), ?_, by rw [hwords]; rfl⟩
    rw [ScopedLiteral.text, htext, List.append_assoc, List.cons_append]

/-- The first number is what stands in front of the first colon. -/
theorem ScopedLiteral.first_eq (a : ScopedLiteral) :
    a.address.words.getD 0 0 = hexadecimal (a.text.takeWhile (· != byte ':')) := by
  rcases a.text_cases with ⟨rest, htext, hfirst⟩ | ⟨t, rest, htext, hfirst⟩
  · rw [hfirst, htext]
    rfl
  · rw [hfirst, htext, takeWhile_ne_append (hexText_not_mem t rfl)]
    rfl

/-- A text without colons that starts a literal starts its first number. -/
private theorem prefix_digits {start : List UInt8} {t : HexText} {rest : List UInt8} (hcolon : byte ':' ∉ start)
    (h : start <+: (t.digits ++ byte ':' :: rest).map toLower) : start <+: t.digits.map toLower := by
  rw [List.map_append, List.map_cons, List.append_cons] at h
  have hcolonLower : toLower (byte ':') = byte ':' := rfl
  rw [hcolonLower] at h
  rcases List.prefix_or_prefix_of_prefix h (List.prefix_append _ _) with hle | hle
  · rcases List.prefix_concat_iff.mp hle with rfl | hle
    · exact absurd (List.mem_append_right _ List.mem_cons_self) hcolon
    · exact hle
  · exact absurd (hle.mem (List.mem_append_right _ List.mem_cons_self)) hcolon

/-- The first number of a literal that starts with `ff`. -/
theorem ScopedLiteral.first_of_ff (a : ScopedLiteral) (h : lit ['f', 'f'] <+: a.text.map toLower) :
    0 < a.address.words.getD 0 0 ∧ (a.address.words.getD 0 0 < 0x1000 ∨ 0xff00 ≤ a.address.words.getD 0 0) := by
  rcases a.text_cases with ⟨rest, htext, -⟩ | ⟨t, rest, htext, hfirst⟩
  · rw [htext] at h
    exact absurd (List.cons_prefix_cons.mp h).1 (by decide)
  · rw [htext] at h
    rw [hfirst]
    exact t.of_starts_ff (prefix_digits (by decide) h)

theorem ScopedLiteral.starts_ff (a : ScopedLiteral) (h : 0xff00 ≤ a.address.words.getD 0 0) :
    lit ['f', 'f'] <+: a.text.map toLower := by
  rcases a.text_cases with ⟨rest, -, hfirst⟩ | ⟨t, rest, htext, hfirst⟩
  · omega
  · rw [hfirst] at h
    rw [htext, List.map_append]
    exact (t.starts_ff h).trans (List.prefix_append _ _)

theorem ScopedLiteral.starts_fe80_iff (a : ScopedLiteral) :
    lit ['f', 'e', '8', '0', ':'] <+: a.text.map toLower ↔ a.address.words.getD 0 0 = 0xfe80 := by
  rcases a.text_cases with ⟨rest, htext, hfirst⟩ | ⟨t, rest, htext, hfirst⟩
  · rw [htext, hfirst]
    constructor
    · intro h
      exact absurd (List.cons_prefix_cons.mp h).1 (by decide)
    · intro h
      cases h
  · have hcolon : byte ':' ∉ t.digits.map toLower := by
      intro hmem
      obtain ⟨c, hc, hlower⟩ := List.mem_map.mp hmem
      have hhex := t.isHex c hc
      rw [isHexDigit, hlower] at hhex
      exact absurd hhex (by decide)
    rw [htext, hfirst, t.eq_fe80_iff, List.map_append, List.map_cons]
    constructor
    · rintro ⟨tail, htail⟩
      have htake := takeWhile_ne_append hcolon (rest.map toLower)
      have hstart : (lit ['f', 'e', '8', '0', ':'] ++ tail).takeWhile (· != byte ':') = lit ['f', 'e', '8', '0'] :=
        takeWhile_ne_append (by decide : byte ':' ∉ lit ['f', 'e', '8', '0']) tail
      have hcolonLower : toLower (byte ':') = byte ':' := rfl
      rw [htail, hcolonLower, htake] at hstart
      exact hstart
    · intro h
      rw [h]
      exact ⟨rest.map toLower, rfl⟩

/-- The bytes of an IPv4 literal. -/
theorem Ipv4Literal.mem_text (q : Ipv4Literal) {c : UInt8} (h : c ∈ q.text) : isDigit c = true ∨ c = byte '.' := by
  by_contra hne
  obtain ⟨hdigit, hdot⟩ := not_or.mp hne
  have hitems := q.items_plain (Bool.eq_false_iff.mpr hdigit)
  simp only [Ipv4Literal.items, List.mem_cons, List.not_mem_nil, or_false, forall_eq_or_imp, forall_eq] at hitems
  simp [Ipv4Literal.text, Ipv4Literal.items, hitems, hdot] at h

theorem Ipv4Literal.toLower_text (q : Ipv4Literal) : q.text.map toLower = q.text := by
  conv_rhs => rw [← List.map_id q.text]
  apply List.map_congr_left
  intro c hc
  rcases q.mem_text hc with h | rfl
  · have hhigh := ((isDigit_iff c).mp h).2
    exact (toLower_eq_iff c (Nat.lt_of_le_of_lt hhigh (by decide))).mpr rfl
  · rfl

/-- Groups that are written with one digit `1` are that number. -/
private theorem Groups.words_of_one {g : Groups} (h : g.text = lit ['1']) : g.words = [1] := by
  obtain ⟨hex, quad⟩ := g
  have hdots : (Groups.mk hex quad).text.count (byte '.') = 0 := by
    rw [h]
    rfl
  cases quad with
  | some q =>
    rw [Groups.text, count_dots, Groups.pieces, List.flatten_append, List.count_append, hexTexts_dots] at hdots
    simp [q.dots] at hdots
  | none =>
    rcases hex with _ | ⟨t, hex⟩
    · cases h
    · by_cases hne : hex = []
      · subst hne
        have hdigits : t.digits = lit ['1'] := by simpa [Groups.text, Groups.pieces] using h
        have hvalue : t.value = 1 := by
          rw [HexText.value, hdigits]
          rfl
        simp [Groups.words, hvalue]
      · have hpieces : (Groups.mk hex none).pieces ≠ [] := by simpa [Groups.pieces] using hne
        have htext : (Groups.mk (t :: hex) none).text = t.digits ++ byte ':' :: (Groups.mk hex none).text :=
          intercalate_colon _ hpieces
        have hmem : byte ':' ∈ lit ['1'] := by
          rw [← h, htext]
          exact List.mem_append_right _ List.mem_cons_self
        exact absurd hmem (by decide)

/-- The text `::1` is the loopback address. -/
theorem ScopedLiteral.loopback_words (a : ScopedLiteral) (h : a.text = lit [':', ':', '1']) :
    a.address.words = [0, 0, 0, 0, 0, 0, 0, 1] := by
  obtain ⟨address, zone⟩ := a
  have hzone : zone = none := by
    cases zone with
    | none => rfl
    | some z =>
      have hmem : byte '%' ∈ lit [':', ':', '1'] := h ▸ List.mem_append_right _ List.mem_cons_self
      exact absurd hmem (by decide)
  subst hzone
  have htext : address.text = lit [':', ':', '1'] := by simpa [ScopedLiteral.text] using h
  have hdigit (t : HexText) {rest : List UInt8} (hrest : t.digits ++ byte ':' :: rest = lit [':', ':', '1']) :
      False := by
    obtain ⟨c, digits, hdigits⟩ := List.exists_cons_of_ne_nil t.nonempty
    have hhex := t.isHex c (hdigits ▸ List.mem_cons_self)
    rw [hdigits] at hrest
    rw [(List.cons.inj hrest).1] at hhex
    exact absurd hhex (by decide)
  cases address with
  | full groups eight =>
    obtain ⟨t, rest, words, hstart, -⟩ := groups.starts_of_eight eight
    exact (hdigit t (hstart.symm.trans htext)).elim
  | gap front back short =>
    cases front with
    | nil =>
      have hback : back.text = lit ['1'] := (List.cons.inj (List.cons.inj htext).2).2
      rw [Ipv6Literal.words, back.words_of_one hback]
      rfl
    | cons t front =>
      obtain ⟨rest, hstart⟩ := gap_starts t front back short
      exact (hdigit t (hstart.symm.trans htext)).elim

end Literals

section Networks

private theorem testBit_of_lt {x i : Nat} (hx : x < 65536) (hi : 16 ≤ i) : x.testBit i = false :=
  Nat.testBit_lt_two_pow (Nat.lt_of_lt_of_le hx (Nat.pow_le_pow_right (by decide : 0 < 2) hi))

/-- The first bits of an address, within its first word. -/
theorem inNetwork_first {words network : List Nat} {n : Nat} (hn : n ≤ 16) (hw : words.getD 0 0 < 65536)
    (hnet : network.getD 0 0 < 65536) :
    InNetwork words network n ↔ words.getD 0 0 >>> (16 - n) = network.getD 0 0 >>> (16 - n) := by
  have hbit (l : List Nat) {i : Nat} (hi : i < n) :
      wordBit l i = (l.getD 0 0 >>> (16 - n)).testBit (n - 1 - i) := by
    have hdiv : i / 16 = 0 := by omega
    have hmod : 15 - i % 16 = 16 - n + (n - 1 - i) := by omega
    rw [wordBit, hdiv, hmod, Nat.testBit_shiftRight]
  constructor
  · intro h
    apply Nat.eq_of_testBit_eq
    intro j
    by_cases hj : j < n
    · have hi : n - 1 - (n - 1 - j) = j := by omega
      have hsame := h (n - 1 - j) (by omega)
      rwa [hbit words (by omega), hbit network (by omega), hi] at hsame
    · have hsmall {x : Nat} (hx : x < 65536) : (x >>> (16 - n)).testBit j = false := by
        rw [Nat.testBit_shiftRight]
        exact testBit_of_lt hx (by omega)
      rw [hsmall hw, hsmall hnet]
  · intro h i hi
    rw [hbit words hi, hbit network hi, h]

/-- The network of a whole address is that address. -/
theorem inNetwork_whole {words network : List Nat} (hw : words.length = 8) (hnet : network.length = 8)
    (hwords : ∀ w ∈ words, w < 65536) (hnetwork : ∀ w ∈ network, w < 65536) :
    InNetwork words network 128 ↔ words = network := by
  constructor
  · intro h
    apply List.ext_getElem (hw.trans hnet.symm)
    intro k hk hk'
    apply Nat.eq_of_testBit_eq
    intro j
    by_cases hj : j < 16
    · have hdiv : (16 * k + (15 - j)) / 16 = k := by omega
      have hmod : 15 - (16 * k + (15 - j)) % 16 = j := by omega
      have hsame := h (16 * k + (15 - j)) (by omega)
      rw [wordBit, wordBit, hdiv, hmod] at hsame
      simpa [hk, hk'] using hsame
    · rw [testBit_of_lt (hwords _ (List.getElem_mem hk)) (Nat.not_lt.mp hj),
        testBit_of_lt (hnetwork _ (List.getElem_mem hk')) (Nat.not_lt.mp hj)]
  · rintro rfl i -
    rfl

end Networks

end IpLiterals
