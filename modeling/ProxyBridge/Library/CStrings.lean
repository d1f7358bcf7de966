import Mathlib.Data.List.DropRight

/-! C strings as the bytes in front of the terminator, with the library functions on them as they
behave in the C locale. -/
namespace CStrings

def byte (c : Char) : UInt8 := c.toNat.toUInt8

/-- A string literal, given by its characters. -/
def lit (l : List Char) : List UInt8 := l.map byte

def isSpace (c : UInt8) : Bool := c == 32 || (decide (9 ≤ c) && decide (c ≤ 13))

def isDigit (c : UInt8) : Bool := decide (48 ≤ c) && decide (c ≤ 57)

def toLower (c : UInt8) : UInt8 := if decide (65 ≤ c) && decide (c ≤ 90) then c + 32 else c

/-- `_stricmp(a, b) == 0`. -/
def stricmpEq (a b : List UInt8) : Bool := a.map toLower == b.map toLower

/-- `strncpy_s(dst, dstsz, s, _TRUNCATE)`. -/
def strncpyTruncate (dstsz : Nat) (s : List UInt8) : List UInt8 := s.take (dstsz - 1)

/-- `strchr(s, c) + 1`, where `s` has the byte. -/
def afterFirst (c : UInt8) (s : List UInt8) : List UInt8 := (s.dropWhile (· != c)).tail

/-- `strrchr(s, c) + 1` if `s` has the byte, and `s` if not. -/
def afterLast (c : UInt8) (s : List UInt8) : List UInt8 := (s.reverse.takeWhile (· != c)).reverse

/-- The tokens that repeated calls of `strtok_s` return. -/
def strtok (delimiters : List UInt8) (s : List UInt8) : List (List UInt8) :=
  (s.splitOnP (fun c => delimiters.contains c)).filter (fun token => !token.isEmpty)

def decimal (digits : List UInt8) : Nat := digits.foldl (fun n c => n * 10 + (c.toNat - 48)) 0

/-- What the conversions `%d` and `%u` read: blanks, an optional sign and digits, with what is left of the
input. The number is the one written, however large; what is kept of one that does not fit is left to the
caller. -/
def scanInt (s : List UInt8) : Option (Int × List UInt8) :=
  let s := s.dropWhile isSpace
  let negative := s.head? == some (byte '-')
  let body := if negative || s.head? == some (byte '+') then s.tail else s
  let digits := body.takeWhile isDigit
  if digits.isEmpty then none
  else some (if negative then - Int.ofNat (decimal digits) else Int.ofNat (decimal digits), body.dropWhile isDigit)

/-- What `%d` writes for a number of at most `fuel` digits. -/
def showDecimal : Nat → Nat → List UInt8
  | 0, _ => []
  | fuel+1, n => if n < 10 then [(48 + n).toUInt8] else showDecimal fuel (n / 10) ++ [(48 + n % 10).toUInt8]

/-- A byte of a format string other than a blank or `%`. -/
def scanByte (c : UInt8) : List UInt8 → Option (List UInt8)
  | [] => none
  | d :: s => if d == c then some s else none

/-- Zero without a number, and the nearest `int` where the number does not fit. -/
def atoi (s : List UInt8) : Int :=
  match scanInt s with
  | none => 0
  | some (n, _) => max (-2147483648) (min 2147483647 n)

theorem afterFirst_append {c : UInt8} {a : List UInt8} (h : c ∉ a) (b : List UInt8) :
    afterFirst c (a ++ c :: b) = b := by
  have ha : ∀ x ∈ a, (x != c) = true := by
    intro x hx
    simpa using fun he : x = c => h (he ▸ hx)
  rw [afterFirst, List.dropWhile_append_of_pos ha]
  simp

/-- The part of a string in front of the first occurrence of a byte. -/
theorem takeWhile_ne_append {c : UInt8} {a : List UInt8} (h : c ∉ a) (b : List UInt8) :
    (a ++ c :: b).takeWhile (· != c) = a := by
  have ha : ∀ x ∈ a, (x != c) = true := by
    intro x hx
    simpa using fun he : x = c => h (he ▸ hx)
  rw [List.takeWhile_append_of_pos ha]
  simp

/-- A byte that occurs splits the string at its first occurrence. -/
theorem eq_append_afterFirst {c : UInt8} {s : List UInt8} (h : c ∈ s) :
    ∃ a, c ∉ a ∧ s = a ++ c :: afterFirst c s := by
  induction s with
  | nil => cases h
  | cons d s ih =>
    by_cases hd : d = c
    · subst hd
      exact ⟨[], List.not_mem_nil, by simp [afterFirst]⟩
    · obtain ⟨a, ha, hs⟩ := ih ((List.mem_cons.mp h).resolve_left (fun he => hd he.symm))
      have hstep : afterFirst c (d :: s) = afterFirst c s := by simp [afterFirst, hd]
      refine ⟨d :: a, ?_, ?_⟩
      · simpa using ⟨fun he => hd he.symm, ha⟩
      · rw [hstep, List.cons_append, ← hs]

/-- What is behind a string does not change its first occurrence of a byte. -/
theorem takeWhile_ne_append_of_mem {c : UInt8} {s : List UInt8} (h : c ∈ s) (b : List UInt8) :
    (s ++ b).takeWhile (· != c) = s.takeWhile (· != c) := by
  obtain ⟨a, ha, hs⟩ := eq_append_afterFirst h
  rw [hs, List.append_assoc, List.cons_append, takeWhile_ne_append ha, takeWhile_ne_append ha]

theorem afterFirst_append_of_mem {c : UInt8} {s : List UInt8} (h : c ∈ s) (b : List UInt8) :
    afterFirst c (s ++ b) = afterFirst c s ++ b := by
  obtain ⟨a, ha, hs⟩ := eq_append_afterFirst h
  rw [hs, List.append_assoc, List.cons_append, afterFirst_append ha, afterFirst_append ha]

theorem isDigit_iff (c : UInt8) : isDigit c = true ↔ 48 ≤ c.toNat ∧ c.toNat ≤ 57 := by
  simp [isDigit, UInt8.le_iff_toNat_le]

/-- Only capital letters have another lower case, and theirs are small letters. -/
theorem toLower_cases (c : UInt8) :
    (toLower c = c ∧ (c.toNat < 65 ∨ 90 < c.toNat)) ∨
      (toLower c).toNat = c.toNat + 32 ∧ 65 ≤ c.toNat ∧ c.toNat ≤ 90 := by
  rw [toLower]
  split
  · rename_i h
    simp only [Bool.and_eq_true, decide_eq_true_eq, UInt8.le_iff_toNat_le, UInt8.reduceToNat] at h
    refine .inr ⟨?_, h⟩
    rw [UInt8.toNat_add]
    simp only [UInt8.reduceToNat]
    omega
  · rename_i h
    simp only [Bool.and_eq_true, decide_eq_true_eq, UInt8.le_iff_toNat_le, UInt8.reduceToNat] at h
    exact .inl ⟨rfl, by omega⟩

/-- A byte below the letters is the lower case of itself alone. -/
theorem toLower_eq_iff (c : UInt8) {d : UInt8} (hd : d.toNat < 65) : toLower c = d ↔ c = d := by
  rcases toLower_cases c with ⟨h, -⟩ | ⟨h, hlow, -⟩
  · rw [h]
  · rw [← UInt8.toNat_inj, ← UInt8.toNat_inj, h]
    omega

theorem toLower_toLower (c : UInt8) : toLower (toLower c) = toLower c := by
  rcases toLower_cases c with ⟨h, -⟩ | ⟨h, hlow, -⟩
  · rw [h, h]
  · rcases toLower_cases (toLower c) with ⟨h', -⟩ | ⟨-, -, hhigh⟩
    · exact h'
    · omega

private theorem isDigit_ofNat {n : Nat} (h : n < 10) : isDigit (48 + n).toUInt8 = true := by
  have hn : (48 + n).toUInt8.toNat = 48 + n := by simp; omega
  rw [isDigit_iff, hn]
  omega

theorem isDigit_of_mem_showDecimal {fuel n : Nat} {c : UInt8} (h : c ∈ showDecimal fuel n) : isDigit c = true := by
  induction fuel generalizing n with
  | zero => cases h
  | succ fuel ih =>
    rw [showDecimal] at h
    split at h
    · rename_i hn
      rw [List.mem_singleton.mp h]
      exact isDigit_ofNat hn
    · rcases List.mem_append.mp h with h | h
      · exact ih h
      · rw [List.mem_singleton.mp h]
        exact isDigit_ofNat (Nat.mod_lt n (by decide))

theorem length_showDecimal_le (fuel n : Nat) : (showDecimal fuel n).length ≤ fuel := by
  induction fuel generalizing n with
  | zero => exact Nat.le_refl 0
  | succ fuel ih =>
    rw [showDecimal]
    split
    · simp
    · have hle := ih (n / 10)
      simp
      omega

/-- A digit is neither a blank nor a sign. -/
theorem digit_plain {c : UInt8} (h : isDigit c = true) :
    isSpace c = false ∧ c ≠ byte '-' ∧ c ≠ byte '+' := by
  obtain ⟨hlo, hhi⟩ := (isDigit_iff c).mp h
  refine ⟨?_, ?_, ?_⟩
  · have h32 : c ≠ 32 := fun he => by rw [he] at hlo; exact absurd hlo (by decide)
    have h13 : ¬ c ≤ 13 := fun hle => by
      have hn : c.toNat ≤ 13 := UInt8.le_iff_toNat_le.mp hle
      omega
    simp [isSpace, h32, h13]
  · intro he
    rw [he] at hlo
    exact absurd hlo (by decide)
  · intro he
    rw [he] at hlo
    exact absurd hlo (by decide)

/-- A number is read up to the first byte that is no digit. -/
theorem scanInt_digits {digits tail : List UInt8} (hd : ∀ d ∈ digits, isDigit d = true) (hne : digits ≠ [])
    (htail : ∀ c ∈ tail.head?, isDigit c = false) :
    scanInt (digits ++ tail) = some (Int.ofNat (decimal digits), tail) := by
  obtain ⟨d, ds, rfl⟩ := List.exists_cons_of_ne_nil hne
  obtain ⟨hspace, hminus, hplus⟩ := digit_plain (hd d List.mem_cons_self)
  have hstop : tail.takeWhile isDigit = [] ∧ tail.dropWhile isDigit = tail := by
    cases tail with
    | nil => exact ⟨rfl, rfl⟩
    | cons c tail => simp [htail c rfl]
  have htake : (d :: ds ++ tail).takeWhile isDigit = d :: ds := by
    rw [List.takeWhile_append_of_pos hd, hstop.1, List.append_nil]
  have hdrop : (d :: ds ++ tail).dropWhile isDigit = tail := by
    rw [List.dropWhile_append_of_pos hd, hstop.2]
  have hskip : (d :: ds ++ tail).dropWhile isSpace = d :: ds ++ tail := by simp [hspace]
  have hnegative : ((d :: ds ++ tail).head? == some (byte '-')) = false := by simpa using hminus
  have hpositive : ((d :: ds ++ tail).head? == some (byte '+')) = false := by simpa using hplus
  simp only [scanInt, hskip, hnegative, hpositive, Bool.or_self, Bool.false_eq_true, if_false, htake, hdrop,
    List.isEmpty_cons]

/-- A text of digits alone is read whole. -/
theorem scanInt_decimal {digits : List UInt8} (hd : ∀ d ∈ digits, isDigit d = true) (hne : digits ≠ []) :
    scanInt digits = some (Int.ofNat (decimal digits), []) := by
  have hend : ∀ c ∈ ([] : List UInt8).head?, isDigit c = false := fun c hc => nomatch hc
  have hscan := scanInt_digits hd hne hend
  rwa [List.append_nil] at hscan

/-- A number in front of a byte that is no digit. -/
theorem atoi_digits {digits : List UInt8} {c : UInt8} (tail : List UInt8) (hd : ∀ d ∈ digits, isDigit d = true)
    (hne : digits ≠ []) (hc : isDigit c = false) (hsmall : decimal digits ≤ 2147483647) :
    atoi (digits ++ c :: tail) = decimal digits := by
  have hhead : ∀ b ∈ (c :: tail).head?, isDigit b = false := by simpa using hc
  simp only [atoi, scanInt_digits hd hne hhead, Int.ofNat_eq_natCast]
  omega

/-- A text of digits alone. -/
theorem atoi_decimal {digits : List UInt8} (hd : ∀ d ∈ digits, isDigit d = true) (hne : digits ≠ [])
    (hsmall : decimal digits ≤ 2147483647) : atoi digits = decimal digits := by
  simp only [atoi, scanInt_decimal hd hne, Int.ofNat_eq_natCast]
  omega

/-- White space behind a text: no digit, no sign and no dot. -/
theorem space_plain {c : UInt8} (h : isSpace c = true) :
    isDigit c = false ∧ c ≠ byte '-' ∧ c ≠ byte '+' := by
  refine ⟨?_, ?_, ?_⟩
  · by_contra hdigit
    rw [(digit_plain (Bool.not_eq_false _ ▸ hdigit)).1] at h
    cases h
  · rintro rfl
    exact absurd h (by decide)
  · rintro rfl
    exact absurd h (by decide)

private theorem head_append_spaces {s b : List UInt8} (hb : ∀ c ∈ b, isSpace c = true) {d : UInt8}
    (hd : isSpace d = false) : ((s ++ b).head? == some d) = (s.head? == some d) := by
  cases s with
  | cons c s => rfl
  | nil =>
    cases b with
    | nil => rfl
    | cons c b =>
      have hc : c ≠ d := by
        rintro rfl
        rw [hb c List.mem_cons_self] at hd
        cases hd
      simpa using hc

/-- A number is read as if there were no white space behind it. -/
theorem scanInt_append_spaces (s : List UInt8) {b : List UInt8} (hb : ∀ c ∈ b, isSpace c = true) :
    scanInt (s ++ b) = (scanInt s).map (fun x => (x.1, x.2 ++ b)) := by
  have hdigits : ∀ r : List UInt8, (r ++ b).takeWhile isDigit = r.takeWhile isDigit ∧
      (r ++ b).dropWhile isDigit = r.dropWhile isDigit ++ b := by
    intro r
    induction r with
    | nil =>
      cases b with
      | nil => exact ⟨rfl, rfl⟩
      | cons c b => simp [(space_plain (hb c List.mem_cons_self)).1]
    | cons c r ih =>
      by_cases hc : isDigit c = true
      · simp [hc, ih.1, ih.2]
      · simp [hc]
  have hskip : (s ++ b).dropWhile isSpace = [] ∧ s.dropWhile isSpace = [] ∨
      (s ++ b).dropWhile isSpace = s.dropWhile isSpace ++ b ∧ s.dropWhile isSpace ≠ [] := by
    induction s with
    | nil => exact .inl ⟨List.dropWhile_eq_nil_iff.mpr hb, rfl⟩
    | cons c s ih =>
      by_cases hc : isSpace c = true
      · simpa [hc] using ih
      · exact .inr ⟨by simp [hc], by simp [hc]⟩
  rcases hskip with ⟨hpadded, hplain⟩ | ⟨hpadded, hplain⟩
  · simp [scanInt, hpadded, hplain]
  · obtain ⟨c, r, hr⟩ := List.exists_cons_of_ne_nil hplain
    simp only [scanInt, hpadded]
    rw [head_append_spaces hb (by decide), head_append_spaces hb (by decide), hr]
    split
    · rw [List.cons_append, List.tail_cons, List.tail_cons, (hdigits r).1, (hdigits r).2]
      split
      · rfl
      · rfl
    · rw [(hdigits (c :: r)).1, (hdigits (c :: r)).2]
      split
      · rfl
      · rfl

theorem atoi_append_spaces (s : List UInt8) {b : List UInt8} (hb : ∀ c ∈ b, isSpace c = true) :
    atoi (s ++ b) = atoi s := by
  rw [atoi, atoi, scanInt_append_spaces s hb]
  cases scanInt s with
  | none => rfl
  | some x => rfl

/-- A decimal number with a bound on its digits and on its value. -/
structure DecimalText (width bound : Nat) where
  digits : List UInt8
  isDigits : ∀ d ∈ digits, isDigit d = true
  nonempty : digits ≠ []
  fits : digits.length ≤ width
  small : decimal digits ≤ bound

def DecimalText.value {width bound : Nat} (t : DecimalText width bound) : Nat := decimal t.digits

theorem DecimalText.atoi_digits {width bound : Nat} (t : DecimalText width bound) (hb : bound ≤ 2147483647) :
    atoi t.digits = t.value :=
  atoi_decimal t.isDigits t.nonempty (Nat.le_trans t.small hb)

theorem DecimalText.not_mem {width bound : Nat} (t : DecimalText width bound) {c : UInt8} (hc : isDigit c = false) :
    c ∉ t.digits := by
  intro hmem
  rw [t.isDigits c hmem] at hc
  cases hc

/-- Tokens with a delimiter in front of each but the first. -/
def joinTokens (first : List UInt8) (rest : List (UInt8 × List UInt8)) : List UInt8 :=
  first ++ rest.flatMap (fun x => x.1 :: x.2)

/-- `strtok_s` gives back the tokens that are not empty. -/
theorem strtok_joinTokens {delimiters first : List UInt8} (rest : List (UInt8 × List UInt8))
    (hfirst : ∀ c ∈ first, delimiters.contains c = false)
    (hrest : ∀ x ∈ rest, delimiters.contains x.1 = true ∧ ∀ c ∈ x.2, delimiters.contains c = false) :
    strtok delimiters (joinTokens first rest) = (first :: rest.map (·.2)).filter (fun token => !token.isEmpty) := by
  have hsplit : (joinTokens first rest).splitOnP (fun c => delimiters.contains c) = first :: rest.map (·.2) := by
    induction rest generalizing first with
    | nil =>
      rw [joinTokens, List.flatMap_nil, List.append_nil]
      exact List.splitOnP_eq_singleton hfirst
    | cons x rest ih =>
      obtain ⟨hsep, hnext⟩ := hrest x List.mem_cons_self
      have htail := ih hnext (fun y hy => hrest y (List.mem_cons_of_mem _ hy))
      have hjoin : joinTokens first (x :: rest) = first ++ x.1 :: joinTokens x.2 rest := by
        simp [joinTokens]
      rw [hjoin, List.splitOnP_append_cons_of_forall_mem hfirst x.1 hsep, htail]
      rfl
  rw [strtok, hsplit]

end CStrings
