import ProxyBridge.Library.CStrings

/-! The texts that `%d` and `%u` read as a number: blanks, an optional sign and digits. Every such text
is read back from in front of anything that does not go on with a digit. -/
namespace CStrings

structure NumberText where
  blanks : List UInt8
  minus : Option Bool
  digits : List UInt8
  isSpaces : ∀ c ∈ blanks, isSpace c = true
  isDigits : ∀ d ∈ digits, isDigit d = true
  nonempty : digits ≠ []

/-- Whether the input does not go on with a digit. -/
def StopsNumber (rest : List UInt8) : Prop := ∀ c ∈ rest.head?, isDigit c = false

theorem stopsNumber_nil : StopsNumber [] := by
  intro c hc
  cases hc

def signText : Option Bool → List UInt8
  | none => []
  | some true => [byte '-']
  | some false => [byte '+']

namespace NumberText

def text (t : NumberText) : List UInt8 := t.blanks ++ (signText t.minus ++ t.digits)

def value (t : NumberText) : Int :=
  if t.minus = some true then - Int.ofNat (decimal t.digits) else Int.ofNat (decimal t.digits)

/-- Nothing but digits. -/
def plain (digits : List UInt8) (hd : ∀ d ∈ digits, isDigit d = true) (hne : digits ≠ []) : NumberText :=
  ⟨[], none, digits, fun _ h => absurd h List.not_mem_nil, hd, hne⟩

variable {t t' : NumberText} {rest rest' : List UInt8}

private theorem head_not_space (t : NumberText) (rest : List UInt8) :
    ∃ c s, signText t.minus ++ t.digits ++ rest = c :: s ∧ isSpace c = false := by
  obtain ⟨d, ds, hd⟩ := List.exists_cons_of_ne_nil t.nonempty
  have hdigit : isDigit d = true := t.isDigits d (hd ▸ List.mem_cons_self)
  cases hm : t.minus with
  | none => exact ⟨d, ds ++ rest, by rw [hd]; rfl, (digit_plain hdigit).1⟩
  | some b =>
    cases b with
    | true => exact ⟨_, _, rfl, by decide⟩
    | false => exact ⟨_, _, rfl, by decide⟩

private theorem takeWhile_isSpace (t : NumberText) (rest : List UInt8) :
    (t.text ++ rest).takeWhile isSpace = t.blanks := by
  obtain ⟨c, s, hs, hc⟩ := head_not_space t rest
  rw [text, List.append_assoc, hs, List.takeWhile_append_of_pos t.isSpaces, List.takeWhile_cons_of_neg (by simp [hc]),
    List.append_nil]

private theorem dropWhile_isSpace (t : NumberText) (rest : List UInt8) :
    (t.text ++ rest).dropWhile isSpace = signText t.minus ++ t.digits ++ rest := by
  obtain ⟨c, s, hs, hc⟩ := head_not_space t rest
  rw [text, List.append_assoc, List.dropWhile_append_of_pos t.isSpaces, hs, List.dropWhile_cons_of_neg (by simp [hc])]

private theorem takeWhile_isDigit (t : NumberText) (hrest : StopsNumber rest) :
    (t.digits ++ rest).takeWhile isDigit = t.digits ∧ (t.digits ++ rest).dropWhile isDigit = rest := by
  rw [List.takeWhile_append_of_pos t.isDigits, List.dropWhile_append_of_pos t.isDigits]
  cases rest with
  | nil => exact ⟨List.append_nil _, rfl⟩
  | cons c rest =>
    have hc : isDigit c = false := hrest c rfl
    rw [List.takeWhile_cons_of_neg (by simp [hc]), List.dropWhile_cons_of_neg (by simp [hc])]
    exact ⟨List.append_nil _, rfl⟩

/-- The sign is told by the first byte behind the blanks. -/
private theorem head_sign (t : NumberText) (rest : List UInt8) :
    ((signText t.minus ++ t.digits ++ rest).head? == some (byte '-')) = (t.minus == some true) ∧
    ((signText t.minus ++ t.digits ++ rest).head? == some (byte '+')) = (t.minus == some false) := by
  obtain ⟨d, ds, hd⟩ := List.exists_cons_of_ne_nil t.nonempty
  obtain ⟨-, hminus, hplus⟩ := digit_plain (t.isDigits d (hd ▸ List.mem_cons_self))
  cases t.minus with
  | none =>
    rw [hd]
    exact ⟨beq_eq_false_iff_ne.mpr (fun h => hminus (Option.some.inj h)),
      beq_eq_false_iff_ne.mpr (fun h => hplus (Option.some.inj h))⟩
  | some b =>
    cases b with
    | true => exact ⟨rfl, rfl⟩
    | false => exact ⟨rfl, rfl⟩

/-- The text is read whole, and nothing behind it. -/
theorem scanInt_text (t : NumberText) (hrest : StopsNumber rest) :
    scanInt (t.text ++ rest) = some (t.value, rest) := by
  obtain ⟨htake, hdrop⟩ := takeWhile_isDigit t hrest
  have hbody : (if (t.minus == some true) || (t.minus == some false)
      then (signText t.minus ++ t.digits ++ rest).tail else signText t.minus ++ t.digits ++ rest) =
      t.digits ++ rest := by
    cases t.minus with
    | none => rfl
    | some b =>
      cases b with
      | true => rfl
      | false => rfl
  have hne : t.digits.isEmpty = false := List.isEmpty_eq_false_iff.mpr t.nonempty
  simp only [scanInt, dropWhile_isSpace, head_sign, hbody, htake, hdrop, hne, Bool.false_eq_true, if_false, value,
    beq_iff_eq]

/-- Whatever is read has such a text in front. -/
theorem exists_of_scanInt {s : List UInt8} {n : Int} (h : scanInt s = some (n, rest)) :
    ∃ t : NumberText, s = t.text ++ rest ∧ t.value = n ∧ StopsNumber rest := by
  have hsplit : s = s.takeWhile isSpace ++ s.dropWhile isSpace := List.takeWhile_append_dropWhile.symm
  have hspaces : ∀ c ∈ s.takeWhile isSpace, isSpace c = true := fun c hc => List.mem_takeWhile_imp hc
  obtain ⟨minus, body, hsign, hrun⟩ : ∃ minus body, s.dropWhile isSpace = signText minus ++ body ∧
      (if (body.takeWhile isDigit).isEmpty then none
        else some (if minus = some true then - Int.ofNat (decimal (body.takeWhile isDigit))
          else Int.ofNat (decimal (body.takeWhile isDigit)), body.dropWhile isDigit)) = some (n, rest) := by
    simp only [scanInt] at h
    generalize s.dropWhile isSpace = r at h ⊢
    cases r with
    | nil => exact ⟨none, [], rfl, h⟩
    | cons c r =>
      by_cases hminus : c = byte '-'
      · subst hminus
        exact ⟨some true, r, rfl, h⟩
      · have hm : (some c == some (byte '-')) = false :=
          beq_eq_false_iff_ne.mpr (fun he => hminus (Option.some.inj he))
        simp only [List.head?_cons, hm, Bool.false_or, Bool.false_eq_true, if_false] at h
        by_cases hplus : c = byte '+'
        · subst hplus
          exact ⟨some false, r, rfl, h⟩
        · have hp : (some c == some (byte '+')) = false :=
            beq_eq_false_iff_ne.mpr (fun he => hplus (Option.some.inj he))
          simp only [hp, Bool.false_eq_true, if_false] at h
          exact ⟨none, c :: r, rfl, h⟩
  split at hrun
  · cases hrun
  · rename_i hne
    obtain ⟨rfl, rfl⟩ := Prod.mk.inj (Option.some.inj hrun)
    have hdigits : ∀ d ∈ body.takeWhile isDigit, isDigit d = true := fun d hd => List.mem_takeWhile_imp hd
    refine ⟨⟨_, minus, _, hspaces, hdigits, fun he => hne (by rw [he]; rfl)⟩, ?_, rfl, ?_⟩
    · rw [text, List.append_assoc, List.append_assoc, List.takeWhile_append_dropWhile, ← hsign]
      exact hsplit
    · intro c hc
      have hnot := List.head?_dropWhile_not isDigit body
      rw [Option.mem_def.mp hc] at hnot
      exact hnot

/-- There is one way only to see a text in front of what stops it. -/
theorem text_append_inj (h : t.text ++ rest = t'.text ++ rest') (hrest : StopsNumber rest)
    (hrest' : StopsNumber rest') : t = t' ∧ rest = rest' := by
  have hblanks : t.blanks = t'.blanks := by rw [← takeWhile_isSpace t rest, h, takeWhile_isSpace]
  have hbehind : signText t.minus ++ t.digits ++ rest = signText t'.minus ++ t'.digits ++ rest' := by
    rw [← dropWhile_isSpace, h, dropWhile_isSpace]
  have hminus : t.minus = t'.minus := by
    have ht : (t.minus == some true) = (t'.minus == some true) := by
      rw [← (head_sign t rest).1, hbehind, (head_sign t' rest').1]
    have hf : (t.minus == some false) = (t'.minus == some false) := by
      rw [← (head_sign t rest).2, hbehind, (head_sign t' rest').2]
    revert ht hf
    rcases t.minus with _ | a <;> rcases t'.minus with _ | b
    · exact fun _ _ => rfl
    · cases b <;> decide
    · cases a <;> decide
    · cases a <;> cases b <;> decide
  have hnumber : t.digits ++ rest = t'.digits ++ rest' := by
    rw [hminus, List.append_assoc, List.append_assoc] at hbehind
    exact List.append_cancel_left hbehind
  obtain ⟨htake, hdrop⟩ := takeWhile_isDigit t hrest
  obtain ⟨htake', hdrop'⟩ := takeWhile_isDigit t' hrest'
  have hdigits : t.digits = t'.digits := by rw [← htake, hnumber, htake']
  refine ⟨?_, by rw [← hdrop, hnumber, hdrop']⟩
  cases t
  cases t'
  cases hblanks
  cases hminus
  cases hdigits
  rfl

end NumberText

theorem decimal_append (a : List UInt8) (c : UInt8) : decimal (a ++ [c]) = decimal a * 10 + (c.toNat - 48) := by
  rw [decimal, decimal, List.foldl_append]
  rfl

theorem showDecimal_ne_nil (fuel n : Nat) : showDecimal (fuel + 1) n ≠ [] := by
  rw [showDecimal]
  split
  · exact List.cons_ne_nil _ _
  · simp

/-- A number of at most `fuel` digits is read back from what is written for it. -/
theorem decimal_showDecimal (fuel : Nat) {n : Nat} (h : n < Nat.pow 10 fuel) :
    decimal (showDecimal fuel n) = n := by
  induction fuel generalizing n with
  | zero =>
    obtain rfl : n = 0 := Nat.lt_one_iff.mp h
    rfl
  | succ fuel ih =>
    have hdigit {d : Nat} (hd : d < 10) : (48 + d).toUInt8.toNat - 48 = d := by
      simp only [Nat.toUInt8_eq, UInt8.toNat_ofNat']
      omega
    rw [showDecimal]
    split
    · rename_i hn
      rw [← List.nil_append [(48 + n).toUInt8], decimal_append, hdigit hn]
      exact Nat.zero_add n
    · rw [decimal_append, ih (Nat.div_lt_of_lt_mul (Nat.mul_comm _ _ ▸ h)), hdigit (Nat.mod_lt n (by decide))]
      omega

end CStrings
