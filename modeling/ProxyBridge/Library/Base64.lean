import Mathlib.Data.List.Basic
import Mathlib.Data.List.GetD

/-! Base 64: three bytes as four letters that carry six bits each, and what such a text is read as. -/
namespace Base64

def letter (n : Nat) : UInt8 :=
  if n < 26 then (n + 65).toUInt8
  else if n < 52 then (n + 71).toUInt8
  else if n < 62 then (n - 4).toUInt8
  else if n = 62 then 43
  else 47

def padding : UInt8 := 61

def encode : List UInt8 → List UInt8
  | [] => []
  | [a] => [letter (a.toNat / 4), letter (a.toNat % 4 * 16), padding, padding]
  | [a, b] =>
    [letter (a.toNat / 4), letter (a.toNat % 4 * 16 + b.toNat / 16), letter (b.toNat % 16 * 4), padding]
  | a :: b :: c :: rest =>
    letter (a.toNat / 4) :: letter (a.toNat % 4 * 16 + b.toNat / 16) ::
      letter (b.toNat % 16 * 4 + c.toNat / 64) :: letter (c.toNat % 64) :: encode rest

def value (b : UInt8) : Option Nat :=
  if 65 ≤ b ∧ b ≤ 90 then some (b.toNat - 65)
  else if 97 ≤ b ∧ b ≤ 122 then some (b.toNat - 71)
  else if 48 ≤ b ∧ b ≤ 57 then some (b.toNat + 4)
  else if b = 43 then some 62
  else if b = 47 then some 63
  else none

/-- The bytes of a text. Padding stands at the end, and the bits in front of it that make no byte are dropped. -/
def decode : List UInt8 → Option (List UInt8)
  | [] => some []
  | w :: x :: y :: z :: rest =>
    match value w, value x with
    | some w, some x =>
      let first := (w * 4 + x / 16).toUInt8
      if y = padding ∧ z = padding ∧ rest = [] then some [first]
      else
        match value y with
        | none => none
        | some y =>
          let second := (x % 16 * 16 + y / 4).toUInt8
          if z = padding ∧ rest = [] then some [first, second]
          else
            match value z, decode rest with
            | some z, some bytes => some (first :: second :: (y % 4 * 64 + z).toUInt8 :: bytes)
            | _, _ => none
    | _, _ => none
  | _ => none

theorem value_letter : ∀ n < 64, value (letter n) = some n := by decide

theorem letter_ne_padding : ∀ n < 64, letter n ≠ padding := by decide

private theorem toUInt8_toNat {n : Nat} (b : UInt8) (h : n = b.toNat) : n.toUInt8 = b := by
  subst h
  exact UInt8.ofNat_toNat

/-- The letters of a text, and its padding, are all of these. -/
theorem mem_encode {l : List UInt8} {b : UInt8} (h : b ∈ encode l) : b = padding ∨ ∃ n < 64, b = letter n := by
  have hbyte : ∀ a : UInt8, a.toNat < 256 := UInt8.toNat_lt
  induction l using encode.induct with
  | case1 => cases h
  | case2 a =>
    have ha := hbyte a
    simp only [encode, List.mem_cons, List.not_mem_nil, or_false] at h
    rcases h with rfl | rfl | rfl | rfl
    · exact .inr ⟨_, by omega, rfl⟩
    · exact .inr ⟨_, by omega, rfl⟩
    · exact .inl rfl
    · exact .inl rfl
  | case3 a b =>
    have ha := hbyte a
    have hb := hbyte b
    simp only [encode, List.mem_cons, List.not_mem_nil, or_false] at h
    rcases h with rfl | rfl | rfl | rfl
    · exact .inr ⟨_, by omega, rfl⟩
    · exact .inr ⟨_, by omega, rfl⟩
    · exact .inr ⟨_, by omega, rfl⟩
    · exact .inl rfl
  | case4 a b c rest ih =>
    have ha := hbyte a
    have hb := hbyte b
    have hc := hbyte c
    simp only [encode, List.mem_cons] at h
    rcases h with rfl | rfl | rfl | rfl | h
    · exact .inr ⟨_, by omega, rfl⟩
    · exact .inr ⟨_, by omega, rfl⟩
    · exact .inr ⟨_, by omega, rfl⟩
    · exact .inr ⟨_, by omega, rfl⟩
    · exact ih h

theorem decode_encode (l : List UInt8) : decode (encode l) = some l := by
  have hbyte : ∀ a : UInt8, a.toNat < 256 := UInt8.toNat_lt
  induction l using encode.induct with
  | case1 => rfl
  | case2 a =>
    have ha := hbyte a
    have hw := value_letter (a.toNat / 4) (by omega)
    have hx := value_letter (a.toNat % 4 * 16) (by omega)
    have hfirst := toUInt8_toNat a (show a.toNat / 4 * 4 + a.toNat % 4 * 16 / 16 = a.toNat by omega)
    simp only [encode, decode, hw, hx, hfirst, and_self, if_true]
  | case3 a b =>
    have ha := hbyte a
    have hb := hbyte b
    have hw := value_letter (a.toNat / 4) (by omega)
    have hx := value_letter (a.toNat % 4 * 16 + b.toNat / 16) (by omega)
    have hy := value_letter (b.toNat % 16 * 4) (by omega)
    have hne := letter_ne_padding (b.toNat % 16 * 4) (by omega)
    have hfirst := toUInt8_toNat a
      (show a.toNat / 4 * 4 + (a.toNat % 4 * 16 + b.toNat / 16) / 16 = a.toNat by omega)
    have hsecond := toUInt8_toNat b
      (show (a.toNat % 4 * 16 + b.toNat / 16) % 16 * 16 + b.toNat % 16 * 4 / 4 = b.toNat by omega)
    simp only [encode, decode, hw, hx, hy, hne, hfirst, hsecond, false_and, if_false, and_self, if_true]
  | case4 a b c rest ih =>
    have ha := hbyte a
    have hb := hbyte b
    have hc := hbyte c
    have hw := value_letter (a.toNat / 4) (by omega)
    have hx := value_letter (a.toNat % 4 * 16 + b.toNat / 16) (by omega)
    have hy := value_letter (b.toNat % 16 * 4 + c.toNat / 64) (by omega)
    have hz := value_letter (c.toNat % 64) (by omega)
    have hney := letter_ne_padding (b.toNat % 16 * 4 + c.toNat / 64) (by omega)
    have hnez := letter_ne_padding (c.toNat % 64) (by omega)
    have hfirst := toUInt8_toNat a
      (show a.toNat / 4 * 4 + (a.toNat % 4 * 16 + b.toNat / 16) / 16 = a.toNat by omega)
    have hsecond := toUInt8_toNat b
      (show (a.toNat % 4 * 16 + b.toNat / 16) % 16 * 16 + (b.toNat % 16 * 4 + c.toNat / 64) / 4 = b.toNat by omega)
    have hthird := toUInt8_toNat c
      (show (b.toNat % 16 * 4 + c.toNat / 64) % 4 * 64 + c.toNat % 64 = c.toNat by omega)
    simp only [encode, decode, hw, hx, hy, hz, hney, hnez, hfirst, hsecond, hthird, ih, false_and, if_false]

end Base64
