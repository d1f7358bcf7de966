import Mathlib.Algebra.Group.Nat.Defs
import Mathlib.Data.List.Basic

/-! Byte strings as numbers in network order: their value, their order and their bits. -/
namespace BigEndian

def value (l : List UInt8) : Nat := l.foldl (fun n b => n * 256 + b.toNat) 0

/-- The bits, from the highest of the first byte on. -/
def bit (l : List UInt8) (i : Nat) : Bool := (l.getD (i / 8) 0).toNat.testBit (7 - i % 8)

private theorem foldl_value (l : List UInt8) (n : Nat) :
    l.foldl (fun n b => n * 256 + b.toNat) n = n * 256 ^ l.length + value l := by
  induction l generalizing n with
  | nil => simp [value]
  | cons b l ih =>
    rw [value, List.foldl_cons, List.foldl_cons, ih, ih (0 * 256 + b.toNat), List.length_cons, Nat.pow_succ,
      Nat.add_mul, Nat.zero_mul, Nat.zero_add, Nat.mul_assoc, Nat.mul_comm 256, Nat.add_assoc]

@[simp] theorem value_nil : value [] = 0 := rfl

theorem value_cons (b : UInt8) (l : List UInt8) : value (b :: l) = b.toNat * 256 ^ l.length + value l := by
  rw [value, List.foldl_cons, foldl_value]
  simp

theorem value_lt (l : List UInt8) : value l < 256 ^ l.length := by
  induction l with
  | nil => simp
  | cons b l ih =>
    have hb : b.toNat + 1 ≤ 256 := b.toNat_lt
    have hmul := Nat.mul_le_mul_right (256 ^ l.length) hb
    rw [value_cons, List.length_cons, Nat.pow_succ]
    rw [Nat.add_mul, Nat.one_mul] at hmul
    omega

/-- Byte strings of one length are ordered as their values. -/
theorem lt_iff_value_lt {a b : List UInt8} (h : a.length = b.length) : a < b ↔ value a < value b := by
  induction a generalizing b with
  | nil =>
    obtain rfl := List.length_eq_zero_iff.mp h.symm
    simp
  | cons x a ih =>
    cases b with
    | nil => cases h
    | cons y b =>
      have hlen : a.length = b.length := Nat.succ.inj h
      have ha := value_lt a
      have hb := value_lt b
      rw [hlen] at ha
      rw [List.cons_lt_cons_iff, value_cons, value_cons, hlen, ih hlen, UInt8.lt_iff_toNat_lt]
      constructor
      · rintro (hlt | ⟨rfl, hlt⟩)
        · have hmul := Nat.mul_le_mul_right (256 ^ b.length) (Nat.succ_le_of_lt hlt)
          rw [Nat.succ_mul] at hmul
          omega
        · omega
      · intro hlt
        rcases Nat.lt_trichotomy x.toNat y.toNat with hxy | hxy | hxy
        · exact .inl hxy
        · rw [hxy] at hlt
          exact .inr ⟨UInt8.toNat_inj.mp hxy, by omega⟩
        · have hmul := Nat.mul_le_mul_right (256 ^ b.length) (Nat.succ_le_of_lt hxy)
          rw [Nat.succ_mul] at hmul
          omega

theorem le_iff_value_le {a b : List UInt8} (h : a.length = b.length) : a ≤ b ↔ value a ≤ value b := by
  rw [← Nat.not_lt, ← lt_iff_value_lt h.symm, List.not_lt]

theorem byte_eq_iff (x y : UInt8) : x = y ↔ ∀ i < 8, x.toNat.testBit i = y.toNat.testBit i := by
  constructor
  · rintro rfl i -
    rfl
  · intro h
    apply UInt8.toNat_inj.mp
    apply Nat.eq_of_testBit_eq
    intro i
    by_cases hi : i < 8
    · exact h i hi
    · have hsmall (z : UInt8) : z.toNat.testBit i = false :=
        Nat.testBit_lt_two_pow (Nat.lt_of_lt_of_le z.toNat_lt (Nat.pow_le_pow_right (by decide) (Nat.not_lt.mp hi)))
      rw [hsmall, hsmall]

private theorem mask_testBit : ∀ r < 8, 0 < r → ∀ i < 8,
    ((0xFF : UInt8) <<< (8 - r).toUInt8).toNat.testBit i = decide (8 - r ≤ i) := by
  decide

/-- The mask for the first `r` bits compares just these. -/
theorem masked_eq_iff {r : Nat} (hr : r < 8) (hpos : 0 < r) (x y : UInt8) :
    x &&& (0xFF : UInt8) <<< (8 - r).toUInt8 = y &&& (0xFF : UInt8) <<< (8 - r).toUInt8 ↔
      ∀ j < r, x.toNat.testBit (7 - j) = y.toNat.testBit (7 - j) := by
  rw [byte_eq_iff]
  constructor
  · intro h j hj
    have hbit := h (7 - j) (by omega)
    rw [UInt8.toNat_and, UInt8.toNat_and, Nat.testBit_and, Nat.testBit_and, mask_testBit r hr hpos _ (by omega)] at hbit
    simpa [show 8 - r ≤ 7 - j by omega] using hbit
  · intro h i hi
    rw [UInt8.toNat_and, UInt8.toNat_and, Nat.testBit_and, Nat.testBit_and, mask_testBit r hr hpos i hi]
    by_cases hle : 8 - r ≤ i
    · have hbit := h (7 - i) (by omega)
      rw [show 7 - (7 - i) = i by omega] at hbit
      rw [hbit]
    · simp [hle]

/-- The bytes in front of the `k`th are the same when their bits are. -/
theorem take_eq_iff {a b : List UInt8} {k : Nat} (ha : k ≤ a.length) (hb : k ≤ b.length) :
    a.take k = b.take k ↔ ∀ i < 8 * k, bit a i = bit b i := by
  have hlen : (a.take k).length = (b.take k).length := by simp [ha, hb]
  constructor
  · intro h i hi
    have hk : i / 8 < k := by omega
    have hbyte : (a.take k).getD (i / 8) 0 = (b.take k).getD (i / 8) 0 := by rw [h]
    simp only [List.getD_eq_getElem?_getD, List.getElem?_take, hk, if_true] at hbyte
    simp only [bit, List.getD_eq_getElem?_getD, hbyte]
  · intro h
    apply List.ext_getElem hlen
    intro n hn _
    have hk : n < k := by
      rw [List.length_take] at hn
      omega
    rw [List.getElem_take, List.getElem_take, byte_eq_iff]
    intro i hi
    have hbit := h (8 * n + (7 - i)) (by omega)
    have hdiv : (8 * n + (7 - i)) / 8 = n := by omega
    have hmod : 7 - (8 * n + (7 - i)) % 8 = i := by omega
    rw [bit, bit, hdiv, hmod] at hbit
    simpa [show n < a.length by omega, show n < b.length by omega] using hbit

/-- The first `n` bits: the whole bytes, and the bits of the byte behind them. -/
theorem bits_eq_iff {a b : List UInt8} {n : Nat} (ha : n / 8 ≤ a.length) (hb : n / 8 ≤ b.length) :
    (∀ i < n, bit a i = bit b i) ↔ a.take (n / 8) = b.take (n / 8) ∧
      ∀ j < n % 8, (a.getD (n / 8) 0).toNat.testBit (7 - j) = (b.getD (n / 8) 0).toNat.testBit (7 - j) := by
  rw [take_eq_iff ha hb]
  constructor
  · intro h
    refine ⟨fun i hi => h i (by omega), ?_⟩
    intro j hj
    have hbit := h (8 * (n / 8) + j) (by omega)
    have hdiv : (8 * (n / 8) + j) / 8 = n / 8 := by omega
    have hmod : (8 * (n / 8) + j) % 8 = j := by omega
    rwa [bit, bit, hdiv, hmod] at hbit
  · rintro ⟨hbytes, hrest⟩ i hi
    by_cases hwhole : i < 8 * (n / 8)
    · exact hbytes i hwhole
    · have hdiv : i / 8 = n / 8 := by omega
      rw [bit, bit, hdiv]
      exact hrest _ (by omega)

section Words

/-- The bits of a number that a mask leaves. -/
theorem and_mask (x k w : Nat) : x &&& 2 ^ k * (2 ^ w - 1) = 2 ^ k * (x / 2 ^ k % 2 ^ w) := by
  apply Nat.eq_of_testBit_eq
  intro j
  rw [Nat.testBit_and, Nat.testBit_two_pow_mul, Nat.testBit_two_pow_mul]
  by_cases hj : k ≤ j
  · rw [Nat.testBit_two_pow_sub_one, Nat.testBit_mod_two_pow, Nat.testBit_div_two_pow, Nat.sub_add_cancel hj]
    simp [hj, Bool.and_comm]
  · simp [hj]

/-- Octets in their places do not overlap, so they are added. -/
theorem octets_or {a b c d : Nat} (hb : b < 256) (hc : c < 256) (hd : d < 256) :
    16777216 * a ||| 65536 * b ||| 256 * c ||| d = 16777216 * a + 65536 * b + 256 * c + d := by
  have hfirst : 16777216 * a + 65536 * b = 16777216 * a ||| 65536 * b :=
    @Nat.two_pow_add_eq_or_of_lt 24 _ (by omega) a
  have hsecond : 65536 * (256 * a + b) + 256 * c = 65536 * (256 * a + b) ||| 256 * c :=
    @Nat.two_pow_add_eq_or_of_lt 16 _ (by omega) _
  have hthird : 256 * (65536 * a + 256 * b + c) + d = 256 * (65536 * a + 256 * b + c) ||| d :=
    @Nat.two_pow_add_eq_or_of_lt 8 _ (by omega) _
  have htwo : 16777216 * a + 65536 * b = 65536 * (256 * a + b) := by omega
  have hthree : 65536 * (256 * a + b) + 256 * c = 256 * (65536 * a + 256 * b + c) := by omega
  rw [← hfirst, htwo, ← hsecond, hthree, ← hthird]

/-- The bytes of a word, from the lowest on, put it together again. -/
theorem octets_word (x : UInt32) :
    x.toUInt8.toUInt32 ||| (x >>> 8).toUInt8.toUInt32 <<< 8 ||| (x >>> 16).toUInt8.toUInt32 <<< 16 |||
      (x >>> 24).toUInt8.toUInt32 <<< 24 = x := by
  have hlt := x.toNat_lt
  have hb : x.toNat / 65536 % 256 < 256 := Nat.mod_lt _ (by decide)
  have hc : x.toNat / 256 % 256 < 256 := Nat.mod_lt _ (by decide)
  have hd : x.toNat % 256 < 256 := Nat.mod_lt _ (by decide)
  have ha : x.toNat / 16777216 < 256 := by omega
  have hor := octets_or (a := x.toNat / 16777216) hb hc hd
  apply UInt32.toNat_inj.mp
  simp only [UInt32.toNat_or, UInt32.toNat_shiftLeft, UInt8.toNat_toUInt32, UInt32.toNat_toUInt8,
    UInt32.toNat_shiftRight, UInt32.reduceToNat, Nat.reduceMod, Nat.shiftRight_eq_div_pow, Nat.shiftLeft_eq,
    Nat.reducePow]
  rw [Nat.mod_eq_of_lt ha, Nat.mul_comm _ 256, Nat.mul_comm _ 65536, Nat.mul_comm _ 16777216,
    Nat.mod_eq_of_lt (a := 256 * _) (by omega), Nat.mod_eq_of_lt (a := 65536 * _) (by omega),
    Nat.mod_eq_of_lt (a := 16777216 * _) (by omega)]
  rw [Nat.or_comm, Nat.or_comm (x.toNat % 256 ||| _), Nat.or_comm (x.toNat % 256), ← Nat.or_assoc, ← Nat.or_assoc, hor]
  omega

end Words

end BigEndian
