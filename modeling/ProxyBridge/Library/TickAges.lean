import Mathlib.Data.UInt

/-! Ages as unsigned differences against samples of a 64-bit tick count. A sample may be older than
the clock, and older than the stamp it is compared with. -/
namespace TickAges
variable {ttl timestamp now clock : UInt64}

/-- An age only grows. -/
theorem age_le (h : timestamp ≤ now) (h' : now ≤ clock) : now - timestamp ≤ clock - timestamp := by
  rw [UInt64.le_iff_toNat_le, UInt64.toNat_sub_of_le _ _ h, UInt64.toNat_sub_of_le _ _ (UInt64.le_trans h h')]
  exact Nat.sub_le_sub_right (UInt64.le_iff_toNat_le.mp h') _

/-- What is old by a sample is old by the clock. -/
theorem le_age_of_sampled (hage : ttl ≤ now - timestamp) (hnow : now ≤ clock)
    (h : timestamp ≤ now ∨ ttl ≤ clock - timestamp) : ttl ≤ clock - timestamp :=
  h.elim (fun hle => UInt64.le_trans hage (age_le hle hnow)) id

/-- A stamp later than the sample looks almost `2 ^ 64` ticks old. -/
theorem lt_age_of_later (hlate : now < timestamp) (hle : timestamp ≤ clock)
    (hclock : clock.toNat + ttl.toNat < UInt64.size) : ttl < now - timestamp := by
  rw [UInt64.lt_iff_toNat_lt, UInt64.toNat_sub]
  rw [UInt64.lt_iff_toNat_lt] at hlate
  rw [UInt64.le_iff_toNat_le] at hle
  simp only [UInt64.size] at hclock
  omega

end TickAges
