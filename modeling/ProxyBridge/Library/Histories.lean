import Mathlib.Order.Monotone.Basic

/-! Histories of a transition system: a state for every moment, and an action or none between two moments.
What is in force at a moment comes from the actions before it. -/
namespace Histories

variable {σ α β : Type} {step : σ → α → Option σ} {init : σ}

/-- A history that starts in a given state. -/
structure History (step : σ → α → Option σ) (init : σ) where
  state : Nat → σ
  action : Nat → Option α
  starts : state 0 = init
  steps : ∀ n, (action n).elim (some (state n)) (step (state n)) = some (state (n + 1))

namespace History

/-- One action, and nothing after it. -/
def single {a : α} {s : σ} (hs : step init a = some s) : History step init where
  state
    | 0 => init
    | _ + 1 => s
  action
    | 0 => some a
    | _ + 1 => none
  starts := rfl
  steps
    | 0 => hs
    | _ + 1 => rfl

variable (h : History step init)

theorem state_succ_of_none {n : Nat} (ha : h.action n = none) : h.state (n + 1) = h.state n := by
  have hs := h.steps n
  rw [ha] at hs
  exact (Option.some.inj hs).symm

theorem step_of_some {n : Nat} {a : α} (ha : h.action n = some a) : step (h.state n) a = some (h.state (n + 1)) := by
  have hs := h.steps n
  rw [ha] at hs
  exact hs

/-- What holds at the start and survives every step holds at every moment. -/
theorem invariant (inv : σ → Prop) (hinit : inv init) (hstep : ∀ s a s', inv s → step s a = some s' → inv s')
    (n : Nat) : inv (h.state n) := by
  induction n with
  | zero =>
    rw [h.starts]
    exact hinit
  | succ n ih =>
    cases ha : h.action n with
    | none =>
      rw [h.state_succ_of_none ha]
      exact ih
    | some a => exact hstep _ a _ ih (h.step_of_some ha)

/-- A quantity that no step lowers. -/
theorem monotone (f : σ → Nat) (hstep : ∀ s a s', step s a = some s' → f s ≤ f s') : Monotone (f ∘ h.state) := by
  refine monotone_nat_of_le_succ (fun n => ?_)
  cases ha : h.action n with
  | none => exact Nat.le_of_eq (congrArg f (h.state_succ_of_none ha).symm)
  | some a => exact hstep _ a _ (h.step_of_some ha)

/-- No action of the kind between two moments. -/
def Without (kind : α → Prop) (m n : Nat) : Prop := ∀ j, m ≤ j → j < n → ∀ a, h.action j = some a → ¬kind a

variable {h}

theorem Without.succ {kind : α → Prop} {m n : Nat} (hw : h.Without kind m n)
    (hn : ∀ a, h.action n = some a → ¬kind a) : h.Without kind m (n + 1) := by
  intro j hm hj a ha
  rcases Nat.lt_succ_iff_lt_or_eq.mp hj with hlt | rfl
  · exact hw j hm hlt a ha
  · exact hn a ha

theorem Without.mono {kind : α → Prop} {m m' n n' : Nat} (hw : h.Without kind m n) (hm : m ≤ m') (hn : n' ≤ n) :
    h.Without kind m' n' :=
  fun j hj hj' => hw j (Nat.le_trans hm hj) (Nat.lt_of_lt_of_le hj' hn)

variable (h)

/-- A part of the state is as it was at the start, or as the last action that wrote it has left it. -/
def LastWrite (part : σ → β) (writes : α → Option β) (n : Nat) : Prop :=
  (part (h.state n) = part init ∧ h.Without (fun a => (writes a).isSome = true) 0 n) ∨
  ∃ i < n, ∃ a, h.action i = some a ∧ writes a = some (part (h.state n)) ∧
    h.Without (fun a => (writes a).isSome = true) (i + 1) n

private theorem LastWrite.keep {part : σ → β} {writes : α → Option β} {n : Nat} (hw : h.LastWrite part writes n)
    (hpart : part (h.state (n + 1)) = part (h.state n)) (hno : ∀ a, h.action n = some a → ¬(writes a).isSome = true) :
    h.LastWrite part writes (n + 1) := by
  unfold LastWrite
  rw [hpart]
  rcases hw with ⟨hp, hw⟩ | ⟨i, hi, a, ha, hwa, hw⟩
  · exact .inl ⟨hp, hw.succ hno⟩
  · exact .inr ⟨i, Nat.lt_succ_of_lt hi, a, ha, hwa, hw.succ hno⟩

theorem lastWrite (part : σ → β) (writes : α → Option β)
    (hwrites : ∀ s a s', step s a = some s' → part s' = (writes a).getD (part s)) (n : Nat) :
    h.LastWrite part writes n := by
  induction n with
  | zero => exact .inl ⟨congrArg part h.starts, fun j _ hj => absurd hj (Nat.not_lt_zero j)⟩
  | succ n ih =>
    cases ha : h.action n with
    | none => exact ih.keep h (congrArg part (h.state_succ_of_none ha)) (fun a hb => by cases ha.symm.trans hb)
    | some a =>
      have hpart := hwrites _ a _ (h.step_of_some ha)
      cases hwa : writes a with
      | none =>
        rw [hwa] at hpart
        refine ih.keep h hpart (fun b hb => ?_)
        obtain rfl := Option.some.inj (ha.symm.trans hb)
        simp [hwa]
      | some b =>
        rw [hwa] at hpart
        refine .inr ⟨n, Nat.lt_succ_self n, a, ha, hpart ▸ hwa, fun j hj hj' => ?_⟩
        exact absurd hj' (Nat.not_lt.mpr hj)

variable {h} in
/-- The last write determines the part. -/
theorem LastWrite.eq {part : σ → β} {writes : α → Option β} {n i : Nat} {a : α} {b : β}
    (hl : h.LastWrite part writes n) (hi : i < n) (ha : h.action i = some a) (hb : writes a = some b)
    (hw : h.Without (fun a => (writes a).isSome = true) (i + 1) n) : part (h.state n) = b := by
  have hwrites : (writes a).isSome = true := by rw [hb]; rfl
  rcases hl with ⟨-, hno⟩ | ⟨j, hj, a', ha', hb', hw'⟩
  · exact absurd hwrites (hno i (Nat.zero_le i) hi a ha)
  · rcases Nat.lt_trichotomy i j with hlt | rfl | hlt
    · have hwrites' : (writes a').isSome = true := by rw [hb']; rfl
      exact absurd hwrites' (hw j hlt hj a' ha')
    · obtain rfl := Option.some.inj (ha.symm.trans ha')
      exact (Option.some.inj (hb.symm.trans hb')).symm
    · exact absurd hwrites (hw' i hlt hi a ha)

/-- A list to which some actions add and which some empty holds what was added and not cleared since. -/
theorem mem_collected (part : σ → List β) (adds : σ → α → Option β) (clears : α → Prop) [DecidablePred clears]
    (hinit : part init = [])
    (hstep : ∀ s a s', step s a = some s' → part s' = if clears a then [] else part s ++ (adds s a).toList)
    (n : Nat) (b : β) :
    b ∈ part (h.state n) ↔ ∃ i < n, ∃ a, h.action i = some a ∧ ¬clears a ∧ adds (h.state i) a = some b ∧
      h.Without clears (i + 1) n := by
  induction n with
  | zero =>
    rw [h.starts, hinit]
    exact ⟨fun hb => (List.not_mem_nil hb).elim, fun ⟨i, hi, _⟩ => absurd hi (Nat.not_lt_zero i)⟩
  | succ n ih =>
    have hlater : ∀ {i : Nat}, h.Without clears (i + 1) (n + 1) → h.Without clears (i + 1) n :=
      fun hw => hw.mono (Nat.le_refl _) (Nat.le_succ n)
    cases ha : h.action n with
    | none =>
      rw [h.state_succ_of_none ha, ih]
      constructor
      · rintro ⟨i, hi, a, hai, hc, hadd, hw⟩
        exact ⟨i, Nat.lt_succ_of_lt hi, a, hai, hc, hadd, hw.succ (fun a hb => by cases ha.symm.trans hb)⟩
      · rintro ⟨i, hi, a, hai, hc, hadd, hw⟩
        rcases Nat.lt_succ_iff_lt_or_eq.mp hi with hlt | rfl
        · exact ⟨i, hlt, a, hai, hc, hadd, hlater hw⟩
        · cases ha.symm.trans hai
    | some a =>
      rw [hstep _ a _ (h.step_of_some ha)]
      by_cases hclear : clears a
      · rw [if_pos hclear]
        refine ⟨fun hb => (List.not_mem_nil hb).elim, ?_⟩
        rintro ⟨i, hi, b', hai, hc, -, hw⟩
        rcases Nat.lt_succ_iff_lt_or_eq.mp hi with hlt | rfl
        · exact absurd hclear (hw n hlt (Nat.lt_succ_self n) a ha)
        · exact absurd (Option.some.inj (ha.symm.trans hai) ▸ hclear) hc
      · rw [if_neg hclear, List.mem_append, ih, Option.mem_toList]
        constructor
        · rintro (⟨i, hi, a', hai, hc, hadd, hw⟩ | hadd)
          · refine ⟨i, Nat.lt_succ_of_lt hi, a', hai, hc, hadd, hw.succ (fun a'' hb => ?_)⟩
            exact Option.some.inj (ha.symm.trans hb) ▸ hclear
          · exact ⟨n, Nat.lt_succ_self n, a, ha, hclear, hadd, fun j hj hj' => absurd hj' (Nat.not_lt.mpr hj)⟩
        · rintro ⟨i, hi, a', hai, hc, hadd, hw⟩
          rcases Nat.lt_succ_iff_lt_or_eq.mp hi with hlt | rfl
          · exact .inl ⟨i, hlt, a', hai, hc, hadd, hlater hw⟩
          · obtain rfl := Option.some.inj (ha.symm.trans hai)
            exact .inr hadd

end History
end Histories
