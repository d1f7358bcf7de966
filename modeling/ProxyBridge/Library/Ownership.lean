import Mathlib.Data.Finset.Basic

/-! Resources that are handed from holder to holder. Each place holds one resource or none; every
allocated resource is held at exactly one place. -/
namespace Ownership
variable {κ β : Type}

/-- `hold` places exactly the allocated resources, each once. -/
structure Owned (hold : κ → Option β) (allocated : Finset β) : Prop where
  single : ∀ k k' b, hold k = some b → hold k' = some b → k = k'
  mem : ∀ k b, hold k = some b → b ∈ allocated
  held : ∀ b ∈ allocated, ∃ k, hold k = some b

namespace Owned
variable {hold hold' : κ → Option β} {allocated : Finset β} {k k' : κ} {b : β}

theorem empty (h : ∀ k, hold k = none) : Owned hold ∅ where
  single k k' b hb := by rw [h k] at hb; cases hb
  mem k b hb := by rw [h k] at hb; cases hb
  held b hb := by cases hb

theorem existsUnique (h : Owned hold allocated) (hb : b ∈ allocated) : ∃! k, hold k = some b := by
  obtain ⟨k, hk⟩ := h.held b hb
  exact ⟨k, hk, fun k' hk' => h.single k' k b hk' hk⟩

/-- Nothing is handed over. -/
theorem congr (h : Owned hold allocated) (hsame : ∀ x, hold' x = hold x) : Owned hold' allocated := by
  obtain rfl : hold' = hold := funext hsame
  exact h

/-- A new resource goes to a place that has none. -/
theorem alloc [DecidableEq β] (h : Owned hold allocated) (hk : hold k = none) (hb : b ∉ allocated)
    (hnew : hold' k = some b) (hsame : ∀ x, x ≠ k → hold' x = hold x) : Owned hold' (insert b allocated) where
  single x y c hx hy := by
    have hfresh : ∀ z, hold z ≠ some b := fun z hz => hb (h.mem z b hz)
    by_cases hxk : x = k
    · by_cases hyk : y = k
      · exact hxk.trans hyk.symm
      · rw [hxk, hnew] at hx
        rw [hsame y hyk] at hy
        exact (hfresh y (hy.trans hx.symm)).elim
    · rw [hsame x hxk] at hx
      by_cases hyk : y = k
      · rw [hyk, hnew] at hy
        exact (hfresh x (hx.trans hy.symm)).elim
      · rw [hsame y hyk] at hy
        exact h.single x y c hx hy
  mem x c hx := by
    by_cases hxk : x = k
    · rw [hxk, hnew] at hx
      exact Finset.mem_insert.mpr (.inl (Option.some.inj hx).symm)
    · rw [hsame x hxk] at hx
      exact Finset.mem_insert_of_mem (h.mem x c hx)
  held c hc := by
    rcases Finset.mem_insert.mp hc with rfl | hc
    · exact ⟨k, hnew⟩
    · obtain ⟨x, hx⟩ := h.held c hc
      have hxk : x ≠ k := by
        rintro rfl
        rw [hk] at hx
        cases hx
      exact ⟨x, (hsame x hxk).trans hx⟩

/-- A resource is freed by the place that holds it. -/
theorem free [DecidableEq β] (h : Owned hold allocated) (hk : hold k = some b) (hnew : hold' k = none)
    (hsame : ∀ x, x ≠ k → hold' x = hold x) : Owned hold' (allocated.erase b) := by
  have hother : ∀ x c, hold' x = some c → x ≠ k ∧ hold x = some c := by
    intro x c hx
    have hxk : x ≠ k := by
      rintro rfl
      rw [hnew] at hx
      cases hx
    exact ⟨hxk, (hsame x hxk).symm.trans hx⟩
  refine ⟨fun x y c hx hy => h.single x y c (hother x c hx).2 (hother y c hy).2, fun x c hx => ?_, fun c hc => ?_⟩
  · obtain ⟨hxk, hx⟩ := hother x c hx
    refine Finset.mem_erase.mpr ⟨?_, h.mem x c hx⟩
    rintro rfl
    exact hxk (h.single x k c hx hk)
  · obtain ⟨hcb, hc⟩ := Finset.mem_erase.mp hc
    obtain ⟨x, hx⟩ := h.held c hc
    have hxk : x ≠ k := by
      rintro rfl
      exact hcb (Option.some.inj (hx.symm.trans hk))
    exact ⟨x, (hsame x hxk).trans hx⟩

/-- A resource goes from the place that holds it to one that has none. -/
theorem transfer (h : Owned hold allocated) (hk : hold k = some b) (hk' : hold k' = none) (hnew : hold' k = none)
    (hnew' : hold' k' = some b) (hsame : ∀ x, x ≠ k → x ≠ k' → hold' x = hold x) : Owned hold' allocated := by
  classical
  have hne : k' ≠ k := by
    rintro rfl
    rw [hk] at hk'
    cases hk'
  have hfreed : Owned (Function.update hold k none) (allocated.erase b) :=
    h.free hk (Function.update_self ..) (fun x hx => Function.update_of_ne hx ..)
  have hback : Owned hold' (insert b (allocated.erase b)) := by
    refine hfreed.alloc ?_ (Finset.notMem_erase b allocated) hnew' (fun x hx => ?_)
    · rw [Function.update_of_ne hne]
      exact hk'
    · by_cases hxk : x = k
      · rw [hxk, Function.update_self]
        exact hnew
      · rw [Function.update_of_ne hxk]
        exact hsame x hxk hx
  rwa [Finset.insert_erase (h.mem k b hk)] at hback

end Owned
end Ownership
