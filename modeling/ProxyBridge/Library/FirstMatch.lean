import Mathlib.Data.List.Basic
import Mathlib.Data.List.Perm.Basic
import Mathlib.Data.List.Nodup

/-! The first match in a list that is sorted by a key. When no two elements share a key it does not depend
on the sorting, nor on the order in which the elements were given. -/
namespace FirstMatch
variable {α : Type}

/-- A way to sort by a key; elements with one key may come in any order. -/
structure Sorting (key : α → Int) where
  sorted : List α → List α
  perm (l : List α) : (sorted l).Perm l
  ordered (l : List α) : (sorted l).Pairwise (fun a b => key a ≤ key b)

/-- The match with the smallest key. -/
structure Least (key : α → Int) (l : List α) (p : α → Bool) (a : α) : Prop where
  mem : a ∈ l
  holds : p a = true
  least : ∀ b ∈ l, p b = true → b = a ∨ key a < key b

variable {key : α → Int} {l l' : List α} {p : α → Bool} {a b : α}

theorem Least.unique (h : Least key l p a) (h' : Least key l p b) : a = b := by
  rcases h.least b h'.mem h'.holds with rfl | hlt
  · rfl
  · rcases h'.least a h.mem h.holds with rfl | hlt'
    · rfl
    · omega

theorem Least.perm (h : Least key l p a) (hp : l.Perm l') : Least key l' p a :=
  ⟨hp.subset h.mem, h.holds, fun b hb => h.least b (hp.symm.subset hb)⟩

private theorem least_of_find? (h : l.Pairwise (fun a b => key a ≤ key b)) (hn : (l.map key).Nodup)
    (hf : l.find? p = some a) : Least key l p a := by
  refine ⟨List.mem_of_find?_eq_some hf, List.find?_some hf, ?_⟩
  induction l with
  | nil => cases hf
  | cons c l ih =>
    obtain ⟨hc, hl⟩ := List.pairwise_cons.mp h
    obtain ⟨hfresh, hn⟩ := List.nodup_cons.mp hn
    intro b hb hpb
    by_cases hpc : p c = true
    · rw [List.find?_cons_of_pos hpc] at hf
      obtain rfl := Option.some.inj hf
      rcases List.mem_cons.mp hb with rfl | hb
      · exact .inl rfl
      · have hne : key c ≠ key b := fun he => hfresh (he ▸ List.mem_map_of_mem hb)
        have hle := hc b hb
        exact .inr (by omega)
    · rw [List.find?_cons_of_neg hpc] at hf
      rcases List.mem_cons.mp hb with rfl | hb
      · exact absurd hpb hpc
      · exact ih hl hn hf b hb hpb

namespace Sorting
variable (S : Sorting key)

theorem find?_sorted_eq_some_iff (hn : (l.map key).Nodup) :
    (S.sorted l).find? p = some a ↔ Least key l p a := by
  have hsorted : ((S.sorted l).map key).Nodup := ((S.perm l).map key).nodup_iff.mpr hn
  constructor
  · exact fun hf => (least_of_find? (S.ordered l) hsorted hf).perm (S.perm l)
  · intro h
    cases hf : (S.sorted l).find? p with
    | none => exact absurd h.holds (List.find?_eq_none.mp hf a ((S.perm l).symm.subset h.mem))
    | some b =>
      rw [((least_of_find? (S.ordered l) hsorted hf).perm (S.perm l)).unique h]

theorem find?_sorted_eq_none_iff : (S.sorted l).find? p = none ↔ ∀ a ∈ l, ¬p a = true := by
  rw [List.find?_eq_none]
  exact ⟨fun h a ha => h a ((S.perm l).symm.subset ha), fun h a ha => h a ((S.perm l).subset ha)⟩

/-- The order in which the elements are given makes no difference. -/
theorem find?_sorted_perm (hn : (l.map key).Nodup) (hp : l.Perm l') :
    (S.sorted l).find? p = (S.sorted l').find? p := by
  have hn' : (l'.map key).Nodup := (hp.map key).nodup_iff.mp hn
  cases hf : (S.sorted l').find? p with
  | none =>
    rw [find?_sorted_eq_none_iff] at hf ⊢
    exact fun a ha => hf a (hp.subset ha)
  | some a =>
    rw [S.find?_sorted_eq_some_iff hn'] at hf
    exact (S.find?_sorted_eq_some_iff hn).mpr (hf.perm hp.symm)

end Sorting

end FirstMatch
