import Mathlib.Data.List.Basic

/-! Lists from which dead elements have been dropped here and there, and what the operations on a
row do to both of them. -/
namespace PrunedLists

/-- The second list is the first without some elements, all of which are dead. -/
inductive Pruned {α : Type} (dead : α → Prop) : List α → List α → Prop where
  | nil : Pruned dead [] []
  | keep {a : α} {l m : List α} : Pruned dead l m → Pruned dead (a :: l) (a :: m)
  | drop {a : α} {l m : List α} : dead a → Pruned dead l m → Pruned dead (a :: l) m

namespace Pruned
variable {α : Type} {dead : α → Prop} {l m : List α}

theorem refl (dead : α → Prop) (l : List α) : Pruned dead l l := by
  induction l with
  | nil => exact .nil
  | cons a l ih => exact ih.keep

theorem sublist (h : Pruned dead l m) : m.Sublist l := by
  induction h with
  | nil => exact .slnil
  | keep _ ih => exact ih.cons_cons _
  | drop _ _ ih => exact ih.cons _

/-- What is dead stays dead. -/
theorem mono {dead' : α → Prop} (h : Pruned dead l m) (hdead : ∀ a ∈ l, dead a → dead' a) : Pruned dead' l m := by
  induction h with
  | nil => exact .nil
  | keep _ ih => exact (ih fun a ha => hdead a (List.mem_cons_of_mem _ ha)).keep
  | drop hd _ ih =>
    exact .drop (hdead _ List.mem_cons_self hd) (ih fun a ha => hdead a (List.mem_cons_of_mem _ ha))

theorem filter (h : Pruned dead l m) (p : α → Bool) : Pruned dead (l.filter p) (m.filter p) := by
  induction h with
  | nil => exact .nil
  | keep _ ih =>
    rw [List.filter_cons, List.filter_cons]
    split
    · exact ih.keep
    · exact ih
  | drop hd _ ih =>
    rw [List.filter_cons]
    split
    · exact .drop hd ih
    · exact ih

/-- Dropping more dead elements. -/
theorem sweep (h : Pruned dead l m) {p : α → Bool} (hp : ∀ a ∈ m, p a = false → dead a) :
    Pruned dead l (m.filter p) := by
  induction h with
  | nil => exact .nil
  | @keep a l m _ ih =>
    have hrest := ih fun b hb => hp b (List.mem_cons_of_mem _ hb)
    by_cases hpa : p a = true
    · rw [List.filter_cons_of_pos hpa]
      exact hrest.keep
    · rw [List.filter_cons_of_neg hpa]
      exact .drop (hp a List.mem_cons_self ((Bool.not_eq_true _).mp hpa)) hrest
  | drop hd _ ih => exact .drop hd (ih hp)

/-- A change of the one element that passes a test, if no such element was dropped. -/
theorem map {f : α → α} {same : α → Bool} (h : Pruned dead l m) (hf : ∀ a, same a = false → f a = a)
    (hone : l.Pairwise fun a b => same a = true → same b = false) (hkept : l.any same = true → m.any same = true) :
    Pruned dead (l.map f) (m.map f) := by
  induction h with
  | nil => exact .nil
  | @keep a l m hpruned ih =>
    obtain ⟨hfirst, hrest⟩ := List.pairwise_cons.mp hone
    refine (ih hrest fun hany => ?_).keep
    obtain ⟨b, hb, hsame⟩ := List.any_eq_true.mp hany
    have ha : same a = false := by
      by_contra ha
      have hnot := hfirst b hb ((Bool.not_eq_false _).mp ha)
      rw [hsame] at hnot
      cases hnot
    have hwhole := hkept (List.any_eq_true.mpr ⟨b, List.mem_cons_of_mem a hb, hsame⟩)
    rwa [List.any_cons, ha, Bool.false_or] at hwhole
  | @drop a l m hd hpruned ih =>
    obtain ⟨hfirst, hrest⟩ := List.pairwise_cons.mp hone
    have ha : same a = false := by
      by_contra ha
      have hsame : same a = true := (Bool.not_eq_false _).mp ha
      obtain ⟨b, hb, hb'⟩ := List.any_eq_true.mp (hkept (List.any_eq_true.mpr ⟨a, List.mem_cons_self, hsame⟩))
      have hnot := hfirst b (hpruned.sublist.subset hb) hsame
      rw [hb'] at hnot
      cases hnot
    rw [List.map_cons, hf a ha]
    exact .drop hd (ih hrest fun hany => hkept (by rw [List.any_cons, hany, Bool.or_true]))

end Pruned

/-- A change of the first element that passes a test, where only one does. -/
theorem modify_findIdx_eq_map {α : Type} {f : α → α} {same : α → Bool} {l : List α} {i : Nat}
    (h : l.findIdx? same = some i) (hone : l.Pairwise fun a b => same a = true → same b = false) :
    l.modify i f = l.map fun a => if same a then f a else a := by
  induction l generalizing i with
  | nil => cases h
  | cons a l ih =>
    obtain ⟨hfirst, hrest⟩ := List.pairwise_cons.mp hone
    rw [List.findIdx?_cons] at h
    split at h
    · rename_i ha
      obtain rfl := Option.some.inj h
      have htail : l.map (fun b => if same b then f b else b) = l := by
        refine (List.map_congr_left fun b hb => ?_).trans (List.map_id' l)
        rw [hfirst b hb ha]
        exact if_neg Bool.false_ne_true
      rw [List.map_cons, if_pos ha, htail]
      rfl
    · rename_i ha
      obtain ⟨j, hj, rfl⟩ := Option.map_eq_some_iff.mp h
      rw [List.map_cons, if_neg ha, List.modify_succ_cons, ih hj hrest]

end PrunedLists
