import Mathlib.Data.List.Nodup
import Mathlib.Logic.Function.Basic

/-! Tables of handles. A place holds a handle or none, every handle that is opened has a number of its own, and
the deeds are what was opened and closed so far. A handle may have users that must be closed before it. -/
namespace HandleTables
variable {κ : Type}

inductive Deed (κ : Type) where
  | opened (k : κ) (n : Nat)
  | closed (k : κ) (n : Nat)

def Deed.openedNumber : Deed κ → Option Nat
  | .opened _ n => some n
  | .closed _ _ => none

def Deed.closedNumber : Deed κ → Option Nat
  | .opened _ _ => none
  | .closed _ n => some n

structure Table (κ : Type) where
  held : κ → Option Nat
  next : Nat
  deeds : List (Deed κ)

namespace Table

def empty : Table κ := ⟨fun _ => none, 0, []⟩

variable [DecidableEq κ] (t : Table κ)

/-- Put a new handle in a place, or nothing where none is made. -/
def acquire (k : κ) (made : Bool) : Table κ :=
  if made then ⟨Function.update t.held k (some t.next), t.next + 1, t.deeds ++ [.opened k t.next]⟩
  else { t with held := Function.update t.held k none }

/-- Close what a place holds. -/
def release (k : κ) : Table κ :=
  match t.held k with
  | none => t
  | some n => { t with held := Function.update t.held k none, deeds := t.deeds ++ [.closed k n] }

def releaseAll (l : List κ) : Table κ := l.foldl release t

theorem held_acquire_ne {k k' : κ} (h : k' ≠ k) (made : Bool) : (t.acquire k made).held k' = t.held k' := by
  unfold acquire
  split <;> exact Function.update_of_ne h _ _

theorem held_acquire (k : κ) (made : Bool) :
    (t.acquire k made).held k = if made then some t.next else none := by
  unfold acquire
  split <;> exact Function.update_self _ _ _

theorem held_release (k k' : κ) : (t.release k).held k' = if k' = k then none else t.held k' := by
  unfold release
  split
  · rename_i hk
    split
    · rename_i he
      rw [he, hk]
    · rfl
  · exact Function.update_apply t.held k none k'

theorem held_releaseAll (l : List κ) (k : κ) : (t.releaseAll l).held k = if k ∈ l then none else t.held k := by
  induction l generalizing t with
  | nil => rfl
  | cons k' l ih =>
    rw [releaseAll, List.foldl_cons]
    refine (ih (t.release k')).trans ?_
    rw [held_release]
    by_cases hl : k ∈ l
    · rw [if_pos hl, if_pos (List.mem_cons_of_mem _ hl)]
    · by_cases he : k = k' <;> simp [hl, he]

theorem release_deeds (k : κ) : (t.release k).deeds = t.deeds ++ ((t.held k).map (Deed.closed k)).toList := by
  unfold release
  split
  · rename_i hk
    simp [hk]
  · rename_i n hk
    simp [hk]

/-- Places are closed in the order of the list, where they hold something. -/
theorem releaseAll_deeds {l : List κ} (h : l.Nodup) :
    (t.releaseAll l).deeds = t.deeds ++ l.filterMap fun k => (t.held k).map (Deed.closed k) := by
  induction l generalizing t with
  | nil => simp [releaseAll]
  | cons k l ih =>
    obtain ⟨hk, hl⟩ := List.nodup_cons.mp h
    have hrest : l.filterMap (fun k' => ((t.release k).held k').map (Deed.closed k')) =
        l.filterMap fun k' => (t.held k').map (Deed.closed k') := by
      refine List.filterMap_congr fun k' hk' => ?_
      have hne : k' ≠ k := by
        rintro rfl
        exact hk hk'
      rw [held_release, if_neg hne]
    refine (ih (t.release k) hl).trans ?_
    rw [hrest, release_deeds, List.append_assoc, List.filterMap_cons]
    cases t.held k <;> rfl

theorem releaseAll_append (l l' : List κ) : t.releaseAll (l ++ l') = (t.releaseAll l).releaseAll l' :=
  List.foldl_append

end Table

/-- Every handle is opened and closed once, a place holds what was opened there and is not closed, and nothing is
closed before its users. -/
structure Sound (users : κ → List κ) (t : Table κ) : Prop where
  fresh : ∀ k n, .opened k n ∈ t.deeds → n < t.next
  openedOnce : (t.deeds.filterMap Deed.openedNumber).Nodup
  closedOnce : (t.deeds.filterMap Deed.closedNumber).Nodup
  held_iff : ∀ k n, t.held k = some n ↔ .opened k n ∈ t.deeds ∧ .closed k n ∉ t.deeds
  closed : ∀ k n, .closed k n ∈ t.deeds → .opened k n ∈ t.deeds
  ordered : ∀ before after k n, t.deeds = before ++ .closed k n :: after →
    ∀ u ∈ users k, ∀ m, .opened u m ∈ before → .closed u m ∈ before

/-- No place comes before one of its users, apart from those that were seen before. -/
def usersFirst [DecidableEq κ] (users : κ → List κ) : List κ → List κ → Bool
  | _, [] => true
  | seen, k :: l => (users k).all (seen.contains ·) && usersFirst users (k :: seen) l

namespace Sound
variable {users : κ → List κ} {t : Table κ}

theorem empty : Sound users (Table.empty : Table κ) where
  fresh k n h := by cases h
  openedOnce := .nil
  closedOnce := .nil
  held_iff k n := ⟨fun h => (by cases h), fun h => (by cases h.1)⟩
  closed k n h := by cases h
  ordered before after k n h := by simp [Table.empty] at h

/-- What is closed is not held any more. -/
theorem closed_of_none (h : Sound users t) {k : κ} {n : Nat} (hk : t.held k = none) (ho : .opened k n ∈ t.deeds) :
    .closed k n ∈ t.deeds := by
  by_contra hc
  cases hk.symm.trans ((h.held_iff k n).mpr ⟨ho, hc⟩)

/-- A number is opened at one place. -/
theorem opened_inj (h : Sound users t) {k k' : κ} {n : Nat} (hk : .opened k n ∈ t.deeds)
    (hk' : .opened k' n ∈ t.deeds) : k = k' := by
  have hnodup := h.openedOnce
  rw [List.Nodup, List.pairwise_filterMap] at hnodup
  by_contra hne
  have hdiff : (Deed.opened k n) ≠ .opened k' n := fun he => hne (Deed.opened.inj he).1
  have hall := List.pairwise_iff_getElem.mp hnodup
  obtain ⟨i, hi, hki⟩ := List.getElem_of_mem hk
  obtain ⟨j, hj, hkj⟩ := List.getElem_of_mem hk'
  rcases Nat.lt_trichotomy i j with hlt | rfl | hlt
  · exact hall i j hi hj hlt n (by rw [hki]; rfl) n (by rw [hkj]; rfl) rfl
  · exact hdiff (hki.symm.trans hkj)
  · exact hall j i hj hi hlt n (by rw [hkj]; rfl) n (by rw [hki]; rfl) rfl

variable [DecidableEq κ]

/-- The place holds nothing, so nothing is lost there. -/
theorem acquire (h : Sound users t) {k : κ} (hk : t.held k = none) (made : Bool) : Sound users (t.acquire k made) := by
  cases made with
  | false =>
    have hsame : t.acquire k false = t := by
      change { t with held := Function.update t.held k none } = t
      rw [← hk, Function.update_eq_self]
    rw [hsame]
    exact h
  | true =>
    have hnew : ∀ k', (Deed.opened k' t.next) ∉ t.deeds := fun k' ho => Nat.lt_irrefl _ (h.fresh k' t.next ho)
    refine ⟨fun k' n ho => ?_, ?_, ?_, fun k' n => ?_, fun k' n hc => ?_, fun before after k' n hsplit => ?_⟩
    · rcases List.mem_append.mp ho with ho | ho
      · exact Nat.lt_succ_of_lt (h.fresh k' n ho)
      · obtain ⟨-, rfl⟩ := Deed.opened.inj (List.mem_singleton.mp ho)
        exact Nat.lt_succ_self _
    · change ((t.deeds ++ [Deed.opened k t.next]).filterMap Deed.openedNumber).Nodup
      rw [List.filterMap_append, List.nodup_append]
      refine ⟨h.openedOnce, List.nodup_singleton _, fun n hn m hm => ?_⟩
      obtain ⟨d, hd, hdn⟩ := List.mem_filterMap.mp hn
      obtain rfl := List.mem_singleton.mp hm
      cases d with
      | opened k' n' =>
        obtain rfl := Option.some.inj hdn
        exact Nat.ne_of_lt (h.fresh k' _ hd)
      | closed k' n' => cases hdn
    · change ((t.deeds ++ [Deed.opened k t.next]).filterMap Deed.closedNumber).Nodup
      rw [List.filterMap_append]
      exact (List.append_nil _).symm ▸ h.closedOnce
    · change Function.update t.held k (some t.next) k' = some n ↔
        Deed.opened k' n ∈ t.deeds ++ [Deed.opened k t.next] ∧ Deed.closed k' n ∉ t.deeds ++ [Deed.opened k t.next]
      simp only [List.mem_append, List.mem_singleton, Deed.opened.injEq, reduceCtorEq, or_false]
      by_cases he : k' = k
      · subst he
        rw [Function.update_self]
        constructor
        · intro hn
          obtain rfl := Option.some.inj hn
          exact ⟨.inr ⟨rfl, rfl⟩, fun hc => hnew k' (h.closed k' _ hc)⟩
        · rintro ⟨ho | ⟨-, rfl⟩, hc⟩
          · exact absurd (h.closed_of_none hk ho) hc
          · rfl
      · rw [Function.update_of_ne he, h.held_iff]
        simp [he]
    · rcases List.mem_append.mp hc with hc | hc
      · exact List.mem_append_left _ (h.closed k' n hc)
      · cases List.mem_singleton.mp hc
    · rcases List.eq_nil_or_concat after with rfl | ⟨after, d, rfl⟩
      · have hlast := (List.append_inj' hsplit rfl).2
        cases (List.cons.inj hlast).1
      · have hassoc : t.deeds ++ [Deed.opened k t.next] = (before ++ Deed.closed k' n :: after) ++ [d] := by
          simpa [Table.acquire] using hsplit
        exact h.ordered before after k' n (List.append_inj' hassoc rfl).1

/-- Its users hold nothing any more. -/
theorem release (h : Sound users t) {k : κ} (hu : ∀ u ∈ users k, t.held u = none) : Sound users (t.release k) := by
  unfold Table.release
  split
  · exact h
  rename_i n hn
  obtain ⟨ho, hnc⟩ := (h.held_iff k n).mp hn
  refine ⟨fun k' m ho' => ?_, ?_, ?_, fun k' m => ?_, fun k' m hc => ?_, fun before after k' m hsplit => ?_⟩
  · rcases List.mem_append.mp ho' with ho' | ho'
    · exact h.fresh k' m ho'
    · cases List.mem_singleton.mp ho'
  · change ((t.deeds ++ [Deed.closed k n]).filterMap Deed.openedNumber).Nodup
    rw [List.filterMap_append]
    exact (List.append_nil _).symm ▸ h.openedOnce
  · change ((t.deeds ++ [Deed.closed k n]).filterMap Deed.closedNumber).Nodup
    rw [List.filterMap_append, List.nodup_append]
    refine ⟨h.closedOnce, List.nodup_singleton _, fun m hm m' hm' => ?_⟩
    obtain ⟨d, hd, hdm⟩ := List.mem_filterMap.mp hm
    obtain rfl := List.mem_singleton.mp hm'
    rintro rfl
    cases d with
    | opened k' m' => cases hdm
    | closed k' m' =>
      obtain rfl := Option.some.inj hdm
      obtain rfl := h.opened_inj ho (h.closed k' _ hd)
      exact hnc hd
  · change Function.update t.held k none k' = some m ↔
      Deed.opened k' m ∈ t.deeds ++ [Deed.closed k n] ∧ Deed.closed k' m ∉ t.deeds ++ [Deed.closed k n]
    simp only [List.mem_append, List.mem_singleton, Deed.closed.injEq, reduceCtorEq, or_false, not_or]
    by_cases he : k' = k
    · subst he
      rw [Function.update_self]
      refine iff_of_false (fun hc => by cases hc) ?_
      rintro ⟨ho', hc, hne⟩
      have hm := (h.held_iff k' m).mpr ⟨ho', hc⟩
      exact hne ⟨rfl, Option.some.inj (hm.symm.trans hn)⟩
    · rw [Function.update_of_ne he, h.held_iff]
      simp [he]
  · rcases List.mem_append.mp hc with hc | hc
    · exact List.mem_append_left _ (h.closed k' m hc)
    · obtain ⟨rfl, rfl⟩ := Deed.closed.inj (List.mem_singleton.mp hc)
      exact List.mem_append_left _ ho
  · intro u huser m' ho'
    rcases List.eq_nil_or_concat after with rfl | ⟨after, d, rfl⟩
    · obtain ⟨rfl, hlast⟩ := List.append_inj' hsplit rfl
      obtain ⟨rfl, -⟩ := Deed.closed.inj (List.cons.inj hlast).1
      exact h.closed_of_none (hu u huser) ho'
    · have hassoc : t.deeds ++ [Deed.closed k n] = (before ++ Deed.closed k' m :: after) ++ [d] := by
        simpa using hsplit
      exact h.ordered before after k' m (List.append_inj' hassoc rfl).1 u huser m' ho'

/-- Places are released one after the other, each after its users or where they hold nothing. -/
theorem releaseAll (h : Sound users t) (seen : List κ) {l : List κ} (hseen : ∀ u ∈ seen, t.held u = none)
    (hl : usersFirst users seen l = true) : Sound users (t.releaseAll l) := by
  induction l generalizing t seen with
  | nil => exact h
  | cons k l ih =>
    rw [usersFirst, Bool.and_eq_true, List.all_eq_true] at hl
    have hfirst : ∀ u ∈ users k, t.held u = none := fun u hu => hseen u (List.contains_iff_mem.mp (hl.1 u hu))
    refine ih (h.release hfirst) (k :: seen) (fun u hu => ?_) hl.2
    rw [Table.held_release]
    split
    · rfl
    · rename_i hne
      exact hseen u ((List.mem_cons.mp hu).resolve_left hne)

end Sound
end HandleTables
