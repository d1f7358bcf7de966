import Mathlib.Data.List.Nodup
import Mathlib.Logic.Function.Basic

/-! Doubly linked lists threaded through nodes that are stored elsewhere: a head, and for every node
the one before it and the one after it. -/
namespace TwoWayLists
variable {α : Type}

structure TwoWay (α : Type) where
  head : Option α
  prev : α → Option α
  next : α → Option α

namespace TwoWay

def empty : TwoWay α := ⟨none, fun _ => none, fun _ => none⟩

/-- The nodes from a link on, following at most `fuel` next links. -/
def follow (L : TwoWay α) : Nat → Option α → List α
  | 0, _ => []
  | _+1, none => []
  | fuel+1, some a => a :: L.follow fuel (L.next a)

section Operations
variable [DecidableEq α]

/-- Link the node `a`, whose two links are null, in front of the list. -/
def push (L : TwoWay α) (a : α) : TwoWay α where
  head := some a
  prev := match L.head with
    | none => Function.update L.prev a none
    | some h => Function.update (Function.update L.prev a none) h (some a)
  next := Function.update L.next a L.head

/-- Let what leads to `a` lead to the node after it. -/
def bypassForward (L : TwoWay α) (a : α) : TwoWay α :=
  match L.prev a with
  | some p => { L with next := Function.update L.next p (L.next a) }
  | none => { L with head := L.next a }

/-- Let the node after `a` lead back to the one before it. -/
def bypassBack (L : TwoWay α) (a : α) : TwoWay α :=
  match L.next a with
  | some n => { L with prev := Function.update L.prev n (L.prev a) }
  | none => L

/-- Take `a` out of the list. -/
def unlink (L : TwoWay α) (a : α) : TwoWay α := (L.bypassForward a).bypassBack a

end Operations

/-- The nodes of the list are linked to each other both ways, and to their neighbours outside. -/
def Linked (L : TwoWay α) : Option α → List α → Option α → Prop
  | _, [], _ => True
  | p, a :: l, q => L.prev a = p ∧ L.next a = l.head?.or q ∧ L.Linked (some a) l q

theorem linked_append (L : TwoWay α) (p q : Option α) (l m : List α) :
    L.Linked p (l ++ m) q ↔ L.Linked p l (m.head?.or q) ∧ L.Linked (l.getLast?.or p) m q := by
  induction l generalizing p with
  | nil => simp [Linked]
  | cons a l ih =>
    have hhead : (l ++ m).head?.or q = l.head?.or (m.head?.or q) := by
      rw [List.head?_append, Option.or_assoc]
    have hlast : (a :: l).getLast?.or p = l.getLast?.or (some a) := by
      cases l with
      | nil => rfl
      | cons b l => rw [List.getLast?_cons_cons, List.getLast?_cons]; rfl
    simp only [List.cons_append, Linked, ih, hhead, hlast, and_assoc]

/-- The links of other nodes do not matter. -/
theorem Linked.congr {L M : TwoWay α} {p q : Option α} {l : List α} (h : L.Linked p l q)
    (hsame : ∀ a ∈ l, M.prev a = L.prev a ∧ M.next a = L.next a) : M.Linked p l q := by
  induction l generalizing p with
  | nil => trivial
  | cons a l ih =>
    obtain ⟨hp, hn⟩ := hsame a List.mem_cons_self
    exact ⟨hp.trans h.1, hn.trans h.2.1, ih h.2.2 (fun b hb => hsame b (List.mem_cons_of_mem a hb))⟩

/-- The list from the head on has exactly the nodes of `l`, linked both ways. -/
structure Represents (L : TwoWay α) (l : List α) : Prop where
  nodup : l.Nodup
  head : L.head = l.head?
  linked : L.Linked none l none

theorem empty_represents : (empty : TwoWay α).Represents [] := ⟨List.nodup_nil, rfl, trivial⟩

private theorem follow_linked {L : TwoWay α} (l : List α) (fuel : Nat) (p : Option α) (h : L.Linked p l none)
    (hf : l.length ≤ fuel) : L.follow fuel l.head? = l := by
  induction l generalizing p fuel with
  | nil => cases fuel <;> rfl
  | cons a l ih =>
    obtain ⟨_, hn, hl⟩ := h
    cases fuel with
    | zero => simp at hf
    | succ fuel =>
      rw [Option.or_none] at hn
      rw [List.head?_cons, follow, hn, ih fuel (some a) hl (Nat.le_of_succ_le_succ hf)]

/-- With enough fuel the walk over the next links visits the list. -/
theorem Represents.follow_eq {L : TwoWay α} {l : List α} (h : L.Represents l) {fuel : Nat} (hf : l.length ≤ fuel) :
    L.follow fuel L.head = l := by
  rw [h.head]
  exact follow_linked l fuel none h.linked hf

variable [DecidableEq α] {L : TwoWay α}

theorem Represents.push {l : List α} {a : α} (h : L.Represents l) (ha : a ∉ l) : (L.push a).Represents (a :: l) := by
  refine ⟨List.nodup_cons.mpr ⟨ha, h.nodup⟩, rfl, ?_⟩
  have hnext : ∀ b, b ≠ a → (L.push a).next b = L.next b := fun b hb => Function.update_of_ne hb ..
  cases l with
  | nil =>
    have hhead : L.head = none := h.head
    simp [Linked, TwoWay.push, hhead]
  | cons b l =>
    have hhead : L.head = some b := h.head
    obtain ⟨_, hn, hl⟩ := h.linked
    have hba : b ≠ a := fun e => ha (e ▸ List.mem_cons_self)
    have hb : b ∉ l := (List.nodup_cons.mp h.nodup).1
    have hprev : (L.push a).prev = Function.update (Function.update L.prev a none) b (some a) := by
      simp only [TwoWay.push, hhead]
    refine ⟨?_, ?_, ?_, ?_, ?_⟩
    · rw [hprev, Function.update_of_ne hba.symm, Function.update_self]
    · simp [TwoWay.push, hhead]
    · rw [hprev, Function.update_self]
    · rw [hnext b hba, hn]
    · refine hl.congr (fun c hc => ?_)
      have hca : c ≠ a := fun e => ha (e ▸ List.mem_cons_of_mem b hc)
      have hcb : c ≠ b := fun e => hb (e ▸ hc)
      rw [hprev, Function.update_of_ne hcb, Function.update_of_ne hca]
      exact ⟨rfl, hnext c hca⟩

section Unlink
variable {xs ys : List α} {a : α}

omit [DecidableEq α] in
private theorem Represents.around (h : L.Represents (xs ++ a :: ys)) :
    L.prev a = xs.getLast? ∧ L.next a = ys.head? ∧ L.Linked none xs (some a) ∧ L.Linked (some a) ys none := by
  obtain ⟨hbefore, hprev, hnext, hafter⟩ := (linked_append L none none xs (a :: ys)).mp h.linked
  rw [Option.or_none] at hprev hnext
  exact ⟨hprev, hnext, hbefore, hafter⟩

omit [DecidableEq α] in
private theorem ne_of_nodup (h : (xs ++ a :: ys).Nodup) :
    (∀ b ∈ xs, b ≠ a) ∧ (∀ b ∈ ys, b ≠ a) ∧ (∀ b ∈ xs, ∀ c ∈ ys, b ≠ c) ∧ (xs ++ ys).Nodup := by
  obtain ⟨hx, hy, hd⟩ := List.nodup_append.mp h
  obtain ⟨ha, hy⟩ := List.nodup_cons.mp hy
  refine ⟨fun b hb => hd b hb a List.mem_cons_self, fun b hb e => ha (e ▸ hb),
    fun b hb c hc => hd b hb c (List.mem_cons_of_mem a hc), ?_⟩
  exact List.nodup_append.mpr ⟨hx, hy, fun b hb c hc => hd b hb c (List.mem_cons_of_mem a hc)⟩

/-- Forwards the list runs past `a` now, backwards it still runs through it. -/
private theorem Represents.bypassForward (h : L.Represents (xs ++ a :: ys)) :
    let M := L.bypassForward a
    M.head = (xs ++ ys).head? ∧ M.prev = L.prev ∧ M.next a = ys.head? ∧ M.Linked none xs ys.head? ∧
      M.Linked (some a) ys none := by
  obtain ⟨hprev, hnext, hbefore, hafter⟩ := h.around
  obtain ⟨hxa, _, hxy, _⟩ := ne_of_nodup h.nodup
  rcases List.eq_nil_or_concat xs with rfl | ⟨zs, c, rfl⟩
  · rw [List.getLast?_nil] at hprev
    simp only [TwoWay.bypassForward, hprev, hnext]
    exact ⟨rfl, trivial, trivial, trivial, hafter.congr (fun _ _ => ⟨rfl, rfl⟩)⟩
  · rw [List.concat_eq_append] at *
    rw [List.getLast?_append_of_ne_nil _ (by simp), List.getLast?_singleton] at hprev
    have hc : c ∈ zs ++ [c] := by simp
    have hzs : ∀ b ∈ zs, b ≠ c := by
      have hnd := (List.nodup_append.mp (List.nodup_append.mp h.nodup).1).2.2
      exact fun b hb => hnd b hb c (List.mem_singleton_self c)
    obtain ⟨hz, hpc, _⟩ := (linked_append L none (some a) zs [c]).mp hbefore
    simp only [TwoWay.bypassForward, hprev, hnext]
    refine ⟨?_, trivial, ?_, ?_, ?_⟩
    · rw [h.head]
      cases zs <;> rfl
    · rw [Function.update_of_ne (hxa c hc).symm, hnext]
    · refine (linked_append _ none _ zs [c]).mpr ⟨?_, hpc, ?_, trivial⟩
      · exact hz.congr (fun b hb => ⟨rfl, Function.update_of_ne (hzs b hb) ..⟩)
      · exact Function.update_self ..
    · exact hafter.congr (fun b hb => ⟨rfl, Function.update_of_ne (hxy c hc b hb).symm ..⟩)

theorem Represents.unlink (h : L.Represents (xs ++ a :: ys)) : (L.unlink a).Represents (xs ++ ys) := by
  obtain ⟨hprev, _, _, _⟩ := h.around
  obtain ⟨_, _, hxy, hnodup⟩ := ne_of_nodup h.nodup
  obtain ⟨hhead, hback, hnext, hbefore, hafter⟩ := h.bypassForward
  refine ⟨hnodup, ?_, ?_⟩
  · rw [← hhead, TwoWay.unlink, TwoWay.bypassBack]
    split <;> rfl
  · cases ys with
    | nil =>
      rw [List.head?_nil] at hnext hbefore
      simp only [TwoWay.unlink, TwoWay.bypassBack, hnext, List.append_nil]
      exact hbefore
    | cons b ys =>
      rw [List.head?_cons] at hnext hbefore
      obtain ⟨_, hn, hrest⟩ := hafter
      have hb : ∀ c ∈ ys, c ≠ b := by
        have hnd := (List.nodup_cons.mp (List.nodup_append.mp hnodup).2.1).1
        exact fun c hc e => hnd (e ▸ hc)
      simp only [TwoWay.unlink, TwoWay.bypassBack, hnext, hback, hprev]
      refine (linked_append _ none none xs (b :: ys)).mpr ⟨?_, ?_, hn, ?_⟩
      · refine hbefore.congr (fun c hc => ⟨?_, rfl⟩)
        rw [hback]
        exact Function.update_of_ne (hxy c hc b List.mem_cons_self) ..
      · rw [Option.or_none]
        exact Function.update_self ..
      · refine hrest.congr (fun c hc => ⟨?_, rfl⟩)
        rw [hback]
        exact Function.update_of_ne (hb c hc) ..

end Unlink
end TwoWay
end TwoWayLists
