import Mathlib.Data.List.AList

/-! Dictionaries of queues, with the number of elements that all the queues hold together. -/
namespace QueueMaps

/-- A dictionary whose values are queues, with the front at the head. -/
abbrev QueueMap (κ α : Type) := AList (fun _ : κ => List α)

variable {κ α : Type}

private def totalEntries : List (Sigma fun _ : κ => List α) → Nat
  | [] => 0
  | x :: l => x.2.length + totalEntries l

def total (d : QueueMap κ α) : Nat := totalEntries d.entries

/-- A dictionary without keys holds nothing. -/
theorem total_eq_zero {d : QueueMap κ α} (h : d.keys = []) : total d = 0 := by
  have he : d.entries = [] := List.map_eq_nil_iff.mp h
  rw [total, he]
  rfl

variable [DecidableEq κ]

/-- The queue under a key, empty where there is none. -/
def queue (d : QueueMap κ α) (k : κ) : List α := (d.lookup k).getD []

/-- No key has an empty queue. -/
def NoEmpty (d : QueueMap κ α) : Prop := ∀ k q, d.lookup k = some q → q ≠ []

theorem queue_erase (d : QueueMap κ α) (k j : κ) : queue (d.erase k) j = if j = k then [] else queue d j := by
  by_cases h : j = k
  · subst h
    rw [queue, AList.lookup_erase, if_pos rfl]
    rfl
  · rw [queue, AList.lookup_erase_ne h, if_neg h]
    rfl

theorem queue_insert (d : QueueMap κ α) (k j : κ) (q : List α) :
    queue (d.insert k q) j = if j = k then q else queue d j := by
  by_cases h : j = k
  · subst h
    rw [queue, AList.lookup_insert, if_pos rfl]
    rfl
  · rw [queue, AList.lookup_insert_ne h, if_neg h]
    rfl

private theorem totalEntries_kerase (k : κ) (l : List (Sigma fun _ : κ => List α)) :
    totalEntries l = ((l.dlookup k).getD []).length + totalEntries (l.kerase k) := by
  induction l with
  | nil => rfl
  | cons x l ih =>
    obtain ⟨j, q⟩ := x
    by_cases h : k = j
    · subst h
      have htail : List.kerase k (⟨k, q⟩ :: l) = l := List.kerase_cons_eq rfl
      rw [List.dlookup_cons_eq, htail]
      rfl
    · rw [List.dlookup_cons_ne _ _ h, List.kerase_cons_ne h, totalEntries, totalEntries, ih]
      omega

theorem total_erase (d : QueueMap κ α) (k : κ) : total d = (queue d k).length + total (d.erase k) :=
  totalEntries_kerase k d.entries

theorem total_insert (d : QueueMap κ α) (k : κ) (q : List α) :
    total (d.insert k q) + (queue d k).length = total d + q.length := by
  have hinsert : total (d.insert k q) = q.length + total (d.erase k) := rfl
  rw [hinsert, total_erase d k]
  omega

namespace NoEmpty
variable {d : QueueMap κ α}

theorem empty : NoEmpty (∅ : QueueMap κ α) := by
  intro k q h
  rw [AList.lookup_empty] at h
  cases h

theorem erase (h : NoEmpty d) (k : κ) : NoEmpty (d.erase k) := by
  intro j q hq
  by_cases hj : j = k
  · subst hj
    rw [AList.lookup_erase] at hq
    cases hq
  · rw [AList.lookup_erase_ne hj] at hq
    exact h j q hq

theorem insert (h : NoEmpty d) (k : κ) {q : List α} (hq : q ≠ []) : NoEmpty (d.insert k q) := by
  intro j r hr
  by_cases hj : j = k
  · subst hj
    rw [AList.lookup_insert] at hr
    exact Option.some.inj hr ▸ hq
  · rw [AList.lookup_insert_ne hj] at hr
    exact h j r hr

end NoEmpty

end QueueMaps
