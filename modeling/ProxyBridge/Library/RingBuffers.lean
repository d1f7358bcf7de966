import Mathlib.Data.List.Basic
import Mathlib.Data.Nat.ModEq

/-! Circular buffers that overwrite their oldest entry when they are full, with the bounded queue
that they implement. -/
namespace RingBuffers
variable {α β : Type}

/-- Slots with the index of the oldest entry, the index to write next and the number of entries. -/
structure RingBuffer (α : Type) where
  entries : List (Option α)
  head : Nat
  tail : Nat
  count : Nat
  deriving DecidableEq

namespace RingBuffer
variable (capacity : Nat)

def empty : RingBuffer α := ⟨List.replicate capacity none, 0, 0, 0⟩

def append (r : RingBuffer α) (x : α) : RingBuffer α :=
  let r := { r with entries := r.entries.set r.tail (some x), tail := (r.tail + 1) % capacity }
  if r.count < capacity then { r with count := r.count + 1 }
  else { r with head := (r.head + 1) % capacity }

/-- One turn of the loop that takes entries out: clear the oldest slot and move on. -/
def advance (r : RingBuffer α) : RingBuffer α :=
  { r with entries := r.entries.set r.head none, head := (r.head + 1) % capacity, count := r.count - 1 }

/-- Take out so many entries, with `f` of each. -/
def drain (f : α → β) : Nat → RingBuffer α → List β × RingBuffer α
  | 0, r => ([], r)
  | n+1, r =>
    let rest := drain f n (r.advance capacity)
    match (r.entries[r.head]?).join with
    | some x => (f x :: rest.1, rest.2)
    | none => rest

/-- The slot that is `i` places behind the head. -/
def slot (r : RingBuffer α) (i : Nat) : Option α := (r.entries[(r.head + i) % capacity]?).join

/-- The entries from the head on. -/
def content (r : RingBuffer α) : List α := (List.range r.count).filterMap (r.slot capacity)

/-- The ring holds these items from its head on, and nothing in the other slots. -/
structure Holds (r : RingBuffer α) (items : List α) : Prop where
  slots : r.entries.length = capacity
  head_lt : r.head < capacity
  tail_eq : r.tail = (r.head + r.count) % capacity
  count_eq : r.count = items.length
  count_le : r.count ≤ capacity
  slot_eq : ∀ i < capacity, r.slot capacity i = items[i]?

variable {capacity}

/-- Places less than a full turn apart are different slots. -/
private theorem place_inj {head i j : Nat} (hi : i < capacity) (hj : j < capacity)
    (h : (head + i) % capacity = (head + j) % capacity) : i = j := by
  have hmod : i % capacity = j % capacity := Nat.ModEq.add_left_cancel' head h
  rwa [Nat.mod_eq_of_lt hi, Nat.mod_eq_of_lt hj] at hmod

/-- Moving the head on by one shifts every place. -/
private theorem place_shift (head i : Nat) :
    ((head + 1) % capacity + i) % capacity = (head + (i + 1) % capacity) % capacity := by
  rw [Nat.mod_add_mod, Nat.add_mod_mod]
  congr 1
  omega

/-- What a write leaves in each place. -/
private theorem place_set {entries : List (Option α)} (hs : entries.length = capacity) (head : Nat) {k : Nat}
    (hk : k < capacity) (v : Option α) {i : Nat} (hi : i < capacity) :
    ((entries.set ((head + k) % capacity) v)[(head + i) % capacity]?).join =
      if i = k then v else (entries[(head + i) % capacity]?).join := by
  have hlt : (head + k) % capacity < entries.length := by
    rw [hs]
    exact Nat.mod_lt _ (by omega)
  split
  · rename_i hik
    rw [hik, List.getElem?_set_self hlt]
    rfl
  · rename_i hik
    rw [List.getElem?_set_ne (fun h => hik (place_inj hk hi h).symm)]

theorem holds_empty (hc : 0 < capacity) : (empty capacity : RingBuffer α).Holds capacity [] where
  slots := List.length_replicate
  head_lt := hc
  tail_eq := (Nat.zero_mod capacity).symm
  count_eq := rfl
  count_le := Nat.zero_le capacity
  slot_eq i hi := by
    simp only [slot, empty, List.getElem?_replicate, List.getElem?_nil]
    split <;> rfl

namespace Holds
variable {r : RingBuffer α} {items : List α}

/-- The places from the head on read the items. -/
theorem content_eq (h : r.Holds capacity items) : r.content capacity = items := by
  have hmap : ∀ l : List α, (List.range l.length).filterMap (fun i => l[i]?) = l := by
    intro l
    induction l with
    | nil => rfl
    | cons x l ih =>
      rw [List.length_cons, List.range_succ_eq_map, List.filterMap_cons, List.filterMap_map]
      simpa using ih
  unfold content
  rw [h.count_eq]
  refine Eq.trans (List.filterMap_congr (fun i hi => ?_)) (hmap items)
  have hlt := List.mem_range.mp hi
  have hle := h.count_le
  have hcount := h.count_eq
  exact h.slot_eq i (by omega)

/-- Appending to a ring with room. -/
private theorem append_room (h : r.Holds capacity items) (hroom : r.count < capacity) (x : α) :
    (r.append capacity x).Holds capacity (items ++ [x]) := by
  have hdef : r.append capacity x =
      ⟨r.entries.set r.tail (some x), r.head, (r.tail + 1) % capacity, r.count + 1⟩ := if_pos hroom
  rw [hdef]
  refine ⟨?_, h.head_lt, ?_, ?_, hroom, fun i hi => ?_⟩
  · rw [List.length_set]
    exact h.slots
  · simp only [h.tail_eq, Nat.mod_add_mod]
    rfl
  · simp [h.count_eq]
  · have hold := h.slot_eq i hi
    unfold slot at hold ⊢
    rw [h.tail_eq, place_set h.slots r.head hroom (some x) hi, hold, h.count_eq]
    split
    · rename_i hik
      rw [hik, List.getElem?_concat_length]
    · rename_i hik
      rcases Nat.lt_or_gt_of_ne hik with hlt | hgt
      · rw [List.getElem?_append_left hlt]
      · rw [List.getElem?_eq_none (by omega), List.getElem?_eq_none (by simp; omega)]

/-- Appending to a full ring overwrites the oldest entry. -/
private theorem append_full (h : r.Holds capacity items) (hfull : ¬ r.count < capacity) (x : α) :
    (r.append capacity x).Holds capacity (items.tail ++ [x]) := by
  have hdef : r.append capacity x =
      ⟨r.entries.set r.tail (some x), (r.head + 1) % capacity, (r.tail + 1) % capacity, r.count⟩ := if_neg hfull
  have hle := h.count_le
  have hcap : r.count = capacity := by omega
  have hpos : 0 < capacity := Nat.lt_of_le_of_lt (Nat.zero_le _) h.head_lt
  have hlen : items.length = capacity := h.count_eq.symm.trans hcap
  have htail : r.tail = (r.head + 0) % capacity := by
    rw [h.tail_eq, hcap, Nat.add_mod_right, Nat.add_zero]
  rw [hdef]
  refine ⟨?_, Nat.mod_lt _ hpos, ?_, ?_, hle, fun i hi => ?_⟩
  · rw [List.length_set]
    exact h.slots
  · simp only [h.tail_eq, Nat.mod_add_mod]
    congr 1
    omega
  · simp only [List.length_append, List.length_tail, List.length_singleton]
    omega
  · unfold slot
    rw [place_shift, htail, place_set h.slots r.head hpos (some x) (Nat.mod_lt _ hpos)]
    by_cases hlast : i + 1 = capacity
    · have hi' : i = items.tail.length := by rw [List.length_tail]; omega
      rw [hlast, Nat.mod_self, if_pos rfl, hi', List.getElem?_concat_length]
    · have hlt : i + 1 < capacity := by omega
      have hold := h.slot_eq (i + 1) hlt
      unfold slot at hold
      rw [Nat.mod_eq_of_lt hlt, if_neg (by omega), hold,
        List.getElem?_append_left (by rw [List.length_tail]; omega), List.getElem?_tail]

/-- Appending keeps the newest entries that fit. -/
theorem append (h : r.Holds capacity items) (x : α) :
    (r.append capacity x).Holds capacity ((items ++ [x]).drop (items.length + 1 - capacity)) := by
  have hcount := h.count_eq
  have hle := h.count_le
  by_cases hroom : r.count < capacity
  · have hzero : items.length + 1 - capacity = 0 := by omega
    rw [hzero]
    exact h.append_room hroom x
  · have hone : items.length + 1 - capacity = 1 := by omega
    have hdrop : (items ++ [x]).drop 1 = items.tail ++ [x] := by
      cases items with
      | nil =>
        have hlt := h.head_lt
        simp at hcount
        omega
      | cons y items => rfl
    rw [hone, hdrop]
    exact h.append_full hroom x

/-- One turn of the loop takes the oldest entry out. -/
private theorem advance {x : α} (h : r.Holds capacity (x :: items)) :
    (r.entries[r.head]?).join = some x ∧ (r.advance capacity).Holds capacity items := by
  have hpos : 0 < capacity := Nat.lt_of_le_of_lt (Nat.zero_le _) h.head_lt
  have hcount : r.count = items.length + 1 := h.count_eq
  have hle := h.count_le
  have hhead : r.head = (r.head + 0) % capacity := (Nat.mod_eq_of_lt h.head_lt).symm
  constructor
  · have hzero := h.slot_eq 0 hpos
    unfold slot at hzero
    rw [← hhead] at hzero
    exact hzero
  · refine ⟨?_, Nat.mod_lt _ hpos, ?_, ?_, ?_, fun i hi => ?_⟩
    · simp only [RingBuffer.advance, List.length_set]
      exact h.slots
    · simp only [RingBuffer.advance, h.tail_eq, Nat.mod_add_mod]
      congr 1
      omega
    · simp only [RingBuffer.advance]
      omega
    · simp only [RingBuffer.advance]
      omega
    · have hwrite : (r.advance capacity).entries = r.entries.set ((r.head + 0) % capacity) none := by
        rw [← hhead]
        rfl
      have hmove : (r.advance capacity).head = (r.head + 1) % capacity := rfl
      unfold slot
      rw [hmove, place_shift, hwrite, place_set h.slots r.head hpos none (Nat.mod_lt _ hpos)]
      by_cases hlast : i + 1 = capacity
      · rw [hlast, Nat.mod_self, if_pos rfl, List.getElem?_eq_none (by omega)]
      · have hlt : i + 1 < capacity := by omega
        have hold := h.slot_eq (i + 1) hlt
        unfold slot at hold
        rw [Nat.mod_eq_of_lt hlt, if_neg (by omega), hold, List.getElem?_cons_succ]

/-- Draining takes out the oldest entries in order and leaves the others. -/
theorem drain (f : α → β) {n : Nat} (hn : n ≤ items.length) (h : r.Holds capacity items) :
    (r.drain capacity f n).1 = (items.take n).map f ∧ (r.drain capacity f n).2.Holds capacity (items.drop n) := by
  induction n generalizing r items with
  | zero => exact ⟨rfl, h⟩
  | succ n ih =>
    cases items with
    | nil => simp at hn
    | cons x items =>
      obtain ⟨hx, hnext⟩ := h.advance
      obtain ⟨hbatch, hrest⟩ := ih (by simpa using hn) hnext
      simp only [RingBuffer.drain, hx, List.take_succ_cons, List.map_cons, List.drop_succ_cons]
      exact ⟨by rw [hbatch], hrest⟩

end Holds
end RingBuffer

/-- A bounded queue as its history: what was appended since it was last cleared, of which the oldest
so many were drained or dropped. -/
structure Queue (α : Type) where
  appended : List α
  gone : Nat

namespace Queue

def empty : Queue α := ⟨[], 0⟩

/-- What was appended and is not gone. -/
def content (q : Queue α) : List α := q.appended.drop q.gone

/-- Append, and drop the oldest entries that no longer fit. -/
def append (capacity : Nat) (q : Queue α) (x : α) : Queue α :=
  ⟨q.appended ++ [x], max q.gone (q.appended.length + 1 - capacity)⟩

/-- Take out at most `n` of the oldest entries. -/
def drain (n : Nat) (q : Queue α) : List α × Queue α :=
  (q.content.take n, { q with gone := q.gone + min n q.content.length })

theorem content_drain (n : Nat) (q : Queue α) : (q.drain n).2.content = q.content.drop n := by
  simp only [drain, content, List.drop_drop, List.length_drop]
  rcases Nat.le_total n (q.appended.length - q.gone) with h | h
  · rw [Nat.min_eq_left h]
  · rw [Nat.min_eq_right h, List.drop_eq_nil_of_le (by omega), List.drop_eq_nil_of_le (by omega)]

/-- More than what was appended cannot be gone. -/
def Bounded (q : Queue α) : Prop := q.gone ≤ q.appended.length

theorem Bounded.drain {q : Queue α} (h : q.Bounded) (n : Nat) : (q.drain n).2.Bounded := by
  simp only [Bounded, Queue.drain, content, List.length_drop] at h ⊢
  omega

theorem Bounded.append {q : Queue α} (h : q.Bounded) {capacity : Nat} (hc : 0 < capacity) (x : α) :
    (q.append capacity x).Bounded := by
  simp only [Bounded, Queue.append, List.length_append, List.length_singleton] at h ⊢
  omega

theorem Bounded.content_append {q : Queue α} (h : q.Bounded) (capacity : Nat) (x : α) :
    (q.append capacity x).content = (q.content ++ [x]).drop (q.content.length + 1 - capacity) := by
  have hle : q.gone ≤ q.appended.length := h
  simp only [Queue.append, content]
  rw [← List.drop_append_of_le_length hle, List.drop_drop, List.length_drop]
  congr 1
  omega

end Queue

end RingBuffers
