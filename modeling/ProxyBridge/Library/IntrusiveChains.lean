import Mathlib.Data.Finset.Card
import Mathlib.Data.List.Nodup
import Mathlib.Data.List.TakeWhile
import Mathlib.Logic.Function.Basic

/-! Singly linked chains threaded through nodes that are stored elsewhere. A store has one
head link per bucket and one next link per node; a cursor designates one of these links. -/
namespace IntrusiveChains
variable {ι α : Type}

structure Links (ι α : Type) where
  head : ι → Option α
  next : α → Option α

/-- The address of a link: a bucket head, or the next field of a node. -/
inductive Cursor (ι α : Type) where
  | bucket : ι → Cursor ι α
  | field : α → Cursor ι α
  deriving DecidableEq

/-- The link that follows the nodes of `done` in bucket `i`. -/
def Cursor.after (i : ι) (done : List α) : Cursor ι α :=
  match done.getLast? with
  | none => .bucket i
  | some a => .field a

namespace Links

def empty : Links ι α := ⟨fun _ => none, fun _ => none⟩

def read (L : Links ι α) : Cursor ι α → Option α
  | .bucket i => L.head i
  | .field a => L.next a

def write [DecidableEq ι] [DecidableEq α] (L : Links ι α) : Cursor ι α → Option α → Links ι α
  | .bucket i, v => { L with head := Function.update L.head i v }
  | .field a, v => { L with next := Function.update L.next a v }

/-- Link node `a` in front of bucket `i`. -/
def push [DecidableEq ι] [DecidableEq α] (L : Links ι α) (i : ι) (a : α) : Links ι α :=
  ⟨Function.update L.head i (some a), Function.update L.next a (L.head i)⟩

/-- Link node `a` in front of what the cursor's link points to. -/
def insertAt [DecidableEq ι] [DecidableEq α] (L : Links ι α) (c : Cursor ι α) (a : α) : Links ι α :=
  (L.write (.field a) (L.read c)).write c (some a)

/-- Take the node that the cursor's link points to out of its chain. -/
def unlink [DecidableEq ι] [DecidableEq α] (L : Links ι α) (c : Cursor ι α) : Links ι α :=
  match L.read c with
  | none => L
  | some a => L.write c (L.next a)

/-- The nodes of the chain from a link value on, following at most `fuel` links. -/
def follow (L : Links ι α) : Nat → Option α → List α
  | 0, _ => []
  | _+1, none => []
  | fuel+1, some a => a :: L.follow fuel (L.next a)

/-- The first node satisfying `p`, following at most `fuel` links. -/
def search (L : Links ι α) (p : α → Bool) : Nat → Option α → Option α
  | 0, _ => none
  | _+1, none => none
  | fuel+1, some a => if p a then some a else L.search p fuel (L.next a)

/-- Advance a cursor to the first link whose target satisfies `p`. -/
def seek (L : Links ι α) (p : α → Bool) : Nat → Cursor ι α → Cursor ι α
  | 0, c => c
  | fuel+1, c => match L.read c with
    | none => c
    | some a => if p a then c else L.seek p fuel (.field a)

/-- A search stops at a node that passes its test only. -/
theorem search_some {L : Links ι α} {p : α → Bool} {fuel : Nat} {start : Option α} {a : α}
    (h : L.search p fuel start = some a) : p a = true := by
  induction fuel generalizing start with
  | zero => cases h
  | succ fuel ih =>
    cases start with
    | none => cases h
    | some b =>
      simp only [search] at h
      split at h
      · rename_i hb
        exact Option.some.inj h ▸ hb
      · exact ih h

/-- A walk that does not run out of fuel stops at the first node behind its cursor that passes. -/
theorem search_eq_read_seek {L : Links ι α} {p : α → Bool} {fuel : Nat} {c : Cursor ι α}
    (h : ∀ a, L.read (L.seek p fuel c) = some a → p a = true) :
    L.search p (fuel + 1) (L.read c) = L.read (L.seek p fuel c) := by
  induction fuel generalizing c with
  | zero =>
    rw [seek] at h ⊢
    cases hread : L.read c with
    | none => rfl
    | some a => rw [search, if_pos (h a hread)]
  | succ fuel ih =>
    rw [seek] at h ⊢
    cases hread : L.read c with
    | none =>
      simp only [hread]
      rfl
    | some a =>
      simp only [hread] at h ⊢
      rw [search]
      split
      · exact hread.symm
      · rename_i hpa
        rw [if_neg hpa] at h
        exact ih h

/-- Starting from link value `p`, the chain runs through the nodes of the list up to `q`. -/
def Segment (L : Links ι α) : Option α → List α → Option α → Prop
  | p, [], q => p = q
  | p, a :: l, q => p = some a ∧ L.Segment (L.next a) l q

theorem segment_append (L : Links ι α) (p q : Option α) (l m : List α) :
    L.Segment p (l ++ m) q ↔ ∃ r, L.Segment p l r ∧ L.Segment r m q := by
  induction l generalizing p with
  | nil => simp [Segment]
  | cons a l ih => simp only [List.cons_append, Segment, ih, exists_and_left, and_assoc]

theorem segment_head {L : Links ι α} {p : Option α} {l : List α} (h : L.Segment p l none) :
    p = l.head? := by
  cases l with
  | nil => exact h
  | cons a l => exact h.1

/-- Chains do not see a change of a next link that is not theirs. -/
theorem segment_congr {L M : Links ι α} {p q : Option α} {l : List α}
    (h : ∀ a ∈ l, M.next a = L.next a) : M.Segment p l q ↔ L.Segment p l q := by
  induction l generalizing p with
  | nil => rfl
  | cons a l ih =>
    have ha := h a (List.mem_cons_self ..)
    simp only [Segment, ha, ih (fun b hb => h b (List.mem_cons_of_mem a hb))]

/-- The store holds, bucket by bucket, exactly the given rows of distinct nodes. -/
structure Represents (L : Links ι α) (rows : ι → List α) : Prop where
  chain : ∀ i, L.Segment (L.head i) (rows i) none
  nodup : ∀ i, (rows i).Nodup
  disjoint : ∀ i j a, a ∈ rows i → a ∈ rows j → i = j

theorem empty_represents : (empty : Links ι α).Represents (fun _ => []) where
  chain _ := rfl
  nodup _ := List.nodup_nil
  disjoint i j a ha _ := by cases ha

namespace Represents
variable {L : Links ι α} {rows : ι → List α}

/-- A nonempty row is threaded through its own nodes, so a bucket fits any set that contains it. -/
theorem row_length_le (h : L.Represents rows) [DecidableEq α] (i : ι) (live : Finset α)
    (hl : ∀ a ∈ rows i, a ∈ live) : (rows i).length ≤ live.card := by
  rw [← List.toFinset_card_of_nodup (h.nodup i)]
  apply Finset.card_le_card
  intro a ha
  exact hl a (List.mem_toFinset.mp ha)

private theorem follow_segment (l : List α) (fuel : Nat) (q : Option α)
    (hc : L.Segment q l none) (hf : l.length ≤ fuel) : L.follow fuel q = l := by
  induction l generalizing q fuel with
  | nil =>
    have hq : q = none := hc
    subst hq
    cases fuel <;> rfl
  | cons a l ih =>
    obtain ⟨rfl, hn⟩ := hc
    cases fuel with
    | zero => simp at hf
    | succ fuel =>
      have hf' : l.length ≤ fuel := by simpa using hf
      rw [follow, ih fuel _ hn hf']

/-- With enough fuel the pointer walk visits the row. -/
theorem follow_eq (h : L.Represents rows) (i : ι) (fuel : Nat) (hf : (rows i).length ≤ fuel) :
    L.follow fuel (L.head i) = rows i :=
  follow_segment (rows i) fuel (L.head i) (h.chain i) hf

private theorem search_segment (p : α → Bool) (l : List α) (fuel : Nat) (q : Option α)
    (hc : L.Segment q l none) (hf : l.length ≤ fuel) : L.search p fuel q = l.find? p := by
  induction l generalizing q fuel with
  | nil =>
    have hq : q = none := hc
    subst hq
    cases fuel <;> rfl
  | cons a l ih =>
    obtain ⟨rfl, hn⟩ := hc
    cases fuel with
    | zero => simp at hf
    | succ fuel =>
      have hf' : l.length ≤ fuel := by simpa using hf
      simp only [search, List.find?_cons, ih fuel _ hn hf']
      cases p a <;> rfl

/-- With enough fuel the pointer walk is the list search. -/
theorem search_eq (h : L.Represents rows) (p : α → Bool) (i : ι) (fuel : Nat)
    (hf : (rows i).length ≤ fuel) : L.search p fuel (L.head i) = (rows i).find? p :=
  search_segment p (rows i) fuel (L.head i) (h.chain i) hf

theorem after_append_singleton (i : ι) (done : List α) (a : α) :
    Cursor.after i (done ++ [a]) = .field a := by
  simp [Cursor.after]

private theorem last_cases (done : List α) : done = [] ∨ ∃ d a, done = d ++ [a] := by
  rcases List.eq_nil_or_concat done with h | ⟨d, a, h⟩
  · exact .inl h
  · exact .inr ⟨d, a, by simpa using h⟩

theorem read_after (h : L.Represents rows) (i : ι) (done rest : List α)
    (hr : rows i = done ++ rest) : L.read (.after i done) = rest.head? := by
  have hc := h.chain i
  rw [hr, segment_append] at hc
  obtain ⟨r, hd, ht⟩ := hc
  rcases last_cases done with rfl | ⟨d, a, rfl⟩
  · have hq : L.head i = r := hd
    exact hq.trans (segment_head ht)
  · rw [segment_append] at hd
    obtain ⟨r', _, rfl, hn⟩ := hd
    rw [after_append_singleton]
    exact (show L.next a = r from hn).trans (segment_head ht)

/-- From any link of a row, seeking passes the nodes in front of the first that satisfies `p`. -/
theorem seek_after (h : L.Represents rows) (p : α → Bool) (i : ι) (done rest : List α) (fuel : Nat)
    (hr : rows i = done ++ rest) (hf : rest.length ≤ fuel) :
    L.seek p fuel (.after i done) = .after i (done ++ rest.takeWhile (fun a => !p a)) := by
  induction rest generalizing done fuel with
  | nil =>
    cases fuel with
    | zero => simp [seek]
    | succ fuel => simp [seek, h.read_after i done [] hr]
  | cons a rest ih =>
    cases fuel with
    | zero => simp at hf
    | succ fuel =>
      rw [seek, h.read_after i done (a :: rest) hr]
      cases hp : p a with
      | true => simp [hp]
      | false =>
        have hn := ih (done ++ [a]) fuel (by simpa using hr) (by simpa using hf)
        rw [after_append_singleton] at hn
        simp [hp, hn]

/-- Seeking stops right before the first node that satisfies `p`. -/
theorem seek_bucket (h : L.Represents rows) (p : α → Bool) (i : ι) (fuel : Nat)
    (hf : (rows i).length ≤ fuel) :
    L.seek p fuel (.bucket i) = .after i ((rows i).takeWhile (fun a => !p a)) :=
  h.seek_after p i [] (rows i) fuel (by simp) hf

/-- A cursor found by seeking reads the first node that satisfies `p`. -/
theorem read_seek (h : L.Represents rows) (p : α → Bool) (i : ι) (fuel : Nat)
    (hf : (rows i).length ≤ fuel) : L.read (L.seek p fuel (.bucket i)) = (rows i).find? p := by
  rw [h.seek_bucket p i fuel hf,
    h.read_after i _ _ (List.takeWhile_append_dropWhile (p := fun a => !p a)).symm]
  induction rows i with
  | nil => rfl
  | cons a l ih => cases hp : p a <;> simp [hp, ih]

/-- Seeking stops in front of the first node that satisfies `p`, or at the end of the row. -/
theorem seek_cases (h : L.Represents rows) (p : α → Bool) (i : ι) (fuel : Nat) (hf : (rows i).length ≤ fuel) :
    (L.read (L.seek p fuel (.bucket i)) = none ∧ L.seek p fuel (.bucket i) = .after i (rows i) ∧
      ∀ a ∈ rows i, p a = false) ∨
    ∃ done a rest, rows i = done ++ a :: rest ∧ L.seek p fuel (.bucket i) = .after i done ∧
      L.read (.after i done) = some a ∧ p a = true ∧ ∀ b ∈ done, p b = false := by
  have hsplit : rows i = (rows i).takeWhile (fun a => !p a) ++ (rows i).dropWhile (fun a => !p a) :=
    (List.takeWhile_append_dropWhile (p := fun a => !p a)).symm
  have hdone : ∀ b ∈ (rows i).takeWhile (fun a => !p a), p b = false := by
    intro b hb
    simpa using List.mem_takeWhile_imp hb
  have hread := h.read_after i _ _ hsplit
  rw [h.seek_bucket p i fuel hf]
  cases hd : (rows i).dropWhile (fun a => !p a) with
  | nil =>
    rw [hd, List.append_nil] at hsplit
    rw [hd] at hread
    exact .inl ⟨hread, congrArg (Cursor.after i) hsplit.symm, by rwa [← hsplit] at hdone⟩
  | cons a rest =>
    have hpa : p a = true := by
      have hh := List.head?_dropWhile_not (fun a => !p a) (rows i)
      rw [hd] at hh
      simpa using hh
    rw [hd] at hread
    exact .inr ⟨_, a, rest, hd ▸ hsplit, rfl, hread, hpa, hdone⟩

variable [DecidableEq ι] [DecidableEq α]

/-- Next links of nodes outside every row are free to change. -/
theorem write_field (h : L.Represents rows) {a : α} (ha : ∀ i, a ∉ rows i) (v : Option α) :
    (L.write (.field a) v).Represents rows where
  chain i := by
    refine (segment_congr (L := L) ?_).mpr (h.chain i)
    intro b hb
    have hne : b ≠ a := by rintro rfl; exact ha i hb
    exact Function.update_of_ne hne v L.next
  nodup := h.nodup
  disjoint := h.disjoint

omit [DecidableEq α] in
/-- Adding a node that is in no row to one row keeps the rows distinct and disjoint. -/
private theorem grow (h : L.Represents rows) {M : Links ι α} (i : ι) {a : α} {row : List α}
    (ha : ∀ j, a ∉ rows j) (hrow : row.Perm (a :: rows i)) (hi : M.Segment (M.head i) row none)
    (hj : ∀ j, j ≠ i → M.Segment (M.head j) (rows j) none) :
    M.Represents (Function.update rows i row) := by
  have hmem : ∀ m b, b ∈ Function.update rows i row m → (b = a ∧ m = i) ∨ b ∈ rows m := by
    intro m b hb
    by_cases hm : m = i
    · subst hm
      rw [Function.update_self, hrow.mem_iff] at hb
      exact (List.mem_cons.mp hb).imp (fun e => ⟨e, rfl⟩) id
    · rw [Function.update_of_ne hm] at hb
      exact .inr hb
  refine ⟨fun j => ?_, fun j => ?_, fun j k b hb hc => ?_⟩
  · by_cases hji : j = i
    · subst hji; rwa [Function.update_self]
    · rw [Function.update_of_ne hji]; exact hj j hji
  · by_cases hji : j = i
    · subst hji
      rw [Function.update_self, hrow.nodup_iff]
      exact List.nodup_cons.mpr ⟨ha j, h.nodup j⟩
    · rw [Function.update_of_ne hji]; exact h.nodup j
  · rcases hmem j b hb with ⟨rfl, rfl⟩ | hb'
    · rcases hmem k b hc with ⟨_, rfl⟩ | hc'
      · rfl
      · exact (ha k hc').elim
    · rcases hmem k b hc with ⟨rfl, rfl⟩ | hc'
      · exact (ha j hb').elim
      · exact h.disjoint j k b hb' hc'

/-- Pushing a node that is in no row puts it in front of one row. -/
theorem push (h : L.Represents rows) {a : α} (i : ι) (ha : ∀ j, a ∉ rows j) :
    (L.push i a).Represents (Function.update rows i (a :: rows i)) := by
  have hold : ∀ j, (L.push i a).Segment (L.head j) (rows j) none := by
    intro j
    refine (segment_congr (fun b hb => ?_)).mpr (h.chain j)
    have hne : b ≠ a := by rintro rfl; exact ha j hb
    exact Function.update_of_ne hne _ L.next
  apply h.grow i ha (List.Perm.refl _)
  · have hh : (L.push i a).head i = some a := Function.update_self ..
    have hn : (L.push i a).next a = L.head i := Function.update_self ..
    rw [hh]
    exact ⟨rfl, hn ▸ hold i⟩
  · intro j hj
    have hh : (L.push i a).head j = L.head j := Function.update_of_ne hj ..
    rw [hh]
    exact hold j

/-- Inserting a node that is in no row at a cursor inside a row puts it right there. -/
theorem insert_after (h : L.Represents rows) {a : α} (i : ι) (done rest : List α) (ha : ∀ j, a ∉ rows j)
    (hr : rows i = done ++ rest) :
    (L.insertAt (.after i done) a).Represents (Function.update rows i (done ++ a :: rest)) := by
  have hread := h.read_after i done rest hr
  rcases last_cases done with rfl | ⟨d, b, rfl⟩
  · obtain rfl : rows i = rest := hr
    exact h.push i ha
  · rw [after_append_singleton] at hread ⊢
    set M := L.insertAt (.field b) a
    have hbi : b ∈ rows i := by rw [hr]; simp
    have hab : a ≠ b := by rintro rfl; exact ha i hbi
    have hMb : M.next b = some a := Function.update_self ..
    have hMa : M.next a = rest.head? := by
      have hset : M.next a = Function.update L.next a (L.next b) a := Function.update_of_ne hab ..
      rw [hset, Function.update_self]
      exact hread
    have hkeep : ∀ l : List α, a ∉ l → b ∉ l → ∀ x ∈ l, M.next x = L.next x := by
      intro l hal hbl x hx
      have hxa : x ≠ a := by rintro rfl; exact hal hx
      have hxb : x ≠ b := by rintro rfl; exact hbl hx
      exact (Function.update_of_ne hxb ..).trans (Function.update_of_ne hxa ..)
    have hnd : (d ++ b :: rest).Nodup := by
      have hn := h.nodup i
      rwa [hr, List.append_assoc] at hn
    have har : a ∉ d ++ b :: rest := by
      have hn := ha i
      rwa [hr, List.append_assoc] at hn
    simp only [List.mem_append, List.mem_cons, not_or] at har
    obtain ⟨hbrest, hbd⟩ : b ∉ rest ∧ b ∉ d := by
      obtain ⟨_, htail, hcross⟩ := List.nodup_append.mp hnd
      exact ⟨(List.nodup_cons.mp htail).1, fun hb => hcross b hb b List.mem_cons_self rfl⟩
    have hc := h.chain i
    rw [hr, List.append_assoc, segment_append] at hc
    obtain ⟨r, hd, rfl, hn⟩ := hc
    have ht : L.Segment (L.next b) rest none := hn
    apply h.grow i ha
    · rw [hr]
      exact List.perm_middle
    · rw [List.append_assoc, segment_append]
      refine ⟨some b, (segment_congr (hkeep d har.1 hbd)).mpr hd, rfl, hMb, ?_⟩
      rw [hMa, ← segment_head ht]
      exact (segment_congr (hkeep rest har.2.2 hbrest)).mpr ht
    · intro j hj
      have hbj : b ∉ rows j := fun hb => hj (h.disjoint j i b hb hbi)
      exact (segment_congr (hkeep (rows j) (ha j) hbj)).mpr (h.chain j)

omit [DecidableEq α] in
/-- Dropping part of one row keeps the rows distinct and disjoint. -/
private theorem shrink (h : L.Represents rows) {M : Links ι α} (i : ι) {row : List α}
    (hsub : row.Sublist (rows i)) (hi : M.Segment (M.head i) row none)
    (hj : ∀ j, j ≠ i → M.Segment (M.head j) (rows j) none) :
    M.Represents (Function.update rows i row) := by
  have hmem : ∀ m b, b ∈ Function.update rows i row m → b ∈ rows m := by
    intro m b hb
    by_cases hm : m = i
    · subst hm
      rw [Function.update_self] at hb
      exact hsub.subset hb
    · rwa [Function.update_of_ne hm] at hb
  refine ⟨fun j => ?_, fun j => ?_, fun j k b hb hc => h.disjoint j k b (hmem j b hb) (hmem k b hc)⟩
  · by_cases hji : j = i
    · subst hji; rwa [Function.update_self]
    · rw [Function.update_of_ne hji]; exact hj j hji
  · by_cases hji : j = i
    · subst hji; rw [Function.update_self]; exact (h.nodup j).sublist hsub
    · rw [Function.update_of_ne hji]; exact h.nodup j

/-- Unlinking at a cursor inside a row removes exactly the node that follows it. -/
theorem unlink_after (h : L.Represents rows) (i : ι) (done rest : List α) (a : α)
    (hr : rows i = done ++ a :: rest) :
    (L.unlink (.after i done)).Represents (Function.update rows i (done ++ rest)) := by
  have hread := h.read_after i done (a :: rest) hr
  have hc := h.chain i
  rw [hr, segment_append] at hc
  obtain ⟨r, hd, rfl, ht⟩ := hc
  have hnd : (done ++ a :: rest).Nodup := hr ▸ h.nodup i
  have hsub : (done ++ rest).Sublist (rows i) := by
    rw [hr]
    exact List.Sublist.append_left (List.sublist_cons_self a rest) done
  rcases last_cases done with rfl | ⟨d, b, rfl⟩
  · simp only [Cursor.after, List.getLast?_nil] at hread ⊢
    simp only [unlink, hread, List.head?_cons]
    apply h.shrink i hsub
    · have hh : (L.write (.bucket i) (L.next a)).head i = L.next a := Function.update_self ..
      rw [List.nil_append, hh]
      exact (segment_congr (L := L) (M := L.write (.bucket i) (L.next a)) (fun _ _ => rfl)).mpr ht
    · intro j hj
      have hh : (L.write (.bucket i) (L.next a)).head j = L.head j := Function.update_of_ne hj ..
      rw [hh]
      exact (segment_congr (L := L) (M := L.write (.bucket i) (L.next a)) (fun _ _ => rfl)).mpr (h.chain j)
  · rw [after_append_singleton] at hread ⊢
    simp only [unlink, hread, List.head?_cons]
    set M := L.write (.field b) (L.next a)
    have hkeep : ∀ l : List α, b ∉ l → ∀ x ∈ l, M.next x = L.next x := by
      intro l hb x hx
      have hne : x ≠ b := by rintro rfl; exact hb hx
      exact Function.update_of_ne hne _ L.next
    have hbn : M.next b = L.next a := Function.update_self ..
    have hbi : b ∈ rows i := by rw [hr]; simp
    have hnd' := hnd
    rw [List.append_assoc, List.nodup_append] at hnd'
    obtain ⟨_, htail, hcross⟩ := hnd'
    have hbd : b ∉ d := fun hb => hcross b hb b (by simp) rfl
    have hbr : b ∉ rest := by
      intro hb
      exact (List.nodup_cons.mp htail).1 (by simp [hb])
    rw [segment_append] at hd
    obtain ⟨r', hd', rfl, _⟩ := hd
    apply h.shrink i hsub
    · rw [segment_append]
      refine ⟨M.next b, ?_, ?_⟩
      · rw [segment_append]
        exact ⟨some b, (segment_congr (hkeep d hbd)).mpr hd', rfl, rfl⟩
      · rw [hbn]
        exact (segment_congr (hkeep rest hbr)).mpr ht
    · intro j hj
      have hbj : b ∉ rows j := fun hb => hj (h.disjoint j i b hb hbi)
      exact (segment_congr (hkeep (rows j) hbj)).mpr (h.chain j)

/-- Unlinking at a sought cursor erases the first node that satisfies `p` from its row. -/
theorem unlink_seek (h : L.Represents rows) (p : α → Bool) (i : ι) (fuel : Nat)
    (hf : (rows i).length ≤ fuel) :
    (L.unlink (L.seek p fuel (.bucket i))).Represents
      (Function.update rows i ((rows i).eraseP p)) := by
  rcases h.seek_cases p i fuel hf with ⟨hread, _, hall⟩ | ⟨done, a, rest, hr, hseek, _, hpa, hpd⟩
  · have he : (rows i).eraseP p = rows i := by
      apply List.eraseP_of_forall_not
      intro a ha
      simp [hall a ha]
    rw [he, Function.update_eq_self]
    simpa [unlink, hread] using h
  · have hpd' : ∀ b ∈ done, ¬ p b = true := by
      intro b hb
      simp [hpd b hb]
    have he : (rows i).eraseP p = done ++ rest := by
      rw [hr, List.eraseP_append_right _ hpd', List.eraseP_cons_of_pos hpa]
    rw [he, hseek]
    exact h.unlink_after i done rest a hr

end Represents
end Links
end IntrusiveChains
