import ProxyBridge.Library.IntrusiveChains

/-! Stores of allocated nodes threaded on chains, each node in the bucket its content hashes to,
and the walks over one bucket that drop nodes on their way. -/
namespace IntrusiveChains
variable {ι α β : Type}

namespace Links

/-- The chain of bucket `i` runs into node `a`. -/
def Reaches (L : Links ι α) (i : ι) (a : α) : Prop := ∃ done, L.Segment (L.head i) done (some a)

/-- The cursor's link is the head of bucket `i`, or the next link of a live node on its chain. -/
def Designates (L : Links ι α) (live : Finset α) (i : ι) : Cursor ι α → Prop
  | .bucket j => j = i
  | .field a => a ∈ live ∧ L.Reaches i a

private theorem mem_of_segment {L : Links ι α} {a : α} (done : List α) :
    ∀ (p : Option α) (l : List α), L.Segment p done (some a) → L.Segment p l none → a ∈ l := by
  induction done with
  | nil =>
    intro p l hp hl
    obtain rfl : p = some a := hp
    cases l with
    | nil => exact (nomatch (show some a = none from hl))
    | cons b l => exact Option.some.inj hl.1 ▸ List.mem_cons_self
  | cons d done ih =>
    intro p l hp hl
    obtain ⟨rfl, hp⟩ := hp
    cases l with
    | nil => exact (nomatch (show some d = none from hl))
    | cons b l =>
      obtain ⟨hb, hl⟩ := hl
      obtain rfl : d = b := Option.some.inj hb
      exact List.mem_cons_of_mem d (ih _ l hp hl)

namespace Represents
variable {L : Links ι α} {rows : ι → List α}

theorem reaches_iff (h : L.Represents rows) (i : ι) (a : α) : L.Reaches i a ↔ a ∈ rows i := by
  constructor
  · rintro ⟨done, hd⟩
    exact mem_of_segment done _ _ hd (h.chain i)
  · intro ha
    obtain ⟨done, rest, hr⟩ := List.append_of_mem ha
    have hc := h.chain i
    rw [hr, segment_append] at hc
    obtain ⟨_, hd, rfl, _⟩ := hc
    exact ⟨done, hd⟩

/-- A cursor that designates a link of a bucket stands somewhere in its row. -/
private theorem after_of_designates (h : L.Represents rows) {live : Finset α} {i : ι} {c : Cursor ι α}
    (hc : L.Designates live i c) : ∃ done rest, rows i = done ++ rest ∧ c = .after i done := by
  cases c with
  | bucket j => exact ⟨[], rows i, rfl, congrArg Cursor.bucket hc⟩
  | field a =>
    obtain ⟨done, rest, hr⟩ := List.append_of_mem ((h.reaches_iff i a).mp hc.2)
    exact ⟨done ++ [a], rest, by simpa using hr, (after_append_singleton i done a).symm⟩

/-- A walk resumed at a designated link stops in front of a node of the same bucket that passes its test. -/
theorem seek_split (h : L.Represents rows) {live : Finset α} (hlive : ∀ i, ∀ a ∈ rows i, a ∈ live)
    [DecidableEq α] (p : α → Bool) {i : ι} {c : Cursor ι α} (hc : L.Designates live i c) {a : α}
    (ha : L.read (L.seek p live.card c) = some a) :
    ∃ done rest, rows i = done ++ a :: rest ∧ L.seek p live.card c = .after i done ∧ p a = true := by
  obtain ⟨done, rest, hr, rfl⟩ := h.after_of_designates hc
  have hfuel : rest.length ≤ live.card := by
    have hle := h.row_length_le i live (hlive i)
    rw [hr, List.length_append] at hle
    omega
  rw [h.seek_after p i done rest live.card hr hfuel] at ha ⊢
  have hsplit : rows i = (done ++ rest.takeWhile (fun b => !p b)) ++ rest.dropWhile (fun b => !p b) := by
    rw [List.append_assoc, List.takeWhile_append_dropWhile]
    exact hr
  rw [h.read_after i _ _ hsplit] at ha
  have hp := List.head?_dropWhile_not (fun b => !p b) rest
  rw [ha] at hp
  obtain ⟨rest', hd⟩ := List.head?_eq_some_iff.mp ha
  exact ⟨_, rest', hd ▸ hsplit, rfl, by simpa using hp⟩

/-- The link in front of a dropped node is designated still. -/
theorem designates_after (h : L.Represents rows) {live : Finset α} (hlive : ∀ i, ∀ a ∈ rows i, a ∈ live)
    {i : ι} {done rest : List α} (hr : rows i = done ++ rest) : L.Designates live i (.after i done) := by
  rcases List.eq_nil_or_concat done with rfl | ⟨d, a, rfl⟩
  · rfl
  · rw [List.concat_eq_append] at hr ⊢
    rw [after_append_singleton]
    have ha : a ∈ rows i := by rw [hr]; simp
    exact ⟨hlive i a ha, (h.reaches_iff i a).mpr ha⟩

end Represents
end Links

/-- Nodes that hold values, the set of those that are allocated, and their links. -/
structure ChainStore (ι α β : Type) where
  live : Finset α
  node : α → β
  links : Links ι α

namespace ChainStore
variable [DecidableEq ι] [DecidableEq α]

def modify (s : ChainStore ι α β) (a : α) (f : β → β) : ChainStore ι α β :=
  { s with node := Function.update s.node a (f (s.node a)) }

/-- Allocate node `a` with content `v` and link it in front of bucket `i`. -/
def push (s : ChainStore ι α β) (i : ι) (a : α) (v : β) : ChainStore ι α β :=
  ⟨insert a s.live, Function.update s.node a v, s.links.push i a⟩

/-- Unlink the node that the cursor's link points to, and free it. -/
def removeAt (s : ChainStore ι α β) (c : Cursor ι α) (a : α) : ChainStore ι α β :=
  { s with live := s.live.erase a, links := s.links.unlink c }

/-- Walk on from a cursor, dropping the nodes whose content satisfies `p`. -/
def dropFrom (p : β → Bool) : Nat → Cursor ι α → ChainStore ι α β → ChainStore ι α β
  | 0, _, s => s
  | fuel+1, c, s =>
    match s.links.read c with
    | none => s
    | some a => if p (s.node a) then dropFrom p fuel c (s.removeAt c a) else dropFrom p fuel (.field a) s

def dropBuckets (p : β → Bool) (is : List ι) (s : ChainStore ι α β) : ChainStore ι α β :=
  is.foldl (fun s i => dropFrom p s.live.card (.bucket i) s) s

/-- The chains hold exactly the allocated nodes, each in the bucket of its content. -/
structure Chained (hash : β → ι) (s : ChainStore ι α β) (rows : ι → List α) : Prop where
  represents : s.links.Represents rows
  mem : ∀ a, a ∈ s.live ↔ ∃ i, a ∈ rows i
  bucket : ∀ i, ∀ a ∈ rows i, hash (s.node a) = i

def WellChained (hash : β → ι) (s : ChainStore ι α β) : Prop := ∃ rows, s.Chained hash rows

namespace Chained
variable {hash : β → ι} {s : ChainStore ι α β} {rows : ι → List α}

omit [DecidableEq ι] [DecidableEq α] in
theorem live_of_mem (h : s.Chained hash rows) (i : ι) (a : α) (ha : a ∈ rows i) : a ∈ s.live :=
  (h.mem a).mpr ⟨i, ha⟩

theorem removeAt (h : s.Chained hash rows) {i : ι} {done rest : List α} {a : α}
    (hr : rows i = done ++ a :: rest) :
    (s.removeAt (.after i done) a).Chained hash (Function.update rows i (done ++ rest)) := by
  have hai : a ∈ rows i := by rw [hr]; simp
  have hnd : (done ++ a :: rest).Nodup := hr ▸ h.represents.nodup i
  have hrest : (done ++ a :: rest).erase a = done ++ rest := by
    have hnot : a ∉ done := fun hd => (List.nodup_append.mp hnd).2.2 a hd a (by simp) rfl
    rw [List.erase_append_right _ hnot, List.erase_cons_head]
  have hrow : ∀ j b, b ∈ Function.update rows i (done ++ rest) j ↔ b ≠ a ∧ b ∈ rows j := by
    intro j b
    by_cases hj : j = i
    · subst hj
      rw [Function.update_self, hr, ← hrest, hnd.mem_erase_iff]
    · rw [Function.update_of_ne hj]
      exact ⟨fun hb => ⟨fun e => hj (h.represents.disjoint j i a (e ▸ hb) hai), hb⟩, fun hb => hb.2⟩
  refine ⟨h.represents.unlink_after i done rest a hr, ?_, ?_⟩
  · intro b
    simp only [ChainStore.removeAt, Finset.mem_erase, h.mem, hrow, exists_and_left]
  · intro j b hb
    exact h.bucket j b ((hrow j b).mp hb).2

/-- A walk with fuel enough drops from the rest of its row the nodes whose content satisfies `p`. -/
private theorem dropFrom_after (p : β → Bool) (i : ι) (fuel : Nat) :
    ∀ (s : ChainStore ι α β) (rows : ι → List α) (done rest : List α), s.Chained hash rows →
      rows i = done ++ rest → rest.length ≤ fuel →
      let s' := ChainStore.dropFrom p fuel (.after i done) s
      s'.node = s.node ∧
        s'.Chained hash (Function.update rows i (done ++ rest.filter (fun a => !p (s.node a)))) := by
  have hstop : ∀ (s : ChainStore ι α β) (rows : ι → List α) (done : List α), s.Chained hash rows →
      rows i = done ++ [] → s.Chained hash (Function.update rows i (done ++ [])) := by
    intro s rows done h hr
    rw [← hr, Function.update_eq_self]
    exact h
  induction fuel with
  | zero =>
    intro s rows done rest h hr hfuel
    obtain rfl := List.length_eq_zero_iff.mp (Nat.le_zero.mp hfuel)
    exact ⟨rfl, hstop s rows done h hr⟩
  | succ fuel ih =>
    intro s rows done rest h hr hfuel
    have hread := h.represents.read_after i done rest hr
    cases rest with
    | nil =>
      simp only [ChainStore.dropFrom, hread, List.head?_nil, true_and]
      exact hstop s rows done h hr
    | cons a rest =>
      simp only [ChainStore.dropFrom, hread, List.head?_cons]
      split
      · rename_i hp
        obtain ⟨hn, hc⟩ := ih _ _ done rest (h.removeAt hr) (Function.update_self ..) (Nat.le_of_succ_le_succ hfuel)
        rw [Function.update_idem] at hc
        rw [List.filter_cons_of_neg (by simp [hp])]
        exact ⟨hn, hc⟩
      · rename_i hp
        have hn := ih s rows (done ++ [a]) rest h (by simpa using hr) (Nat.le_of_succ_le_succ hfuel)
        rw [Links.Represents.after_append_singleton, List.append_assoc, List.singleton_append] at hn
        rw [List.filter_cons_of_pos (by simpa using hp)]
        exact hn

end Chained

namespace WellChained
variable {hash : β → ι} {s : ChainStore ι α β}

omit [DecidableEq ι] [DecidableEq α] in
theorem reaches (h : s.WellChained hash) {a : α} (ha : a ∈ s.live) :
    s.links.Reaches (hash (s.node a)) a := by
  obtain ⟨rows, hc⟩ := h
  obtain ⟨i, hi⟩ := (hc.mem a).mp ha
  rw [hc.represents.reaches_iff, hc.bucket i a hi]
  exact hi

omit [DecidableEq ι] [DecidableEq α] in
theorem hash_of_reaches (h : s.WellChained hash) {i : ι} {a : α} (ha : s.links.Reaches i a) :
    hash (s.node a) = i := by
  obtain ⟨rows, hc⟩ := h
  exact hc.bucket i a ((hc.represents.reaches_iff i a).mp ha)

omit [DecidableEq ι] in
theorem modify (h : s.WellChained hash) (a : α) (f : β → β) (hf : hash (f (s.node a)) = hash (s.node a)) :
    (s.modify a f).WellChained hash := by
  obtain ⟨rows, hc⟩ := h
  refine ⟨rows, hc.represents, hc.mem, fun i b hb => ?_⟩
  by_cases hba : b = a
  · subst hba
    simp only [ChainStore.modify, Function.update_self]
    exact hf.trans (hc.bucket i b hb)
  · simp only [ChainStore.modify, Function.update_of_ne hba]
    exact hc.bucket i b hb

theorem push (h : s.WellChained hash) {a : α} (ha : a ∉ s.live) (v : β) :
    (s.push (hash v) a v).WellChained hash := by
  obtain ⟨rows, hc⟩ := h
  have hnot : ∀ i, a ∉ rows i := fun i hi => ha (hc.live_of_mem i a hi)
  have hrow : ∀ i b, b ∈ Function.update rows (hash v) (a :: rows (hash v)) i ↔
      (b = a ∧ i = hash v) ∨ b ∈ rows i := by
    intro i b
    by_cases hi : i = hash v
    · subst hi; simp
    · simp [hi]
  refine ⟨_, hc.represents.push (hash v) hnot, ?_, ?_⟩
  · intro b
    simp only [ChainStore.push, Finset.mem_insert, hrow, hc.mem]
    constructor
    · rintro (rfl | ⟨i, hi⟩)
      · exact ⟨hash v, .inl ⟨rfl, rfl⟩⟩
      · exact ⟨i, .inr hi⟩
    · rintro ⟨i, ⟨rfl, _⟩ | hi⟩
      · exact .inl rfl
      · exact .inr ⟨i, hi⟩
  · intro i b hb
    rcases (hrow i b).mp hb with ⟨rfl, rfl⟩ | hi
    · simp [ChainStore.push]
    · have hba : b ≠ a := fun e => hnot i (e ▸ hi)
      simp only [ChainStore.push, Function.update_of_ne hba]
      exact hc.bucket i b hi

private theorem dropBucket (h : s.WellChained hash) (p : β → Bool) (i : ι) :
    let s' := ChainStore.dropFrom p s.live.card (.bucket i) s
    s'.WellChained hash ∧ s'.node = s.node ∧
      ∀ a, a ∈ s'.live ↔ a ∈ s.live ∧ ¬ (p (s.node a) = true ∧ hash (s.node a) = i) := by
  obtain ⟨rows, hc⟩ := h
  obtain ⟨hn, hc'⟩ := Chained.dropFrom_after p i s.live.card s rows [] (rows i) hc rfl
    (hc.represents.row_length_le i s.live (hc.live_of_mem i))
  refine ⟨⟨_, hc'⟩, hn, fun a => (hc'.mem a).trans ?_⟩
  rw [hc.mem]
  constructor
  · rintro ⟨j, hj⟩
    by_cases hji : j = i
    · subst hji
      rw [Function.update_self, List.nil_append, List.mem_filter] at hj
      exact ⟨⟨j, hj.1⟩, fun hp => by simp [hp.1] at hj⟩
    · rw [Function.update_of_ne hji] at hj
      exact ⟨⟨j, hj⟩, fun hp => hji ((hc.bucket j a hj).symm.trans hp.2)⟩
  · rintro ⟨⟨j, hj⟩, hp⟩
    refine ⟨j, ?_⟩
    by_cases hji : j = i
    · subst hji
      rw [Function.update_self, List.nil_append, List.mem_filter]
      exact ⟨hj, by simpa using fun hpa => hp ⟨hpa, hc.bucket j a hj⟩⟩
    · rw [Function.update_of_ne hji]
      exact hj

/-- Dropping from some buckets frees exactly the nodes of these buckets that satisfy `p`. -/
theorem dropBuckets_spec (h : s.WellChained hash) (p : β → Bool) (is : List ι) :
    let s' := s.dropBuckets p is
    s'.WellChained hash ∧ s'.node = s.node ∧
      ∀ a, a ∈ s'.live ↔ a ∈ s.live ∧ ¬ (p (s.node a) = true ∧ hash (s.node a) ∈ is) := by
  unfold ChainStore.dropBuckets
  induction is generalizing s with
  | nil => exact ⟨h, rfl, fun a => by simp⟩
  | cons i is ih =>
    obtain ⟨hc, hn, hl⟩ := h.dropBucket p i
    obtain ⟨hc', hn', hl'⟩ := ih hc
    refine ⟨hc', hn'.trans hn, fun a => ?_⟩
    rw [List.foldl_cons, hl', hl, hn, List.mem_cons]
    tauto

omit [DecidableEq ι] in
/-- Searching one bucket is enough for a test that only nodes of this bucket pass. -/
theorem search_spec (h : s.WellChained hash) {p : α → Bool} {i : ι}
    (hp : ∀ a ∈ s.live, p a = true → hash (s.node a) = i) :
    s.links.read (s.links.seek p s.live.card (.bucket i)) = s.links.search p s.live.card (s.links.head i) ∧
    (∀ a, s.links.search p s.live.card (s.links.head i) = some a → a ∈ s.live ∧ p a = true) ∧
    (s.links.search p s.live.card (s.links.head i) = none → ∀ a ∈ s.live, p a = false) := by
  obtain ⟨rows, h⟩ := h
  have hfuel := h.represents.row_length_le i s.live (h.live_of_mem i)
  rw [h.represents.read_seek p i _ hfuel, h.represents.search_eq p i _ hfuel]
  refine ⟨rfl, fun a ha => ⟨h.live_of_mem i a (List.mem_of_find?_eq_some ha), List.find?_some ha⟩, fun hnone a ha => ?_⟩
  by_contra hpa
  have hpass : p a = true := (Bool.not_eq_false _).mp hpa
  obtain ⟨j, hj⟩ := (h.mem a).mp ha
  obtain rfl : j = i := (h.bucket j a hj).symm.trans (hp a ha hpass)
  exact List.find?_eq_none.mp hnone a hj hpass

omit [DecidableEq ι] in
/-- A walk from any link of a bucket stops in front of a node that passes its test. -/
theorem of_read_seek (h : s.WellChained hash) {p : α → Bool} {i : ι} {c : Cursor ι α}
    (hc : s.links.Designates s.live i c) {a : α} (ha : s.links.read (s.links.seek p s.live.card c) = some a) :
    a ∈ s.live ∧ p a = true := by
  obtain ⟨rows, h⟩ := h
  obtain ⟨done, rest, hr, _, hp⟩ := h.represents.seek_split h.live_of_mem p hc ha
  refine ⟨h.live_of_mem i a ?_, hp⟩
  rw [hr]
  exact List.mem_append_right _ List.mem_cons_self

theorem removeAt (h : s.WellChained hash) (p : α → Bool) {i : ι} {c : Cursor ι α}
    (hc : s.links.Designates s.live i c) {a : α}
    (ha : s.links.read (s.links.seek p s.live.card c) = some a) :
    (s.removeAt (s.links.seek p s.live.card c) a).WellChained hash ∧
    (s.removeAt (s.links.seek p s.live.card c) a).links.Designates (s.live.erase a) i
      (s.links.seek p s.live.card c) := by
  obtain ⟨rows, h⟩ := h
  obtain ⟨done, rest, hr, he, _⟩ := h.represents.seek_split h.live_of_mem p hc ha
  rw [he]
  have h' := h.removeAt hr
  exact ⟨⟨_, h'⟩, h'.represents.designates_after h'.live_of_mem (Function.update_self ..)⟩

end WellChained

end ChainStore
end IntrusiveChains
