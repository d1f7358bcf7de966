import ProxyBridge.Windows.PaddedPatterns

/-! Blanks around the items of a rule's lists. `parse_token_list` skips those in front of an item and
leaves those behind it to the matcher. Process lists and domain lists are trimmed at both ends. -/
namespace ProxyBridge.Windows
open CStrings

/-- The lists of hosts have one delimiter, and those of ports, processes and domains have two. -/
inductive ListKind where
  | hosts
  | others

def ListKind.delimiters : ListKind → List UInt8
  | .hosts => lit [';']
  | .others => lit [',', ';']

/-- An item of a list with the blanks around it. -/
structure ListItem (k : ListKind) where
  before : List UInt8
  text : List UInt8
  after : List UInt8
  blanks : ∀ c ∈ before ++ after, isBlank c = true
  plain : ∀ c ∈ text, isBlank c = false ∧ k.delimiters.contains c = false

namespace ListItem
variable {k : ListKind}

def bytes (e : ListItem k) : List UInt8 := e.before ++ (e.text ++ e.after)

def stripped (e : ListItem k) : ListItem k := ⟨[], e.text, [], fun _ h => (nomatch h), e.plain⟩

/-- What is left of an item at the end of a copy that holds its first `n` bytes. -/
def cut (n : Nat) (e : ListItem k) : ListItem k where
  before := e.before.take n
  text := e.text.take (n - e.before.length)
  after := e.after.take (n - e.before.length - e.text.length)
  blanks c h := by
    refine e.blanks c ?_
    rcases List.mem_append.mp h with h | h
    · exact List.mem_append_left _ (List.mem_of_mem_take h)
    · exact List.mem_append_right _ (List.mem_of_mem_take h)
  plain c h := e.plain c (List.mem_of_mem_take h)

end ListItem

def cutItems {k : ListKind} : Nat → List (ListItem k) → List (ListItem k)
  | _, [] => []
  | n, e :: rest => if n ≤ e.bytes.length then [e.cut n] else e :: cutItems (n - (e.bytes.length + 1)) rest

/-- The items that a copy of `n` bytes holds in full. -/
def keptItems {k : ListKind} : Nat → List (ListItem k) → List (ListItem k)
  | _, [] => []
  | n, e :: rest => if e.bytes.length ≤ n then e :: keptItems (n - (e.bytes.length + 1)) rest else []

def unbroken (_ _ : List UInt8) : Bool := false

/-- A list by its items and the delimiter in front of each but the first. -/
structure ItemList (k : ListKind) where
  first : ListItem k
  rest : List ({c : UInt8 // k.delimiters.contains c = true} × ListItem k)

namespace ItemList
variable {k : ListKind}

def items (l : ItemList k) : List (ListItem k) := l.first :: l.rest.map (·.2)

def bytes (l : ItemList k) : List UInt8 := joinTokens l.first.bytes (l.rest.map fun x => (x.1.val, x.2.bytes))

/-- The list without blanks. -/
def stripped (l : ItemList k) : ItemList k := ⟨l.first.stripped, l.rest.map fun x => (x.1, x.2.stripped)⟩

/-- The items in the writable copy, which may be shorter or missing. -/
def held (malloc : Nat → Bool) (l : ItemList k) : List (ListItem k) :=
  if (listCopy malloc l.bytes).isSome then cutItems maxListSize l.items else []

/-- The list is empty, or its copy holds an item that matches and is not broken by the blanks behind it. -/
def Admits (malloc : Nat → Bool) (matchPattern : List UInt8 → Bool) (broken : List UInt8 → List UInt8 → Bool)
    (l : ItemList k) : Prop :=
  l.bytes = [] ∨ ∃ e ∈ l.held malloc, e.bytes ≠ [] ∧ matchPattern e.text = true ∧ broken e.text e.after = false

/-- The list and the one without blanks both have a copy. -/
def Copied (malloc : Nat → Bool) (l : ItemList k) : Prop :=
  (listCopy malloc l.bytes).isSome = true ∧ (listCopy malloc l.stripped.bytes).isSome = true

/-- Both copies hold all of it. -/
def Whole (malloc : Nat → Bool) (l : ItemList k) : Prop := l.Copied malloc ∧ l.bytes.length ≤ maxListSize

/-- Some item that matches has no blanks behind it that break it, or no item matches. -/
def Unbroken (matchPattern : List UInt8 → Bool) (broken : List UInt8 → List UInt8 → Bool) (l : ItemList k) : Prop :=
  (∃ e ∈ l.items, e.text ≠ [] ∧ matchPattern e.text = true ∧ broken e.text e.after = false) ∨
    ∀ e ∈ l.items, e.text ≠ [] → matchPattern e.text = false

/-- The list is not made of blanks alone. -/
def NotBlank (l : ItemList k) : Prop := l.stripped.bytes = [] → l.bytes = []

/-- An item of blanks alone is read as an empty text. Where that is the whole list it has to match, and where it
matches beside other items one of them has to match too. -/
def BlankItemsIdle (matchPattern : List UInt8 → Bool) (l : ItemList k) : Prop :=
  ∀ e ∈ l.items, e.text = [] → e.bytes ≠ [] →
    (l.stripped.bytes = [] → matchPattern [] = true) ∧
    (matchPattern [] = true → l.stripped.bytes = [] ∨ ∃ e' ∈ l.items, e'.text ≠ [] ∧ matchPattern e'.text = true)

/-- For copies that are cut or missing too: both hold in full an item that matches and is not broken, or neither
holds an item that matches. -/
def Settled (malloc : Nat → Bool) (matchPattern : List UInt8 → Bool) (broken : List UInt8 → List UInt8 → Bool)
    (l : ItemList k) : Prop :=
  (l.Copied malloc ∧ ∃ e ∈ keptItems maxListSize l.items,
    e.text ≠ [] ∧ matchPattern e.text = true ∧ broken e.text e.after = false) ∨
  (l.stripped.bytes ≠ [] ∧ ∀ e ∈ l.held malloc ++ l.stripped.held malloc, e.bytes ≠ [] → matchPattern e.text = false)

/-- Enough for the blanks to change nothing. -/
def Steady (malloc : Nat → Bool) (matchPattern : List UInt8 → Bool) (broken : List UInt8 → List UInt8 → Bool)
    (l : ItemList k) : Prop :=
  (l.Whole malloc ∧ l.Unbroken matchPattern broken ∧ l.BlankItemsIdle matchPattern) ∨
    l.Settled malloc matchPattern broken

end ItemList

section Copies
variable {k : ListKind}

theorem isBlank_not_delimiter (k : ListKind) {c : UInt8} (h : isBlank c = true) : k.delimiters.contains c = false := by
  rcases isBlank_cases h with rfl | rfl
  · cases k <;> decide
  · cases k <;> decide

namespace ListItem

theorem bytes_cut (n : Nat) (e : ListItem k) : (e.cut n).bytes = e.bytes.take n := by
  simp only [bytes, cut, List.take_append, Nat.sub_sub]

theorem cut_of_le {n : Nat} (e : ListItem k) (h : e.bytes.length ≤ n) : e.cut n = e := by
  have hlen : e.before.length + (e.text.length + e.after.length) ≤ n := by simpa [bytes] using h
  obtain ⟨before, text, after, _, _⟩ := e
  simp only at hlen
  simp only [cut, mk.injEq]
  exact ⟨List.take_of_length_le (by omega), List.take_of_length_le (by omega), List.take_of_length_le (by omega)⟩

theorem text_of_mem_cutItems_zero {items : List (ListItem k)} {e : ListItem k} (h : e ∈ cutItems 0 items) :
    e.text = [] := by
  cases items with
  | nil => cases h
  | cons x rest =>
    rw [cutItems, if_pos (Nat.zero_le _), List.mem_singleton] at h
    rw [h]
    simp [cut]

theorem bytes_ne_nil (e : ListItem k) (h : e.text ≠ []) : e.bytes ≠ [] := by
  simp [bytes, h]

theorem stripped_length_le (e : ListItem k) : e.stripped.bytes.length ≤ e.bytes.length := by
  simp [bytes, stripped]
  omega

theorem not_delimiter (e : ListItem k) : ∀ c ∈ e.bytes, k.delimiters.contains c = false := by
  intro c hc
  rcases List.mem_append.mp hc with hc | hc
  · exact isBlank_not_delimiter k (e.blanks c (List.mem_append_left _ hc))
  · rcases List.mem_append.mp hc with hc | hc
    · exact (e.plain c hc).2
    · exact isBlank_not_delimiter k (e.blanks c (List.mem_append_right _ hc))

theorem after_blank (e : ListItem k) : ∀ c ∈ e.after, isBlank c = true :=
  fun c hc => e.blanks c (List.mem_append_right _ hc)

/-- What `skip_whitespace` leaves of an item. -/
theorem skipWhitespace_bytes (e : ListItem k) :
    skipWhitespace e.bytes = if e.text = [] then [] else e.text ++ e.after := by
  have hbefore : ∀ c ∈ e.before, isBlank c = true := fun c hc => e.blanks c (List.mem_append_left _ hc)
  rw [skipWhitespace, bytes, List.dropWhile_append_of_pos hbefore]
  cases htext : e.text with
  | nil => exact List.dropWhile_eq_nil_iff.mpr e.after_blank
  | cons c text =>
    have hc : isBlank c = false := (e.plain c (htext ▸ List.mem_cons_self)).1
    rw [if_neg (List.cons_ne_nil c text), List.cons_append, List.dropWhile_cons_of_neg (by simp [hc])]

/-- Trimmed at both ends, an item is its text. -/
theorem trimEnd_skipWhitespace_bytes (e : ListItem k) : trimEnd (skipWhitespace e.bytes) = e.text := by
  rw [skipWhitespace_bytes, trimEnd]
  split
  · rename_i h
    rw [h]
    rfl
  · rename_i h
    have hafter : ∀ c ∈ e.after.reverse, isBlank c = true := fun c hc => e.after_blank c (List.mem_reverse.mp hc)
    have hlast : isBlank (e.text.getLast h) = false := (e.plain _ (List.getLast_mem h)).1
    rw [List.rdropWhile, List.reverse_append, List.dropWhile_append_of_pos hafter]
    exact List.rdropWhile_eq_self_iff.mpr fun _ => by simp [hlast]

end ListItem

/-- The pieces of the first bytes of a list. -/
private theorem splitOnP_take (n : Nat) (first : ListItem k)
    (rest : List ({c : UInt8 // k.delimiters.contains c = true} × ListItem k)) :
    ((joinTokens first.bytes (rest.map fun x => (x.1.val, x.2.bytes))).take n).splitOnP
      (fun c => k.delimiters.contains c) = (cutItems n (first :: rest.map (·.2))).map ListItem.bytes := by
  induction rest generalizing first n with
  | nil =>
    rw [joinTokens, List.map_nil, List.flatMap_nil, List.append_nil, List.map_nil, cutItems]
    split
    · rw [← ListItem.bytes_cut]
      exact List.splitOnP_eq_singleton (first.cut n).not_delimiter
    · rename_i hlen
      rw [List.take_of_length_le (Nat.le_of_not_le hlen)]
      exact List.splitOnP_eq_singleton first.not_delimiter
  | cons x rest ih =>
    have hjoin : joinTokens first.bytes ((x :: rest).map fun x => (x.1.val, x.2.bytes)) =
        first.bytes ++ x.1.val :: joinTokens x.2.bytes (rest.map fun x => (x.1.val, x.2.bytes)) := by
      simp [joinTokens]
    rw [hjoin, List.map_cons, cutItems]
    split
    · rename_i hlen
      rw [List.take_append_of_le_length hlen, ← ListItem.bytes_cut]
      exact List.splitOnP_eq_singleton (first.cut n).not_delimiter
    · rename_i hlen
      have hbehind : n - first.bytes.length = n - (first.bytes.length + 1) + 1 := by omega
      rw [List.take_append, List.take_of_length_le (Nat.le_of_not_le hlen), hbehind, List.take_succ_cons,
        List.splitOnP_append_cons_of_forall_mem first.not_delimiter _ x.1.property, ih, List.map_cons]

theorem cutItems_of_short {n : Nat} (first : ListItem k)
    (rest : List ({c : UInt8 // k.delimiters.contains c = true} × ListItem k))
    (h : (joinTokens first.bytes (rest.map fun x => (x.1.val, x.2.bytes))).length ≤ n) :
    cutItems n (first :: rest.map (·.2)) = first :: rest.map (·.2) := by
  induction rest generalizing first n with
  | nil =>
    rw [List.map_nil, cutItems]
    split
    · have hlen : first.bytes.length ≤ n := by simpa [joinTokens] using h
      rw [first.cut_of_le hlen]
    · rfl
  | cons x rest ih =>
    have hlen : first.bytes.length +
        (1 + (joinTokens x.2.bytes (rest.map fun x => (x.1.val, x.2.bytes))).length) ≤ n := by
      simpa [joinTokens, Nat.add_comm, Nat.add_left_comm, Nat.add_assoc] using h
    have hlong : ¬ n ≤ first.bytes.length := by omega
    rw [List.map_cons, cutItems, if_neg hlong, ih x.2 (by omega)]

/-- What is held in full is among what is held. -/
private theorem mem_cutItems_of_kept {n : Nat} {items : List (ListItem k)} {e : ListItem k} (h : e ∈ keptItems n items)
    (htext : e.text ≠ []) : e ∈ cutItems n items := by
  induction items generalizing n with
  | nil => cases h
  | cons x rest ih =>
    rw [keptItems] at h
    split at h
    swap
    · cases h
    rename_i hlen
    rw [cutItems]
    split
    · rename_i hle
      rcases List.mem_cons.mp h with rfl | h
      · rw [e.cut_of_le hlen]
        exact List.mem_singleton_self e
      · -- nothing but empty items fits behind the end of the copy
        have hzero : n - (x.bytes.length + 1) = 0 := by omega
        have hin := ih h
        rw [hzero] at hin
        exact absurd (ListItem.text_of_mem_cutItems_zero hin) htext
    · rcases List.mem_cons.mp h with rfl | h
      · exact List.mem_cons_self
      · exact List.mem_cons_of_mem _ (ih h)

/-- Without blanks nothing moves behind the end of a copy. -/
private theorem stripped_mem_keptItems {n m : Nat} (hnm : n ≤ m) {items : List (ListItem k)} {e : ListItem k}
    (h : e ∈ keptItems n items) : e.stripped ∈ keptItems m (items.map ListItem.stripped) := by
  induction items generalizing n m with
  | nil => cases h
  | cons x rest ih =>
    rw [keptItems] at h
    split at h
    swap
    · cases h
    rename_i hlen
    have hshort := x.stripped_length_le
    rw [List.map_cons, keptItems, if_pos (by omega)]
    rcases List.mem_cons.mp h with rfl | h
    · exact List.mem_cons_self
    · exact List.mem_cons_of_mem _ (ih (by omega) h)

theorem listCopy_eq_take {malloc : Nat → Bool} {list copy : List UInt8} (h : listCopy malloc list = some copy) :
    copy = list.take maxListSize := by
  unfold listCopy at h
  simp only at h
  split at h
  · rename_i hlen
    have hshort : list.length ≤ 255 := by
      have hsize : maxListSize = 65536 := rfl
      omega
    rw [← Option.some.inj h, strncpyTruncate, List.take_of_length_le hshort,
      List.take_of_length_le (Nat.le_trans hshort (by decide))]
  · split at h
    · rw [← Option.some.inj h, strncpyTruncate, Nat.add_sub_cancel, Nat.min_comm]
      exact List.take_eq_take_min.symm
    · cases h

namespace ItemList
variable (malloc : Nat → Bool) (l : ItemList k)

/-- The loops over the tokens of a copy, by the items that the copy holds. -/
theorem any_strtok_iff (f : List UInt8 → Bool) :
    (∃ copy, listCopy malloc l.bytes = some copy ∧ (strtok k.delimiters copy).any f = true) ↔
      ∃ e ∈ l.held malloc, e.bytes ≠ [] ∧ f e.bytes = true := by
  cases hcopy : listCopy malloc l.bytes with
  | none => simp [held, hcopy]
  | some copy =>
    have hpieces := splitOnP_take maxListSize l.first l.rest
    have hheld : l.held malloc = cutItems maxListSize l.items := by rw [held, hcopy]; rfl
    rw [hheld, items]
    simp only [listCopy_eq_take hcopy, strtok, bytes, hpieces, Option.some.injEq, exists_eq_left', List.any_eq_true,
      List.mem_filter, List.mem_map, Bool.not_eq_true', List.isEmpty_eq_false_iff]
    constructor
    · rintro ⟨_, ⟨⟨e, he, rfl⟩, hne⟩, hf⟩
      exact ⟨e, he, hne, hf⟩
    · rintro ⟨e, he, hne, hf⟩
      exact ⟨e.bytes, ⟨⟨e, he, rfl⟩, hne⟩, hf⟩

/-- The star alone is a list with the item that matches everything, so its own test changes nothing. -/
theorem wildcard_or_any_iff {f : List UInt8 → Bool} (hf : f wildcard = true) :
    (l.bytes = wildcard ∨ ∃ copy, listCopy malloc l.bytes = some copy ∧ (strtok k.delimiters copy).any f = true) ↔
      ∃ e ∈ l.held malloc, e.bytes ≠ [] ∧ f e.bytes = true := by
  rw [← any_strtok_iff, or_iff_right_iff_imp]
  intro h
  have hone : strtok k.delimiters wildcard = [wildcard] := by cases k <;> decide
  rw [h]
  refine ⟨wildcard, rfl, ?_⟩
  rw [hone, List.any_cons, hf]
  rfl

theorem parseTokenList_iff {matchFunc : List UInt8 → Bool} {broken : List UInt8 → List UInt8 → Bool}
    (hwild : matchFunc wildcard = true) (hnil : matchFunc [] = true → ∀ after, broken [] after = false)
    (hitem : ∀ text after, (∀ c ∈ after, isBlank c = true) →
      matchFunc (text ++ after) = (matchFunc text && !broken text after)) :
    parseTokenList malloc l.bytes k.delimiters matchFunc = true ↔ l.Admits malloc matchFunc broken := by
  have htoken : ∀ e : ListItem k, matchFunc (skipWhitespace e.bytes) = true ↔
      matchFunc e.text = true ∧ broken e.text e.after = false := by
    intro e
    rw [e.skipWhitespace_bytes]
    split
    · rename_i h
      rw [h]
      exact ⟨fun hm => ⟨hm, hnil hm _⟩, And.left⟩
    · rw [hitem _ _ e.after_blank, Bool.and_eq_true, Bool.not_eq_true']
  have hloop := l.wildcard_or_any_iff malloc (f := fun token => matchFunc (skipWhitespace token)) hwild
  simp only [htoken] at hloop
  rw [Admits, ← hloop, parseTokenList]
  cases listCopy malloc l.bytes with
  | none => simp
  | some copy => simp [or_assoc]

theorem matchProcessList_iff (l : ItemList .others) (processName : List UInt8) :
    matchProcessList malloc l.bytes processName = true ↔
      l.Admits malloc (fun item => matchProcessPattern (unquote item) processName) unbroken := by
  have hloop := l.wildcard_or_any_iff malloc
    (f := fun token => matchProcessPattern (unquote (trimEnd (skipWhitespace token))) processName) rfl
  simp only [ListItem.trimEnd_skipWhitespace_bytes] at hloop
  simp only [Admits, unbroken, and_true]
  rw [← hloop, matchProcessList, ListKind.delimiters]
  cases listCopy malloc l.bytes with
  | none => simp
  | some copy => simp [or_assoc]

/-- With a domain that is known, its list works like the others. -/
theorem matchDomainList_iff (l : ItemList .others) {domain : List UInt8} (hne : domain ≠ []) :
    matchDomainList malloc l.bytes (some domain) = true ↔
      l.Admits malloc (fun item => !item.isEmpty && matchDomainPattern item domain) unbroken := by
  have hloop := l.wildcard_or_any_iff malloc (f := fun token =>
    !(trimEnd (skipWhitespace token)).isEmpty && matchDomainPattern (trimEnd (skipWhitespace token)) domain) rfl
  simp only [ListItem.trimEnd_skipWhitespace_bytes] at hloop
  obtain ⟨c, domain, rfl⟩ := List.exists_cons_of_ne_nil hne
  simp only [Admits, unbroken, and_true]
  rw [← hloop, ListKind.delimiters]
  unfold matchDomainList
  cases listCopy malloc l.bytes with
  | none => simp
  | some copy => simp [or_assoc]

theorem matchDomainList_unknown_iff (l : ItemList .others) {domain : Option (List UInt8)} (h : domain.getD [] = []) :
    matchDomainList malloc l.bytes domain = true ↔ l.bytes = [] ∨ l.bytes = wildcard := by
  cases domain with
  | none => simp [matchDomainList]
  | some domain =>
    obtain rfl : domain = [] := h
    simp [matchDomainList]

omit malloc in
theorem stripped_bytes : l.stripped.bytes = l.bytes.filter (fun c => !isBlank c) := by
  have hitem : ∀ e : ListItem k, e.stripped.bytes = e.bytes.filter (fun c => !isBlank c) := by
    intro e
    have hbefore : e.before.filter (fun c => !isBlank c) = [] :=
      List.filter_eq_nil_iff.mpr fun c hc => by simp [e.blanks c (List.mem_append_left _ hc)]
    have hafter : e.after.filter (fun c => !isBlank c) = [] :=
      List.filter_eq_nil_iff.mpr fun c hc => by simp [e.after_blank c hc]
    have htext : e.text.filter (fun c => !isBlank c) = e.text :=
      List.filter_eq_self.mpr fun c hc => by simp [(e.plain c hc).1]
    rw [ListItem.bytes, ListItem.bytes, List.filter_append, List.filter_append, hbefore, hafter, htext]
    rfl
  have hsep : ∀ x : {c : UInt8 // k.delimiters.contains c = true}, isBlank x.val = false := by
    intro x
    by_contra hblank
    have hnot := isBlank_not_delimiter k (Bool.not_eq_false _ ▸ hblank)
    rw [x.property] at hnot
    cases hnot
  rw [bytes, bytes, joinTokens, joinTokens, List.filter_append, ← hitem, List.filter_flatMap]
  simp [stripped, List.flatMap_map, hitem, hsep]

omit malloc in
theorem stripped_bytes_of_nil (h : l.bytes = []) : l.stripped.bytes = [] := by
  rw [stripped_bytes, h]
  rfl

omit malloc in
theorem stripped_items : l.stripped.items = l.items.map ListItem.stripped := by
  simp [items, stripped]

omit malloc in
/-- A list of blanks alone is one item. -/
theorem item_of_stripped_nil (h : l.stripped.bytes = []) {e : ListItem k} (he : e ∈ l.items) :
    e.text = [] ∧ l.bytes = e.bytes := by
  obtain ⟨htext, hrest⟩ := List.append_eq_nil_iff.mp h
  have hnone : l.rest = [] := by
    cases hl : l.rest with
    | nil => rfl
    | cons x rest => simp [stripped, hl] at hrest
  have hfirst : l.first.text = [] := by simpa [stripped, ListItem.bytes, ListItem.stripped] using htext
  obtain rfl : e = l.first := by simpa [items, hnone] using he
  exact ⟨hfirst, by simp [bytes, joinTokens, hnone]⟩

section Copied
variable {malloc l}

theorem held_of_copy (h : (listCopy malloc l.bytes).isSome = true) : l.held malloc = cutItems maxListSize l.items :=
  if_pos h

theorem Whole.held (h : l.Whole malloc) : l.held malloc = l.items :=
  (held_of_copy h.1.1).trans (cutItems_of_short l.first l.rest h.2)

theorem Whole.held_stripped (h : l.Whole malloc) : l.stripped.held malloc = l.items.map ListItem.stripped := by
  have hlen : l.stripped.bytes.length ≤ maxListSize := by
    rw [stripped_bytes]
    exact Nat.le_trans (List.length_filter_le _ _) h.2
  rw [held_of_copy h.1.2, ← stripped_items]
  exact cutItems_of_short l.stripped.first l.stripped.rest hlen

end Copied

section Steady
variable {malloc l} {matchPattern : List UInt8 → Bool} {broken : List UInt8 → List UInt8 → Bool}

/-- Two copies that both decide, or that both do not. -/
theorem Settled.admits (hplain : ∀ text, broken text [] = false) (h : l.Settled malloc matchPattern broken) :
    l.stripped.Admits malloc matchPattern broken ↔ l.Admits malloc matchPattern broken := by
  rcases h with ⟨⟨hcopy, hcopy'⟩, e, hkept, htext, hmatch, hbroken⟩ | ⟨hne, hnone⟩
  · have hheld : e ∈ l.held malloc := by
      rw [held_of_copy hcopy]
      exact mem_cutItems_of_kept hkept htext
    have hheld' : e.stripped ∈ l.stripped.held malloc := by
      rw [held_of_copy hcopy', stripped_items]
      exact mem_cutItems_of_kept (stripped_mem_keptItems (Nat.le_refl _) hkept) htext
    exact iff_of_true (.inr ⟨_, hheld', e.stripped.bytes_ne_nil htext, hmatch, hplain _⟩)
      (.inr ⟨e, hheld, e.bytes_ne_nil htext, hmatch, hbroken⟩)
  · have hno : ∀ e ∈ l.held malloc ++ l.stripped.held malloc, ¬(e.bytes ≠ [] ∧ matchPattern e.text = true ∧
        broken e.text e.after = false) := by
      rintro e he ⟨hbytes, hmatch, -⟩
      rw [hnone e he hbytes] at hmatch
      cases hmatch
    refine iff_of_false ?_ ?_
    · rintro (hnil | ⟨e, he, h⟩)
      · exact hne hnil
      · exact hno e (List.mem_append_right _ he) h
    · rintro (hnil | ⟨e, he, h⟩)
      · exact hne (l.stripped_bytes_of_nil hnil)
      · exact hno e (List.mem_append_left _ he) h

/-- Without blanks, a whole list admits what one of its items matches. -/
private theorem Whole.stripped_admits (hplain : ∀ text, broken text [] = false) (h : l.Whole malloc) :
    l.stripped.Admits malloc matchPattern broken ↔
      l.stripped.bytes = [] ∨ ∃ e ∈ l.items, e.text ≠ [] ∧ matchPattern e.text = true := by
  rw [Admits, h.held_stripped]
  simp only [List.mem_map, exists_exists_and_eq_and]
  refine or_congr_right (exists_congr fun e => and_congr_right fun _ => ?_)
  have hbytes : e.stripped.bytes = e.text := List.append_nil e.text
  rw [hbytes]
  exact and_congr_right fun _ => and_iff_left (hplain _)

/-- The blanks of a whole list change nothing exactly if they break no item that decides and are none themselves. -/
theorem Whole.admits_iff (hplain : ∀ text, broken text [] = false)
    (hnil : matchPattern [] = true → ∀ text after, broken text after = false) (h : l.Whole malloc) :
    (l.stripped.Admits malloc matchPattern broken ↔ l.Admits malloc matchPattern broken) ↔
      l.Unbroken matchPattern broken ∧ l.BlankItemsIdle matchPattern := by
  rw [h.stripped_admits hplain, Admits, h.held]
  constructor
  · intro hiff
    refine ⟨?_, fun e he htext hbytes => ⟨fun hblank => ?_, fun hmatch => ?_⟩⟩
    · by_cases hany : ∃ e ∈ l.items, e.text ≠ [] ∧ matchPattern e.text = true
      swap
      · refine .inr fun e he htext => Bool.eq_false_iff.mpr fun hmatch => hany ⟨e, he, htext, hmatch⟩
      obtain ⟨e, he, htext, hmatch⟩ := hany
      rcases hiff.mp (.inr ⟨e, he, htext, hmatch⟩) with hbytes | ⟨e', he', -, hmatch', hbroken⟩
      · exact absurd (l.item_of_stripped_nil (l.stripped_bytes_of_nil hbytes) he).1 htext
      · by_cases htext' : e'.text = []
        · rw [htext'] at hmatch'
          exact .inl ⟨e, he, htext, hmatch, hnil hmatch' _ _⟩
        · exact .inl ⟨e', he', htext', hmatch', hbroken⟩
    · rcases hiff.mp (.inl hblank) with hnone | ⟨e', he', -, hmatch, -⟩
      · rw [(l.item_of_stripped_nil hblank he).2] at hnone
        exact absurd hnone hbytes
      · rwa [(l.item_of_stripped_nil hblank he').1] at hmatch
    · exact hiff.mpr (.inr ⟨e, he, hbytes, by rw [htext]; exact hmatch, hnil hmatch _ _⟩)
  · rintro ⟨hunbroken, hidle⟩
    constructor
    · rintro (hblank | ⟨e, he, htext, hmatch⟩)
      · by_cases hbytes : l.bytes = []
        · exact .inl hbytes
        have hmem : l.first ∈ l.items := List.mem_cons_self
        obtain ⟨hfirst, hall⟩ := l.item_of_stripped_nil hblank hmem
        have hmatch := (hidle l.first hmem hfirst (hall ▸ hbytes)).1 hblank
        exact .inr ⟨l.first, hmem, hall ▸ hbytes, by rw [hfirst]; exact hmatch, hnil hmatch _ _⟩
      · rcases hunbroken with ⟨e', he', htext', hmatch', hbroken⟩ | hnone
        · exact .inr ⟨e', he', e'.bytes_ne_nil htext', hmatch', hbroken⟩
        · rw [hnone e he htext] at hmatch
          cases hmatch
    · rintro (hbytes | ⟨e, he, hbytes, hmatch, -⟩)
      · exact .inl (l.stripped_bytes_of_nil hbytes)
      · by_cases htext : e.text = []
        · rw [htext] at hmatch
          exact (hidle e he htext hbytes).2 hmatch
        · exact .inr ⟨e, he, htext, hmatch⟩

/-- Where the empty text does not match, only a list of blanks alone is changed by an item of blanks alone. -/
theorem blankItemsIdle_iff (h : matchPattern [] = false) : l.BlankItemsIdle matchPattern ↔ l.NotBlank := by
  constructor
  · intro hidle hblank
    have hmem : l.first ∈ l.items := List.mem_cons_self
    obtain ⟨hfirst, hall⟩ := l.item_of_stripped_nil hblank hmem
    by_contra hbytes
    have hmatch := (hidle l.first hmem hfirst (hall ▸ hbytes)).1 hblank
    rw [h] at hmatch
    cases hmatch
  · intro hnot e he htext hbytes
    refine ⟨fun hblank => ?_, fun hmatch => ?_⟩
    · rw [← (l.item_of_stripped_nil hblank he).2] at hbytes
      exact absurd (hnot hblank) hbytes
    · rw [h] at hmatch
      cases hmatch

theorem unbroken_unbroken : l.Unbroken matchPattern unbroken := by
  by_cases hany : ∃ e ∈ l.items, e.text ≠ [] ∧ matchPattern e.text = true
  · obtain ⟨e, he, htext, hmatch⟩ := hany
    exact .inl ⟨e, he, htext, hmatch, rfl⟩
  · exact .inr fun e he htext => Bool.eq_false_iff.mpr fun hmatch => hany ⟨e, he, htext, hmatch⟩

end Steady

end ItemList
end Copies

/-- The blanks of four lists, of which the hosts serve both kinds of address, change no result. -/
structure BlanksIrrelevant (malloc : Nat → Bool) (inetPton : List UInt8 → Option Ip6) (hosts : ItemList .hosts)
    (ports processes domains : ItemList .others) (ip : UInt32) (ip6 : Ip6) (port : UInt16)
    (processName : List UInt8) (domain : Option (List UInt8)) : Prop where
  ip : matchIpList malloc hosts.bytes ip = matchIpList malloc hosts.stripped.bytes ip
  ipV6 : matchIpListV6 malloc inetPton hosts.bytes ip6 = matchIpListV6 malloc inetPton hosts.stripped.bytes ip6
  port : matchPortList malloc ports.bytes port = matchPortList malloc ports.stripped.bytes port
  process : matchProcessList malloc processes.bytes processName =
    matchProcessList malloc processes.stripped.bytes processName
  domain : matchDomainList malloc domains.bytes domain = matchDomainList malloc domains.stripped.bytes domain

/-- A list of domains is not blank, and a star that an unknown domain needs has no blanks. -/
def DomainClean (l : ItemList .others) (domain : Option (List UInt8)) : Prop :=
  l.NotBlank ∧ (domain.getD [] = [] → l.stripped.bytes = wildcard → l.bytes = wildcard)

/-- The same where copies may be cut or missing. An unknown domain needs no copy. -/
def DomainSteady (malloc : Nat → Bool) (l : ItemList .others) (domain : Option (List UInt8)) : Prop :=
  (domain.getD [] = [] → DomainClean l domain) ∧
  (domain.getD [] ≠ [] →
    l.Steady malloc (fun item => !item.isEmpty && matchDomainPattern item (domain.getD [])) unbroken)

/-- What is asked of the blanks of lists whose copies hold all of them. -/
structure BlanksClean (inetPton : List UInt8 → Option Ip6) (hosts : ItemList .hosts)
    (ports processes domains : ItemList .others) (ip : UInt32) (ip6 : Ip6) (port : UInt16) (processName : List UInt8)
    (domain : Option (List UInt8)) : Prop where
  notBlank : hosts.NotBlank
  ip : hosts.Unbroken (matchIpPattern · ip) (brokenIp ip)
  ipV6 : hosts.Unbroken (matchIpPatternV6 inetPton · ip6) brokenIpV6
  blankPorts : ports.BlankItemsIdle (matchPortPattern · port)
  port : ports.Unbroken (matchPortPattern · port) (brokenPort port)
  process : processes.BlankItemsIdle (fun item => matchProcessPattern (unquote item) processName)
  domain : DomainClean domains domain

/-- What is enough of lists whose copies may be cut or missing. -/
structure BlanksSteady (malloc : Nat → Bool) (inetPton : List UInt8 → Option Ip6) (hosts : ItemList .hosts)
    (ports processes domains : ItemList .others) (ip : UInt32) (ip6 : Ip6) (port : UInt16) (processName : List UInt8)
    (domain : Option (List UInt8)) : Prop where
  ip : hosts.Steady malloc (matchIpPattern · ip) (brokenIp ip)
  ipV6 : hosts.Steady malloc (matchIpPatternV6 inetPton · ip6) brokenIpV6
  port : ports.Steady malloc (matchPortPattern · port) (brokenPort port)
  process : processes.Steady malloc (fun item => matchProcessPattern (unquote item) processName) unbroken
  domain : DomainSteady malloc domains domain

section Lists
variable {k : ListKind} {malloc : Nat → Bool} {matchPattern : List UInt8 → Bool}
  {broken : List UInt8 → List UInt8 → Bool} {matchList : List UInt8 → Bool} {l : ItemList k}

/-- A list function that looks for an item that matches and is not broken. -/
structure Searches (malloc : Nat → Bool) (k : ListKind) (matchList matchPattern : List UInt8 → Bool)
    (broken : List UInt8 → List UInt8 → Bool) : Prop where
  admits : ∀ l : ItemList k, matchList l.bytes = true ↔ l.Admits malloc matchPattern broken
  plain : ∀ text, broken text [] = false
  nil : matchPattern [] = true → ∀ text after, broken text after = false

private theorem Searches.same_iff (h : Searches malloc k matchList matchPattern broken) :
    matchList l.bytes = matchList l.stripped.bytes ↔
      (l.stripped.Admits malloc matchPattern broken ↔ l.Admits malloc matchPattern broken) := by
  rw [Bool.eq_iff_iff, h.admits, h.admits]
  exact iff_comm

private theorem Searches.whole (h : Searches malloc k matchList matchPattern broken) (hl : l.Whole malloc) :
    matchList l.bytes = matchList l.stripped.bytes ↔
      l.Unbroken matchPattern broken ∧ l.BlankItemsIdle matchPattern :=
  h.same_iff.trans (hl.admits_iff h.plain h.nil)

private theorem Searches.steady (h : Searches malloc k matchList matchPattern broken)
    (hl : l.Steady malloc matchPattern broken) : matchList l.bytes = matchList l.stripped.bytes := by
  rcases hl with ⟨hwhole, hclean⟩ | hsettled
  · exact (h.whole hwhole).mpr hclean
  · exact h.same_iff.mpr (hsettled.admits h.plain)

private theorem searchesIp (ip : UInt32) :
    Searches malloc .hosts (matchIpList malloc · ip) (matchIpPattern · ip) (brokenIp ip) where
  admits l := l.parseTokenList_iff malloc rfl (fun _ after => by simp [brokenIp, starLast, wildcard, lit])
    (fun text after h => matchIpPattern_append_blanks h ip)
  plain text := by simp [brokenIp]
  nil h := by cases (matchIpPattern_nil ip).symm.trans h

private theorem searchesIpV6 {inetPton : List UInt8 → Option Ip6} (hpton : Ipv6Literals inetPton) (ip6 : Ip6) :
    Searches malloc .hosts (matchIpListV6 malloc inetPton · ip6) (matchIpPatternV6 inetPton · ip6) brokenIpV6 where
  admits l := l.parseTokenList_iff malloc rfl (fun h => by cases (matchIpPatternV6_nil inetPton ip6).symm.trans h)
    (fun text after h => matchIpPatternV6_append_blanks hpton h ip6)
  plain text := by simp [brokenIpV6]
  nil h := by cases (matchIpPatternV6_nil inetPton ip6).symm.trans h

/-- The empty text is port 0, for which no star is broken. -/
private theorem searchesPort (port : UInt16) :
    Searches malloc .others (matchPortList malloc · port) (matchPortPattern · port) (brokenPort port) where
  admits l := l.parseTokenList_iff malloc rfl (fun _ after => by simp [brokenPort, wildcard, lit])
    (fun text after h => matchPortPattern_append_blanks h port)
  plain text := by simp [brokenPort]
  nil h text after := by
    have hzero : port = 0 := UInt16.toNat_inj.mp (Int.natCast_eq_zero.mp (beq_iff_eq.mp h))
    simp [brokenPort, hzero]

private theorem searchesProcess (processName : List UInt8) :
    Searches malloc .others (matchProcessList malloc · processName)
      (fun item => matchProcessPattern (unquote item) processName) unbroken where
  admits l := l.matchProcessList_iff malloc processName
  plain _ := rfl
  nil _ _ _ := rfl

private theorem searchesDomain {domain : List UInt8} (hne : domain ≠ []) :
    Searches malloc .others (matchDomainList malloc · (some domain))
      (fun item => !item.isEmpty && matchDomainPattern item domain) unbroken where
  admits l := l.matchDomainList_iff malloc hne
  plain _ := rfl
  nil _ _ _ := rfl

private theorem domain_unknown_iff (l : ItemList .others) {domain : Option (List UInt8)} (h : domain.getD [] = []) :
    matchDomainList malloc l.bytes domain = matchDomainList malloc l.stripped.bytes domain ↔ DomainClean l domain := by
  rw [Bool.eq_iff_iff, l.matchDomainList_unknown_iff malloc h, l.stripped.matchDomainList_unknown_iff malloc h]
  have hstar : l.bytes = wildcard → l.stripped.bytes = wildcard := fun hl => by
    rw [l.stripped_bytes, hl]
    rfl
  constructor
  · intro hiff
    refine ⟨fun hnil => ?_, fun _ hwild => ?_⟩
    · refine (hiff.mpr (.inl hnil)).resolve_right fun hl => ?_
      cases (hstar hl).symm.trans hnil
    · refine (hiff.mpr (.inr hwild)).resolve_left fun hl => ?_
      cases hwild.symm.trans (l.stripped_bytes_of_nil hl)
  · rintro ⟨hnot, hwild⟩
    exact ⟨Or.imp l.stripped_bytes_of_nil hstar, Or.imp hnot (hwild h)⟩

private theorem domain_whole_iff {l : ItemList .others} (hl : l.Whole malloc) (domain : Option (List UInt8)) :
    matchDomainList malloc l.bytes domain = matchDomainList malloc l.stripped.bytes domain ↔ DomainClean l domain := by
  by_cases h : domain.getD [] = []
  · exact domain_unknown_iff l h
  · obtain ⟨name, rfl⟩ : ∃ name, domain = some name := by
      cases domain with
      | none => exact absurd rfl h
      | some name => exact ⟨name, rfl⟩
    have hknown : name ≠ [] := h
    have hsearch := (searchesDomain hknown).whole hl
    rw [ItemList.blankItemsIdle_iff rfl] at hsearch
    refine hsearch.trans ⟨fun hl => ⟨hl.2, fun hnil => absurd hnil h⟩, fun hl => ⟨ItemList.unbroken_unbroken, hl.1⟩⟩

private theorem domain_steady {l : ItemList .others} {domain : Option (List UInt8)} (h : DomainSteady malloc l domain) :
    matchDomainList malloc l.bytes domain = matchDomainList malloc l.stripped.bytes domain := by
  obtain ⟨hunknown, hknown⟩ := h
  by_cases h : domain.getD [] = []
  · exact (domain_unknown_iff l h).mpr (hunknown h)
  · obtain ⟨name, rfl⟩ : ∃ name, domain = some name := by
      cases domain with
      | none => exact absurd rfl h
      | some name => exact ⟨name, rfl⟩
    exact (searchesDomain h).steady (hknown h)

end Lists

/-- In lists whose copies hold all of them, blanks change no result exactly if no list is made of blanks alone that
was empty without them, every list of hosts or ports that has an item that matches has one that no blanks behind it
break, an item of blanks alone decides nothing, and for an unknown domain a star has none. In lists of processes and
domains no blanks break an item, which those do that `parse_token_list` does not skip. -/
theorem blanks_irrelevant_iff (malloc : Nat → Bool) {inetPton : List UInt8 → Option Ip6}
    (hpton : Ipv6Literals inetPton) (hosts : ItemList .hosts) (ports processes domains : ItemList .others)
    (ip : UInt32) (ip6 : Ip6) (port : UInt16) (processName : List UInt8) (domain : Option (List UInt8)) :
    (hosts.Whole malloc → ports.Whole malloc → processes.Whole malloc → domains.Whole malloc →
      (BlanksIrrelevant malloc inetPton hosts ports processes domains ip ip6 port processName domain ↔
        BlanksClean inetPton hosts ports processes domains ip ip6 port processName domain)) ∧
    (BlanksSteady malloc inetPton hosts ports processes domains ip ip6 port processName domain →
      BlanksIrrelevant malloc inetPton hosts ports processes domains ip ip6 port processName domain) := by
  constructor
  · intro hhosts hports hprocesses hdomains
    have hip := (searchesIp ip).whole hhosts
    have hip6 := (searchesIpV6 hpton ip6).whole hhosts
    have hport := (searchesPort port).whole hports
    have hprocess := (searchesProcess processName).whole hprocesses
    have hdomain := domain_whole_iff hdomains domain
    rw [ItemList.blankItemsIdle_iff (matchIpPattern_nil ip)] at hip
    rw [ItemList.blankItemsIdle_iff (matchIpPatternV6_nil inetPton ip6)] at hip6
    constructor
    · rintro ⟨h, h6, hp, hproc, hdom⟩
      exact ⟨(hip.mp h).2, (hip.mp h).1, (hip6.mp h6).1, (hport.mp hp).2, (hport.mp hp).1, (hprocess.mp hproc).2,
        hdomain.mp hdom⟩
    · rintro ⟨hnot, h, h6, hblank, hp, hproc, hdom⟩
      exact ⟨hip.mpr ⟨h, hnot⟩, hip6.mpr ⟨h6, hnot⟩, hport.mpr ⟨hp, hblank⟩,
        hprocess.mpr ⟨ItemList.unbroken_unbroken, hproc⟩, hdomain.mpr hdom⟩
  · rintro ⟨h, h6, hp, hproc, hdom⟩
    exact ⟨(searchesIp ip).steady h, (searchesIpV6 hpton ip6).steady h6, (searchesPort port).steady hp,
      (searchesProcess processName).steady hproc, domain_steady hdom⟩

/-- An item with so many spaces in front of it and behind it. -/
def padded (k : ListKind) (before : Nat) (text : List UInt8) (after : Nat)
    (h : text.all (fun c => !isBlank c && !k.delimiters.contains c) = true) : ListItem k where
  before := List.replicate before (byte ' ')
  text := text
  after := List.replicate after (byte ' ')
  blanks c hc := by
    rcases List.mem_append.mp hc with hc | hc
    · rw [List.eq_of_mem_replicate hc]
      rfl
    · rw [List.eq_of_mem_replicate hc]
      rfl
  plain c hc := by
    simpa using List.all_eq_true.mp h c hc

def oneStar (k : ListKind) (before after : Nat) : ItemList k :=
  ⟨padded k before wildcard after (by cases k <;> rfl), []⟩

/-- The list `* , 443`. -/
def starAndPort : ItemList .others :=
  ⟨padded .others 0 wildcard 1 rfl, [(⟨byte ',', rfl⟩, padded .others 1 (lit ['4', '4', '3']) 0 rfl)]⟩

/-- The star with a blank behind it is broken, but the port behind it is not. -/
theorem blanks_irrelevant_iff_beside_star :
    BlanksIrrelevant (fun _ => true) smallInetPton (oneStar .hosts 2 0) starAndPort (oneStar .others 1 3)
      (oneStar .others 0 1) 0 .zero 443 [] (some (lit ['a'])) := by
  have hcopied : ∀ {k : ListKind} (l : ItemList k), l.Copied (fun _ => true) := by
    intro k l
    have hsome : ∀ list, (listCopy (fun _ => true) list).isSome = true := by
      intro list
      unfold listCopy
      dsimp only
      split <;> rfl
    exact ⟨hsome _, hsome _⟩
  refine ((blanks_irrelevant_iff (fun _ => true) smallInetPton_literals _ _ _ _ 0 .zero 443 [] _).1
    ⟨hcopied _, by decide⟩ ⟨hcopied _, by decide⟩ ⟨hcopied _, by decide⟩ ⟨hcopied _, by decide⟩).mpr ?_
  have htext : ∀ {k : ListKind} {before after : Nat}, ∀ e ∈ (oneStar k before after).items, e.text ≠ [] := by
    intro k before after e he
    rw [List.mem_singleton.mp he]
    exact List.cons_ne_nil _ _
  have hstar : (oneStar .hosts 2 0).first ∈ (oneStar .hosts 2 0).items := List.mem_cons_self
  have hport : starAndPort.items =
      [padded .others 0 wildcard 1 rfl, padded .others 1 (lit ['4', '4', '3']) 0 rfl] := rfl
  refine ⟨fun h => absurd h (by decide), .inl ⟨_, hstar, htext _ hstar, rfl, rfl⟩,
    .inl ⟨_, hstar, htext _ hstar, rfl, rfl⟩, ?_,
    .inl ⟨padded .others 1 (lit ['4', '4', '3']) 0 rfl, ?_, by decide, by decide, rfl⟩,
    fun e he hnil => absurd hnil (htext e he), fun h => absurd h (by decide), fun h => absurd h (by decide)⟩
  · intro e he hnil
    rw [hport, List.mem_cons, List.mem_singleton] at he
    rcases he with rfl | rfl <;> exact absurd hnil (by decide)
  · rw [hport]
    exact List.mem_cons_of_mem _ List.mem_cons_self

/-- The port list `*` with a blank behind it matches port 0 only. -/
theorem blank_behind_star_breaks :
    ¬ BlanksIrrelevant (fun _ => true) smallInetPton (oneStar .hosts 0 0) (oneStar .others 0 1) (oneStar .others 0 0)
      (oneStar .others 0 0) 0 .zero 443 [] none := by
  intro h
  have hpadded : matchPortList (fun _ => true) (oneStar .others 0 1).bytes 443 = false := by decide
  have hplain : matchPortList (fun _ => true) (oneStar .others 0 1).stripped.bytes 443 = true := by decide
  have hport := h.port
  rw [hpadded, hplain] at hport
  cases hport

end ProxyBridge.Windows
