import Mathlib.Data.List.Forall2

/-! Glob patterns over any alphabet. A pattern is a list of items, and it matches the texts that can
be cut into one piece for each of them. -/
namespace GlobPatterns

inductive Item (α : Type) where
  | anyText
  | letter (accepts : α → Bool)

variable {α : Type}

/-- The pieces that an item takes. -/
def Item.Takes : Item α → List α → Prop
  | .anyText, _ => True
  | .letter accepts, piece => ∃ a, accepts a = true ∧ piece = [a]

def Matches (items : List (Item α)) (text : List α) : Prop :=
  ∃ pieces : List (List α), pieces.flatten = text ∧ List.Forall₂ Item.Takes items pieces

/-- The items of a pattern that is written with a letter for any text. -/
def itemsOf [BEq α] (star : α) (same : α → α → Bool) (pattern : List α) : List (Item α) :=
  pattern.map (fun c => if c == star then .anyText else .letter (same c))

@[simp] theorem matches_nil (text : List α) : Matches [] text ↔ text = [] := by
  constructor
  · rintro ⟨pieces, rfl, htakes⟩
    cases htakes
    rfl
  · rintro rfl
    exact ⟨[], rfl, .nil⟩

theorem matches_cons (item : Item α) (items : List (Item α)) (text : List α) :
    Matches (item :: items) text ↔ ∃ piece rest, text = piece ++ rest ∧ item.Takes piece ∧ Matches items rest := by
  constructor
  · rintro ⟨pieces, rfl, htakes⟩
    obtain ⟨piece, pieces, hpiece, hrest, rfl⟩ := List.forall₂_cons_left_iff.mp htakes
    exact ⟨piece, pieces.flatten, by simp, hpiece, pieces, rfl, hrest⟩
  · rintro ⟨piece, rest, rfl, hpiece, pieces, rfl, hrest⟩
    exact ⟨piece :: pieces, by simp, .cons hpiece hrest⟩

theorem matches_anyText (items : List (Item α)) (text : List α) :
    Matches (.anyText :: items) text ↔ ∃ rest, rest <:+ text ∧ Matches items rest := by
  rw [matches_cons]
  constructor
  · rintro ⟨piece, rest, rfl, -, hrest⟩
    exact ⟨rest, List.suffix_append _ _, hrest⟩
  · rintro ⟨rest, ⟨piece, rfl⟩, hrest⟩
    exact ⟨piece, rest, rfl, trivial, hrest⟩

@[simp] theorem matches_letter_cons (accepts : α → Bool) (items : List (Item α)) (a : α) (text : List α) :
    Matches (.letter accepts :: items) (a :: text) ↔ accepts a = true ∧ Matches items text := by
  rw [matches_cons]
  constructor
  · rintro ⟨piece, rest, htext, ⟨b, hb, rfl⟩, hrest⟩
    obtain ⟨rfl, rfl⟩ := List.cons.inj htext
    exact ⟨hb, hrest⟩
  · rintro ⟨ha, htext⟩
    exact ⟨[a], text, rfl, ⟨a, ha, rfl⟩, htext⟩

@[simp] theorem not_matches_letter_nil (accepts : α → Bool) (items : List (Item α)) :
    ¬ Matches (.letter accepts :: items) [] := by
  rw [matches_cons]
  rintro ⟨piece, rest, htext, ⟨b, -, rfl⟩, -⟩
  cases htext

/-- A pattern that matches a suffix still matches behind any text in front of it. -/
theorem Matches.anyText {items : List (Item α)} {rest text : List α} (hsuffix : rest <:+ text)
    (h : Matches items rest) : Matches (.anyText :: items) text :=
  (matches_anyText items text).mpr ⟨rest, hsuffix, h⟩

@[simp] theorem matches_anyText_nil (items : List (Item α)) : Matches (.anyText :: items) [] ↔ Matches items [] := by
  rw [matches_anyText]
  constructor
  · rintro ⟨rest, hsuffix, h⟩
    rwa [List.suffix_nil.mp hsuffix] at h
  · intro h
    exact ⟨[], List.suffix_rfl, h⟩

@[simp] theorem matches_anyText_alone (text : List α) : Matches [.anyText] text := by
  rw [matches_anyText]
  exact ⟨[], List.nil_suffix, (matches_nil []).mpr rfl⟩

theorem matches_anyText_twice (items : List (Item α)) (text : List α) :
    Matches (.anyText :: .anyText :: items) text ↔ Matches (.anyText :: items) text := by
  constructor
  · intro h
    obtain ⟨middle, hmiddle, h⟩ := (matches_anyText _ _).mp h
    obtain ⟨rest, hrest, h⟩ := (matches_anyText _ _).mp h
    exact h.anyText (hrest.trans hmiddle)
  · intro h
    exact h.anyText List.suffix_rfl

section Written
variable [BEq α] [LawfulBEq α] (star : α) (same : α → α → Bool)

@[simp] theorem itemsOf_star (pattern : List α) :
    itemsOf star same (star :: pattern) = .anyText :: itemsOf star same pattern := by
  simp [itemsOf]

theorem itemsOf_letter {c : α} (h : c ≠ star) (pattern : List α) :
    itemsOf star same (c :: pattern) = .letter (same c) :: itemsOf star same pattern := by
  simp [itemsOf, h]

/-- Stars in a row are one star. -/
theorem matches_dropWhile_star (pattern text : List α) :
    Matches (.anyText :: itemsOf star same (pattern.dropWhile (· == star))) text ↔
      Matches (.anyText :: itemsOf star same pattern) text := by
  induction pattern with
  | nil => exact Iff.rfl
  | cons c pattern ih =>
    by_cases hc : c = star
    · subst hc
      simpa [matches_anyText_twice] using ih
    · simp [hc]

/-- The empty text matches the patterns of nothing but stars. -/
theorem matches_itemsOf_nil (pattern : List α) :
    Matches (itemsOf star same pattern) [] ↔ (pattern.dropWhile (· == star)).isEmpty = true := by
  induction pattern with
  | nil => simp [itemsOf]
  | cons c pattern ih =>
    by_cases hc : c = star
    · subst hc
      simpa using ih
    · simp [hc, itemsOf_letter star same hc]

/-- Without a star the letters of the text are matched one by one. -/
theorem matches_itemsOf_letters {pattern : List α} (h : star ∉ pattern) (text : List α) :
    Matches (itemsOf star same pattern) text ↔ List.Forall₂ (fun c d => same c d = true) pattern text := by
  induction pattern generalizing text with
  | nil => simp [itemsOf]
  | cons c pattern ih =>
    obtain ⟨hc, hpattern⟩ := not_or.mp (fun hmem => h (List.mem_cons.mpr hmem))
    rw [itemsOf_letter star same (fun he => hc he.symm)]
    cases text with
    | nil => simp
    | cons d text => simp [ih hpattern]

/-- Letters that are compared through a function may be replaced by their images. -/
theorem matches_itemsOf_map (f : α → α) (hstar : ∀ c, f c = star ↔ c = star) (pattern text : List α) :
    Matches (itemsOf star (· == ·) (pattern.map f)) (text.map f) ↔
      Matches (itemsOf star (fun c d => f c == f d) pattern) text := by
  induction pattern generalizing text with
  | nil => simp [itemsOf]
  | cons c pattern ih =>
    rw [List.map_cons]
    by_cases hc : c = star
    · rw [(hstar c).mpr hc, hc, itemsOf_star, itemsOf_star, matches_anyText, matches_anyText]
      constructor
      · rintro ⟨rest, hsuffix, h⟩
        obtain ⟨back, hback, rfl⟩ := List.suffix_map_iff.mp hsuffix
        exact ⟨back, hback, (ih back).mp h⟩
      · rintro ⟨back, hback, h⟩
        exact ⟨back.map f, hback.map f, (ih back).mpr h⟩
    · rw [itemsOf_letter _ _ (fun he => hc ((hstar c).mp he)), itemsOf_letter _ _ hc]
      cases text with
      | nil => simp
      | cons d text => simp [ih]

end Written

end GlobPatterns
