import ProxyBridge.Library.GlobPatterns
import ProxyBridge.Windows.RuleMatchers

/-! The wildcards of process and domain filters: `wildcard_match` decides the glob pattern that its
text stands for. -/
namespace ProxyBridge.Windows
open CStrings GlobPatterns

/-- The letters that `tolower` does not tell apart. -/
def sameLetter (c d : UInt8) : Bool := toLower c == toLower d

/-- What a filter text means: a star takes any text and every other byte itself in either case. -/
def wildcardItems (pattern : List UInt8) : List (Item UInt8) := itemsOf (byte '*') sameLetter pattern

/-- Behind the stars comes a letter, so the scan need not try the empty rest of the text. -/
private theorem matches_behind_stars {pattern : List UInt8} (text : List UInt8)
    (hne : pattern.dropWhile (· == byte '*') ≠ []) :
    Matches (.anyText :: wildcardItems pattern) text ↔
      ∃ rest, rest <:+ text ∧ rest ≠ [] ∧ Matches (wildcardItems (pattern.dropWhile (· == byte '*'))) rest := by
  rw [wildcardItems, ← matches_dropWhile_star, matches_anyText]
  have hempty : ¬ Matches (wildcardItems (pattern.dropWhile (· == byte '*'))) [] := by
    rw [wildcardItems, matches_itemsOf_nil]
    obtain ⟨c, rest, hc⟩ := List.exists_cons_of_ne_nil hne
    have hstar : (c == byte '*') = false := by
      have hhead := List.head_dropWhile_not (· == byte '*') hne
      simpa [hc] using hhead
    simp [hc, hstar]
  constructor
  · rintro ⟨rest, hsuffix, h⟩
    exact ⟨rest, hsuffix, fun hnil => hempty (hnil ▸ h), h⟩
  · rintro ⟨rest, hsuffix, -, h⟩
    exact ⟨rest, hsuffix, h⟩

theorem wildcardMatch_items (pattern text : List UInt8) :
    wildcardMatch pattern text = true ↔ Matches (wildcardItems pattern) text := by
  induction hlen : pattern.length using Nat.strongRecOn generalizing pattern text with
  | ind n ih =>
    subst hlen
    cases text with
    | nil => rw [wildcardMatch, wildcardItems, matches_itemsOf_nil]
    | cons c text =>
      cases pattern with
      | nil => simp [wildcardMatch, wildcardItems, itemsOf]
      | cons p pattern =>
        rw [wildcardMatch]
        by_cases hp : p = byte '*'
        · subst hp
          rw [wildcardItems, itemsOf_star]
          have hshort : (pattern.dropWhile (· == byte '*')).length < (byte '*' :: pattern).length :=
            Nat.lt_succ_of_le (List.dropWhile_suffix _).length_le
          by_cases hrest : pattern.dropWhile (· == byte '*') = []
          · have hall : Matches (.anyText :: itemsOf (byte '*') sameLetter pattern) (c :: text) := by
              rw [← matches_dropWhile_star, hrest]
              exact matches_anyText_alone _
            simp [hrest, hall]
          · have hscan := matches_behind_stars (c :: text) hrest
            rw [wildcardItems] at hscan
            rw [hscan]
            simp only [beq_self_eq_true, if_true, Bool.or_eq_true, List.isEmpty_iff, hrest, false_or, List.any_eq_true,
              List.mem_filter, List.mem_tails, Bool.not_eq_true', List.isEmpty_eq_false_iff]
            constructor
            · rintro ⟨rest, ⟨hsuffix, hne⟩, h⟩
              exact ⟨rest, hsuffix, hne, (ih _ hshort _ _ rfl).mp h⟩
            · rintro ⟨rest, hsuffix, hne, h⟩
              exact ⟨rest, ⟨hsuffix, hne⟩, (ih _ hshort _ _ rfl).mpr h⟩
        · rw [wildcardItems, itemsOf_letter _ _ hp, matches_letter_cons]
          have htail := ih _ (Nat.lt_succ_self pattern.length) pattern text rfl
          simp only [beq_eq_false_iff_ne.mpr hp, Bool.false_eq_true, if_false, sameLetter, beq_iff_eq]
          by_cases hc : toLower p = toLower c
          · simpa [hc, wildcardItems] using htail
          · simp [hc]

private theorem stricmpEq_iff (a b : List UInt8) :
    stricmpEq a b = true ↔ List.Forall₂ (fun c d => sameLetter c d = true) a b := by
  have hletters : (fun c d => sameLetter c d = true) = fun c d => toLower c = toLower d := by
    funext c d
    simp [sameLetter]
  rw [hletters, stricmpEq, beq_iff_eq, ← List.forall₂_eq_eq_eq, List.forall₂_map_left_iff, List.forall₂_map_right_iff]

private theorem stricmpEq_comm (a b : List UInt8) : stricmpEq a b = stricmpEq b a := by
  rw [stricmpEq, stricmpEq, Bool.eq_iff_iff, beq_iff_eq, beq_iff_eq, eq_comm]

/-- A pattern for the subdomains of `s` matches what ends in a dot and `s`. -/
private theorem matches_subdomains {s : List UInt8} (hs : byte '*' ∉ s) (d : List UInt8) :
    Matches (wildcardItems (lit ['*', '.'] ++ s)) d ↔
      ∃ front rest, d = front ++ rest ∧ stricmpEq rest (lit ['.'] ++ s) = true := by
  have hitems : wildcardItems (lit ['*', '.'] ++ s) = .anyText :: wildcardItems (lit ['.'] ++ s) := rfl
  have hplain : byte '*' ∉ lit ['.'] ++ s := by
    intro hmem
    rcases List.mem_append.mp hmem with hmem | hmem
    · exact absurd hmem (by decide)
    · exact hs hmem
  rw [hitems, matches_anyText]
  constructor
  · rintro ⟨rest, ⟨front, rfl⟩, h⟩
    rw [wildcardItems, matches_itemsOf_letters _ _ hplain, ← stricmpEq_iff, stricmpEq_comm] at h
    exact ⟨front, rest, rfl, h⟩
  · rintro ⟨front, rest, rfl, h⟩
    refine ⟨rest, List.suffix_append _ _, ?_⟩
    rwa [wildcardItems, matches_itemsOf_letters _ _ hplain, ← stricmpEq_iff, stricmpEq_comm]

private theorem stricmpEq_nil {s : List UInt8} (hs : s ≠ []) : stricmpEq [] s = false := by
  obtain ⟨c, rest, rfl⟩ := List.exists_cons_of_ne_nil hs
  rfl

/-- A pattern for subdomains also covers the domain itself. -/
private theorem matchDomainPattern_subdomains {s : List UInt8} (hne : s ≠ []) (d : List UInt8) :
    matchDomainPattern (lit ['*', '.'] ++ s) d = true ↔
      d ≠ [] ∧ (stricmpEq d s = true ∨ wildcardMatch (lit ['*', '.'] ++ s) d = true) := by
  obtain ⟨c, rest, rfl⟩ := List.exists_cons_of_ne_nil hne
  have hwild : (lit ['*', '.'] ++ c :: rest == wildcard) = false := rfl
  have hstar : (lit ['*', '.'] ++ c :: rest).contains (byte '*') = true := rfl
  cases d with
  | nil =>
    simp only [matchDomainPattern, hwild]
    simp
  | cons a d =>
    simp only [matchDomainPattern, hwild, hstar, if_true]
    rw [stricmpEq_comm (a :: d)]
    simp [lit]

/-- `wildcard_match` decides the glob pattern, and a pattern `*.s` stands for `s` and its subdomains. -/
theorem wildcardMatch_decides_glob (pattern text : List UInt8) :
    (wildcardMatch pattern text = true ↔ Matches (wildcardItems pattern) text) ∧
    ∀ s d : List UInt8, s ≠ [] → byte '*' ∉ s →
      (matchDomainPattern (lit ['*', '.'] ++ s) d = true ↔
        stricmpEq d s = true ∨ ∃ front rest, d = front ++ rest ∧ stricmpEq rest (lit ['.'] ++ s) = true) := by
  refine ⟨wildcardMatch_items pattern text, ?_⟩
  intro s d hne hstar
  rw [matchDomainPattern_subdomains hne, wildcardMatch_items, matches_subdomains hstar]
  constructor
  · exact fun h => h.2
  · intro h
    refine ⟨?_, h⟩
    rintro rfl
    rcases h with h | ⟨front, rest, hsplit, h⟩
    · rw [stricmpEq_nil hne] at h
      cases h
    · rw [(List.append_eq_nil_iff.mp hsplit.symm).2,
        stricmpEq_nil (List.append_ne_nil_of_left_ne_nil (by decide) _)] at h
      cases h

theorem wildcardMatch_covers_subdomain :
    matchDomainPattern (lit ['*', '.'] ++ lit ['b']) (lit ['A', '.', 'B']) = true :=
  ((wildcardMatch_decides_glob [] []).2 (lit ['b']) (lit ['A', '.', 'B']) (by decide) (by decide)).mpr
    (.inr ⟨lit ['A'], lit ['.', 'B'], rfl, by decide⟩)

end ProxyBridge.Windows
