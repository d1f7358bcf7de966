import ProxyBridge.Windows.WildcardMatch

/-! The glob matchers of the macOS extension. They compare the letters before they look for a star,
so a star of the pattern that stands at a star of the text takes just that letter. -/
namespace ProxyBridge.MacOS
open GlobPatterns

section Loop
variable {α : Type} [DecidableEq α] (star : α) (p t : List α)

/-- The loop of both functions, with the star that it passed last and the place in the text from
which it tries again what follows that star. -/
def globLoop : Nat → Nat → Nat → Option Nat → Nat → Option Bool
  | 0, _, _, _, _ => none
  | fuel+1, pi, ti, last, mark =>
    match t[ti]? with
    | some c =>
      if p[pi]? == some c then globLoop fuel (pi + 1) (ti + 1) last mark
      else if p[pi]? == some star then globLoop fuel (pi + 1) ti (some pi) ti
      else
        match last with
        | some s => globLoop fuel (s + 1) (mark + 1) last (mark + 1)
        | none => some false
    | none => some ((p.drop pi).dropWhile (· == star)).isEmpty

/-- For each star and each place at most one way through the text. -/
def globFuel : Nat := (p.length + 1) * ((t.length + 1) * (t.length + 1))

/-- `globMatch` of `ProxyRule`, on the characters of two strings. -/
def ProxyRule.globMatch : Option Bool := globLoop star p t (globFuel p t) 0 0 none 0

/-- `globMatch` of `AppProxyProvider`, which lowers both strings first. -/
def AppProxyProvider.globMatch (lowercased : List α → List α) : Option Bool :=
  globLoop star (lowercased p) (lowercased t) (globFuel (lowercased p) (lowercased t)) 0 0 none 0

end Loop

section Cuts
variable {α : Type} (star : α)

/-- The text can be cut for the pattern such that a star of the pattern that stands at a star of the
text takes just that letter. -/
inductive StarForStar : List α → List α → Prop where
  | nil : StarForStar [] []
  | letter {c : α} {p t : List α} : c ≠ star → StarForStar p t → StarForStar (c :: p) (c :: t)
  | star {p t : List α} : StarForStar p t → StarForStar (star :: p) (star :: t)
  | anyText {p t rest : List α} : t.head? ≠ some star → rest <:+ t → StarForStar p rest → StarForStar (star :: p) t

variable {star}

theorem starForStar_nil_left {t : List α} : StarForStar star [] t ↔ t = [] := by
  constructor
  · intro h
    cases h
    rfl
  · rintro rfl
    exact .nil

theorem starForStar_cons {c d : α} {p t : List α} (hc : c ≠ star) :
    StarForStar star (c :: p) (d :: t) ↔ c = d ∧ StarForStar star p t := by
  constructor
  · intro h
    cases h with
    | letter _ h => exact ⟨rfl, h⟩
    | star _ => exact absurd rfl hc
    | anyText _ _ _ => exact absurd rfl hc
  · rintro ⟨rfl, h⟩
    exact .letter hc h

theorem starForStar_star_star {p t : List α} :
    StarForStar star (star :: p) (star :: t) ↔ StarForStar star p t := by
  constructor
  · intro h
    cases h with
    | letter hc _ => exact absurd rfl hc
    | star h => exact h
    | anyText hhead _ _ => exact absurd rfl hhead
  · exact .star

/-- A star of the pattern leaves some rest of the text to what follows it. -/
theorem StarForStar.rest {p t : List α} (h : StarForStar star (star :: p) t) :
    ∃ rest, rest <:+ t ∧ StarForStar star p rest := by
  cases h with
  | letter hc _ => exact absurd rfl hc
  | star h => exact ⟨_, List.suffix_cons _ _, h⟩
  | anyText _ hsuffix h => exact ⟨_, hsuffix, h⟩

end Cuts

section Letters
variable {α : Type} [DecidableEq α] {star : α}

/-- Such a cut is a match of the pattern. -/
theorem StarForStar.matches {p t : List α} (h : StarForStar star p t) :
    Matches (itemsOf star (· == ·) p) t := by
  induction h with
  | nil => exact (matches_nil []).mpr rfl
  | letter hc _ ih =>
    rw [itemsOf_letter _ _ hc, matches_letter_cons]
    exact ⟨beq_self_eq_true _, ih⟩
  | star _ ih =>
    rw [itemsOf_star]
    exact ih.anyText (List.suffix_cons _ _)
  | anyText _ hsuffix _ ih =>
    rw [itemsOf_star]
    exact ih.anyText hsuffix

/-- In a text without stars every match is such a cut. -/
theorem starForStar_of_no_star {p t : List α} (ht : star ∉ t) (h : Matches (itemsOf star (· == ·) p) t) :
    StarForStar star p t := by
  induction p generalizing t with
  | nil => exact starForStar_nil_left.mpr ((matches_nil t).mp h)
  | cons c p ih =>
    by_cases hc : c = star
    · subst hc
      rw [itemsOf_star, matches_anyText] at h
      obtain ⟨rest, hsuffix, h⟩ := h
      refine .anyText ?_ hsuffix (ih (fun hmem => ht (hsuffix.mem hmem)) h)
      intro hhead
      exact ht (List.mem_of_mem_head? hhead)
    · rw [itemsOf_letter _ _ hc] at h
      cases t with
      | nil => exact absurd h (not_matches_letter_nil _ _)
      | cons d t =>
        obtain ⟨hd, hrest⟩ := (matches_letter_cons _ _ _ _).mp h
        obtain rfl : c = d := eq_of_beq hd
        exact .letter hc (ih (fun hmem => ht (List.mem_cons_of_mem _ hmem)) hrest)

variable (star) in
/-- The letters of a text that are no stars. -/
private def letters (l : List α) : Nat := l.countP (fun c => c != star)

private theorem letters_append (star : α) (a b : List α) : letters star (a ++ b) = letters star a + letters star b :=
  List.countP_append

private theorem letters_suffix (star : α) {a b : List α} (h : a <:+ b) : letters star a ≤ letters star b :=
  h.sublist.countP_le

/-- The first items of a pattern take at least as many letters as they have. -/
private theorem StarForStar.split {run q u : List α} (h : StarForStar star (run ++ q) u) :
    ∃ front back, u = front ++ back ∧ letters star run ≤ letters star front ∧ StarForStar star q back := by
  induction run generalizing u with
  | nil => exact ⟨[], u, rfl, Nat.le_refl _, h⟩
  | cons c run ih =>
    cases h with
    | letter hc h =>
      obtain ⟨front, back, rfl, hle, h⟩ := ih h
      refine ⟨c :: front, back, rfl, ?_, h⟩
      simpa [letters, hc] using hle
    | star h =>
      obtain ⟨front, back, rfl, hle, h⟩ := ih h
      exact ⟨star :: front, back, rfl, by simpa [letters] using hle, h⟩
    | anyText _ hsuffix h =>
      obtain ⟨piece, rfl⟩ := hsuffix
      obtain ⟨front, back, rfl, hle, h⟩ := ih h
      refine ⟨piece ++ front, back, by simp, ?_, h⟩
      have hpiece := letters_append star piece front
      have hrun : letters star (star :: run) = letters star run := by simp [letters]
      omega

/-- What a later attempt leaves of the text has fewer letters than what this one leaves. -/
private theorem StarForStar.later {run q rest behind L : List α} {c : α} (h : StarForStar star (run ++ q) rest)
    (hrest : rest <:+ L) (hc : c ≠ star) (hcons : run ++ behind = c :: L) :
    ∃ back, back <:+ rest ∧ StarForStar star q back ∧ letters star back < letters star behind := by
  obtain ⟨front, back, rfl, hle, h⟩ := h.split
  refine ⟨back, List.suffix_append _ _, h, ?_⟩
  have hfirst : letters star (c :: L) = letters star L + 1 := by simp [letters, hc]
  have htotal := letters_append star run behind
  have hfront := letters_append star front back
  have hsuffix := letters_suffix star hrest
  rw [hcons] at htotal
  omega

end Letters

section Runs
variable {α : Type} (star : α) (p t : List α)

/-- The attempt behind a star, from its place in the text: the letters that it has compared so far
are the same in the pattern and in the text. -/
private structure Attempt (pi ti s mark : Nat) (run : List α) : Prop where
  pattern : p.drop (s + 1) = run ++ p.drop pi
  text : t.drop mark = run ++ t.drop ti
  patternAt : pi = s + 1 + run.length
  textAt : ti = mark + run.length
  behindStar : p[s + 1]? = some star → run = [] ∧ t[ti]? ≠ some star

/-- What the loop can still find: a cut on the way that it follows, or one from a later place behind
its last star. -/
private def StillMatches (pi ti : Nat) (last : Option Nat) (mark : Nat) : Prop :=
  StarForStar star (p.drop pi) (t.drop ti) ∨
    ∃ s, last = some s ∧ ∃ rest, rest <:+ t.drop (mark + 1) ∧ StarForStar star (p.drop (s + 1)) rest

/-- It decreases with every turn: first the stars, then the places, then the letters. -/
private def globMeasure (ti : Nat) (last : Option Nat) (mark : Nat) : Nat :=
  (p.length - (last.elim 0 (· + 1))) * ((t.length + 1) * (t.length + 1)) + (t.length - mark) * (t.length + 1) +
    (t.length - ti)

variable {star p t}

private theorem drop_eq_cons {l : List α} {i : Nat} {c : α} (h : l[i]? = some c) : l.drop i = c :: l.drop (i + 1) := by
  obtain ⟨hi, rfl⟩ := List.getElem?_eq_some_iff.mp h
  exact List.drop_eq_getElem_cons hi

private theorem Attempt.start {s mark : Nat} (h : p[s + 1]? = some star → t[mark]? ≠ some star) :
    Attempt star p t (s + 1) mark s mark [] :=
  ⟨rfl, rfl, rfl, rfl, fun hs => ⟨rfl, h hs⟩⟩

/-- The letters of an attempt start with no star. -/
private theorem Attempt.head {pi ti s mark : Nat} {c : α} {run : List α}
    (h : Attempt star p t pi ti s mark (c :: run)) : c ≠ star := by
  rintro rfl
  have hhead : p[s + 1]? = some c := by
    have hzero : (p.drop (s + 1))[0]? = some c := by rw [h.pattern]; rfl
    simpa using hzero
  exact absurd (h.behindStar hhead).1 (by simp)

private theorem Attempt.extend {pi ti s mark : Nat} {c : α} {run : List α} (h : Attempt star p t pi ti s mark run)
    (hp : p[pi]? = some c) (ht : t[ti]? = some c) : Attempt star p t (pi + 1) (ti + 1) s mark (run ++ [c]) := by
  refine ⟨?_, ?_, ?_, ?_, ?_⟩
  · rw [h.pattern, drop_eq_cons hp, List.append_assoc]
    rfl
  · rw [h.text, drop_eq_cons ht, List.append_assoc]
    rfl
  · rw [h.patternAt, List.length_append, List.length_singleton]
    omega
  · rw [h.textAt, List.length_append, List.length_singleton]
    omega
  · intro hs
    obtain ⟨rfl, hne⟩ := h.behindStar hs
    have hpi : pi = s + 1 := h.patternAt
    rw [hpi, hs] at hp
    exact absurd (ht.trans hp.symm) hne

private theorem starForStar_mismatch {pi ti : Nat} {c : α} (ht : t[ti]? = some c) (hne : p[pi]? ≠ some c)
    (hstar : p[pi]? ≠ some star) : ¬ StarForStar star (p.drop pi) (t.drop ti) := by
  rw [drop_eq_cons ht]
  cases hp : p[pi]? with
  | none =>
    rw [List.drop_eq_nil_of_le (List.getElem?_eq_none_iff.mp hp), starForStar_nil_left]
    exact List.cons_ne_nil _ _
  | some d =>
    have hd : d ≠ star := fun he => hstar (he ▸ hp)
    rw [drop_eq_cons hp, starForStar_cons hd]
    rintro ⟨rfl, -⟩
    exact hne hp

private theorem suffix_drop_iff {rest : List α} (k : Nat) :
    rest <:+ t.drop k ↔ rest = t.drop k ∨ rest <:+ t.drop (k + 1) := by
  cases hk : t[k]? with
  | none =>
    have hle := List.getElem?_eq_none_iff.mp hk
    rw [List.drop_eq_nil_of_le hle, List.drop_eq_nil_of_le (Nat.le_succ_of_le hle)]
    simp
  | some c => rw [drop_eq_cons hk, List.suffix_cons_iff]

/-- A turn that goes back to the last star drops only the way that failed. -/
private theorem stillMatches_retry {pi ti s mark : Nat} (hfail : ¬ StarForStar star (p.drop pi) (t.drop ti)) :
    StillMatches star p t (s + 1) (mark + 1) (some s) (mark + 1) ↔ StillMatches star p t pi ti (some s) mark := by
  constructor
  · rintro (h | ⟨s', hs, rest, hsuffix, h⟩)
    · exact .inr ⟨s, rfl, _, List.suffix_rfl, h⟩
    · obtain rfl := Option.some.inj hs
      exact .inr ⟨s, rfl, rest, (suffix_drop_iff _).mpr (.inr hsuffix), h⟩
  · rintro (h | ⟨s', hs, rest, hsuffix, h⟩)
    · exact absurd h hfail
    · obtain rfl := Option.some.inj hs
      rcases (suffix_drop_iff _).mp hsuffix with rfl | hsuffix
      · exact .inl h
      · exact .inr ⟨s, rfl, rest, hsuffix, h⟩

private theorem globMeasure_star {pi ti : Nat} {last : Option Nat} (mark : Nat) (hpi : pi < p.length)
    (hlast : last.elim 0 (· + 1) ≤ pi) : globMeasure p t ti (some pi) ti < globMeasure p t ti last mark := by
  have hstars : p.length - last.elim 0 (· + 1) = p.length - (pi + 1) + (pi - last.elim 0 (· + 1)) + 1 := by omega
  have hplaces : (t.length - ti) * (t.length + 1) ≤ t.length * (t.length + 1) :=
    Nat.mul_le_mul_right _ (Nat.sub_le _ _)
  have hturns : (t.length + 1) * (t.length + 1) = t.length * (t.length + 1) + (t.length + 1) := Nat.succ_mul _ _
  simp only [globMeasure, Option.elim_some]
  generalize (t.length + 1) * (t.length + 1) = turns at hturns ⊢
  rw [hstars, Nat.add_mul, Nat.add_mul, Nat.one_mul]
  omega

private theorem globMeasure_retry {ti s mark : Nat} (hmark : mark < t.length) :
    globMeasure p t (mark + 1) (some s) (mark + 1) < globMeasure p t ti (some s) mark := by
  have hplaces : t.length - mark = t.length - (mark + 1) + 1 := by omega
  have hturns : (t.length - mark) * (t.length + 1) = (t.length - (mark + 1)) * (t.length + 1) + (t.length + 1) := by
    rw [hplaces, Nat.succ_mul]
  simp only [globMeasure]
  omega

variable [DecidableEq α]

/-- Once the next star is reached, no earlier place needs to be tried again. -/
private theorem Attempt.commit {pi ti s mark : Nat} {d : α} {run rest : List α} (h : Attempt star p t pi ti s mark run)
    (hp : p[pi]? = some star) (ht : t[ti]? = some d) (hd : d ≠ star) (hrest : rest <:+ t.drop (mark + 1))
    (hmatch : StarForStar star (p.drop (s + 1)) rest) : StarForStar star (p.drop pi) (t.drop ti) := by
  have hhead : (t.drop ti).head? ≠ some star := by
    rw [drop_eq_cons ht]
    simpa using hd
  obtain ⟨c, L, hcons, hc⟩ : ∃ c L, run ++ t.drop ti = c :: L ∧ c ≠ star := by
    cases run with
    | nil => exact ⟨d, _, drop_eq_cons ht, hd⟩
    | cons c run => exact ⟨c, _, rfl, h.head⟩
  have htail : t.drop (mark + 1) = L := by
    rw [← List.tail_drop, h.text, hcons]
    rfl
  rw [h.pattern] at hmatch
  obtain ⟨back, hback, hstar, hlt⟩ := hmatch.later (htail ▸ hrest) hc hcons
  rw [drop_eq_cons hp] at hstar ⊢
  obtain ⟨last, hlast, hmatch⟩ := hstar.rest
  have hwhole : back <:+ run ++ t.drop ti := by
    rw [hcons]
    exact hback.trans ((htail ▸ hrest).trans (List.suffix_cons _ _))
  rcases List.suffix_or_suffix_of_suffix (hlast.trans hwhole) (List.suffix_append run (t.drop ti)) with hle | hle
  · exact .anyText hhead hle hmatch
  · have hmore := letters_suffix star (hle.trans hlast)
    omega

/-- At the end of the text a later place cannot do better. -/
private theorem Attempt.finish {pi ti s mark : Nat} {run rest : List α} (h : Attempt star p t pi ti s mark run)
    (ht : t[ti]? = none) (hrest : rest <:+ t.drop (mark + 1)) (hmatch : StarForStar star (p.drop (s + 1)) rest) :
    StarForStar star (p.drop pi) (t.drop ti) := by
  have hend : t.drop ti = [] := List.drop_eq_nil_of_le (List.getElem?_eq_none_iff.mp ht)
  have htext := h.text
  rw [hend, List.append_nil] at htext
  have htail : t.drop (mark + 1) = run.tail := by rw [← List.tail_drop, htext]
  rw [h.pattern] at hmatch
  cases run with
  | nil =>
    rw [htail] at hrest
    rw [List.suffix_nil.mp hrest] at hmatch
    rwa [hend]
  | cons c run =>
    rw [htail] at hrest
    obtain ⟨back, -, -, hlt⟩ := hmatch.later hrest h.head (List.append_nil (c :: run))
    exact absurd hlt (Nat.not_lt_zero _)

/-- What is left of the pattern at the end of the text has to be stars. -/
private theorem starForStar_nil_right (q : List α) :
    StarForStar star q [] ↔ (q.dropWhile (· == star)).isEmpty = true := by
  rw [← matches_itemsOf_nil star (· == ·)]
  exact ⟨StarForStar.matches, starForStar_of_no_star List.not_mem_nil⟩

private theorem starForStar_same {pi ti : Nat} {c : α} (hp : p[pi]? = some c) (ht : t[ti]? = some c) :
    StarForStar star (p.drop pi) (t.drop ti) ↔ StarForStar star (p.drop (pi + 1)) (t.drop (ti + 1)) := by
  rw [drop_eq_cons hp, drop_eq_cons ht]
  by_cases hc : c = star
  · subst hc
    exact starForStar_star_star
  · simp [starForStar_cons hc]

/-- A turn that passes a star keeps what can be found. -/
private theorem stillMatches_star {pi ti : Nat} {last : Option Nat} {mark : Nat} {c : α} (hp : p[pi]? = some star)
    (ht : t[ti]? = some c) (hc : c ≠ star) (hatt : ∀ s, last = some s → ∃ run, Attempt star p t pi ti s mark run) :
    StillMatches star p t (pi + 1) ti (some pi) ti ↔ StillMatches star p t pi ti last mark := by
  have hhead : (t.drop ti).head? ≠ some star := by
    rw [drop_eq_cons ht]
    simpa using hc
  constructor
  · rintro (h | ⟨s, hs, rest, hsuffix, h⟩)
    · refine .inl ?_
      rw [drop_eq_cons hp]
      exact .anyText hhead List.suffix_rfl h
    · obtain rfl := Option.some.inj hs
      refine .inl ?_
      rw [drop_eq_cons hp]
      exact .anyText hhead ((suffix_drop_iff ti).mpr (.inr hsuffix)) h
  · intro h
    have hcut : StarForStar star (p.drop pi) (t.drop ti) := by
      rcases h with h | ⟨s, hs, rest, hsuffix, h⟩
      · exact h
      · obtain ⟨run, hrun⟩ := hatt s hs
        exact hrun.commit hp ht hc hsuffix h
    rw [drop_eq_cons hp] at hcut
    obtain ⟨rest, hsuffix, h⟩ := hcut.rest
    rcases (suffix_drop_iff ti).mp hsuffix with rfl | hsuffix
    · exact .inl h
    · exact .inr ⟨pi, rfl, rest, hsuffix, h⟩

/-- The loop ends in time, and it finds such a cut if there is one. -/
private theorem globLoop_finds {fuel pi ti : Nat} {last : Option Nat} {mark : Nat}
    (hf : globMeasure p t ti last mark < fuel)
    (hatt : ∀ s, last = some s → ∃ run, Attempt star p t pi ti s mark run) :
    ∃ b, globLoop star p t fuel pi ti last mark = some b ∧ (b = true ↔ StillMatches star p t pi ti last mark) := by
  induction fuel generalizing pi ti last mark with
  | zero => exact absurd hf (Nat.not_lt_zero _)
  | succ fuel ih =>
    unfold globLoop
    cases ht : t[ti]? with
    | none =>
      refine ⟨_, rfl, ?_⟩
      have hend : t.drop ti = [] := List.drop_eq_nil_of_le (List.getElem?_eq_none_iff.mp ht)
      have hhere : StillMatches star p t pi ti last mark ↔ StarForStar star (p.drop pi) (t.drop ti) := by
        constructor
        · rintro (h | ⟨s, hs, rest, hsuffix, h⟩)
          · exact h
          · obtain ⟨run, hrun⟩ := hatt s hs
            exact hrun.finish ht hsuffix h
        · exact .inl
      rw [hhere, hend, starForStar_nil_right]
    | some c =>
      have hti : ti < t.length := (List.getElem?_eq_some_iff.mp ht).1
      by_cases hp : p[pi]? = some c
      · have hshorter : globMeasure p t (ti + 1) last mark < fuel := by
          simp only [globMeasure] at hf ⊢
          omega
        have hnext : ∀ s, last = some s → ∃ run, Attempt star p t (pi + 1) (ti + 1) s mark run := by
          intro s hs
          obtain ⟨run, hrun⟩ := hatt s hs
          exact ⟨_, hrun.extend hp ht⟩
        obtain ⟨b, hb, hiff⟩ := ih hshorter hnext
        refine ⟨b, by simpa [hp] using hb, ?_⟩
        rw [hiff, StillMatches, StillMatches, starForStar_same hp ht]
      · by_cases hstar : p[pi]? = some star
        · have hc : c ≠ star := fun he => hp (he ▸ hstar)
          have hpi : pi < p.length := (List.getElem?_eq_some_iff.mp hstar).1
          have hlast : last.elim 0 (· + 1) ≤ pi := by
            cases last with
            | none => exact Nat.zero_le _
            | some s =>
              obtain ⟨run, hrun⟩ := hatt s rfl
              have hpiAt := hrun.patternAt
              simp only [Option.elim_some]
              omega
          have hshorter : globMeasure p t ti (some pi) ti < fuel :=
            Nat.lt_of_lt_of_le (globMeasure_star mark hpi hlast) (Nat.le_of_lt_succ hf)
          have hnext : ∀ s, some pi = some s → ∃ run, Attempt star p t (pi + 1) ti s ti run := by
            intro s hs
            obtain rfl := Option.some.inj hs
            refine ⟨[], .start (fun _ he => hc ?_)⟩
            exact Option.some.inj (ht.symm.trans he)
          obtain ⟨b, hb, hiff⟩ := ih hshorter hnext
          refine ⟨b, by simpa [hp, hstar, hc.symm] using hb, ?_⟩
          rw [hiff, stillMatches_star hstar ht hc hatt]
        · have hfail := starForStar_mismatch ht hp hstar
          cases last with
          | none =>
            refine ⟨false, by simp [hp, hstar], ?_⟩
            simp [StillMatches, hfail]
          | some s =>
            obtain ⟨run, hrun⟩ := hatt s rfl
            have hmark : mark < t.length := by
              have htiAt := hrun.textAt
              omega
            have hshorter : globMeasure p t (mark + 1) (some s) (mark + 1) < fuel :=
              Nat.lt_of_lt_of_le (globMeasure_retry hmark) (Nat.le_of_lt_succ hf)
            have hnext : ∀ s', some s = some s' →
                ∃ run, Attempt star p t (s + 1) (mark + 1) s' (mark + 1) run := by
              intro s' hs
              obtain rfl := Option.some.inj hs
              refine ⟨[], .start (fun he => absurd ?_ hstar)⟩
              obtain ⟨rfl, -⟩ := hrun.behindStar he
              rw [hrun.patternAt]
              exact he
            obtain ⟨b, hb, hiff⟩ := ih hshorter hnext
            refine ⟨b, by simpa [hp, hstar] using hb, ?_⟩
            rw [hiff, stillMatches_retry hfail]

/-- The whole function: no star has been passed at the start. -/
theorem globLoop_start (star : α) (p t : List α) :
    ∃ b, globLoop star p t (globFuel p t) 0 0 none 0 = some b ∧ (b = true ↔ StarForStar star p t) := by
  have hfuel : globMeasure p t 0 none 0 < globFuel p t := by
    have hturns : (t.length + 1) * (t.length + 1) = t.length * (t.length + 1) + (t.length + 1) := Nat.succ_mul _ _
    simp only [globMeasure, globFuel, Option.elim_none, Nat.sub_zero, Nat.succ_mul p.length]
    omega
  obtain ⟨b, hb, hiff⟩ : ∃ b, globLoop star p t (globFuel p t) 0 0 none 0 = some b ∧
      (b = true ↔ StillMatches star p t 0 0 none 0) :=
    globLoop_finds hfuel (fun s hs => nomatch hs)
  refine ⟨b, hb, ?_⟩
  rw [hiff, StillMatches]
  simp

end Runs

section Stars
variable {α : Type} [DecidableEq α]

/-- The text does not match the pattern, or it also does when each star of the pattern that is
reached at a star of the text takes just that letter. -/
def StarForStarSuffices (star : α) (p t : List α) : Prop :=
  Matches (itemsOf star (· == ·) p) t → StarForStar star p t

theorem starForStarSuffices_of_no_star {star : α} {t : List α} (ht : star ∉ t) (p : List α) :
    StarForStarSuffices star p t :=
  starForStar_of_no_star ht

private theorem globLoop_decides_iff (star : α) (p t : List α) :
    ∃ b, globLoop star p t (globFuel p t) 0 0 none 0 = some b ∧
      ((b = true ↔ Matches (itemsOf star (· == ·) p) t) ↔ StarForStarSuffices star p t) := by
  obtain ⟨b, hb, hiff⟩ := globLoop_start star p t
  refine ⟨b, hb, ?_⟩
  rw [hiff]
  constructor
  · exact fun h => h.mpr
  · exact fun h => ⟨StarForStar.matches, h⟩

end Stars

section Ascii
open CStrings Windows

/-- On ASCII strings the loop and `wildcard_match` agree under the same condition. -/
private theorem globLoop_agrees_iff (pattern text : List UInt8) :
    globLoop (byte '*') (pattern.map toLower) (text.map toLower)
        (globFuel (pattern.map toLower) (text.map toLower)) 0 0 none 0 = some (wildcardMatch pattern text) ↔
      StarForStarSuffices (byte '*') (pattern.map toLower) (text.map toLower) := by
  obtain ⟨b, hb, hiff⟩ := globLoop_decides_iff (byte '*') (pattern.map toLower) (text.map toLower)
  have hwindows : Matches (itemsOf (byte '*') (· == ·) (pattern.map toLower)) (text.map toLower) ↔
      wildcardMatch pattern text = true := by
    rw [matches_itemsOf_map _ _ (fun c => toLower_eq_iff c (by decide)), wildcardMatch_items]
    rfl
  rw [hb, ← hiff, hwindows, Option.some.injEq, Bool.eq_iff_iff]

end Ascii

open CStrings Windows in
/-- Both functions end, and they decide the glob pattern, and agree with `wildcard_match` on ASCII
strings, exactly when no star of the pattern has to take more than a star of the text. -/
theorem globMatch_decides_glob_iff {α : Type} [DecidableEq α] (star : α) (lowercased : List α → List α) (p t : List α)
    (pattern text : List UInt8) :
    (∃ b, ProxyRule.globMatch star p t = some b ∧
      ((b = true ↔ Matches (itemsOf star (· == ·) p) t) ↔ StarForStarSuffices star p t)) ∧
    (∃ b, AppProxyProvider.globMatch star p t lowercased = some b ∧
      ((b = true ↔ Matches (itemsOf star (· == ·) (lowercased p)) (lowercased t)) ↔
        StarForStarSuffices star (lowercased p) (lowercased t))) ∧
    (ProxyRule.globMatch (byte '*') (pattern.map toLower) (text.map toLower) = some (wildcardMatch pattern text) ↔
      StarForStarSuffices (byte '*') (pattern.map toLower) (text.map toLower)) ∧
    (AppProxyProvider.globMatch (byte '*') pattern text (List.map toLower) = some (wildcardMatch pattern text) ↔
      StarForStarSuffices (byte '*') (pattern.map toLower) (text.map toLower)) :=
  ⟨globLoop_decides_iff star p t, globLoop_decides_iff star (lowercased p) (lowercased t),
    globLoop_agrees_iff pattern text, globLoop_agrees_iff pattern text⟩

open CStrings Windows in
/-- The text `*ba` matches `*a`, but the star of the pattern is spent on the star of the text. -/
theorem globMatch_star_evades :
    Matches (itemsOf (byte '*') (· == ·) (lit ['*', 'a'])) (lit ['*', 'b', 'a']) ∧
    ProxyRule.globMatch (byte '*') (lit ['*', 'a']) (lit ['*', 'b', 'a']) = some false ∧
    AppProxyProvider.globMatch (byte '*') (lit ['*', 'a']) (lit ['*', 'b', 'a']) (List.map toLower) = some false ∧
    wildcardMatch (lit ['*', 'a']) (lit ['*', 'b', 'a']) = true := by
  have hlast : Matches [.letter (byte 'a' == ·)] (lit ['a']) :=
    (matches_letter_cons _ _ _ _).mpr ⟨rfl, (matches_nil []).mpr rfl⟩
  have hlastWindows : Matches [.letter (sameLetter (byte 'a'))] (lit ['a']) :=
    (matches_letter_cons _ _ _ _).mpr ⟨rfl, (matches_nil []).mpr rfl⟩
  refine ⟨hlast.anyText ⟨lit ['*', 'b'], rfl⟩, by decide, by decide, ?_⟩
  rw [wildcardMatch_items]
  exact hlastWindows.anyText ⟨lit ['*', 'b'], rfl⟩

end ProxyBridge.MacOS
