import Mathlib.Logic.Relation

/-! Runs of a transition system given by a partial step function. A run may be restricted to
steps that meet a condition, and a concrete one is found by executing a list of actions. -/
namespace Runs

variable {σ α : Type} (step : σ → α → Option σ) (ok : σ → α → Prop)

/-- The states reached from `init` by enabled actions that all meet `ok`. -/
inductive Reach (init : σ) : σ → Prop where
  | start : Reach init init
  | next {s s' : σ} {a : α} : Reach init s → ok s a → step s a = some s' → Reach init s'

variable {step ok} {init s : σ}

/-- A predicate that holds at the start and survives every permitted step holds throughout. -/
theorem Reach.invariant {inv : σ → Prop} (hinit : inv init)
    (hstep : ∀ s a s', inv s → ok s a → step s a = some s' → inv s') (h : Reach step ok init s) :
    inv s := by
  induction h with
  | start => exact hinit
  | next _ hok hs ih => exact hstep _ _ _ ih hok hs

/-- A system simulates another through a view if each of its steps is a run of what is viewed. -/
theorem Reach.simulates {τ : Type} {inv : σ → Prop} {r : τ → τ → Prop} {view : σ → τ} (hinit : inv init)
    (hstep : ∀ s a s', inv s → ok s a → step s a = some s' → inv s' ∧ Relation.ReflTransGen r (view s) (view s'))
    (h : Reach step ok init s) : Relation.ReflTransGen r (view init) (view s) := by
  have hboth : inv s ∧ Relation.ReflTransGen r (view init) (view s) := by
    induction h with
    | start => exact ⟨hinit, .refl⟩
    | next _ hok hs ih =>
      obtain ⟨hinv, hview⟩ := hstep _ _ _ ih.1 hok hs
      exact ⟨hinv, ih.2.trans hview⟩
  exact hboth.2

/-- A permitted step ahead of a run. -/
theorem Reach.head {m : σ} {a : α} (hok : ok init a) (hs : step init a = some m) (h : Reach step ok m s) :
    Reach step ok init s := by
  induction h with
  | start => exact Reach.start.next hok hs
  | next _ hok' hs' ih => exact ih.next hok' hs'

variable (step ok) in
/-- Execute the actions in turn, stopping at one that is not permitted or not enabled. -/
def exec [∀ s a, Decidable (ok s a)] : σ → List α → Option σ
  | s, [] => some s
  | s, a :: as => if ok s a then (step s a).bind (exec · as) else none

private theorem Reach.exec [∀ s a, Decidable (ok s a)] {as : List α} {s' : σ}
    (h : Reach step ok init s) (he : exec step ok s as = some s') : Reach step ok init s' := by
  induction as generalizing s with
  | nil =>
    obtain rfl : s = s' := Option.some.inj he
    exact h
  | cons a as ih =>
    simp only [Runs.exec] at he
    split at he
    · rename_i hok
      obtain ⟨m, hm, he⟩ := Option.bind_eq_some_iff.mp he
      exact ih (h.next hok hm) he
    · cases he

variable (step ok init) in
/-- A run found by execution, with a test that its last state passes. -/
theorem exists_reach_of_exec [∀ s a, Decidable (ok s a)] (as : List α) (p : σ → Bool)
    (h : (exec step ok init as).any p = true) : ∃ s, Reach step ok init s ∧ p s = true := by
  cases he : exec step ok init as with
  | none => simp [he] at h
  | some s =>
    rw [he] at h
    exact ⟨s, .exec .start he, h⟩

end Runs
