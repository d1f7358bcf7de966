import Mathlib.Algebra.Order.Group.Multiset

/-! Threads that each have a list of tasks to go through in order. What remains to be done is counted
with multiplicity, whatever thread it is on. -/
namespace ThreadScripts
variable {τ : Type}

/-- All tasks that the threads have still to do. -/
def remaining (threads : List (List τ)) : Multiset τ := threads.flatten

variable {threads : List (List τ)} {i : Nat} {t : τ} {rest : List τ}

theorem remaining_cons (script : List τ) : remaining (script :: threads) = script + remaining threads := by
  rw [remaining, remaining, List.flatten_cons, Multiset.coe_add]

/-- A thread has the script `new` instead of `old`. -/
theorem remaining_set {old : List τ} (h : threads[i]? = some old) (new : List τ) :
    remaining (threads.set i new) + old = remaining threads + new := by
  induction threads generalizing i with
  | nil => cases h
  | cons script threads ih =>
    cases i with
    | zero =>
      obtain rfl : script = old := Option.some.inj h
      rw [List.set_cons_zero, remaining_cons, remaining_cons, add_right_comm, add_comm (new : Multiset τ),
        add_right_comm]
    | succ i =>
      rw [List.set_cons_succ, remaining_cons, remaining_cons, add_assoc, add_assoc, ih h]

/-- A thread has done the first task of its script. -/
theorem remaining_resume (h : threads[i]? = some (t :: rest)) :
    remaining threads = {t} + remaining (threads.set i rest) := by
  have hset := remaining_set h rest
  rw [← Multiset.cons_coe, ← Multiset.singleton_add, ← add_assoc, add_right_cancel_iff] at hset
  rw [← hset, add_comm]

/-- A thread has replaced the first task of its script by the tasks `body`. -/
theorem remaining_call (h : threads[i]? = some (t :: rest)) (body : List τ) :
    remaining (threads.set i (body ++ rest)) + {t} = remaining threads + body := by
  have hset := remaining_set h (body ++ rest)
  rw [← Multiset.cons_coe, ← Multiset.singleton_add, ← Multiset.coe_add, ← add_assoc, ← add_assoc,
    add_right_cancel_iff] at hset
  exact hset

end ThreadScripts
