import Mathlib.Data.List.Basic
import Mathlib.Logic.Relation

/-! Copying a byte stream. What has been received and not yet sent on is pending, and more is received
only when nothing is. A copy ends cleanly behind the last pending byte or breaks anywhere. -/
namespace StreamCopies
open Relation
variable {α : Type}

inductive End where
  | clean
  | broken
  deriving DecidableEq, Repr

structure Copy (α : Type) where
  received : List α
  sent : List α
  ended : Option End
  deriving DecidableEq

namespace Copy

def start : Copy α := ⟨[], [], none⟩

inductive Step : Copy α → Copy α → Prop where
  | receive (sent data : List α) : Step ⟨sent, sent, none⟩ ⟨sent ++ data, sent, none⟩
  | send (sent data rest : List α) :
    Step ⟨sent ++ (data ++ rest), sent, none⟩ ⟨sent ++ (data ++ rest), sent ++ data, none⟩
  | finish (sent : List α) : Step ⟨sent, sent, none⟩ ⟨sent, sent, some .clean⟩
  | fail (received sent : List α) : Step ⟨received, sent, none⟩ ⟨received, sent, some .broken⟩

abbrev Steps : Copy α → Copy α → Prop := ReflTransGen Step

/-- What is sent is what was received, in order, and a clean end comes behind all of it. -/
structure Faithful (c : Copy α) : Prop where
  ordered : c.sent <+: c.received
  complete : c.ended = some .clean → c.sent = c.received

theorem Faithful.step {c d : Copy α} (h : c.Faithful) (hs : Step c d) : d.Faithful := by
  cases hs with
  | receive sent data => exact ⟨List.prefix_append _ _, fun he => nomatch he⟩
  | send sent data rest =>
    refine ⟨?_, fun he => nomatch he⟩
    rw [← List.append_assoc]
    exact List.prefix_append _ _
  | finish sent => exact ⟨List.prefix_refl _, fun _ => rfl⟩
  | fail received sent => exact ⟨h.ordered, fun he => nomatch he⟩

theorem Faithful.steps {c d : Copy α} (h : c.Faithful) (hs : Steps c d) : d.Faithful := by
  induction hs with
  | refl => exact h
  | tail _ hstep ih => exact ih.step hstep

theorem faithful_start : (start : Copy α).Faithful := ⟨List.prefix_refl _, fun he => nomatch he⟩

/-- An end is final. -/
theorem eq_of_ended {c d : Copy α} (hc : c.ended ≠ none) (hs : Steps c d) : d = c := by
  induction hs with
  | refl => rfl
  | tail _ hstep ih =>
    subst ih
    cases hstep <;> exact (hc rfl).elim

end Copy

end StreamCopies
