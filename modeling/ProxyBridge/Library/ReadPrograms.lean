import Mathlib.Logic.Basic

/-! Programs that read a shared state one item at a time, while others may change it in between.
An execution remembers what it has read; as long as all of that is still so, its result is the one
that an uninterrupted run would give now. -/
namespace ReadPrograms

variable {Q : Type} (A : Q → Type) (α β : Type)

/-- A program over the items `Q`, where reading `q` answers with an `A q`. -/
inductive Program where
  | pure (a : α)
  | read (q : Q) (next : A q → Program)

variable {A α β}

namespace Program

def bind (m : Program A α) (f : α → Program A β) : Program A β :=
  match m with
  | .pure a => f a
  | .read q next => .read q (fun x => (next x).bind f)

/-- The result of reading everything at once from one state. -/
def run (answer : ∀ q, A q) : Program A α → α
  | .pure a => a
  | .read q next => (next (answer q)).run answer

@[simp] theorem run_pure (answer : ∀ q, A q) (a : α) : (Program.pure a).run answer = a := rfl

@[simp] theorem run_read (answer : ∀ q, A q) (q : Q) (next : A q → Program A α) :
    (Program.read q next).run answer = (next (answer q)).run answer := rfl

@[simp] theorem run_bind (answer : ∀ q, A q) (m : Program A α) (f : α → Program A β) :
    (m.bind f).run answer = (f (m.run answer)).run answer := by
  induction m with
  | pure a => rfl
  | read q next ih => exact ih (answer q)

theorem run_ite (answer : ∀ q, A q) (c : Prop) [Decidable c] (m n : Program A α) :
    (if c then m else n).run answer = if c then m.run answer else n.run answer := by
  split <;> rfl

/-- A result that a program can come to, with what it has read on the way. Nothing is said about how the
state changes between two reads. -/
inductive Yields : Program A α → List (Σ q, A q) → α → Prop
  | pure (a : α) : Yields (.pure a) [] a
  | read {q : Q} {next : A q → Program A α} {reads : List (Σ q, A q)} {a : α} (x : A q)
      (h : Yields (next x) reads a) : Yields (.read q next) (⟨q, x⟩ :: reads) a

theorem Yields.of_bind {m : Program A α} {f : α → Program A β} {reads : List (Σ q, A q)} {b : β}
    (h : (m.bind f).Yields reads b) :
    ∃ first rest a, reads = first ++ rest ∧ m.Yields first a ∧ (f a).Yields rest b := by
  induction m generalizing reads with
  | pure a => exact ⟨[], reads, a, rfl, .pure a, h⟩
  | read q next ih =>
    cases h with
    | read x h =>
      obtain ⟨first, rest, a, rfl, ha, hb⟩ := ih x h
      exact ⟨⟨q, x⟩ :: first, rest, a, rfl, .read x ha, hb⟩

/-- A program that asks for nothing but these items. -/
inductive Asks (wanted : Q → Prop) : Program A α → Prop
  | pure (a : α) : Asks wanted (.pure a)
  | read {q : Q} {next : A q → Program A α} (hq : wanted q) (h : ∀ x, Asks wanted (next x)) :
      Asks wanted (.read q next)

theorem Yields.wanted {wanted : Q → Prop} {m : Program A α} {reads : List (Σ q, A q)} {a : α}
    (h : m.Yields reads a) (hm : m.Asks wanted) : ∀ x ∈ reads, wanted x.1 := by
  induction h with
  | pure a =>
    intro x hx
    cases hx
  | read x h ih =>
    cases hm with
    | read hq hnext =>
      intro y hy
      rcases List.mem_cons.mp hy with rfl | hy
      · exact hq
      · exact ih (hnext _) y hy

/-- An execution that begins at one moment of a history and ends at another. What it reads is what the history
has at the moment of the read, and any time may pass between two reads. -/
inductive Along (history : Nat → ∀ q, A q) : Nat → Program A α → Nat → α → Prop
  | pure (t : Nat) (a : α) : Along history t (.pure a) t a
  | wait {t t' : Nat} {m : Program A α} {a : α} (h : Along history (t + 1) m t' a) : Along history t m t' a
  | read {t t' : Nat} {q : Q} {next : A q → Program A α} {a : α} (h : Along history t (next (history t q)) t' a) :
      Along history t (.read q next) t' a

section Along
variable {history : Nat → ∀ q, A q} {t t' : Nat} {m : Program A α} {a : α}

theorem Along.le (h : m.Along history t t' a) : t ≤ t' := by
  induction h with
  | pure t a => exact Nat.le_refl t
  | wait h ih => exact Nat.le_of_succ_le ih
  | read h ih => exact ih

theorem Along.pure_eq {b : α} (h : (Program.pure b).Along history t t' a) : a = b := by
  generalize hm : Program.pure b = m at h
  induction h with
  | pure t a => exact (Program.pure.inj hm).symm
  | wait h ih => exact ih hm
  | read h ih => cases hm

/-- The moment at which the first item is read. -/
theorem Along.of_read {q : Q} {next : A q → Program A α} (h : (Program.read q next).Along history t t' a) :
    ∃ s, t ≤ s ∧ (next (history s q)).Along history s t' a := by
  generalize hm : Program.read q next = m at h
  induction h with
  | pure t a => cases hm
  | wait h ih =>
    obtain ⟨s, hs, h⟩ := ih hm
    exact ⟨s, Nat.le_of_succ_le hs, h⟩
  | @read t t' q' next' a h ih =>
    obtain ⟨rfl, hnext⟩ := Program.read.inj hm
    obtain rfl := eq_of_heq hnext
    exact ⟨t, Nat.le_refl t, h⟩

/-- An execution may have begun before. -/
theorem Along.earlier {s : Nat} (hle : t ≤ s) (h : m.Along history s t' a) : m.Along history t t' a := by
  induction hle with
  | refl => exact h
  | step hle ih => exact ih (.wait h)

theorem Along.of_bind {f : α → Program A β} {b : β} (h : (m.bind f).Along history t t' b) :
    ∃ s a, t ≤ s ∧ m.Along history t s a ∧ (f a).Along history s t' b := by
  induction m generalizing t with
  | pure a => exact ⟨t, a, Nat.le_refl t, .pure t a, h⟩
  | read q next ih =>
    obtain ⟨r, hr, h⟩ := Along.of_read h
    obtain ⟨s, a, hs, ha, hb⟩ := ih (history r q) h
    exact ⟨s, a, Nat.le_trans hr hs, .earlier hr (.read ha), hb⟩

/-- Reading everything at one moment is one of the ways. -/
theorem along_run (history : Nat → ∀ q, A q) (t : Nat) (m : Program A α) :
    m.Along history t t (m.run (history t)) := by
  induction m with
  | pure a => exact .pure t a
  | read q next ih => exact .read (ih (history t q))

end Along
end Program

/-- Everything that was read is so in this state. -/
def Agrees (answer : ∀ q, A q) (reads : List (Σ q, A q)) : Prop := ∀ x ∈ reads, answer x.1 = x.2

/-- Reading everything from one state is one of the ways. -/
theorem Program.yields_run (answer : ∀ q, A q) (m : Program A α) :
    ∃ reads, m.Yields reads (m.run answer) ∧ Agrees answer reads := by
  induction m with
  | pure a => exact ⟨[], .pure a, fun x hx => by cases hx⟩
  | read q next ih =>
    obtain ⟨reads, hy, ha⟩ := ih (answer q)
    refine ⟨⟨q, answer q⟩ :: reads, .read _ hy, fun x hx => ?_⟩
    rcases List.mem_cons.mp hx with rfl | hx
    · rfl
    · exact ha x hx

/-- A program part of the way through, with what it has read so far. -/
structure Execution (A : Q → Type) (α : Type) where
  program : Program A α
  reads : List (Σ q, A q)
  rest : Program A α
  tracks : ∀ answer, Agrees answer reads → program.run answer = rest.run answer

namespace Execution

def start (program : Program A α) : Execution A α := ⟨program, [], program, fun _ _ => rfl⟩

/-- The next read, answered from the state as it is now. -/
def read (e : Execution A α) (answer : ∀ q, A q) : Execution A α :=
  match h : e.rest with
  | .pure _ => e
  | .read q next => ⟨e.program, e.reads ++ [⟨q, answer q⟩], next (answer q), fun other ho => by
      have hq : other q = answer q := ho ⟨q, answer q⟩ (List.mem_append_right _ (List.mem_singleton_self _))
      rw [e.tracks other (fun x hx => ho x (List.mem_append_left _ hx)), h, Program.run_read, hq]⟩

theorem program_read (e : Execution A α) (answer : ∀ q, A q) : (e.read answer).program = e.program := by
  unfold read
  split <;> rfl

def result (e : Execution A α) : Option α :=
  match e.rest with
  | .pure a => some a
  | .read .. => none

theorem run_of_result {e : Execution A α} {a : α} (h : e.result = some a) {answer : ∀ q, A q}
    (hag : Agrees answer e.reads) : e.program.run answer = a := by
  rw [e.tracks answer hag]
  unfold result at h
  split at h
  · rename_i b hb
    rw [hb]
    exact Option.some.inj h
  · cases h

/-- What a read adds is so now. -/
theorem agrees_read (e : Execution A α) {answer : ∀ q, A q} (h : Agrees answer e.reads) :
    Agrees answer (e.read answer).reads := by
  unfold read
  split
  · exact h
  · intro x hx
    rcases List.mem_append.mp hx with hx | hx
    · exact h x hx
    · rw [List.mem_singleton.mp hx]

end Execution
end ReadPrograms
