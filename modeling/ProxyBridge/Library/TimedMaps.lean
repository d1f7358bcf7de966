import Mathlib.Logic.Function.Basic
import Mathlib.Data.List.Basic

/-! Maps whose entries live for a fixed time: what a key is mapped to depends on the last value put
for it and on the time since then, and pruning the dead entries is not observed. -/
namespace TimedMaps

variable {κ ν : Type}

/-- The value of each key with the time at which it dies, and the time. -/
structure TimedMap (κ ν : Type) where
  entry : κ → Option (ν × Nat)
  clock : Nat

inductive Op (κ ν : Type) where
  | put (k : κ) (v : ν)
  | prune
  | advance (n : Nat)

namespace Op

def elapsed : Op κ ν → Nat
  | .advance n => n
  | _ => 0

def isPrune : Op κ ν → Bool
  | .prune => true
  | _ => false

@[simp] theorem isPrune_put (k : κ) (v : ν) : (put k v).isPrune = false := rfl

@[simp] theorem isPrune_prune : (prune : Op κ ν).isPrune = true := rfl

@[simp] theorem isPrune_advance (n : Nat) : (advance n : Op κ ν).isPrune = false := rfl

/-- The time that passes over some operations. -/
def elapsedOver (ops : List (Op κ ν)) : Nat := ops.foldr (fun o n => o.elapsed + n) 0

@[simp] theorem elapsedOver_nil : elapsedOver ([] : List (Op κ ν)) = 0 := rfl

@[simp] theorem elapsedOver_cons (o : Op κ ν) (ops : List (Op κ ν)) :
    elapsedOver (o :: ops) = o.elapsed + elapsedOver ops := rfl

end Op

namespace TimedMap

def empty (clock : Nat) : TimedMap κ ν := ⟨fun _ => none, clock⟩

def get (m : TimedMap κ ν) (k : κ) : Option ν :=
  ((m.entry k).filter (fun e => decide (m.clock < e.2))).map (·.1)

def pruned (m : TimedMap κ ν) : TimedMap κ ν :=
  { m with entry := fun k => (m.entry k).filter (fun e => decide (m.clock < e.2)) }

variable [DecidableEq κ] (ttl : Nat)

def step (m : TimedMap κ ν) : Op κ ν → TimedMap κ ν
  | .put k v => { m with entry := Function.update m.entry k (some (v, m.clock + ttl)) }
  | .prune => m.pruned
  | .advance n => { m with clock := m.clock + n }

def run (m : TimedMap κ ν) (ops : List (Op κ ν)) : TimedMap κ ν := ops.foldl (step ttl) m

variable {ttl} {m m' : TimedMap κ ν} {k : κ} {v : ν} {ops : List (Op κ ν)}

@[simp] theorem run_nil : m.run ttl [] = m := rfl

@[simp] theorem run_cons (o : Op κ ν) : m.run ttl (o :: ops) = (m.step ttl o).run ttl ops := rfl

/-- A value that is mapped to until time `t` is mapped to over the operations that do not put the key,
if they do not reach that time. -/
private theorem get_run_of_entry {t : Nat} (hentry : m.entry k = some (v, t))
    (hops : ∀ w, .put k w ∉ ops) (ht : m.clock + Op.elapsedOver ops < t) : (m.run ttl ops).get k = some v := by
  induction ops generalizing m with
  | nil =>
    have hlive : m.clock < t := by simpa using ht
    simp [get, hentry, hlive]
  | cons o ops ih =>
    rw [Op.elapsedOver_cons] at ht
    have hrest : ∀ w, .put k w ∉ ops := fun w hw => hops w (List.mem_cons_of_mem _ hw)
    rw [run_cons]
    cases o with
    | put k' v' =>
      have hne : k ≠ k' := fun e => hops v' (e ▸ List.mem_cons_self)
      apply ih _ hrest
      · simpa [step, Op.elapsed] using ht
      · simpa [step, Function.update_of_ne hne] using hentry
    | prune =>
      have hlive : m.clock < t := by omega
      apply ih _ hrest
      · simpa [step, pruned, Op.elapsed] using ht
      · simp [step, pruned, hentry, hlive]
    | advance n =>
      apply ih _ hrest
      · simpa [step, Op.elapsed, Nat.add_assoc] using ht
      · exact hentry

/-- What a key is mapped to was put last for it, not too long ago, unless it was there before. -/
private theorem get_run_cases (h : (m.run ttl ops).get k = some v) :
    (∃ before after, ops = before ++ .put k v :: after ∧ (∀ w, .put k w ∉ after) ∧ Op.elapsedOver after < ttl) ∨
    ((∀ w, .put k w ∉ ops) ∧ ∃ t, m.entry k = some (v, t) ∧ m.clock + Op.elapsedOver ops < t) := by
  induction ops generalizing m with
  | nil =>
    refine .inr ⟨fun w hw => (nomatch hw), ?_⟩
    obtain ⟨e, he, rfl⟩ := Option.map_eq_some_iff.mp h
    obtain ⟨hentry, hlive⟩ := Option.filter_eq_some_iff.mp he
    exact ⟨e.2, hentry, of_decide_eq_true hlive⟩
  | cons o ops ih =>
    rw [run_cons] at h
    rcases ih h with ⟨before, after, rfl, hafter, htime⟩ | ⟨hnone, t, hentry, htime⟩
    · exact .inl ⟨o :: before, after, rfl, hafter, htime⟩
    · cases o with
      | put k' v' =>
        by_cases hk : k = k'
        · subst hk
          simp only [step, Function.update_self, Option.some.injEq, Prod.mk.injEq] at hentry
          obtain ⟨rfl, rfl⟩ := hentry
          refine .inl ⟨[], ops, rfl, hnone, ?_⟩
          simp only [step] at htime
          omega
        · simp only [step, Function.update_of_ne hk] at hentry htime
          refine .inr ⟨fun w hw => ?_, t, hentry, by simpa [Op.elapsed] using htime⟩
          rcases List.mem_cons.mp hw with heq | hw
          · exact hk (Op.put.inj heq).1
          · exact hnone w hw
      | prune =>
        simp only [step, pruned, Option.filter_eq_some_iff] at hentry htime
        exact .inr ⟨fun w hw => hnone w ((List.mem_cons.mp hw).resolve_left (fun e => nomatch e)), t, hentry.1,
          by simpa [Op.elapsed] using htime⟩
      | advance n =>
        simp only [step] at hentry htime
        refine .inr ⟨fun w hw => hnone w ((List.mem_cons.mp hw).resolve_left (fun e => nomatch e)), t, hentry, ?_⟩
        simp only [Op.elapsedOver_cons, Op.elapsed]
        omega

theorem run_append (front back : List (Op κ ν)) : m.run ttl (front ++ back) = (m.run ttl front).run ttl back :=
  List.foldl_append

/-- In every history a key is mapped to the last value put for it, for as long as entries live. -/
theorem get_run_iff (clock : Nat) (ops : List (Op κ ν)) (k : κ) (v : ν) :
    ((empty clock).run ttl ops).get k = some v ↔
      ∃ before after, ops = before ++ .put k v :: after ∧ (∀ w, .put k w ∉ after) ∧ Op.elapsedOver after < ttl := by
  constructor
  · intro h
    rcases get_run_cases h with hput | ⟨_, t, hentry, _⟩
    · exact hput
    · cases hentry
  · rintro ⟨before, after, rfl, hafter, htime⟩
    rw [run_append, run_cons]
    apply get_run_of_entry (Function.update_self ..) hafter
    simp only [step]
    omega

/-- Two histories that differ in the prunings only map every key alike. -/
theorem get_run_filter (clock : Nat) (ops : List (Op κ ν)) (k : κ) :
    ((empty clock).run ttl (ops.filter (fun o => !o.isPrune))).get k = ((empty clock).run ttl ops).get k := by
  have helapsed : ∀ l : List (Op κ ν), Op.elapsedOver (l.filter (fun o => !o.isPrune)) = Op.elapsedOver l := by
    intro l
    induction l with
    | nil => rfl
    | cons o l ih =>
      cases o with
      | prune => simpa [Op.elapsed] using ih
      | put k v => simpa [Op.elapsed] using ih
      | advance n => simpa using ih
  have hmem : ∀ (l : List (Op κ ν)) w, .put k w ∈ l.filter (fun o => !o.isPrune) ↔ .put k w ∈ l := by
    intro l w
    simp
  apply Option.ext
  intro v
  rw [get_run_iff, get_run_iff]
  constructor
  · rintro ⟨before, after, heq, hafter, htime⟩
    obtain ⟨b, rest, rfl, rfl, hrest⟩ := List.filter_eq_append_iff.mp heq
    obtain ⟨skipped, a, rfl, hskipped, _, rfl⟩ := List.filter_eq_cons_iff.mp hrest
    refine ⟨b ++ skipped, a, by simp, fun w hw => hafter w ((hmem a w).mpr hw), ?_⟩
    rwa [helapsed] at htime
  · rintro ⟨before, after, rfl, hafter, htime⟩
    refine ⟨_, _, by rw [List.filter_append, List.filter_cons_of_pos rfl],
      fun w hw => hafter w ((hmem after w).mp hw), ?_⟩
    rwa [helapsed]

end TimedMap
end TimedMaps
