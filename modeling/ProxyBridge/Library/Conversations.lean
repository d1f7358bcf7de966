import Mathlib.Data.List.Basic

/-! Conversations over a connection whose writes and reads end in callbacks. A program gives for every answer
of a callback what it does next, and what holds of it is shown by going through the program once. -/
namespace Conversations
variable {α ε β : Type}

/-- A program that talks to a peer. The callback of a write is told of an error, and that of a read which asks for
`least` up to `most` elements gets data, an error or neither. -/
inductive Conversation (α ε β : Type) where
  | done (result : β)
  | write (data : List α) (next : Option ε → Conversation α ε β)
  | read (least most : Nat) (next : Option (List α) → Option ε → Conversation α ε β)

namespace Conversation

/-- What is handed over for sending before a callback comes. -/
def writing : Conversation α ε β → List α
  | .write data _ => data
  | .done _ | .read _ _ _ => []

def result : Conversation α ε β → Option β
  | .done b => some b
  | .write _ _ | .read _ _ _ => none

/-- Whatever the callbacks bring, this is so of what has been sent and what has been received, at every
callback that is still to come and at the end. -/
def Always : Conversation α ε β → (List α → List α → Option β → Prop) → Prop
  | .done b, P => P [] [] (some b)
  | .write data next, P => P data [] none ∧ ∀ error, (next error).Always (fun sent taken b => P (data ++ sent) taken b)
  | .read _ _ next, P => P [] [] none ∧
      ∀ data error, (next data error).Always (fun sent taken b => P sent (data.getD [] ++ taken) b)

theorem Always.of_done {b : β} {P : List α → List α → Option β → Prop} (h : P [] [] (some b)) :
    (done b : Conversation α ε β).Always P := h

theorem Always.here {c : Conversation α ε β} {P : List α → List α → Option β → Prop} (h : c.Always P) :
    P c.writing [] c.result := by
  cases c with
  | done b => exact h
  | write data next => exact h.1
  | read least most next => exact h.1

theorem Always.mono {c : Conversation α ε β} {P Q : List α → List α → Option β → Prop} (h : c.Always P)
    (hle : ∀ sent taken b, P sent taken b → Q sent taken b) : c.Always Q := by
  induction c generalizing P Q with
  | done b => exact hle _ _ _ h
  | write data next ih => exact ⟨hle _ _ _ h.1, fun error => ih error (h.2 error) fun _ _ _ => hle _ _ _⟩
  | read least most next ih =>
    exact ⟨hle _ _ _ h.1, fun data error => ih data error (h.2 data error) fun _ _ _ => hle _ _ _⟩

end Conversation

/-- A conversation part of the way through. -/
structure Talk (α ε β : Type) where
  rest : Conversation α ε β
  sent : List α
  taken : List α

inductive Answer (α ε : Type) where
  | wrote (error : Option ε)
  | read (data : Option (List α)) (error : Option ε)

namespace Talk

def begin (c : Conversation α ε β) : Talk α ε β := ⟨c, c.writing, []⟩

/-- The callback that is to come, if it is of this kind. -/
def step (t : Talk α ε β) : Answer α ε → Option (Talk α ε β)
  | .wrote error =>
    match t.rest with
    | .write _ next => some ⟨next error, t.sent ++ (next error).writing, t.taken⟩
    | .done _ | .read _ _ _ => none
  | .read data error =>
    match t.rest with
    | .read _ _ next => some ⟨next data error, t.sent ++ (next data error).writing, t.taken ++ data.getD []⟩
    | .done _ | .write _ _ => none

/-- The rest of the conversation keeps to `P`, after what has been sent and received. -/
def Keeps (t : Talk α ε β) (P : List α → List α → Option β → Prop) : Prop :=
  ∃ before, t.sent = before ++ t.rest.writing ∧
    t.rest.Always (fun sent taken b => P (before ++ sent) (t.taken ++ taken) b)

variable {t t' : Talk α ε β} {P : List α → List α → Option β → Prop}

theorem Keeps.begin {c : Conversation α ε β} (h : c.Always P) : (begin c).Keeps P := ⟨[], rfl, h⟩

theorem Keeps.now (h : t.Keeps P) : P t.sent t.taken t.rest.result := by
  obtain ⟨before, hsent, hrest⟩ := h
  rw [hsent, ← t.taken.append_nil]
  exact hrest.here

theorem Keeps.step (h : t.Keeps P) {a : Answer α ε} (hs : t.step a = some t') : t'.Keeps P := by
  obtain ⟨rest, sent, taken⟩ := t
  obtain ⟨before, hsent, hrest⟩ := h
  cases a with
  | wrote error =>
    cases rest with
    | write data next =>
      obtain rfl := Option.some.inj hs
      refine ⟨sent, rfl, (hrest.2 error).mono fun sent' taken' b hp => ?_⟩
      rw [show sent = before ++ data from hsent, List.append_assoc]
      exact hp
    | done b => cases hs
    | read least most next => cases hs
  | read data error =>
    cases rest with
    | read least most next =>
      obtain rfl := Option.some.inj hs
      refine ⟨sent, rfl, (hrest.2 data error).mono fun sent' taken' b hp => ?_⟩
      rw [show sent = before ++ [] from hsent, List.append_nil, List.append_assoc]
      exact hp
    | done b => cases hs
    | write data next => cases hs

end Talk
end Conversations
