import Mathlib.Data.List.Basic
import Mathlib.Data.Set.Basic

/-! Byte streams as a stream socket delivers them. What is read depends on how the network cut the
stream into segments; what a dialogue that reads exact amounts does with it does not. -/
namespace ByteStreams
variable {α β γ : Type}

/-- The segments in which the rest of a stream arrives. A read returns bytes of one segment; after
the last segment the peer has closed the connection or reading fails. -/
structure Inbox (α : Type) where
  segments : List (List α)
  nonempty : [] ∉ segments

namespace Inbox

def bytes (i : Inbox α) : List α := i.segments.flatten

/-- Read at most `n` bytes. The empty list stands for a close or an error. -/
def recv (n : Nat) : Inbox α → List α × Inbox α
  | ⟨[], h⟩ => ([], ⟨[], h⟩)
  | ⟨s :: rest, h⟩ =>
    (s.take n, if hn : n < s.length then
      ⟨s.drop n :: rest, by
        have hdrop : s.drop n ≠ [] := by simpa using hn
        simpa [hdrop.symm] using fun hm => h (List.mem_cons_of_mem _ hm)⟩
    else ⟨rest, fun hm => h (List.mem_cons_of_mem _ hm)⟩)

private theorem recv_append (n : Nat) (i : Inbox α) : (i.recv n).1 ++ (i.recv n).2.bytes = i.bytes := by
  obtain ⟨segments, h⟩ := i
  cases segments with
  | nil => rfl
  | cons s rest =>
    simp only [recv, bytes]
    split
    · rw [List.flatten_cons, List.flatten_cons, ← List.append_assoc, List.take_append_drop]
    · rename_i hn
      rw [List.flatten_cons, List.take_of_length_le (Nat.le_of_not_lt hn)]

/-- A read takes no more than what the first segment has. -/
theorem recv_bytes (n : Nat) (s : List α) (rest : List (List α)) (h : [] ∉ s :: rest) :
    (recv n ⟨s :: rest, h⟩).2.bytes = (s :: rest).flatten.drop (min s.length n) := by
  have hall := recv_append n ⟨s :: rest, h⟩
  have hlen : (s.take n).length = min s.length n := by rw [List.length_take, Nat.min_comm]
  rw [← hlen, show (s :: rest).flatten = _ from hall.symm]
  exact List.drop_left.symm

private theorem recv_length_le (n : Nat) (i : Inbox α) : (i.recv n).1.length ≤ n := by
  obtain ⟨segments, h⟩ := i
  cases segments with
  | nil => exact Nat.zero_le n
  | cons s rest => exact List.length_take_le n s

/-- A read that may return something returns nothing only at the end of the stream. -/
private theorem recv_eq_nil {n : Nat} (hn : 0 < n) {i : Inbox α} (h : (i.recv n).1 = []) :
    i.bytes = [] ∧ (i.recv n).2.bytes = [] := by
  obtain ⟨segments, hne⟩ := i
  cases segments with
  | nil => exact ⟨rfl, rfl⟩
  | cons s rest =>
    have hs : s = [] := by
      rcases List.take_eq_nil_iff.mp h with rfl | hs
      · exact (Nat.lt_irrefl 0 hn).elim
      · exact hs
    exact (hne (hs ▸ List.mem_cons_self)).elim

/-- The loop of reads until `n` bytes are there. -/
def recvLoop (n : Nat) : Nat → List α → Inbox α → Option (List α) × Inbox α
  | fuel, got, i =>
    if n ≤ got.length then (some got, i)
    else
      match fuel with
      | 0 => (none, i)
      | fuel+1 =>
        let r := i.recv (n - got.length)
        if r.1.isEmpty then (none, r.2) else recvLoop n fuel (got ++ r.1) r.2

/-- Every read brings a byte, so `n` turns are enough. -/
def recvN (n : Nat) (i : Inbox α) : Option (List α) × Inbox α := recvLoop n n [] i

private theorem recvLoop_spec (n : Nat) (fuel : Nat) (got : List α) (i : Inbox α) (hfuel : n ≤ got.length + fuel)
    (hgot : got.length ≤ n) :
    (recvLoop n fuel got i).1 = (if n ≤ (got ++ i.bytes).length then some ((got ++ i.bytes).take n) else none) ∧
      (recvLoop n fuel got i).2.bytes = (got ++ i.bytes).drop n := by
  induction fuel generalizing got i with
  | zero =>
    obtain rfl : n = got.length := by omega
    unfold recvLoop
    simp
  | succ fuel ih =>
    unfold recvLoop
    by_cases hdone : n ≤ got.length
    · obtain rfl : n = got.length := by omega
      simp
    simp only [hdone, if_false]
    by_cases hempty : (i.recv (n - got.length)).1 = []
    · obtain ⟨hbytes, hrest⟩ := recv_eq_nil (by omega) hempty
      simp only [hempty, List.isEmpty_nil, if_true, hrest, hbytes, List.append_nil, hdone, if_false, true_and]
      rw [List.drop_of_length_le hgot]
    have hpos : 0 < (i.recv (n - got.length)).1.length := List.length_pos_of_ne_nil hempty
    have hle := recv_length_le (n - got.length) i
    have hlen : (got ++ (i.recv (n - got.length)).1).length = got.length + (i.recv (n - got.length)).1.length :=
      List.length_append
    obtain ⟨hfst, hsnd⟩ := ih (got ++ (i.recv (n - got.length)).1) (i.recv (n - got.length)).2 (by omega) (by omega)
    simp only [List.isEmpty_iff, hempty, if_false]
    rw [hfst, hsnd, List.append_assoc, recv_append]
    exact ⟨rfl, rfl⟩

theorem recvN_fst (n : Nat) (i : Inbox α) :
    (i.recvN n).1 = if n ≤ i.bytes.length then some (i.bytes.take n) else none :=
  (recvLoop_spec n n [] i (by simp) (Nat.zero_le n)).1

theorem recvN_bytes (n : Nat) (i : Inbox α) : (i.recvN n).2.bytes = i.bytes.drop n :=
  (recvLoop_spec n n [] i (by simp) (Nat.zero_le n)).2

/-- Wait for segments until `least` bytes are there or no more come. -/
def gather (least : Nat) : List α → List (List α) → List α × List (List α)
  | got, [] => (got, [])
  | got, s :: rest => if least ≤ got.length then (got, s :: rest) else gather least (got ++ s) rest

private theorem gather_append (least : Nat) (segments : List (List α)) (got : List α) :
    (gather least got segments).1 ++ (gather least got segments).2.flatten = got ++ segments.flatten := by
  induction segments generalizing got with
  | nil => rfl
  | cons s rest ih =>
    unfold gather
    split
    · rfl
    · rw [ih, List.flatten_cons, List.append_assoc]

private theorem gather_subset (least : Nat) (segments : List (List α)) (got : List α) :
    (gather least got segments).2 ⊆ segments := by
  induction segments generalizing got with
  | nil => exact List.Subset.refl _
  | cons s rest ih =>
    unfold gather
    split
    · exact List.Subset.refl _
    · exact List.subset_cons_of_subset s (ih _)

private theorem le_length_gather (least : Nat) (segments : List (List α)) (got : List α)
    (h : least ≤ (got ++ segments.flatten).length) : least ≤ (gather least got segments).1.length := by
  induction segments generalizing got with
  | nil => simpa [gather] using h
  | cons s rest ih =>
    unfold gather
    split
    · assumption
    · exact ih _ (by rwa [List.append_assoc, ← List.flatten_cons])

/-- Read at least `least` bytes and at most `most`; fewer than `least` come only at the end. -/
def readMinimum (least most : Nat) (i : Inbox α) : List α × Inbox α :=
  let g := gather least [] i.segments
  (g.1.take most, if h : most < g.1.length then
    ⟨g.1.drop most :: g.2, by
      have hdrop : g.1.drop most ≠ [] := by simpa using h
      simpa [hdrop.symm] using fun hm => i.nonempty (gather_subset _ _ _ hm)⟩
  else ⟨g.2, fun hm => i.nonempty (gather_subset _ _ _ hm)⟩)

theorem readMinimum_append (least most : Nat) (i : Inbox α) :
    (i.readMinimum least most).1 ++ (i.readMinimum least most).2.bytes = i.bytes := by
  have hall := gather_append least i.segments []
  simp only [readMinimum, bytes]
  split
  · rw [List.flatten_cons, ← List.append_assoc, List.take_append_drop, hall, List.nil_append]
  · rename_i hle
    rw [List.take_of_length_le (Nat.le_of_not_lt hle), hall, List.nil_append]

theorem le_readMinimum_length {least most : Nat} (hle : least ≤ most) {i : Inbox α} (h : least ≤ i.bytes.length) :
    least ≤ (i.readMinimum least most).1.length := by
  have hg := le_length_gather least i.segments [] h
  simp only [readMinimum, List.length_take]
  omega

/-- A first segment that is long enough is all that is looked at. -/
theorem readMinimum_first {least : Nat} (most : Nat) {s : List α} {rest : List (List α)} (h : [] ∉ s :: rest)
    (hpos : 0 < least) (hs : least ≤ s.length) : (readMinimum least most ⟨s :: rest, h⟩).1 = s.take most := by
  have hg : (gather least [] (s :: rest)).1 = s := by
    have hnone : ¬ least ≤ ([] : List α).length := Nat.not_le_of_lt hpos
    rw [gather, if_neg hnone, List.nil_append]
    cases rest with
    | nil => rfl
    | cons t rest => rw [gather, if_pos hs]
  exact congrArg (List.take most) hg

/-- Read until the end, at most `most` bytes at a time. -/
def drainLoop (most : Nat) : Nat → Inbox α → List α
  | 0, _ => []
  | fuel+1, i =>
    let r := i.readMinimum 1 most
    if r.1.isEmpty then [] else r.1 ++ drainLoop most fuel r.2

/-- Every read brings a byte, so one turn more than there are bytes is enough. -/
def drain (most : Nat) (i : Inbox α) : List α := drainLoop most (i.bytes.length + 1) i

private theorem drainLoop_eq {most : Nat} (hpos : 0 < most) (fuel : Nat) (i : Inbox α) (h : i.bytes.length < fuel) :
    drainLoop most fuel i = i.bytes := by
  induction fuel generalizing i with
  | zero => exact (Nat.not_lt_zero _ h).elim
  | succ fuel ih =>
    have hall := readMinimum_append 1 most i
    simp only [drainLoop, List.isEmpty_iff]
    split
    · rename_i hnil
      by_contra hne
      have hsome := le_readMinimum_length hpos (List.length_pos_of_ne_nil (Ne.symm hne))
      rw [hnil] at hsome
      exact Nat.not_succ_le_zero 0 hsome
    · rename_i hne
      have hlen := congrArg List.length hall
      rw [List.length_append] at hlen
      have hsome := List.length_pos_of_ne_nil hne
      rw [ih _ (by omega), hall]

theorem drain_eq {most : Nat} (hpos : 0 < most) (i : Inbox α) : i.drain most = i.bytes :=
  drainLoop_eq hpos _ i (Nat.lt_succ_self _)

end Inbox

/-- What the sending side takes: `chunks` are the amounts that single writes accept before writing
fails, and `sent` is what has gone out. -/
structure Outbox (α : Type) where
  chunks : List Nat
  sent : List α
  positive : 0 ∉ chunks

namespace Outbox

def room (o : Outbox α) : Nat := o.chunks.foldr Nat.add 0

/-- Write some of the bytes. Zero stands for an error. -/
def send (b : List α) : Outbox α → Nat × Outbox α
  | ⟨[], sent, h⟩ => (0, ⟨[], sent, h⟩)
  | ⟨c :: rest, sent, h⟩ =>
    (min c b.length, if hc : b.length < c then
      ⟨(c - b.length) :: rest, sent ++ b, by
        have hpos : 0 ≠ c - b.length := by omega
        simpa [hpos] using fun hm => h (List.mem_cons_of_mem _ hm)⟩
    else ⟨rest, sent ++ b.take c, fun hm => h (List.mem_cons_of_mem _ hm)⟩)

private theorem send_spec (b : List α) (o : Outbox α) :
    (o.send b).1 ≤ b.length ∧ (o.send b).1 + (o.send b).2.room = o.room ∧
      (o.send b).2.sent = o.sent ++ b.take (o.send b).1 ∧
      (b ≠ [] → (o.send b).1 = 0 → o.room = 0) := by
  obtain ⟨chunks, sent, h⟩ := o
  cases chunks with
  | nil => simp [send, room]
  | cons c rest =>
    have hc : c ≠ 0 := fun he => h (he ▸ List.mem_cons_self)
    simp only [send, room, List.foldr_cons, Nat.add_eq]
    refine ⟨Nat.min_le_right .., ?_⟩
    split
    · rename_i hlt
      rw [Nat.min_eq_right (by omega)]
      refine ⟨by simp; omega, by simp, fun hb hz => ?_⟩
      exact (hb (List.eq_nil_of_length_eq_zero hz)).elim
    · rename_i hlt
      rw [Nat.min_eq_left (by omega)]
      exact ⟨rfl, rfl, fun _ hz => (hc hz).elim⟩

theorem send_sent (b : List α) (o : Outbox α) : (o.send b).2.sent = o.sent ++ b.take (o.send b).1 :=
  (send_spec b o).2.2.1

/-- The loop of writes until all of `b` has gone out. -/
def sendLoop : Nat → List α → Outbox α → Bool × Outbox α
  | _, [], o => (true, o)
  | 0, _ :: _, o => (false, o)
  | fuel+1, b :: bs, o =>
    let r := o.send (b :: bs)
    if r.1 = 0 then (false, r.2) else sendLoop fuel ((b :: bs).drop r.1) r.2

/-- Every write takes a byte, so as many turns as there are bytes are enough. -/
def sendAll (b : List α) (o : Outbox α) : Bool × Outbox α := sendLoop b.length b o

private theorem sendLoop_spec (fuel : Nat) (b : List α) (o : Outbox α) (hfuel : b.length ≤ fuel) :
    (sendLoop fuel b o).1 = decide (b.length ≤ o.room) ∧ (sendLoop fuel b o).2.room = o.room - b.length ∧
      (sendLoop fuel b o).2.sent = o.sent ++ b.take o.room := by
  induction fuel generalizing b o with
  | zero =>
    obtain rfl := List.eq_nil_of_length_eq_zero (Nat.le_zero.mp hfuel)
    simp [sendLoop]
  | succ fuel ih =>
    cases b with
    | nil => simp [sendLoop]
    | cons b bs =>
      obtain ⟨hle, hroom, hsent, hzero⟩ := send_spec (b :: bs) o
      simp only [sendLoop]
      split
      · rename_i hz
        have hr := hzero (by simp) hz
        rw [hz] at hroom hsent
        simp [hr, hsent]
        omega
      · rename_i hz
        have hlen : ((b :: bs).drop (o.send (b :: bs)).1).length = (b :: bs).length - (o.send (b :: bs)).1 :=
          List.length_drop
        obtain ⟨hfst, hr, hs⟩ := ih ((b :: bs).drop (o.send (b :: bs)).1) (o.send (b :: bs)).2 (by omega)
        rw [hfst, hr, hs, hsent, hlen, ← hroom]
        refine ⟨?_, by omega, ?_⟩
        · rw [decide_eq_decide]
          omega
        · rw [List.append_assoc, List.take_add]

theorem sendAll_fst (b : List α) (o : Outbox α) : (o.sendAll b).1 = decide (b.length ≤ o.room) :=
  (sendLoop_spec b.length b o (Nat.le_refl _)).1

theorem sendAll_room (b : List α) (o : Outbox α) : (o.sendAll b).2.room = o.room - b.length :=
  (sendLoop_spec b.length b o (Nat.le_refl _)).2.1

theorem sendAll_sent (b : List α) (o : Outbox α) : (o.sendAll b).2.sent = o.sent ++ b.take o.room :=
  (sendLoop_spec b.length b o (Nat.le_refl _)).2.2

end Outbox

structure Socket (α : Type) where
  inbox : Inbox α
  outbox : Outbox α

/-- A socket without its segmentation. -/
structure Line (α : Type) where
  incoming : List α
  room : Nat
  sent : List α

def Socket.line (s : Socket α) : Line α := ⟨s.inbox.bytes, s.outbox.room, s.outbox.sent⟩

/-- A conversation that reads and writes exact amounts: the answer to a read is the bytes or the
news that they did not come, and the answer to a write is whether it went out in full. -/
inductive Dialogue (α β : Type) where
  | done (result : β)
  | recv (n : Nat) (next : Option (List α) → Dialogue α β)
  | send (bytes : List α) (next : Bool → Dialogue α β)

namespace Dialogue

def bind : Dialogue α β → (β → Dialogue α γ) → Dialogue α γ
  | .done result, f => f result
  | .recv n next, f => .recv n (fun r => (next r).bind f)
  | .send bytes next, f => .send bytes (fun ok => (next ok).bind f)

def run : Dialogue α β → Socket α → β × Socket α
  | .done result, s => (result, s)
  | .recv n next, s =>
    let r := s.inbox.recvN n
    (next r.1).run { s with inbox := r.2 }
  | .send bytes next, s =>
    let r := s.outbox.sendAll bytes
    (next r.1).run { s with outbox := r.2 }

def runLine : Dialogue α β → Line α → β × Line α
  | .done result, l => (result, l)
  | .recv n next, l =>
    (next (if n ≤ l.incoming.length then some (l.incoming.take n) else none)).runLine
      { l with incoming := l.incoming.drop n }
  | .send bytes next, l =>
    (next (decide (bytes.length ≤ l.room))).runLine
      { l with room := l.room - bytes.length, sent := l.sent ++ bytes.take l.room }

@[simp] theorem runLine_done (result : β) (l : Line α) : (done result : Dialogue α β).runLine l = (result, l) := rfl

theorem runLine_bind (d : Dialogue α β) (f : β → Dialogue α γ) (l : Line α) :
    (d.bind f).runLine l = (f (d.runLine l).1).runLine (d.runLine l).2 := by
  induction d generalizing l with
  | done result => rfl
  | recv n next ih => exact ih _ _
  | send bytes next ih => exact ih _ _

/-- A dialogue that only listens. -/
inductive Reads : Dialogue α β → Prop where
  | done (result : β) : Reads (.done result)
  | recv {n : Nat} {next : Option (List α) → Dialogue α β} (h : ∀ r, Reads (next r)) : Reads (.recv n next)

theorem Reads.runLine_sent {d : Dialogue α β} (h : d.Reads) (l : Line α) : (d.runLine l).2.sent = l.sent := by
  induction h generalizing l with
  | done result => rfl
  | recv h ih => exact ih _ _

/-- A dialogue does the same to a socket whatever the segments are. -/
theorem run_eq_runLine (d : Dialogue α β) (s : Socket α) :
    ((d.run s).1, (d.run s).2.line) = d.runLine s.line := by
  induction d generalizing s with
  | done result => rfl
  | recv n next ih =>
    calc (((recv n next).run s).1, ((recv n next).run s).2.line)
        = (next (s.inbox.recvN n).1).runLine ⟨(s.inbox.recvN n).2.bytes, s.outbox.room, s.outbox.sent⟩ := ih _ _
      _ = (recv n next).runLine s.line := by
          rw [Inbox.recvN_fst, Inbox.recvN_bytes]
          exact rfl
  | send bytes next ih =>
    calc (((send bytes next).run s).1, ((send bytes next).run s).2.line)
        = (next (s.outbox.sendAll bytes).1).runLine
            ⟨s.inbox.bytes, (s.outbox.sendAll bytes).2.room, (s.outbox.sendAll bytes).2.sent⟩ := ih _ _
      _ = (send bytes next).runLine s.line := by
          rw [Outbox.sendAll_fst, Outbox.sendAll_room, Outbox.sendAll_sent]
          exact rfl

end Dialogue
end ByteStreams
