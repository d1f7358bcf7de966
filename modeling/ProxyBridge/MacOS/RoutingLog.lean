import ProxyBridge.Library.RingBuffers

/-! The log buffer of `AppProxyProvider.swift`. Its three methods run under one lock, so what other
threads see are sequences of whole calls. -/
namespace ProxyBridge.MacOS
open RingBuffers

inductive RoutingLogEntry where
  | connection (timestamp proto process destination port proxy : String)
  | activity (timestamp level message : String)
  deriving DecidableEq

/-- The dictionary of an entry, by its keys and values. -/
def RoutingLogEntry.toDict : RoutingLogEntry → List (String × String)
  | .connection timestamp proto process destination port proxy =>
    [("type", "connection"), ("timestamp", timestamp), ("protocol", proto), ("process", process),
      ("destination", destination), ("port", port), ("proxy", proxy)]
  | .activity timestamp level message =>
    [("type", "activity"), ("timestamp", timestamp), ("level", level), ("message", message)]

abbrev RoutingLogBuffer := RingBuffer RoutingLogEntry

namespace RoutingLogBuffer

def capacity : Nat := 500

def initial : RoutingLogBuffer := RingBuffer.empty capacity

def append (b : RoutingLogBuffer) (entry : RoutingLogEntry) : RoutingLogBuffer := RingBuffer.append capacity b entry

def drain (b : RoutingLogBuffer) : List (List (String × String)) × RoutingLogBuffer :=
  let batchSize := min 100 b.count
  RingBuffer.drain capacity RoutingLogEntry.toDict batchSize b

/-- `clear` overwrites whatever the buffer was. -/
def clear (_ : RoutingLogBuffer) : RoutingLogBuffer := RingBuffer.empty capacity

end RoutingLogBuffer

inductive LogCall where
  | append (entry : RoutingLogEntry)
  | drain
  | clear

/-- The batches that a sequence of calls returns, and the buffer after it. -/
def RoutingLogBuffer.run : RoutingLogBuffer → List LogCall → List (List (List (String × String))) × RoutingLogBuffer
  | b, [] => ([], b)
  | b, .append entry :: calls => RoutingLogBuffer.run (b.append entry) calls
  | b, .clear :: calls => RoutingLogBuffer.run b.clear calls
  | b, .drain :: calls =>
    let rest := RoutingLogBuffer.run b.drain.2 calls
    (b.drain.1 :: rest.1, rest.2)

/-- The same calls on a queue of at most 500 entries that is drained by at most 100 at a time. -/
def runQueue : Queue RoutingLogEntry → List LogCall → List (List RoutingLogEntry) × Queue RoutingLogEntry
  | q, [] => ([], q)
  | q, .append entry :: calls => runQueue (q.append 500 entry) calls
  | _, .clear :: calls => runQueue .empty calls
  | q, .drain :: calls =>
    let rest := runQueue (q.drain 100).2 calls
    ((q.drain 100).1 :: rest.1, rest.2)

/-- The buffer holds the content of the queue. -/
structure Refines (b : RoutingLogBuffer) (q : Queue RoutingLogEntry) : Prop where
  holds : RingBuffer.Holds RoutingLogBuffer.capacity b q.content
  bounded : q.Bounded

namespace Refines
variable {b : RoutingLogBuffer} {q : Queue RoutingLogEntry}

theorem initial : Refines .initial .empty := ⟨RingBuffer.holds_empty (by decide), Nat.le_refl 0⟩

theorem append (h : Refines b q) (entry : RoutingLogEntry) : Refines (b.append entry) (q.append 500 entry) := by
  refine ⟨?_, h.bounded.append (by decide) entry⟩
  rw [h.bounded.content_append]
  exact h.holds.append entry

theorem drain (h : Refines b q) : b.drain.1 = (q.drain 100).1.map RoutingLogEntry.toDict ∧
    Refines b.drain.2 (q.drain 100).2 := by
  have hcount := h.holds.count_eq
  have htake : q.content.take (min 100 b.count) = q.content.take 100 := by
    rw [hcount, ← List.take_take, List.take_length]
  have hdrop : q.content.drop (min 100 b.count) = q.content.drop 100 := by
    rw [hcount]
    rcases Nat.le_total 100 q.content.length with hle | hle
    · rw [Nat.min_eq_left hle]
    · rw [Nat.min_eq_right hle, List.drop_length, List.drop_eq_nil_of_le hle]
  obtain ⟨hbatch, hrest⟩ := h.holds.drain RoutingLogEntry.toDict (n := min 100 b.count) (by omega)
  rw [htake] at hbatch
  rw [hdrop, ← Queue.content_drain] at hrest
  exact ⟨hbatch, hrest, h.bounded.drain 100⟩

/-- What one call preserves, a sequence of calls preserves. -/
theorem run (h : Refines b q) (calls : List LogCall) :
    (b.run calls).1 = (runQueue q calls).1.map (·.map RoutingLogEntry.toDict) ∧
    Refines (b.run calls).2 (runQueue q calls).2 := by
  induction calls generalizing b q with
  | nil => exact ⟨rfl, h⟩
  | cons call calls ih =>
    cases call with
    | append entry => exact ih (h.append entry)
    | clear => exact ih initial
    | drain =>
      obtain ⟨hbatch, hnext⟩ := h.drain
      obtain ⟨hbatches, hrest⟩ := ih hnext
      simp only [RoutingLogBuffer.run, runQueue, List.map_cons]
      exact ⟨by rw [hbatch, hbatches], hrest⟩

end Refines

/-- After any calls the buffer is the queue: the batches are those of the queue, the content is what
was appended since the last `clear` and has not been drained or dropped, at most 500 entries; the next
batch takes out the oldest 100 of it; and exactly the slots from `head` on, up to `tail`, are in use. -/
theorem routing_log_refines_queue (calls : List LogCall) :
    let b := (RoutingLogBuffer.run .initial calls).2
    let q := (runQueue .empty calls).2
    let content := RingBuffer.content RoutingLogBuffer.capacity b
    (RoutingLogBuffer.run .initial calls).1 =
      (runQueue .empty calls).1.map (·.map RoutingLogEntry.toDict) ∧
    content = q.content ∧ b.count = content.length ∧ b.count ≤ 500 ∧
    b.drain.1 = (content.take (min 100 b.count)).map RoutingLogEntry.toDict ∧
    RingBuffer.content RoutingLogBuffer.capacity b.drain.2 = content.drop (min 100 b.count) ∧
    b.entries.length = 500 ∧ b.head < 500 ∧ b.tail = (b.head + b.count) % 500 ∧
    ∀ i < 500, (RingBuffer.slot RoutingLogBuffer.capacity b i).isSome = true ↔ i < b.count := by
  intro b q content
  obtain ⟨hbatches, h⟩ := Refines.initial.run calls
  have hcontent : content = q.content := h.holds.content_eq
  have hcount : b.count = content.length := by
    rw [hcontent]
    exact h.holds.count_eq
  obtain ⟨hbatch, hrest⟩ := h.holds.drain RoutingLogEntry.toDict (n := min 100 b.count) (by
    rw [hcount, hcontent]
    exact Nat.min_le_right _ _)
  refine ⟨hbatches, hcontent, hcount, h.holds.count_le, ?_, ?_, h.holds.slots, h.holds.head_lt, h.holds.tail_eq, ?_⟩
  · rw [hcontent]
    exact hbatch
  · rw [hcontent]
    exact hrest.content_eq
  · intro i hi
    rw [h.holds.slot_eq i hi, ← hcontent, hcount]
    simp

/-- Of two appended lines the second is one place behind the head. -/
theorem routing_log_refines_queue_two_lines :
    let line := RoutingLogEntry.activity "now" "INFO" "entry"
    let b := (RoutingLogBuffer.run .initial [.append line, .append line]).2
    b.count = 2 ∧ (RingBuffer.slot RoutingLogBuffer.capacity b 1).isSome = true := by
  intro line b
  have hcount : b.count = 2 := rfl
  have hslots := (routing_log_refines_queue [.append line, .append line]).2.2.2.2.2.2.2.2.2 1 (by decide)
  exact ⟨hcount, hslots.mpr (by rw [hcount]; decide)⟩

end ProxyBridge.MacOS
