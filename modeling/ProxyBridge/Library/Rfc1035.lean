import Mathlib.Data.List.Basic

/-! Domain names and responses as RFC 1035 lays them out in a message. -/
namespace Rfc1035

/-- A label of one to 63 bytes, none of them zero. -/
structure Label where
  bytes : List UInt8
  nonempty : bytes ≠ []
  short : bytes.length ≤ 63
  noZero : (0 : UInt8) ∉ bytes

/-- The text of a name: its labels with dots between them. -/
def text (labels : List Label) : List UInt8 := [46].intercalate (labels.map (·.bytes))

/-- The name with these labels stands at a position of a message: plain labels, which a zero byte
ends or a pointer continues at another position. With it the number of pointers on the way and the
offset behind the name, which is the one behind the first pointer if there is one. -/
inductive NameAt (msg : List UInt8) : Nat → List Label → Nat → Nat → Prop where
  | root {pos : Nat} : msg[pos]? = some 0 → NameAt msg pos [] 0 (pos + 1)
  | label {pos n stop : Nat} {l : Label} {labels : List Label} : msg[pos]? = some l.bytes.length.toUInt8 →
      (msg.drop (pos + 1)).take l.bytes.length = l.bytes →
      NameAt msg (pos + 1 + l.bytes.length) labels n stop → NameAt msg pos (l :: labels) n stop
  | pointer {pos target n stop : Nat} {labels : List Label} : target < 16384 →
      msg[pos]? = some (192 + target / 256).toUInt8 → msg[pos + 1]? = some (target % 256).toUInt8 →
      NameAt msg target labels n stop → NameAt msg pos labels (n + 1) (pos + 2)

/-- A name within the limits: at most 253 bytes of text and at most ten pointers. -/
def ShortNameAt (msg : List UInt8) (pos : Nat) (labels : List Label) (stop : Nat) : Prop :=
  (text labels).length ≤ 253 ∧ ∃ n, n ≤ 10 ∧ NameAt msg pos labels n stop

/-- Two bytes in network order. -/
def word (msg : List UInt8) (i : Nat) : Nat := (msg.getD i 0).toNat * 256 + (msg.getD (i + 1) 0).toNat

/-- A resource record without its name and its time to live. -/
structure Record where
  rtype : Nat
  rclass : Nat
  data : List UInt8

/-- The questions that stand between two offsets. -/
inductive QuestionsAt (msg : List UInt8) : Nat → List (List Label) → Nat → Prop where
  | nil {pos : Nat} : QuestionsAt msg pos [] pos
  | cons {pos stop last : Nat} {labels : List Label} {questions : List (List Label)} :
      ShortNameAt msg pos labels stop → stop + 4 ≤ msg.length → QuestionsAt msg (stop + 4) questions last →
      QuestionsAt msg pos (labels :: questions) last

/-- The records that stand between two offsets. -/
inductive RecordsAt (msg : List UInt8) : Nat → List Record → Nat → Prop where
  | nil {pos : Nat} : RecordsAt msg pos [] pos
  | cons {pos stop last : Nat} {labels : List Label} {r : Record} {records : List Record} :
      ShortNameAt msg pos labels stop → word msg stop = r.rtype → word msg (stop + 2) = r.rclass →
      word msg (stop + 8) = r.data.length → stop + 10 + r.data.length ≤ msg.length →
      (msg.drop (stop + 10)).take r.data.length = r.data →
      RecordsAt msg (stop + 10 + r.data.length) records last → RecordsAt msg pos (r :: records) last

/-- A response without an error: at least one question, the first with a name, and the answers and
the other records in their sections. -/
structure Response (msg : List UInt8) (first : List Label) (questions : List (List Label))
    (answers authority additional : List Record) : Prop where
  header : 12 ≤ msg.length
  response : 0x8000 ≤ word msg 2
  rcode : word msg 2 % 16 = 0
  qdcount : word msg 4 = questions.length + 1
  ancount : word msg 6 = answers.length
  nscount : word msg 8 = authority.length
  arcount : word msg 10 = additional.length
  named : first ≠ []
  sections : ∃ a b c, QuestionsAt msg 12 (first :: questions) a ∧ RecordsAt msg a answers b ∧
    RecordsAt msg b authority c ∧ RecordsAt msg c additional msg.length

section Text

theorem text_cons (l : Label) (labels : List Label) :
    text (l :: labels) = l.bytes ++ labels.flatMap (fun l => 46 :: l.bytes) := by
  induction labels generalizing l with
  | nil => simp [text, List.intercalate]
  | cons m labels ih =>
    have hrest := ih m
    simp only [text, List.intercalate, List.map_cons] at hrest ⊢
    simp [List.intersperse, hrest]

/-- The text of a name is a C string. -/
theorem zero_not_mem_text (labels : List Label) : (0 : UInt8) ∉ text labels := by
  cases labels with
  | nil => exact List.not_mem_nil
  | cons l labels =>
    rw [text_cons, List.mem_append, List.mem_flatMap]
    rintro (h | ⟨m, -, h⟩)
    · exact l.noZero h
    · exact m.noZero ((List.mem_cons.mp h).resolve_left (by decide))

end Text

end Rfc1035
