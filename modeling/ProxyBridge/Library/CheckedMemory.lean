import Mathlib.Data.List.Basic

/-! Byte buffers whose accesses are checked: an access outside of a buffer is a fault of the program
that makes it, and so is a loop that does not end in its turns. -/
namespace CheckedMemory

inductive Fault where
  | read (index : Nat)
  | write (index : Nat)
  | turns
  deriving DecidableEq, Repr

def read (buffer : List UInt8) (i : Nat) : Except Fault UInt8 :=
  match buffer[i]? with
  | some b => .ok b
  | none => .error (.read i)

def write (buffer : List UInt8) (i : Nat) (b : UInt8) : Except Fault (List UInt8) :=
  if i < buffer.length then .ok (buffer.set i b) else .error (.write i)

def readBytes (buffer : List UInt8) (i : Nat) : Nat → Except Fault (List UInt8)
  | 0 => .ok []
  | n+1 => do
    let b ← read buffer i
    let bytes ← readBytes buffer (i + 1) n
    return b :: bytes

def writeBytes (buffer : List UInt8) (i : Nat) : List UInt8 → Except Fault (List UInt8)
  | [] => .ok buffer
  | b :: bytes => do
    let buffer ← write buffer i b
    writeBytes buffer (i + 1) bytes

/-- `memcpy(&dst[j], &src[i], n)`. -/
def memcpy (dst : List UInt8) (j : Nat) (src : List UInt8) (i n : Nat) : Except Fault (List UInt8) := do
  let bytes ← readBytes src i n
  writeBytes dst j bytes

/-- `memcmp(a, b, n)`, which looks at all of the `n` bytes. -/
def memcmp (a b : List UInt8) (n : Nat) : Except Fault Ordering := do
  let x ← readBytes a 0 n
  let y ← readBytes b 0 n
  return compareOfLessAndEq x y

@[simp] theorem ok_bind {α β : Type} (a : α) (f : α → Except Fault β) : (Except.ok a >>= f) = f a := rfl

theorem read_ok {buffer : List UInt8} {i : Nat} (h : i < buffer.length) : read buffer i = .ok buffer[i] := by
  simp [read, h]

theorem read_getD {buffer : List UInt8} {i : Nat} (h : i < buffer.length) :
    read buffer i = .ok (buffer.getD i 0) := by
  simp [read, h]

theorem write_ok {buffer : List UInt8} {i : Nat} (h : i < buffer.length) (b : UInt8) :
    write buffer i b = .ok (buffer.set i b) := by
  simp [write, h]

theorem readBytes_ok {buffer : List UInt8} {i n : Nat} (h : i + n ≤ buffer.length) :
    readBytes buffer i n = .ok ((buffer.drop i).take n) := by
  induction n generalizing i with
  | zero => simp [readBytes]
  | succ n ih =>
    have hi : i < buffer.length := by omega
    rw [readBytes, read_ok hi, ih (by omega), List.drop_eq_getElem_cons hi, List.take_succ_cons]
    rfl

/-- The bytes land in their place and all others stay. -/
theorem writeBytes_ok {buffer bytes : List UInt8} {i : Nat} (h : i + bytes.length ≤ buffer.length) :
    writeBytes buffer i bytes = .ok (buffer.take i ++ bytes ++ buffer.drop (i + bytes.length)) := by
  induction bytes generalizing buffer i with
  | nil => simp [writeBytes]
  | cons b bytes ih =>
    rw [List.length_cons] at h
    have hi : i < buffer.length := by omega
    have hset : i + 1 + bytes.length ≤ (buffer.set i b).length := by
      rw [List.length_set]
      omega
    have htake : (buffer.set i b).take (i + 1) = buffer.take i ++ [b] := by
      rw [List.set_eq_take_append_cons_drop, if_pos hi]
      have hshort : (buffer.take i).length ≤ i + 1 := by
        rw [List.length_take]
        omega
      simp [List.take_append, Nat.min_eq_left (Nat.le_of_lt hi), List.take_of_length_le hshort]
    have hdrop : (buffer.set i b).drop (i + 1 + bytes.length) = buffer.drop (i + (bytes.length + 1)) := by
      rw [List.drop_set_of_lt (by omega)]
      congr 1
      omega
    rw [writeBytes, write_ok hi]
    change writeBytes (buffer.set i b) (i + 1) bytes = _
    rw [ih hset, htake, hdrop, List.length_cons]
    simp

theorem memcpy_ok {dst src : List UInt8} {i j n : Nat} (hsrc : i + n ≤ src.length) (hdst : j + n ≤ dst.length) :
    memcpy dst j src i n = .ok (dst.take j ++ (src.drop i).take n ++ dst.drop (j + n)) := by
  have hlen : ((src.drop i).take n).length = n := by
    rw [List.length_take, List.length_drop]
    omega
  rw [memcpy, readBytes_ok hsrc]
  change writeBytes dst j ((src.drop i).take n) = _
  rw [writeBytes_ok (by omega), hlen]

/-- A buffer that starts with some text starts with more of it behind a copy to its end. -/
theorem memcpy_behind {dst src text : List UInt8} {i n : Nat} (htext : dst.take text.length = text)
    (hsrc : i + n ≤ src.length) (hdst : text.length + n ≤ dst.length) :
    ∃ dst', memcpy dst text.length src i n = .ok dst' ∧ dst'.length = dst.length ∧
      dst'.take (text.length + n) = text ++ (src.drop i).take n := by
  have hlen : ((src.drop i).take n).length = n := by
    rw [List.length_take, List.length_drop]
    omega
  have htake : (text ++ (src.drop i).take n).length = text.length + n := by rw [List.length_append, hlen]
  refine ⟨_, memcpy_ok hsrc hdst, ?_, ?_⟩
  · rw [htext, List.length_append, htake, List.length_drop]
    omega
  · rw [htext, ← htake, List.take_left]

/-- The same for a single byte. -/
theorem write_behind {dst text : List UInt8} (htext : dst.take text.length = text) (hroom : text.length < dst.length)
    (b : UInt8) :
    ∃ dst', write dst text.length b = .ok dst' ∧ dst'.length = dst.length ∧
      dst'.take (text.length + 1) = text ++ [b] := by
  have htake : (text ++ [b]).length = text.length + 1 := by rw [List.length_append, List.length_singleton]
  refine ⟨_, write_ok hroom b, List.length_set, ?_⟩
  rw [List.set_eq_take_append_cons_drop, if_pos hroom, htext, List.append_cons text b (dst.drop _), ← htake,
    List.take_left]

/-- A buffer of this size with this text at its front, as writes from the front on leave it. -/
structure Starts (size : Nat) (text buffer : List UInt8) : Prop where
  length : buffer.length = size
  front : buffer.take text.length = text

namespace Starts
variable {size i n : Nat} {text buffer : List UInt8} {α : Type} {f : List UInt8 → Except Fault α}
  {r : Except Fault α}

theorem nil (h : buffer.length = size) : Starts size [] buffer := ⟨h, rfl⟩

/-- What follows a write of the next byte has one more byte at the front. -/
theorem write (h : Starts size text buffer) (hi : i = text.length) (hroom : i < size) (b : UInt8)
    (hf : ∀ next, Starts size (text ++ [b]) next → f next = r) : (CheckedMemory.write buffer i b >>= f) = r := by
  subst hi
  obtain ⟨next, hwrite, hlen, htake⟩ := write_behind h.front (h.length.symm ▸ hroom) b
  have hstarts : Starts size (text ++ [b]) next := by
    refine ⟨hlen.trans h.length, ?_⟩
    rw [List.length_append, List.length_singleton, htake]
  rw [hwrite, ok_bind, hf next hstarts]

theorem memcpy (h : Starts size text buffer) {src : List UInt8} (hi : i = text.length) (hsrc : n ≤ src.length)
    (hroom : i + n ≤ size) (hf : ∀ next, Starts size (text ++ src.take n) next → f next = r) :
    (CheckedMemory.memcpy buffer i src 0 n >>= f) = r := by
  subst hi
  have hfit : 0 + n ≤ src.length := (Nat.zero_add n).symm ▸ hsrc
  obtain ⟨next, hcopy, hlen, htake⟩ := memcpy_behind h.front hfit (h.length.symm ▸ hroom)
  rw [List.drop_zero] at htake
  have hstarts : Starts size (text ++ src.take n) next := by
    refine ⟨hlen.trans h.length, ?_⟩
    rw [List.length_append, List.length_take, Nat.min_eq_left hsrc, htake]
  rw [hcopy, ok_bind, hf next hstarts]

/-- The text is read back from the front. -/
theorem readBytes (h : Starts size text buffer) (hn : n = text.length) :
    CheckedMemory.readBytes buffer 0 n = .ok text := by
  have hle : 0 + text.length ≤ buffer.length := by
    have hlen := congrArg List.length h.front
    rw [List.length_take] at hlen
    omega
  rw [hn, readBytes_ok hle, List.drop_zero, h.front]

end Starts

theorem memcmp_ok {a b : List UInt8} {n : Nat} (ha : n ≤ a.length) (hb : n ≤ b.length) :
    memcmp a b n = .ok (compareOfLessAndEq (a.take n) (b.take n)) := by
  rw [memcmp, readBytes_ok (by omega), readBytes_ok (by omega)]
  rfl

end CheckedMemory
