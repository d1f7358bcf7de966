import Mathlib.Data.List.Basic

/-! The head of an HTTP message: lines that each end with CR LF, and an empty one behind them. -/
namespace HttpHeads

def crlf : List UInt8 := [13, 10]

def headBytes (lines : List (List UInt8)) : List UInt8 := lines.flatMap (· ++ crlf) ++ crlf

/-- The bytes up to the first CR LF and those after it. -/
def readLine : List UInt8 → Option (List UInt8 × List UInt8)
  | [] => none
  | [_] => none
  | a :: b :: rest =>
    if a = 13 ∧ b = 10 then some ([], rest) else (readLine (b :: rest)).map fun r => (a :: r.1, r.2)

/-- The lines up to an empty one, and what is behind it. A line has two bytes at least, so the length of the
message is enough for `fuel`. -/
def readHead : Nat → List UInt8 → Option (List (List UInt8) × List UInt8)
  | 0, _ => none
  | fuel+1, message =>
    match readLine message with
    | none => none
    | some (line, rest) => if line = [] then some ([], rest) else (readHead fuel rest).map fun r => (line :: r.1, r.2)

/-- `CONNECT`. -/
def method : List UInt8 := [67, 79, 78, 78, 69, 67, 84]

/-- `HTTP/1.1`. -/
def version : List UInt8 := [72, 84, 84, 80, 47, 49, 46, 49]

/-- What a request line for CONNECT names. -/
def connectTarget (line : List UInt8) : Option (List UInt8) :=
  match line.splitOn 32 with
  | [first, target, last] => if first = method ∧ last = version then some target else none
  | _ => none

theorem readLine_append {line : List UInt8} (h : 13 ∉ line) (rest : List UInt8) :
    readLine (line ++ crlf ++ rest) = some (line, rest) := by
  induction line with
  | nil => rfl
  | cons a line ih =>
    rw [List.mem_cons, not_or] at h
    have hne : ¬ (a = 13) := fun ha => h.1 ha.symm
    cases line with
    | nil => simp [readLine, crlf, hne]
    | cons b line =>
      have hrest := ih h.2
      simp only [List.cons_append] at hrest ⊢
      rw [readLine, if_neg (fun hc => hne hc.1), hrest]
      rfl

theorem readHead_headBytes {lines : List (List UInt8)} (h : ∀ line ∈ lines, line ≠ [] ∧ 13 ∉ line)
    {fuel : Nat} (hfuel : lines.length < fuel) (rest : List UInt8) :
    readHead fuel (headBytes lines ++ rest) = some (lines, rest) := by
  obtain ⟨fuel, rfl⟩ := Nat.exists_eq_succ_of_ne_zero (Nat.ne_of_gt (Nat.zero_lt_of_lt hfuel))
  induction lines generalizing fuel with
  | nil => rfl
  | cons line lines ih =>
    obtain ⟨fuel, rfl⟩ : ∃ n, fuel = n + 1 := ⟨fuel - 1, by simp only [List.length_cons] at hfuel; omega⟩
    obtain ⟨hne, hline⟩ := h line List.mem_cons_self
    have hrest := ih (fun l hl => h l (List.mem_cons_of_mem _ hl)) fuel (Nat.lt_of_succ_lt_succ hfuel)
    have happend : headBytes (line :: lines) ++ rest = line ++ crlf ++ (headBytes lines ++ rest) := by
      simp only [headBytes, List.flatMap_cons, List.append_assoc]
    rw [happend, readHead, readLine_append hline]
    simp only [hne, if_false, hrest, Option.map_some]

/-- The length of a head is fuel enough for its lines. -/
theorem length_lt_headBytes (lines : List (List UInt8)) : lines.length < (headBytes lines).length := by
  induction lines with
  | nil => decide
  | cons line lines ih =>
    have hcons : headBytes (line :: lines) = line ++ crlf ++ headBytes lines := by
      simp only [headBytes, List.flatMap_cons, List.append_assoc]
    have htwo : crlf.length = 2 := rfl
    rw [hcons, List.length_cons, List.length_append, List.length_append, htwo]
    omega

/-- A target without spaces is the one that is named. -/
theorem connectTarget_append {target : List UInt8} (h : 32 ∉ target) :
    connectTarget (method ++ 32 :: (target ++ 32 :: version)) = some target := by
  have hsplit : (method ++ 32 :: (target ++ 32 :: version)).splitOn 32 = [method, target, version] := by
    rw [List.splitOn_append_cons_self, List.splitOn_append_cons_self, List.splitOn_eq_singleton h,
      List.splitOn_eq_singleton (by decide), List.splitOn_eq_singleton (by decide)]
    rfl
  rw [connectTarget, hsplit]
  exact if_pos ⟨rfl, rfl⟩

end HttpHeads
