import ProxyBridge.Windows.Types

/-! The scratch buffer of `pb_process.c` for the owner tables: the growth of `pidtbl_reserve` and the
calls of `owner_table_fetch`, whose answers may be any sizes. -/
namespace ProxyBridge.Windows

/-- A block of the heap and its size in bytes. -/
structure Block where
  addr : UInt64
  size : Nat
  deriving DecidableEq, Repr

/-- The bytes a pointer may be written through. -/
def blockCapacity (p : Option Block) : Nat := (p.map Block.size).getD 0

/-- `g_pidtbl_buf`, NULL when absent, and `g_pidtbl_cap`, which is its size. -/
structure Scratch where
  pidtblBuf : Option Block
  pidtblCap : UInt32
  sized : blockCapacity pidtblBuf = pidtblCap.toNat

namespace Scratch

/-- `while (newcap < need)`, given up after `turns` turns. -/
def growCapacity (need : UInt32) : Nat → UInt32 → Option UInt32
  | 0, _ => none
  | turns+1, newcap =>
    if newcap < need then
      if newcap > 0xFFFFFFFF / 2 then some need else growCapacity need turns (newcap * 2)
    else some newcap

/-- After `realloc` returned `nb` for `newcap` bytes. -/
def reallocated (nb : UInt64) (newcap : UInt32) : Scratch := ⟨some ⟨nb, newcap.toNat⟩, newcap, rfl⟩

/-- The result of `realloc` is the address of a block, and absent for NULL. -/
def pidtblReserve (turns : Nat) (realloc : UInt32 → Option UInt64) (s : Scratch) (need : UInt32) :
    Option (Option Block × Scratch) :=
  if need > s.pidtblCap then
    (growCapacity need turns (if s.pidtblCap ≠ 0 then s.pidtblCap else 16384)).map fun newcap =>
      match realloc newcap with
      | none => (none, s)
      | some nb =>
        let s := reallocated nb newcap
        (s.pidtblBuf, s)
  else some (s.pidtblBuf, s)

end Scratch

/-- A call of `GetExtendedUdpTable` or of `GetExtendedTcpTable`, with the size it is told. -/
structure TableCall where
  udp : Bool
  af : UInt32
  buffer : Option Block
  size : UInt32

/-- The code it returns and the size it leaves. -/
structure TableReply where
  rc : UInt32
  size : UInt32

/-- What a fetch does to memory: a call, or a size raised with headroom. -/
inductive FetchEvent where
  | called (call : TableCall)
  | raised (size grown : UInt32)

/-- The system: the answer to a call and to a `realloc` may depend on all that was done before. -/
structure TableSystem where
  table : List FetchEvent → TableCall → TableReply
  realloc : List FetchEvent → UInt32 → Option UInt64

def noError : UInt32 := 0
def errorInsufficientBuffer : UInt32 := 122

/-- The scratch buffer and what the fetch has done so far. -/
structure Fetch where
  scratch : Scratch
  trace : List FetchEvent

section
variable (turns : Nat) (env : TableSystem) (udp : Bool) (af : UInt32)

/-- The `attempts` turns of the loop that are left. -/
def fetchAttempts : Nat → UInt32 → Fetch → Option (Option Block × Fetch)
  | 0, _, f => some (none, f)
  | attempts+1, size, f =>
    if size > 0xFFFFFFFF - size / 4 - 4096 then some (none, f)
    else
      let grown := size + (size / 4 + 4096)
      let raised := f.trace ++ [.raised size grown]
      (f.scratch.pidtblReserve turns (env.realloc raised) grown).bind fun (t, scratch) =>
        if t.isNone then some (none, ⟨scratch, raised⟩)
        else
          let call : TableCall := ⟨udp, af, t, grown⟩
          let reply := env.table raised call
          let f := ⟨scratch, raised ++ [.called call]⟩
          if reply.rc = noError then some (t, f)
          else if reply.rc ≠ errorInsufficientBuffer then some (none, f)
          else fetchAttempts attempts reply.size f

/-- `owner_table_fetch`: the table, or NULL. -/
def ownerTableFetch (s : Scratch) : Option (Option Block × Fetch) :=
  if s.pidtblBuf.isSome then
    let call : TableCall := ⟨udp, af, s.pidtblBuf, s.pidtblCap⟩
    let reply := env.table [] call
    let f : Fetch := ⟨s, [.called call]⟩
    if reply.rc = noError then some (s.pidtblBuf, f)
    else if reply.rc ≠ errorInsufficientBuffer then some (none, f)
    else fetchAttempts turns env udp af 4 reply.size f
  else
    let call : TableCall := ⟨udp, af, none, 0⟩
    let reply := env.table [] call
    let f : Fetch := ⟨s, [.called call]⟩
    if reply.rc ≠ errorInsufficientBuffer ∧ reply.rc ≠ noError then some (none, f)
    else fetchAttempts turns env udp af 4 reply.size f

end

namespace Scratch

/-- A capacity that holds `need` bytes: the number itself, or one reached from the capacity before it
by doublings that are exact. -/
structure Grown (cap need newcap : UInt32) : Prop where
  enough : need.toNat ≤ newcap.toNat
  exact : newcap = need ∨ ∃ doublings, newcap.toNat = cap.toNat <<< doublings

/-- A turn doubles below half of the range only, so that `k + 1` turns end it when `k` doublings
would leave the range. -/
private theorem growCapacity_spec (need : UInt32) (k : Nat) {cap newcap : UInt32}
    (hcap : ∃ d, newcap.toNat = cap.toNat <<< d) (hk : 2147483648 ≤ newcap.toNat <<< k) :
    ∃ r, Grown cap need r ∧ ∀ extra, growCapacity need (extra + (k + 1)) newcap = some r := by
  induction k generalizing newcap with
  | zero =>
    by_cases hlt : newcap < need
    · refine ⟨need, ⟨Nat.le_refl _, .inl rfl⟩, fun extra => ?_⟩
      have hbig : newcap > 0xFFFFFFFF / 2 := UInt32.lt_iff_toNat_lt.mpr hk
      rw [Nat.zero_add, growCapacity, if_pos hlt, if_pos hbig]
    · refine ⟨newcap, ⟨Nat.le_of_not_lt (mt UInt32.lt_iff_toNat_lt.mpr hlt), .inr hcap⟩, fun extra => ?_⟩
      rw [Nat.zero_add, growCapacity, if_neg hlt]
  | succ k ih =>
    by_cases hlt : newcap < need
    · by_cases hbig : newcap > 0xFFFFFFFF / 2
      · refine ⟨need, ⟨Nat.le_refl _, .inl rfl⟩, fun extra => ?_⟩
        rw [← Nat.add_assoc, growCapacity, if_pos hlt, if_pos hbig]
      · have hsmall : newcap.toNat ≤ (0xFFFFFFFF / 2 : UInt32).toNat :=
          Nat.le_of_not_lt (mt UInt32.lt_iff_toNat_lt.mpr hbig)
        have hdouble : (newcap * 2).toNat = 2 * newcap.toNat := by
          have hhalf : (0xFFFFFFFF / 2 : UInt32).toNat = 2147483647 := rfl
          rw [UInt32.toNat_mul, Nat.mul_comm]
          change 2 * newcap.toNat % 4294967296 = _
          omega
        obtain ⟨d, hd⟩ := hcap
        obtain ⟨r, hr, hrun⟩ := @ih (newcap * 2) ⟨d + 1, by rw [hdouble, hd, Nat.shiftLeft_succ]⟩
          (by rwa [hdouble, ← Nat.shiftLeft_succ_inside])
        refine ⟨r, hr, fun extra => ?_⟩
        rw [← Nat.add_assoc, growCapacity, if_pos hlt, if_neg hbig]
        exact hrun extra
    · refine ⟨newcap, ⟨Nat.le_of_not_lt (mt UInt32.lt_iff_toNat_lt.mpr hlt), .inr hcap⟩, fun extra => ?_⟩
      rw [← Nat.add_assoc, growCapacity, if_neg hlt]

/-- The doubling ends within 32 turns, whatever the capacity and the size. -/
theorem growCapacity_ends (need cap : UInt32) (h : cap ≠ 0) :
    ∃ r, Grown cap need r ∧ ∀ extra, growCapacity need (extra + 32) cap = some r := by
  have hpos : 1 ≤ cap.toNat := by
    rw [Nat.one_le_iff_ne_zero]
    exact fun hz => h (UInt32.toNat_inj.mp hz)
  refine growCapacity_spec need 31 ⟨0, rfl⟩ ?_
  rw [Nat.shiftLeft_eq]
  omega

variable (extra : Nat) (realloc : UInt32 → Option UInt64) (s : Scratch) (need : UInt32)

/-- A reservation keeps a buffer that is large enough, and else asks for an exact capacity and changes
nothing unless it gets it. -/
theorem pidtblReserve_eq :
    ∃ newcap, Grown (if s.pidtblCap ≠ 0 then s.pidtblCap else 16384) need newcap ∧
      s.pidtblReserve (extra + 32) realloc need = some (
        if need ≤ s.pidtblCap then (s.pidtblBuf, s)
        else (realloc newcap).elim (none, s) fun nb =>
          ((reallocated nb newcap).pidtblBuf, reallocated nb newcap)) := by
  obtain ⟨newcap, hgrown, hrun⟩ :=
    growCapacity_ends need (if s.pidtblCap ≠ 0 then s.pidtblCap else 16384) (by split <;> simp_all)
  refine ⟨newcap, hgrown, ?_⟩
  rw [pidtblReserve, hrun]
  by_cases hle : need ≤ s.pidtblCap
  · rw [if_neg (UInt32.not_lt.mpr hle), if_pos hle]
  · rw [if_pos (UInt32.not_le.mp hle), if_neg hle, Option.map_some]
    cases realloc newcap with
    | none => rfl
    | some nb => rfl

/-- What is handed out holds the bytes that were asked for. -/
theorem pidtblReserve_capacity :
    ∃ t s', s.pidtblReserve (extra + 32) realloc need = some (t, s') ∧
      (t.isNone = false → need.toNat ≤ blockCapacity t) := by
  obtain ⟨newcap, hgrown, hrun⟩ := pidtblReserve_eq extra realloc s need
  by_cases hle : need ≤ s.pidtblCap
  · rw [if_pos hle] at hrun
    refine ⟨_, _, hrun, fun _ => ?_⟩
    rw [s.sized]
    exact UInt32.le_iff_toNat_le.mp hle
  · rw [if_neg hle] at hrun
    cases hr : realloc newcap with
    | none =>
      rw [hr] at hrun
      refine ⟨_, _, hrun, ?_⟩
      intro ht
      cases ht
    | some nb =>
      rw [hr] at hrun
      exact ⟨_, _, hrun, fun _ => hgrown.enough⟩

end Scratch

/-- A call is told no more than its buffer holds, and headroom is added without wrapping. -/
def FetchEvent.Safe : FetchEvent → Prop
  | called call => call.size.toNat ≤ blockCapacity call.buffer
  | raised size grown => grown.toNat = size.toNat + size.toNat / 4 + 4096

/-- Below the bound that the loop tests, adding the headroom is exact. -/
private theorem headroom_exact {size : UInt32} (h : ¬size > 0xFFFFFFFF - size / 4 - 4096) :
    (size + (size / 4 + 4096)).toNat = size.toNat + size.toNat / 4 + 4096 := by
  have hs := size.toNat_lt
  have hle : size.toNat ≤ (0xFFFFFFFF - size / 4 - 4096).toNat :=
    Nat.le_of_not_lt (mt UInt32.lt_iff_toNat_lt.mpr h)
  have hquarter : (size / 4).toNat = size.toNat / 4 := UInt32.toNat_div ..
  have h1 : (0xFFFFFFFF - size / 4).toNat = 4294967295 - size.toNat / 4 := by
    have hle : size / 4 ≤ 0xFFFFFFFF := UInt32.le_iff_toNat_le.mpr (by rw [hquarter]; change _ ≤ 4294967295; omega)
    rw [UInt32.toNat_sub_of_le _ _ hle, hquarter]
    rfl
  have h2 : (0xFFFFFFFF - size / 4 - 4096).toNat = 4294967295 - size.toNat / 4 - 4096 := by
    have hle : 4096 ≤ 0xFFFFFFFF - size / 4 := UInt32.le_iff_toNat_le.mpr (by rw [h1]; change 4096 ≤ _; omega)
    rw [UInt32.toNat_sub_of_le _ _ hle, h1]
    rfl
  rw [h2] at hle
  rw [UInt32.toNat_add, UInt32.toNat_add, hquarter]
  change (size.toNat + (size.toNat / 4 + 4096) % 4294967296) % 4294967296 = _
  omega

section
variable (extra : Nat) (env : TableSystem) (udp : Bool) (af : UInt32)

private theorem fetchAttempts_safe (attempts : Nat) (size : UInt32) (f : Fetch) (hf : ∀ e ∈ f.trace, e.Safe) :
    ∃ t f', fetchAttempts (extra + 32) env udp af attempts size f = some (t, f') ∧ ∀ e ∈ f'.trace, e.Safe := by
  induction attempts generalizing size f with
  | zero => exact ⟨none, f, rfl, hf⟩
  | succ attempts ih =>
    rw [fetchAttempts]
    by_cases hover : size > 0xFFFFFFFF - size / 4 - 4096
    · exact ⟨none, f, if_pos hover, hf⟩
    · rw [if_neg hover]
      have hraised : ∀ e ∈ f.trace ++ [.raised size (size + (size / 4 + 4096))], e.Safe := by
        rw [List.forall_mem_append]
        exact ⟨hf, List.forall_mem_singleton.mpr (headroom_exact hover)⟩
      obtain ⟨t, s', hrun, hcap⟩ := f.scratch.pidtblReserve_capacity extra
        (env.realloc (f.trace ++ [.raised size (size + (size / 4 + 4096))])) (size + (size / 4 + 4096))
      simp only [hrun, Option.bind_some]
      by_cases ht : t.isNone = true
      · exact ⟨none, _, if_pos ht, hraised⟩
      · have hcalled : ∀ e ∈ f.trace ++ [.raised size (size + (size / 4 + 4096))] ++
            [.called ⟨udp, af, t, size + (size / 4 + 4096)⟩], e.Safe := by
          rw [List.forall_mem_append]
          exact ⟨hraised, List.forall_mem_singleton.mpr (hcap ((Bool.not_eq_true _).mp ht))⟩
        rw [if_neg ht]
        split
        · exact ⟨t, _, rfl, hcalled⟩
        · split
          · exact ⟨none, _, rfl, hcalled⟩
          · exact ih _ _ hcalled

theorem ownerTableFetch_safe (s : Scratch) :
    ∃ t f', ownerTableFetch (extra + 32) env udp af s = some (t, f') ∧ ∀ e ∈ f'.trace, e.Safe := by
  rw [ownerTableFetch]
  split
  · have hcalled : ∀ e ∈ [FetchEvent.called ⟨udp, af, s.pidtblBuf, s.pidtblCap⟩], e.Safe :=
      List.forall_mem_singleton.mpr (Nat.le_of_eq s.sized.symm)
    simp only []
    split
    · exact ⟨_, _, rfl, hcalled⟩
    · split
      · exact ⟨_, _, rfl, hcalled⟩
      · exact fetchAttempts_safe extra env udp af 4 _ _ hcalled
  · have hcalled : ∀ e ∈ [FetchEvent.called ⟨udp, af, none, 0⟩], e.Safe :=
      List.forall_mem_singleton.mpr (Nat.le_refl 0)
    simp only []
    split
    · exact ⟨_, _, rfl, hcalled⟩
    · exact fetchAttempts_safe extra env udp af 4 _ _ hcalled

end

/-- For all capacities, sizes and answers of the system: the reservation ends with an exact capacity
that is enough or with nothing changed, and the fetch ends having made safe calls only. -/
theorem reserve_and_fetch_stay_in_range (extra : Nat) (s : Scratch) (need : UInt32)
    (realloc : UInt32 → Option UInt64) (env : TableSystem) (udp : Bool) (af : UInt32) :
    (∃ newcap, Scratch.Grown (if s.pidtblCap ≠ 0 then s.pidtblCap else 16384) need newcap ∧
      s.pidtblReserve (extra + 32) realloc need = some (
        if need ≤ s.pidtblCap then (s.pidtblBuf, s)
        else (realloc newcap).elim (none, s) fun nb =>
          ((Scratch.reallocated nb newcap).pidtblBuf, Scratch.reallocated nb newcap))) ∧
    ∃ t f', ownerTableFetch (extra + 32) env udp af s = some (t, f') ∧ ∀ e ∈ f'.trace, e.Safe :=
  ⟨s.pidtblReserve_eq extra realloc need, ownerTableFetch_safe extra env udp af s⟩

end ProxyBridge.Windows
