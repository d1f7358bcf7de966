import ProxyBridge.Windows.PidCache

/-! The owner tables of the system, which list for each bound socket its address, its port and the
process that owns it, and the two lookups of `pb_process.c` that scan the UDP ones. -/
namespace ProxyBridge.Windows

def ntohs (n : UInt16) : UInt16 := n <<< 8 ||| n >>> 8

/-- A row of a table, with the port in network order in its low half; no process has identifier 0. -/
structure OwnerRow (α : Type) where
  localAddr : α
  localPort : UInt32
  owningPid : UInt32

namespace OwnerRow
variable {α : Type} [BEq α]

def port (r : OwnerRow α) : UInt16 := ntohs r.localPort.toUInt16

def boundTo (addr : α) (port : UInt16) (r : OwnerRow α) : Bool := r.localAddr == addr && r.port == port

/-- The owner in the first row that passes a test, and 0 if there is none. -/
def firstOwner (rows : List (OwnerRow α)) (p : OwnerRow α → Bool) : UInt32 :=
  ((rows.find? p).map (·.owningPid)).getD 0

end OwnerRow

open OwnerRow

namespace OwnerCaches

def getCachedPid (s : OwnerCaches) (currentTime : UInt64) (srcIp : UInt32) (srcPort : UInt16) (isUdp : Bool) :
    UInt32 :=
  match s.pids.links.search (fun a => (s.pids.node a).isFor srcIp srcPort isUdp) s.pids.live.card
      (s.pids.links.head (pidCacheHash srcIp srcPort isUdp)) with
  | none => 0
  | some entry =>
    if currentTime - (s.pids.node entry).timestamp < pidCacheTtlMs then (s.pids.node entry).pid else 0

/-- The table is what `owner_table_fetch` returns; `now` is read by the cache lookup and `later` when
the result is cached. -/
def getProcessIdFromUdpConnection (s : OwnerCaches) (now later : UInt64) (alloc : Option Addr)
    (udpTable : Option (List (OwnerRow UInt32))) (srcIp : UInt32) (srcPort : UInt16) : UInt32 × OwnerCaches :=
  let cachedPid := s.getCachedPid now srcIp srcPort true
  if cachedPid != 0 then (cachedPid, s)
  else
    match udpTable with
    | none => (0, s)
    | some rows =>
      let pid := firstOwner rows (boundTo srcIp srcPort)
      let pid := if pid == 0 then firstOwner rows (boundTo 0 srcPort) else pid
      (pid, if pid != 0 then s.cachePid later alloc srcIp srcPort pid true else s)

end OwnerCaches

def getProcessIdFromUdpConnectionV6 (udpTable : Option (List (OwnerRow Ip6))) (srcIp6 : Ip6) (srcPort : UInt16) :
    UInt32 :=
  match udpTable with
  | none => 0
  | some rows => firstOwner rows (fun r => r.port == srcPort && (r.localAddr == srcIp6 || r.localAddr == .zero))

namespace OwnerRow
variable {α : Type} [BEq α]

/-- Some process owns a socket that is bound to exactly this address and port. -/
def Owned (rows : List (OwnerRow α)) (addr : α) (port : UInt16) : Prop :=
  ∃ r ∈ rows, r.boundTo addr port = true ∧ r.owningPid ≠ 0

/-- The process owns such a socket. -/
def OwnedBy (rows : List (OwnerRow α)) (addr : α) (port : UInt16) (pid : UInt32) : Prop :=
  ∃ r ∈ rows, r.boundTo addr port = true ∧ r.owningPid ≠ 0 ∧ r.owningPid = pid

/-- The answer of a lookup in which an exact binding takes precedence over a wildcard one. -/
def ExactBeforeWildcard (rows : List (OwnerRow α)) (addr unspecified : α) (port : UInt16) (pid : UInt32) : Prop :=
  (Owned rows addr port → OwnedBy rows addr port pid) ∧
  (¬ Owned rows addr port → Owned rows unspecified port → OwnedBy rows unspecified port pid) ∧
  (¬ Owned rows addr port → ¬ Owned rows unspecified port → pid = 0)

/-- The first row that passes a test has an owner. -/
def FirstOwned (rows : List (OwnerRow α)) (p : OwnerRow α → Bool) : Prop :=
  ∃ r, rows.find? p = some r ∧ r.owningPid ≠ 0

/-- No unowned row stands in front of the owned ones of its kind; an unowned exact row may, if the
first wildcard row has the owner of an exact one. -/
def NoneHidden (rows : List (OwnerRow α)) (addr unspecified : α) (port : UInt16) : Prop :=
  (Owned rows addr port → FirstOwned rows (boundTo addr port) ∨
    ∃ w, rows.find? (boundTo unspecified port) = some w ∧ OwnedBy rows addr port w.owningPid) ∧
  (¬ Owned rows addr port → Owned rows unspecified port → FirstOwned rows (boundTo unspecified port))

/-- No unowned and no wildcard row stands in front of the owned exact ones, or without such a row no unowned
one in front of the owned wildcard ones; a wildcard row may, if its process owns an exact one too. -/
def ExactFirst (rows : List (OwnerRow α)) (addr unspecified : α) (port : UInt16) : Prop :=
  Owned rows addr port ∨ Owned rows unspecified port →
  ∃ r, rows.find? (fun r => r.boundTo addr port || r.boundTo unspecified port) = some r ∧ r.owningPid ≠ 0 ∧
    (Owned rows addr port → OwnedBy rows addr port r.owningPid)

variable {rows : List (OwnerRow α)} {addr unspecified : α} {port : UInt16} {p : OwnerRow α → Bool}

theorem Owned.of_ownedBy {pid : UInt32} (h : OwnedBy rows addr port pid) : Owned rows addr port := by
  obtain ⟨r, hr, hb, hne, _⟩ := h
  exact ⟨r, hr, hb, hne⟩

theorem OwnedBy.ne_zero {pid : UInt32} (h : OwnedBy rows addr port pid) : pid ≠ 0 := by
  obtain ⟨r, _, _, hne, rfl⟩ := h
  exact hne

theorem ownedBy_of_find {r : OwnerRow α} (h : rows.find? (boundTo addr port) = some r) (hne : r.owningPid ≠ 0) :
    OwnedBy rows addr port r.owningPid :=
  ⟨r, List.mem_of_find?_eq_some h, List.find?_some h, hne, rfl⟩

omit [BEq α] in
theorem firstOwner_of_find {r : OwnerRow α} (h : rows.find? p = some r) : firstOwner rows p = r.owningPid := by
  rw [firstOwner, h]
  rfl

omit [BEq α] in
theorem firstOwner_ne_zero_iff : firstOwner rows p ≠ 0 ↔ FirstOwned rows p := by
  unfold firstOwner FirstOwned
  cases rows.find? p <;> simp

theorem FirstOwned.owned (h : FirstOwned rows (boundTo addr port)) : Owned rows addr port := by
  obtain ⟨r, hr, hne⟩ := h
  exact .of_ownedBy (ownedBy_of_find hr hne)

/-- The result of a scan for one kind of row. -/
theorem ownedBy_firstOwner_iff :
    OwnedBy rows addr port (firstOwner rows p) ↔ ∃ w, rows.find? p = some w ∧ OwnedBy rows addr port w.owningPid := by
  constructor
  · intro h
    obtain ⟨w, hw, _⟩ := firstOwner_ne_zero_iff.mp h.ne_zero
    exact ⟨w, hw, firstOwner_of_find hw ▸ h⟩
  · rintro ⟨w, hw, h⟩
    exact (firstOwner_of_find hw).symm ▸ h

theorem ownedBy_firstOwner_self_iff :
    OwnedBy rows addr port (firstOwner rows (boundTo addr port)) ↔ FirstOwned rows (boundTo addr port) := by
  rw [ownedBy_firstOwner_iff]
  constructor
  · rintro ⟨w, hw, h⟩
    exact ⟨w, hw, h.ne_zero⟩
  · rintro ⟨w, hw, hne⟩
    exact ⟨w, hw, ownedBy_of_find hw hne⟩

theorem exactBeforeWildcard_two_scans :
    ExactBeforeWildcard rows addr unspecified port
      (if firstOwner rows (boundTo addr port) == 0 then firstOwner rows (boundTo unspecified port)
        else firstOwner rows (boundTo addr port)) ↔ NoneHidden rows addr unspecified port := by
  by_cases hfirst : FirstOwned rows (boundTo addr port)
  · have hne := firstOwner_ne_zero_iff.mpr hfirst
    have howned := hfirst.owned
    rw [if_neg (by simpa using hne)]
    exact ⟨fun _ => ⟨fun _ => .inl hfirst, fun h => absurd howned h⟩,
      fun _ => ⟨fun _ => ownedBy_firstOwner_self_iff.mpr hfirst, fun h => absurd howned h, fun h => absurd howned h⟩⟩
  · have hzero : firstOwner rows (boundTo addr port) = 0 := by
      by_contra hne
      exact hfirst (firstOwner_ne_zero_iff.mp hne)
    have hunowned : ¬ Owned rows unspecified port → firstOwner rows (boundTo unspecified port) = 0 := by
      intro h
      by_contra hne
      exact h (firstOwner_ne_zero_iff.mp hne).owned
    rw [if_pos (by simpa using hzero)]
    have hwild : OwnedBy rows addr port (firstOwner rows (boundTo unspecified port)) ↔ _ := ownedBy_firstOwner_iff
    simp only [ExactBeforeWildcard, NoneHidden, hfirst, false_or, hwild, ownedBy_firstOwner_self_iff]
    exact and_congr_right fun _ => and_iff_left fun _ => hunowned

theorem exactBeforeWildcard_one_scan :
    ExactBeforeWildcard rows addr unspecified port
      (firstOwner rows (fun r => r.boundTo addr port || r.boundTo unspecified port)) ↔
      ExactFirst rows addr unspecified port := by
  have hkind : ∀ r, rows.find? (fun r => r.boundTo addr port || r.boundTo unspecified port) = some r →
      r.owningPid ≠ 0 → OwnedBy rows addr port r.owningPid ∨ OwnedBy rows unspecified port r.owningPid := by
    intro r hr hne
    have hmem := List.mem_of_find?_eq_some hr
    have heither := List.find?_some hr
    rcases Bool.or_eq_true_iff.mp heither with hb | hb
    · exact .inl ⟨r, hmem, hb, hne, rfl⟩
    · exact .inr ⟨r, hmem, hb, hne, rfl⟩
  constructor
  · rintro ⟨hexact, hwild, _⟩ howned
    have hne : firstOwner rows (fun r => r.boundTo addr port || r.boundTo unspecified port) ≠ 0 := by
      by_cases he : Owned rows addr port
      · exact (hexact he).ne_zero
      · exact (hwild he (howned.resolve_left he)).ne_zero
    obtain ⟨r, hr, hpid⟩ := firstOwner_ne_zero_iff.mp hne
    exact ⟨r, hr, hpid, firstOwner_of_find hr ▸ hexact⟩
  · intro h
    refine ⟨fun he => ?_, fun he hw => ?_, fun he hw => ?_⟩
    · obtain ⟨r, hr, _, hexact⟩ := h (.inl he)
      exact firstOwner_of_find hr ▸ hexact he
    · obtain ⟨r, hr, hne, _⟩ := h (.inr hw)
      rw [firstOwner_of_find hr]
      exact (hkind r hr hne).resolve_left (fun hb => he (.of_ownedBy hb))
    · by_contra hne
      obtain ⟨r, hr, hpid⟩ := firstOwner_ne_zero_iff.mp hne
      exact (hkind r hr hpid).elim (fun hb => he (.of_ownedBy hb)) (fun hb => hw (.of_ownedBy hb))

end OwnerRow

/-- The lookups of UDP owners find an exact binding before a wildcard one if and only if no row in
front of the one that is due hides it: an unowned row of its kind for IPv4, and a wildcard row or
an unowned one for IPv6. -/
theorem udp_owner_lookups_iff (s : OwnerCaches) (now later : UInt64) (alloc : Option Addr)
    (rows : List (OwnerRow UInt32)) (rows6 : List (OwnerRow Ip6)) (srcIp : UInt32) (srcIp6 : Ip6) (srcPort : UInt16)
    (hmiss : s.getCachedPid now srcIp srcPort true = 0) :
    (ExactBeforeWildcard rows srcIp 0 srcPort
      (s.getProcessIdFromUdpConnection now later alloc (some rows) srcIp srcPort).1 ↔
        NoneHidden rows srcIp 0 srcPort) ∧
    (ExactBeforeWildcard rows6 srcIp6 .zero srcPort (getProcessIdFromUdpConnectionV6 (some rows6) srcIp6 srcPort) ↔
      ExactFirst rows6 srcIp6 .zero srcPort) := by
  constructor
  · have hpid : (s.getProcessIdFromUdpConnection now later alloc (some rows) srcIp srcPort).1 =
        if firstOwner rows (boundTo srcIp srcPort) == 0 then firstOwner rows (boundTo 0 srcPort)
          else firstOwner rows (boundTo srcIp srcPort) := by
      rw [OwnerCaches.getProcessIdFromUdpConnection, hmiss]
      rfl
    rw [hpid]
    exact exactBeforeWildcard_two_scans
  · have htest : (fun r : OwnerRow Ip6 => r.port == srcPort && (r.localAddr == srcIp6 || r.localAddr == .zero)) =
        fun r => r.boundTo srcIp6 srcPort || r.boundTo .zero srcPort := by
      funext r
      rw [boundTo, boundTo, ← Bool.and_or_distrib_right, Bool.and_comm]
    rw [getProcessIdFromUdpConnectionV6, htest]
    exact exactBeforeWildcard_one_scan

theorem udp_owner_lookups_iff_at :
    ExactBeforeWildcard [⟨0, 0x3500, 7⟩, ⟨5, 0x3500, 9⟩] (5 : UInt32) 0 53
      (OwnerCaches.empty.getProcessIdFromUdpConnection 0 0 none (some [⟨0, 0x3500, 7⟩, ⟨5, 0x3500, 9⟩]) 5 53).1 := by
  refine (udp_owner_lookups_iff .empty 0 0 none [⟨0, 0x3500, 7⟩, ⟨5, 0x3500, 9⟩] [] 5 .zero 53 (by decide)).1.mpr ?_
  exact ⟨fun _ => .inl ⟨⟨5, 0x3500, 9⟩, rfl, by decide⟩,
    fun h => absurd ⟨⟨5, 0x3500, 9⟩, by simp, by decide, by decide⟩ h⟩

/-- A wildcard socket that the system lists in front of the exact one is taken for the owner. -/
theorem udp_owner_lookup_v6_wildcard_first :
    let source : Ip6 := Vector.replicate 16 1
    let rows : List (OwnerRow Ip6) := [⟨.zero, 0x3500, 7⟩, ⟨source, 0x3500, 9⟩]
    ¬ ExactBeforeWildcard rows source .zero 53 (getProcessIdFromUdpConnectionV6 (some rows) source 53) := by
  rintro source rows ⟨hexact, _⟩
  obtain ⟨r, hr, hb, _, hpid⟩ := hexact ⟨⟨source, 0x3500, 9⟩, by simp [rows], by decide, by decide⟩
  have hwild : getProcessIdFromUdpConnectionV6 (some rows) source 53 = 7 := by decide
  rw [hwild] at hpid
  rcases List.mem_cons.mp hr with rfl | hr
  · exact absurd hb (by decide)
  · obtain rfl := List.mem_singleton.mp hr
    exact absurd hpid (by decide)

end ProxyBridge.Windows
