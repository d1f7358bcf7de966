import ProxyBridge.Windows.AddressLiterals
import ProxyBridge.Windows.ProxyConfig
import ProxyBridge.Windows.UdpAssociations

/-! The store of proxy configurations under its API: what is kept of every addition and edit, with a
resolver that may answer each lookup differently. -/
namespace ProxyBridge.Windows
open CStrings

/-- A slot of `g_proxy_configs`. -/
structure ProxySlot extends ProxyConfig where
  sendDomainToProxy : Bool
  udpTcpCtrl : Option Nat
  udpSendSock : Option Nat

/-- After `memset`, with the sockets set to `INVALID_SOCKET`. -/
def ProxySlot.zeroed : ProxySlot := ⟨⟨0, .http, [], 0, 0, false, 0, 0⟩, false, none, none⟩

/-- `getaddrinfo`, as it answers one lookup. -/
abbrev Resolver := List UInt8 → Option (Option AddrInfo)

/-- What a caller gives for a configuration. A string is absent for NULL. -/
structure ProxyArgs where
  type : UInt32
  proxyIp : Option (List UInt8)
  proxyPort : UInt16
  username : Option (List UInt8)
  password : Option (List UInt8)
  sendDomainToProxy : Bool

namespace ProxyArgs

def host (a : ProxyArgs) : List UInt8 := a.proxyIp.getD []

/-- The tests of the arguments that come first. -/
def rejected (a : ProxyArgs) : Bool :=
  a.host.isEmpty || a.proxyPort == 0 || !(a.username.getD []).isEmpty || !(a.password.getD []).isEmpty

def proxyType (a : ProxyArgs) : ProxyType := if a.type = 0 then .http else .socks5

end ProxyArgs

structure ProxyStore where
  configs : Nat → ProxySlot
  count : Nat
  nextConfigId : UInt32

namespace ProxyStore

def init : ProxyStore := ⟨fun _ => .zeroed, 0, 1⟩

/-- The slot that the loops over the store find for an identifier. -/
def find (s : ProxyStore) (configId : UInt32) : Option Nat :=
  (List.range s.count).find? (fun i => (s.configs i).configId == configId)

def findProxyConfig (s : ProxyStore) (configId : UInt32) : Option ProxySlot :=
  match s.find configId with
  | some i => some (s.configs i)
  | none => if s.count > 0 then some (s.configs 0) else none

section
variable (S : UnsignedScan)

/-- The host is resolved twice, once to check it and once to keep the address. -/
def addProxyConfig (s : ProxyStore) (a : ProxyArgs) (check keep : Resolver) : UInt32 × ProxyStore :=
  if a.rejected then (0, s)
  else if resolveHostname S check a.proxyIp = 0 then (0, s)
  else if s.count ≥ maxProxyConfigs then (0, s)
  else
    let cfg : ProxySlot := { ProxySlot.zeroed with
      configId := s.nextConfigId
      type := a.proxyType
      port := a.proxyPort
      sendDomainToProxy := a.sendDomainToProxy
      host := strncpyTruncate 256 a.host
      resolvedIp := resolveHostname S keep a.proxyIp }
    (s.nextConfigId, ⟨Function.update s.configs s.count cfg, s.count + 1, s.nextConfigId + 1⟩)

def editProxyConfig (s : ProxyStore) (configId : UInt32) (a : ProxyArgs) (check : Resolver) : UInt32 × ProxyStore :=
  if a.rejected then (0, s)
  else
    let resolved := resolveHostname S check a.proxyIp
    if resolved = 0 then (0, s)
    else
      match s.find configId with
      | none => (0, s)
      | some i =>
        let cfg : ProxySlot := { s.configs i with
          udpTcpCtrl := none
          udpSendSock := none
          udpConnected := false
          type := a.proxyType
          port := a.proxyPort
          sendDomainToProxy := a.sendDomainToProxy
          host := strncpyTruncate 256 a.host
          resolvedIp := resolved }
        (1, { s with configs := Function.update s.configs i cfg })

/-- `memmove` shifts the slots behind the deleted one; the one that was last stays where it was too. -/
def deleteProxyConfig (s : ProxyStore) (configId : UInt32) : UInt32 × ProxyStore :=
  match s.find configId with
  | none => (0, s)
  | some i =>
    let remaining := s.count - i - 1
    let moved (j : Nat) := if i ≤ j ∧ j < i + remaining then s.configs (j + 1) else s.configs j
    (1, { s with configs := moved, count := s.count - 1 })

end

end ProxyStore

inductive ProxyCall where
  | add (a : ProxyArgs) (check keep : Resolver)
  | edit (configId : UInt32) (a : ProxyArgs) (check : Resolver)
  | delete (configId : UInt32)

namespace ProxyCall

def host : ProxyCall → List UInt8
  | add a _ _ => a.host
  | edit _ a _ => a.host
  | delete _ => []

def isAdd : ProxyCall → Bool
  | add .. => true
  | _ => false

end ProxyCall

/-- What a configuration is asked to be, with the address that was found for its host. -/
structure ProxyData where
  type : ProxyType
  host : List UInt8
  port : UInt16
  sendDomainToProxy : Bool
  resolvedIp : UInt32
  deriving DecidableEq

def ProxySlot.data (c : ProxySlot) : ProxyData := ⟨c.type, c.host, c.port, c.sendDomainToProxy, c.resolvedIp⟩

def ProxyArgs.data (a : ProxyArgs) (ip : UInt32) : ProxyData :=
  ⟨a.proxyType, a.host, a.proxyPort, a.sendDomainToProxy, ip⟩

namespace ProxyStore
variable (S : UnsignedScan)

/-- The answer of a call, 0 or FALSE where it fails, and the store behind it. -/
def apply (s : ProxyStore) : ProxyCall → UInt32 × ProxyStore
  | .add a check keep => s.addProxyConfig S a check keep
  | .edit configId a check => s.editProxyConfig S configId a check
  | .delete configId => s.deleteProxyConfig configId

/-- The identifier and the data that a successful call puts in the store. -/
def put (s : ProxyStore) (call : ProxyCall) : Option (UInt32 × ProxyData) :=
  if (s.apply S call).1 = 0 then none
  else
    match call with
    | .add a _ keep => some ((s.apply S call).1, a.data (resolveHostname S keep a.proxyIp))
    | .edit configId a check => some (configId, a.data (resolveHostname S check a.proxyIp))
    | .delete _ => none

def run (s : ProxyStore) (calls : List ProxyCall) : ProxyStore := calls.foldl (fun s call => (s.apply S call).2) s

/-- All that was put in the store, in order. -/
def puts : ProxyStore → List ProxyCall → List (UInt32 × ProxyData)
  | _, [] => []
  | s, call :: calls => (s.put S call).toList ++ ((s.apply S call).2).puts calls

/-- The configurations in order. -/
def entries (s : ProxyStore) : List ProxySlot := (List.range s.count).map s.configs

/-- What was put last under an identifier. -/
def lastPut (puts : List (UInt32 × ProxyData)) (configId : UInt32) : Option ProxyData :=
  ((puts.filter (fun x => x.1 == configId)).getLast?).map (·.2)

/-- What is wanted of a store after some calls. -/
structure Sound (s : ProxyStore) (puts : List (UInt32 × ProxyData)) : Prop where
  bounded : s.count ≤ maxProxyConfigs
  named : ∀ c ∈ s.entries, c.configId ≠ 0
  increasing : s.entries.Pairwise (fun c d => c.configId < d.configId)
  hosts : ∀ c ∈ s.entries, c.host ≠ []
  ports : ∀ c ∈ s.entries, c.port ≠ 0
  resolved : ∀ c ∈ s.entries, c.resolvedIp ≠ 0
  found : ∀ c ∈ s.entries, (s.findProxyConfig c.configId).map ProxySlot.data = lastPut puts c.configId

/-- What is wanted of a call: a deletion takes out the one configuration, in place, and a failure changes
nothing. -/
structure CallSound (s : ProxyStore) (call : ProxyCall) : Prop where
  deleted (configId : UInt32) : call = .delete configId →
    (s.apply S call).2.entries = s.entries.filter (fun c => c.configId != configId)
  failed : (s.apply S call).1 = 0 → (s.apply S call).2 = s

/-- An addition that the store accepts gets an address from the second lookup. -/
def Answered (s : ProxyStore) : ProxyCall → Prop
  | .add a check keep =>
    a.rejected = false → resolveHostname S check a.proxyIp ≠ 0 → s.count < maxProxyConfigs →
      resolveHostname S keep a.proxyIp ≠ 0
  | _ => True

end ProxyStore

namespace ProxyStore
variable {S : UnsignedScan} {s : ProxyStore}

theorem find_eq_some {configId : UInt32} {i : Nat} (h : s.find configId = some i) :
    i < s.count ∧ (s.configs i).configId = configId := by
  have hid := List.find?_some (p := fun i => (s.configs i).configId == configId) h
  exact ⟨List.mem_range.mp (List.mem_of_find?_eq_some h), beq_iff_eq.mp hid⟩

theorem find_eq_none {configId : UInt32} (h : s.find configId = none) :
    ∀ i < s.count, (s.configs i).configId ≠ configId := by
  intro i hi he
  exact List.find?_eq_none.mp h i (List.mem_range.mpr hi) (beq_iff_eq.mpr he)

theorem mem_entries {c : ProxySlot} : c ∈ s.entries ↔ ∃ i < s.count, s.configs i = c := by
  simp [entries]

/-- The list of configurations that routing reads is the one of the store. -/
theorem findProxyConfig_entries (s : ProxyStore) (configId : UInt32) :
    (s.findProxyConfig configId).map ProxySlot.toProxyConfig =
      Windows.findProxyConfig (s.entries.map ProxySlot.toProxyConfig) configId := by
  have hfind : (s.entries.map ProxySlot.toProxyConfig).find? (fun c => c.configId == configId) =
      (s.find configId).map (fun i => (s.configs i).toProxyConfig) := by
    rw [entries, List.map_map, List.find?_map]
    rfl
  rw [findProxyConfig, Windows.findProxyConfig, hfind]
  cases s.find configId with
  | some i => rfl
  | none =>
    rw [entries, List.map_map, List.head?_map, List.head?_range]
    by_cases hc : s.count = 0
    · simp [hc]
    · rw [if_pos (Nat.pos_of_ne_zero hc), if_neg hc]
      rfl

private theorem lastPut_append (puts : List (UInt32 × ProxyData)) (x : UInt32 × ProxyData) (configId : UInt32) :
    lastPut (puts ++ [x]) configId = if x.1 = configId then some x.2 else lastPut puts configId := by
  rw [lastPut, List.filter_append, List.filter_cons, List.filter_nil]
  by_cases hx : x.1 = configId
  · rw [if_pos (beq_iff_eq.mpr hx), if_pos hx, List.getLast?_concat]
    rfl
  · rw [if_neg (mt beq_iff_eq.mp hx), if_neg hx, List.append_nil]
    rfl

/-- What every run keeps of a configuration, whatever the resolver answers. -/
structure SlotKept (next : UInt32) (puts : List (UInt32 × ProxyData)) (c : ProxySlot) : Prop where
  idPos : 0 < c.configId.toNat
  idLt : c.configId.toNat < next.toNat
  host : c.host ≠ []
  port : c.port ≠ 0
  last : lastPut puts c.configId = some c.data

private theorem SlotKept.put {next next' : UInt32} {puts : List (UInt32 × ProxyData)} {c : ProxySlot}
    (h : SlotKept next puts c) (hle : next.toNat ≤ next'.toNat) {x : UInt32 × ProxyData} (hx : x.1 ≠ c.configId) :
    SlotKept next' (puts ++ [x]) c :=
  ⟨h.idPos, Nat.lt_of_lt_of_le h.idLt hle, h.host, h.port, by rw [lastPut_append, if_neg hx, h.last]⟩

/-- What every run keeps of the store. `adds` bounds the additions so far. -/
structure Kept (s : ProxyStore) (adds : Nat) (puts : List (UInt32 × ProxyData)) : Prop where
  bounded : s.count ≤ maxProxyConfigs
  nextPos : 0 < s.nextConfigId.toNat
  nextLe : s.nextConfigId.toNat ≤ adds + 1
  slots : ∀ i < s.count, SlotKept s.nextConfigId puts (s.configs i)
  increasing : ∀ i j, i < j → j < s.count → (s.configs i).configId.toNat < (s.configs j).configId.toNat

namespace Kept
variable {adds : Nat} {puts : List (UInt32 × ProxyData)}

theorem init : Kept .init 0 [] where
  bounded := Nat.zero_le _
  nextPos := Nat.le_refl 1
  nextLe := Nat.le_refl 1
  slots i hi := absurd hi (Nat.not_lt_zero i)
  increasing _ j _ hj := absurd hj (Nat.not_lt_zero j)

theorem id_inj (h : s.Kept adds puts) {i j : Nat} (hi : i < s.count) (hj : j < s.count)
    (he : (s.configs i).configId = (s.configs j).configId) : i = j := by
  have hnat := congrArg UInt32.toNat he
  rcases Nat.lt_trichotomy i j with hlt | heq | hgt
  · exact absurd hnat (Nat.ne_of_lt (h.increasing i j hlt hj))
  · exact heq
  · exact absurd hnat.symm (Nat.ne_of_lt (h.increasing j i hgt hi))

theorem find_eq (h : s.Kept adds puts) {i : Nat} (hi : i < s.count) : s.find (s.configs i).configId = some i := by
  cases hf : s.find (s.configs i).configId with
  | none => exact absurd rfl (find_eq_none hf i hi)
  | some j =>
    obtain ⟨hj, he⟩ := find_eq_some hf
    rw [h.id_inj hj hi he]

/-- A host of at most 255 bytes is kept whole. -/
private theorem host_kept {host : List UInt8} (h : host.length ≤ 255) : strncpyTruncate 256 host = host :=
  List.take_of_length_le h

private theorem accepted {a : ProxyArgs} (h : a.rejected = false) : a.host ≠ [] ∧ a.proxyPort ≠ 0 := by
  simp only [ProxyArgs.rejected, Bool.or_eq_false_iff, List.isEmpty_eq_false_iff, beq_eq_false_iff_ne] at h
  exact ⟨h.1.1.1, h.1.1.2⟩

private theorem more (h : s.Kept adds puts) {adds' : Nat} (hle : adds ≤ adds') : s.Kept adds' puts :=
  { h with nextLe := Nat.le_trans h.nextLe (by omega) }

/-- A configuration added behind the others. -/
private theorem append (h : s.Kept adds puts) {c : ProxySlot} (hroom : s.count < maxProxyConfigs)
    (hadds : adds + 1 < 4294967295) (hid : c.configId = s.nextConfigId) (hhost : c.host ≠ []) (hport : c.port ≠ 0) :
    Kept ⟨Function.update s.configs s.count c, s.count + 1, s.nextConfigId + 1⟩ (adds + 1)
      (puts ++ [(s.nextConfigId, c.data)]) := by
  have hnext : (s.nextConfigId + 1).toNat = s.nextConfigId.toNat + 1 := by
    have hle := h.nextLe
    rw [UInt32.toNat_add]
    change (s.nextConfigId.toNat + 1) % 4294967296 = _
    omega
  have hold {i : Nat} (hi : i < s.count) : Function.update s.configs s.count c i = s.configs i :=
    Function.update_of_ne (Nat.ne_of_lt hi) ..
  have hnew : Function.update s.configs s.count c s.count = c := Function.update_self ..
  constructor
  · exact hroom
  · rw [hnext]
    exact Nat.succ_pos _
  · rw [hnext]
    exact Nat.succ_le_succ h.nextLe
  · intro i hi
    rcases Nat.lt_succ_iff_lt_or_eq.mp hi with hlt | rfl
    · change SlotKept _ _ (Function.update s.configs s.count c i)
      rw [hold hlt]
      refine (h.slots i hlt).put (Nat.le_of_lt (hnext ▸ Nat.lt_succ_self _)) ?_
      intro heq
      exact absurd (congrArg UInt32.toNat heq) (Nat.ne_of_gt (h.slots i hlt).idLt)
    · change SlotKept _ _ (Function.update s.configs s.count c s.count)
      rw [hnew]
      refine ⟨hid ▸ h.nextPos, ?_, hhost, hport, ?_⟩
      · rw [hid, hnext]
        exact Nat.lt_succ_self _
      · rw [lastPut_append, if_pos hid.symm]
  · intro i j hij hj
    change (Function.update s.configs s.count c i).configId.toNat <
      (Function.update s.configs s.count c j).configId.toNat
    rcases Nat.lt_succ_iff_lt_or_eq.mp hj with hlt | rfl
    · rw [hold hlt, hold (Nat.lt_trans hij hlt)]
      exact h.increasing i j hij hlt
    · rw [hold hij, hnew, hid]
      exact (h.slots i hij).idLt

/-- A configuration changed in place. -/
private theorem change (h : s.Kept adds puts) {i : Nat} {c : ProxySlot} (hi : i < s.count)
    (hid : c.configId = (s.configs i).configId) (hhost : c.host ≠ []) (hport : c.port ≠ 0) :
    Kept { s with configs := Function.update s.configs i c } adds (puts ++ [(c.configId, c.data)]) := by
  have hids (j : Nat) : (Function.update s.configs i c j).configId = (s.configs j).configId := by
    by_cases hj : j = i
    · rw [hj, Function.update_self, hid]
    · rw [Function.update_of_ne hj]
  refine ⟨h.bounded, h.nextPos, h.nextLe, ?_, ?_⟩
  · intro j hj
    change SlotKept _ _ (Function.update s.configs i c j)
    by_cases he : j = i
    · subst he
      rw [Function.update_self]
      have hslot := h.slots j hj
      exact ⟨hid ▸ hslot.idPos, hid ▸ hslot.idLt, hhost, hport, by rw [lastPut_append, if_pos rfl]⟩
    · rw [Function.update_of_ne he]
      exact (h.slots j hj).put (Nat.le_refl _) (fun heq => he (h.id_inj hj hi (heq.symm.trans hid)))
  · intro j k hjk hk
    change (Function.update s.configs i c j).configId.toNat < (Function.update s.configs i c k).configId.toNat
    rw [hids, hids]
    exact h.increasing j k hjk hk

/-- The slots behind one that is taken out, moved down by one. -/
private theorem remove (h : s.Kept adds puts) {i : Nat} {moved : Nat → ProxySlot}
    (hmoved : ∀ j < s.count - 1, moved j = s.configs (if j < i then j else j + 1)) :
    Kept { s with configs := moved, count := s.count - 1 } adds puts := by
  have hfrom : ∀ j < s.count - 1, (if j < i then j else j + 1) < s.count := by
    intro j hj
    split <;> omega
  refine ⟨Nat.le_trans (Nat.sub_le _ _) h.bounded, h.nextPos, h.nextLe, ?_, ?_⟩
  · intro j hj
    change SlotKept _ _ (moved j)
    rw [hmoved j hj]
    exact h.slots _ (hfrom j hj)
  · intro j k hjk hk
    change (moved j).configId.toNat < (moved k).configId.toNat
    rw [hmoved j (Nat.lt_trans hjk hk), hmoved k hk]
    refine h.increasing _ _ ?_ (hfrom k hk)
    split <;> split <;> omega

end Kept

section Calls
variable {a : ProxyArgs} (check keep : Resolver) (configId : UInt32)

/-- The additions that the store accepts. -/
def Accepts (S : UnsignedScan) (s : ProxyStore) (a : ProxyArgs) (check : Resolver) : Prop :=
  a.rejected = false ∧ resolveHostname S check a.proxyIp ≠ 0 ∧ s.count < maxProxyConfigs

theorem addProxyConfig_cases (hhost : a.host.length ≤ 255) :
    ¬Accepts S s a check ∧ s.addProxyConfig S a check keep = (0, s) ∨
    Accepts S s a check ∧ ∃ c : ProxySlot, c.configId = s.nextConfigId ∧
      c.data = a.data (resolveHostname S keep a.proxyIp) ∧
      s.addProxyConfig S a check keep =
        (s.nextConfigId, ⟨Function.update s.configs s.count c, s.count + 1, s.nextConfigId + 1⟩) := by
  rw [addProxyConfig]
  by_cases hrejected : a.rejected = true
  · exact .inl ⟨fun h => absurd (hrejected.symm.trans h.1) Bool.true_eq_false.mp, if_pos hrejected⟩
  · rw [if_neg hrejected]
    by_cases hcheck : resolveHostname S check a.proxyIp = 0
    · exact .inl ⟨fun h => h.2.1 hcheck, if_pos hcheck⟩
    · rw [if_neg hcheck]
      by_cases hroom : s.count ≥ maxProxyConfigs
      · exact .inl ⟨fun h => absurd h.2.2 (Nat.not_lt.mpr hroom), if_pos hroom⟩
      · rw [if_neg hroom]
        refine .inr ⟨⟨(Bool.not_eq_true _).mp hrejected, hcheck, Nat.lt_of_not_le hroom⟩, _, rfl, ?_, rfl⟩
        simp only [ProxySlot.data, ProxyArgs.data, Kept.host_kept hhost]

theorem editProxyConfig_cases (hhost : a.host.length ≤ 255) :
    s.editProxyConfig S configId a check = (0, s) ∨
    a.rejected = false ∧ resolveHostname S check a.proxyIp ≠ 0 ∧ ∃ i < s.count, ∃ c : ProxySlot,
      (s.configs i).configId = configId ∧ c.configId = configId ∧
      c.data = a.data (resolveHostname S check a.proxyIp) ∧
      s.editProxyConfig S configId a check = (1, { s with configs := Function.update s.configs i c }) := by
  rw [editProxyConfig]
  by_cases hrejected : a.rejected = true
  · exact .inl (if_pos hrejected)
  · rw [if_neg hrejected]
    by_cases hcheck : resolveHostname S check a.proxyIp = 0
    · exact .inl (if_pos hcheck)
    · simp only [hcheck, if_false]
      cases hf : s.find configId with
      | none => exact .inl rfl
      | some i =>
        obtain ⟨hi, hid⟩ := find_eq_some hf
        refine .inr ⟨(Bool.not_eq_true _).mp hrejected, hcheck, i, hi, _, hid, ?_, ?_, rfl⟩
        · exact hid
        · simp only [ProxySlot.data, ProxyArgs.data, Kept.host_kept hhost]

theorem deleteProxyConfig_cases :
    (∀ i < s.count, (s.configs i).configId ≠ configId) ∧ s.deleteProxyConfig configId = (0, s) ∨
    ∃ i < s.count, ∃ moved : Nat → ProxySlot, (s.configs i).configId = configId ∧
      (∀ j < s.count - 1, moved j = s.configs (if j < i then j else j + 1)) ∧
      s.deleteProxyConfig configId = (1, { s with configs := moved, count := s.count - 1 }) := by
  rw [deleteProxyConfig]
  cases hf : s.find configId with
  | none => exact .inl ⟨find_eq_none hf, rfl⟩
  | some i =>
    obtain ⟨hi, hid⟩ := find_eq_some hf
    refine .inr ⟨i, hi, _, hid, ?_, rfl⟩
    intro j hj
    by_cases hlt : j < i
    · rw [if_neg (fun h => absurd hlt (Nat.not_lt.mpr h.1)), if_pos hlt]
    · rw [if_pos ⟨Nat.le_of_not_lt hlt, by omega⟩, if_neg hlt]

end Calls

namespace Kept
variable {adds : Nat} {puts : List (UInt32 × ProxyData)} {call : ProxyCall}

private theorem put_of_fails (h : s.apply S call = (0, s)) : s.put S call = none := by
  unfold ProxyStore.put
  rw [h, if_pos rfl]

private theorem true_ne_zero : ¬(1 : UInt32) = 0 := by decide

/-- What a call keeps. The identifiers do not run out before the additions do. -/
theorem step (h : s.Kept adds puts) (hhost : call.host.length ≤ 255)
    (hadds : adds + (if call.isAdd then 1 else 0) < 4294967295) :
    (s.apply S call).2.Kept (adds + if call.isAdd then 1 else 0) (puts ++ (s.put S call).toList) := by
  have hfails (hrun : s.apply S call = (0, s)) :
      (s.apply S call).2.Kept (adds + if call.isAdd then 1 else 0) (puts ++ (s.put S call).toList) := by
    rw [put_of_fails hrun, hrun, Option.toList_none, List.append_nil]
    exact h.more (Nat.le_add_right _ _)
  cases call with
  | add a check keep =>
    rcases addProxyConfig_cases (S := S) (s := s) check keep hhost with ⟨-, hrun⟩ | ⟨haccept, c, hid, hdata, hrun⟩
    · exact hfails hrun
    · have hne : s.nextConfigId ≠ 0 := fun hz => absurd h.nextPos (hz ▸ Nat.lt_irrefl 0)
      have hkept := accepted haccept.1
      have hh : c.host = a.host := congrArg ProxyData.host hdata
      have hp : c.port = a.proxyPort := congrArg ProxyData.port hdata
      have happend := h.append haccept.2.2 hadds hid (hh ▸ hkept.1) (hp ▸ hkept.2)
      rw [put, apply, hrun, if_neg hne]
      rw [hdata] at happend
      exact happend
  | edit configId a check =>
    rcases editProxyConfig_cases (S := S) (s := s) check configId hhost with
      hrun | ⟨hrejected, -, i, hi, c, hid, hc, hdata, hrun⟩
    · exact hfails hrun
    · have hkept := accepted hrejected
      have hh : c.host = a.host := congrArg ProxyData.host hdata
      have hp : c.port = a.proxyPort := congrArg ProxyData.port hdata
      have hchange := h.change hi (hc.trans hid.symm) (hh ▸ hkept.1) (hp ▸ hkept.2)
      rw [put, apply, hrun, if_neg true_ne_zero]
      rw [hdata, hc] at hchange
      exact hchange
  | delete configId =>
    rcases deleteProxyConfig_cases (s := s) configId with ⟨-, hrun⟩ | ⟨i, -, moved, -, hmoved, hrun⟩
    · exact hfails hrun
    · rw [put, apply, hrun, if_neg true_ne_zero, Option.toList_none, List.append_nil]
      exact h.remove hmoved

theorem run {calls : List ProxyCall} (h : s.Kept adds puts) (hhosts : ∀ call ∈ calls, call.host.length ≤ 255)
    (hadds : adds + calls.countP ProxyCall.isAdd < 4294967295) :
    (s.run S calls).Kept (adds + calls.countP ProxyCall.isAdd) (puts ++ s.puts S calls) := by
  induction calls generalizing s adds puts with
  | nil =>
    rw [ProxyStore.puts, List.append_nil]
    exact h
  | cons call calls ih =>
    rw [List.countP_cons] at hadds ⊢
    have hstep := h.step (S := S) (hhosts call List.mem_cons_self) (by omega)
    have hrest := ih hstep (fun c hc => hhosts c (List.mem_cons_of_mem _ hc)) (by omega)
    rw [ProxyStore.puts, ← List.append_assoc, Nat.add_comm (List.countP _ _), ← Nat.add_assoc]
    exact hrest

/-- Only the addresses are missing. -/
theorem sound (h : s.Kept adds puts) (hresolved : ∀ i < s.count, (s.configs i).resolvedIp ≠ 0) : s.Sound puts where
  bounded := h.bounded
  named c hc := by
    obtain ⟨i, hi, rfl⟩ := mem_entries.mp hc
    intro hz
    exact absurd (h.slots i hi).idPos (by rw [hz]; decide)
  increasing := by
    rw [entries, List.pairwise_map]
    refine List.pairwise_lt_range.imp_of_mem ?_
    intro i j _ hj hij
    exact UInt32.lt_iff_toNat_lt.mpr (h.increasing i j hij (List.mem_range.mp hj))
  hosts c hc := by
    obtain ⟨i, hi, rfl⟩ := mem_entries.mp hc
    exact (h.slots i hi).host
  ports c hc := by
    obtain ⟨i, hi, rfl⟩ := mem_entries.mp hc
    exact (h.slots i hi).port
  resolved c hc := by
    obtain ⟨i, hi, rfl⟩ := mem_entries.mp hc
    exact hresolved i hi
  found c hc := by
    obtain ⟨i, hi, rfl⟩ := mem_entries.mp hc
    rw [findProxyConfig, h.find_eq hi, (h.slots i hi).last]
    rfl

private theorem filter_eq_eraseIdx {α : Type} {l : List α} {p : α → Bool} {i : Nat} (hi : i < l.length)
    (hp : ∀ j (hj : j < l.length), p l[j] = true ↔ j ≠ i) : l.filter p = l.eraseIdx i := by
  induction l generalizing i with
  | nil => cases hi
  | cons x l ih =>
    cases i with
    | zero =>
      have hx : ¬p x = true := fun h => (hp 0 (Nat.succ_pos _)).mp h rfl
      rw [List.filter_cons_of_neg hx, List.eraseIdx_cons_zero, List.filter_eq_self]
      intro y hy
      obtain ⟨j, hj, rfl⟩ := List.getElem_of_mem hy
      exact (hp (j + 1) (Nat.succ_lt_succ hj)).mpr (Nat.succ_ne_zero j)
    | succ i =>
      have hx : p x = true := (hp 0 (Nat.succ_pos _)).mpr (Nat.succ_ne_zero i).symm
      rw [List.filter_cons_of_pos hx, List.eraseIdx_cons_succ, ih (Nat.lt_of_succ_lt_succ hi)]
      intro j hj
      exact (hp (j + 1) (Nat.succ_lt_succ hj)).trans (not_congr Nat.succ_inj)

theorem callSound (h : s.Kept adds puts) (hhost : call.host.length ≤ 255) : s.CallSound S call where
  deleted configId hcall := by
    subst hcall
    rcases deleteProxyConfig_cases (s := s) configId with
      ⟨hnone, hrun⟩ | ⟨i, hi, moved, hid, hmoved, hrun⟩
    · rw [apply, hrun, eq_comm, List.filter_eq_self]
      intro c hc
      obtain ⟨i, hi, rfl⟩ := mem_entries.mp hc
      exact bne_iff_ne.mpr (hnone i hi)
    · have hlen : i < s.entries.length := by rwa [entries, List.length_map, List.length_range]
      have hfrom : entries { s with configs := moved, count := s.count - 1 } = s.entries.eraseIdx i := by
        refine List.ext_getElem ?_ ?_
        · rw [List.length_eraseIdx_of_lt hlen]
          simp [entries]
        · intro j hj _
          have hj' : j < s.count - 1 := by simpa [entries] using hj
          rw [List.getElem_eraseIdx]
          simp only [entries, List.getElem_map, List.getElem_range, hmoved j hj']
          split <;> rfl
      rw [apply, hrun, hfrom, filter_eq_eraseIdx hlen]
      intro j hj
      have hj' : j < s.count := by rwa [entries, List.length_map, List.length_range] at hj
      simp only [entries, List.getElem_map, List.getElem_range, bne_iff_ne]
      exact not_congr ⟨fun he => h.id_inj hj' hi (he.trans hid.symm), fun he => he ▸ hid⟩
  failed hanswer := by
    cases call with
    | add a check keep =>
      rcases addProxyConfig_cases (S := S) (s := s) check keep hhost with ⟨-, hrun⟩ | ⟨haccept, c, hid, hdata, hrun⟩
      · rw [apply, hrun]
      · rw [apply, hrun] at hanswer
        have hz : s.nextConfigId = 0 := hanswer
        exact absurd h.nextPos (hz ▸ Nat.lt_irrefl 0)
    | edit configId a check =>
      rcases editProxyConfig_cases (S := S) (s := s) check configId hhost with
        hrun | ⟨-, -, i, -, c, -, -, -, hrun⟩
      · rw [apply, hrun]
      · rw [apply, hrun] at hanswer
        exact absurd hanswer true_ne_zero
    | delete configId =>
      rcases deleteProxyConfig_cases (s := s) configId with ⟨-, hrun⟩ | ⟨i, -, moved, -, -, hrun⟩
      · rw [apply, hrun]
      · rw [apply, hrun] at hanswer
        exact absurd hanswer true_ne_zero

end Kept

/-- Every address is there behind a call exactly when the call gave one. -/
private theorem resolved_apply_iff {call : ProxyCall} (hhost : call.host.length ≤ 255)
    (h : ∀ i < s.count, (s.configs i).resolvedIp ≠ 0) :
    (∀ i < (s.apply S call).2.count, ((s.apply S call).2.configs i).resolvedIp ≠ 0) ↔ s.Answered S call := by
  cases call with
  | add a check keep =>
    rcases addProxyConfig_cases (S := S) (s := s) check keep hhost with ⟨hno, hrun⟩ | ⟨haccept, c, -, hdata, hrun⟩
    · rw [apply, hrun]
      exact ⟨fun _ h1 h2 h3 => absurd ⟨h1, h2, h3⟩ hno, fun _ => h⟩
    · have hip : c.resolvedIp = resolveHostname S keep a.proxyIp := congrArg ProxyData.resolvedIp hdata
      rw [apply, hrun]
      constructor
      · intro hall _ _ _
        have hnew := hall s.count (Nat.lt_succ_self _)
        change (Function.update s.configs s.count c s.count).resolvedIp ≠ 0 at hnew
        rwa [Function.update_self, hip] at hnew
      · intro hanswer i hi
        change (Function.update s.configs s.count c i).resolvedIp ≠ 0
        rcases Nat.lt_succ_iff_lt_or_eq.mp hi with hlt | rfl
        · rw [Function.update_of_ne (Nat.ne_of_lt hlt)]
          exact h i hlt
        · rw [Function.update_self, hip]
          exact hanswer haccept.1 haccept.2.1 haccept.2.2
  | edit configId a check =>
    refine ⟨fun _ => trivial, fun _ => ?_⟩
    rcases editProxyConfig_cases (S := S) (s := s) check configId hhost with
      hrun | ⟨-, hcheck, i, hi, c, -, -, hdata, hrun⟩
    · rw [apply, hrun]
      exact h
    · have hip : c.resolvedIp = resolveHostname S check a.proxyIp := congrArg ProxyData.resolvedIp hdata
      rw [apply, hrun]
      intro j hj
      change (Function.update s.configs i c j).resolvedIp ≠ 0
      by_cases he : j = i
      · rw [he, Function.update_self, hip]
        exact hcheck
      · rw [Function.update_of_ne he]
        exact h j hj
  | delete configId =>
    refine ⟨fun _ => trivial, fun _ => ?_⟩
    rcases deleteProxyConfig_cases (s := s) configId with ⟨-, hrun⟩ | ⟨i, -, moved, -, hmoved, hrun⟩
    · rw [apply, hrun]
      exact h
    · rw [apply, hrun]
      intro j hj
      change (moved j).resolvedIp ≠ 0
      rw [hmoved j hj]
      refine h _ ?_
      have hj' : j < s.count - 1 := hj
      split <;> omega

private theorem run_append (calls : List ProxyCall) (call : ProxyCall) :
    s.run S (calls ++ [call]) = ((s.run S calls).apply S call).2 := by
  rw [run, List.foldl_append]
  rfl

/-- In a run every store that is reached is sound if and only if each addition that is accepted finds an
address again when the host is resolved the second time; and each call is sound in any case. -/
theorem proxy_store_sound_iff_answered (S : UnsignedScan) (calls : List ProxyCall)
    (hhosts : ∀ call ∈ calls, call.host.length ≤ 255) (hadds : calls.countP ProxyCall.isAdd < 4294967295) :
    ((∀ before, before <+: calls → (init.run S before).Sound (init.puts S before)) ↔
      ∀ before call, before ++ [call] <+: calls → (init.run S before).Answered S call) ∧
    ∀ before call, before ++ [call] <+: calls → (init.run S before).CallSound S call := by
  have hkept (before : List ProxyCall) (hpre : before <+: calls) :
      (init.run S before).Kept (before.countP ProxyCall.isAdd) (init.puts S before) := by
    have hfew : 0 + before.countP ProxyCall.isAdd < 4294967295 := by
      rw [Nat.zero_add]
      exact Nat.lt_of_le_of_lt hpre.sublist.countP_le hadds
    have hrun := Kept.init.run (S := S) (fun call hc => hhosts call (hpre.subset hc)) hfew
    rwa [Nat.zero_add, List.nil_append] at hrun
  have hfront {before : List ProxyCall} {call : ProxyCall} (hpre : before ++ [call] <+: calls) :
      before <+: calls ∧ call.host.length ≤ 255 :=
    ⟨(List.prefix_append before [call]).trans hpre, hhosts call (hpre.subset (by simp))⟩
  refine ⟨⟨?_, ?_⟩, fun before call hpre => (hkept before (hfront hpre).1).callSound (hfront hpre).2⟩
  · intro hsound before call hpre
    refine (resolved_apply_iff (hfront hpre).2 ?_).mp ?_
    · intro i hi
      exact (hsound before (hfront hpre).1).resolved _ (mem_entries.mpr ⟨i, hi, rfl⟩)
    · intro i hi
      rw [← run_append] at hi ⊢
      exact (hsound _ hpre).resolved _ (mem_entries.mpr ⟨i, hi, rfl⟩)
  · intro hanswered before
    induction before using List.reverseRecOn with
    | nil => exact fun hpre => (hkept [] hpre).sound (fun i hi => absurd hi (Nat.not_lt_zero i))
    | append_singleton before call ih =>
      intro hpre
      have hsound := ih (hfront hpre).1
      have hresolved := (resolved_apply_iff (hfront hpre).2
        (fun i hi => hsound.resolved _ (mem_entries.mpr ⟨i, hi, rfl⟩))).mpr (hanswered before call hpre)
      refine (hkept _ hpre).sound ?_
      rw [run_append]
      exact hresolved

/-- A host name, and a resolver that knows it. -/
private def proxyHost : List UInt8 := lit ['p', 'r', 'o', 'x', 'y']

private def knowsProxy : Resolver := fun _ => some (some ⟨afInet, 0x0100A8C0⟩)

private def proxyArgs : ProxyArgs := ⟨1, some proxyHost, 1080, none, none, false⟩

/-- Two additions, an edit of the first and a deletion of the second. -/
private def storeCalls : List ProxyCall :=
  [.add proxyArgs knowsProxy knowsProxy, .add proxyArgs knowsProxy knowsProxy,
    .edit 1 { proxyArgs with proxyPort := 1081 } knowsProxy, .delete 2]

theorem proxy_store_sound_edited : (init.run .accumulated storeCalls).Sound (init.puts .accumulated storeCalls) ∧
    (init.run .accumulated storeCalls).entries.map (fun slot => (slot.configId, slot.port)) = [(1, 1081)] := by
  refine ⟨(proxy_store_sound_iff_answered .accumulated storeCalls (by decide) (by decide)).1.mpr ?_ _ List.prefix_rfl,
    by decide⟩
  intro before call hpre
  have hcall : call ∈ storeCalls := hpre.subset (by simp)
  simp only [storeCalls, List.mem_cons, List.not_mem_nil, or_false] at hcall
  rcases hcall with rfl | rfl | rfl | rfl
  · intro _ _ _
    decide
  · intro _ _ _
    decide
  · trivial
  · trivial

/-- The second lookup fails: the configuration is kept without an address. -/
theorem proxy_store_keeps_failed_lookup :
    let s := init.run .accumulated [.add proxyArgs knowsProxy (fun _ => none)]
    s.entries.map (·.configId) = [1] ∧ s.entries.map (·.resolvedIp) = [0] ∧
      (init.apply .accumulated (.add proxyArgs knowsProxy (fun _ => none))).1 = 1 := by
  decide

end ProxyStore

end ProxyBridge.Windows
