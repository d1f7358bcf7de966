import Mathlib.Logic.Function.Basic
import ProxyBridge.Library.CStrings
import ProxyBridge.Library.Runs
import ProxyBridge.Windows.Types

/-! The UDP associations of the proxy configurations. The relay thread establishes one through a
pointer into the array of configurations, in steps between which the API edits, deletes and adds
entries; it holds no lock that the API takes. -/
namespace ProxyBridge.Windows
open Runs CStrings

def maxProxyConfigs : Nat := 16

/-- A slot of `g_proxy_configs` with the state of its association. A socket that is not
`INVALID_SOCKET` is known by a number. -/
structure UdpConfig where
  configId : UInt32
  type : ProxyType
  host : List UInt8
  port : UInt16
  lastUdpAttempt : UInt64
  udpTcpCtrl : Option Nat
  udpSendSock : Option Nat
  udpRelayAddr : UInt32 × UInt16
  udpConnected : Bool
  /-- The host and port of the proxy that `udpRelayAddr` was negotiated with. -/
  negotiatedWith : Option (List UInt8 × UInt16)

namespace UdpConfig

/-- After `memset`, with the sockets set to `INVALID_SOCKET`. -/
def zeroed : UdpConfig := ⟨0, .http, [], 0, 0, none, none, (0, 0), false, none⟩

def Owns (c : UdpConfig) (socket : Nat) : Prop := c.udpTcpCtrl = some socket ∨ c.udpSendSock = some socket

/-- Both sockets closed and set to `INVALID_SOCKET`. -/
def withoutSockets (c : UdpConfig) : UdpConfig := { c with udpTcpCtrl := none, udpSendSock := none }

/-- What `udp_connected` promises, with these sockets open. -/
structure Ready (c : UdpConfig) (opened : List Nat) : Prop where
  ctrl : ∃ socket, c.udpTcpCtrl = some socket ∧ socket ∈ opened
  send : ∃ socket, c.udpSendSock = some socket ∧ socket ∈ opened
  negotiated : c.negotiatedWith = some (c.host, c.port)

end UdpConfig

/-- Where the relay thread stands, with the slot it works on and what it has read of it. -/
inductive EstablishPhase where
  | idle
  /-- The caller has seen that the slot has no association. -/
  | checked (i : Nat)
  /-- The old sockets are closed. -/
  | opened (i : Nat)
  | resolved (i : Nat) (host : List UInt8) (socks5Ip : UInt32)
  /-- The port is read; connecting and negotiating. -/
  | connecting (i : Nat) (host : List UInt8) (socks5Ip : UInt32) (port : UInt16)
  /-- The relay address is stored. -/
  | answered (i : Nat) (host : List UInt8) (port : UInt16)
  /-- The control socket is stored. -/
  | controlled (i : Nat) (host : List UInt8) (port : UInt16)
  /-- The socket for sending is stored. -/
  | sending (i : Nat) (host : List UInt8) (port : UInt16)

namespace EstablishPhase

def slot : EstablishPhase → Option Nat
  | .idle => none
  | .checked i | .opened i | .resolved i _ _ | .connecting i _ _ _ | .answered i _ _ | .controlled i _ _
  | .sending i _ _ => some i

/-- An edit with this host and port fits what has been read, and there is no socket to be lost. -/
def fitsEdit (host : List UInt8) (port : UInt16) : EstablishPhase → Bool
  | .idle | .checked _ | .opened _ => true
  | .resolved _ h _ => h == host
  | .connecting _ h _ p | .answered _ h p => h == host && p == port
  | .controlled _ _ _ | .sending _ _ _ => false

/-- A configuration that takes the place of the one in the slot fits what has been read. -/
def fitsMove (connected : Bool) (host : List UInt8) (port : UInt16) : EstablishPhase → Bool
  | .idle => true
  | .checked _ | .opened _ => !connected
  | .resolved _ h _ => !connected && h == host
  | .connecting _ h _ p => !connected && h == host && p == port
  | .answered _ _ _ | .controlled _ _ _ | .sending _ _ _ => false

end EstablishPhase

/-- `starting` is the index of the loop in which the relay first goes over the configurations. -/
structure Associations where
  configs : Nat → UdpConfig
  count : Nat
  nextConfigId : UInt32
  phase : EstablishPhase
  starting : Option Nat
  nextSocket : Nat
  openSockets : List Nat

inductive AssociationAction where
  | startup (referenced : Bool)
  | check (i : Nat)
  | establish (now : UInt64)
  | resolve (socks5Ip : UInt32)
  | readPort
  | answer (ip : UInt32) (port : UInt16)
  | storeCtrl
  | storeSend (created : Bool)
  | storeConnected
  | fail
  | drop (i : Nat)
  | add (type : ProxyType) (proxyIp : List UInt8) (proxyPort : UInt16)
  | edit (configId : UInt32) (type : ProxyType) (proxyIp : List UInt8) (proxyPort : UInt16)
  | delete (configId : UInt32)

namespace Associations

def init : Associations := ⟨fun _ => .zeroed, 0, 1, .idle, some 0, 0, []⟩

/-- Whatever sockets the slot has are closed. -/
def closeSockets (s : Associations) (i : Nat) : List Nat :=
  s.openSockets.filter fun socket =>
    (s.configs i).udpTcpCtrl != some socket && (s.configs i).udpSendSock != some socket

def store (s : Associations) (i : Nat) (c : UdpConfig) : Associations :=
  { s with configs := Function.update s.configs i c }

def find (s : Associations) (configId : UInt32) : Option Nat :=
  (List.range s.count).find? fun i => (s.configs i).configId == configId

/-- The beginning of `establish_udp_associate_for_config`. -/
def beginEstablish (s : Associations) (i : Nat) (now : UInt64) : Associations :=
  let cfg := s.configs i
  if cfg.host.isEmpty || cfg.port == 0 || cfg.type != .socks5 || now - cfg.lastUdpAttempt < 1000 then
    { s with phase := .idle }
  else
    { s.store i { cfg.withoutSockets with lastUdpAttempt := now } with
      openSockets := s.closeSockets i, phase := .opened i }

def storeCtrl (s : Associations) (i : Nat) (host : List UInt8) (port : UInt16) : Associations :=
  { s.store i { s.configs i with udpTcpCtrl := some s.nextSocket } with
    openSockets := s.nextSocket :: s.openSockets, nextSocket := s.nextSocket + 1, phase := .controlled i host port }

def storeSend (s : Associations) (i : Nat) (host : List UInt8) (port : UInt16) (created : Bool) : Associations :=
  if created then
    { s.store i { s.configs i with udpSendSock := some s.nextSocket } with
      openSockets := s.nextSocket :: s.openSockets, nextSocket := s.nextSocket + 1, phase := .sending i host port }
  else
    { s.store i { s.configs i with udpTcpCtrl := none, udpSendSock := none, udpConnected := false } with
      openSockets := s.openSockets.filter fun socket => (s.configs i).udpTcpCtrl != some socket, phase := .idle }

/-- The control connection was closed, or sending failed. -/
def dropAssociation (s : Associations) (i : Nat) : Associations :=
  { s.store i { (s.configs i).withoutSockets with udpConnected := false } with openSockets := s.closeSockets i }

/-- `ProxyBridge_AddProxyConfig`, with arguments that it accepts. -/
def addProxyConfig (s : Associations) (type : ProxyType) (proxyIp : List UInt8) (proxyPort : UInt16) : Associations :=
  { s.store s.count { UdpConfig.zeroed with
      configId := s.nextConfigId, type, port := proxyPort, host := strncpyTruncate 256 proxyIp } with
    count := s.count + 1, nextConfigId := s.nextConfigId + 1 }

def editProxyConfig (s : Associations) (i : Nat) (type : ProxyType) (proxyIp : List UInt8) (proxyPort : UInt16) :
    Associations :=
  { s.store i { (s.configs i).withoutSockets with
      udpConnected := false, type, port := proxyPort, host := strncpyTruncate 256 proxyIp } with
    openSockets := s.closeSockets i }

/-- The entries behind the deleted one are moved down by one. The last one stays where it was too. -/
def deleteProxyConfig (s : Associations) (i : Nat) : Associations :=
  { s with
    configs := fun j => if i ≤ j ∧ j + 1 < s.count then s.configs (j + 1) else s.configs j
    count := s.count - 1
    openSockets := s.closeSockets i }

/-- The loop of the relay at its start, which looks at no `udp_connected`. -/
def startup (s : Associations) (referenced : Bool) : Option Associations :=
  match s.phase, s.starting with
  | .idle, some k =>
    if k < s.count then
      if (s.configs k).type == .socks5 && referenced then some { s with starting := some (k + 1), phase := .checked k }
      else some { s with starting := some (k + 1) }
    else some { s with starting := none }
  | _, _ => none

/-- API calls that are refused change nothing and are no steps. -/
def step (s : Associations) : AssociationAction → Option Associations
  | .startup referenced => s.startup referenced
  | .check i =>
    match s.phase, s.starting with
    | .idle, none =>
      if i < s.count ∧ (s.configs i).type = .socks5 ∧ (s.configs i).udpConnected = false then
        some { s with phase := .checked i }
      else none
    | _, _ => none
  | .establish now =>
    match s.phase with
    | .checked i => some (s.beginEstablish i now)
    | _ => none
  | .resolve socks5Ip =>
    match s.phase with
    | .opened i => if socks5Ip = 0 then none else some { s with phase := .resolved i (s.configs i).host socks5Ip }
    | _ => none
  | .readPort =>
    match s.phase with
    | .resolved i host socks5Ip => some { s with phase := .connecting i host socks5Ip (s.configs i).port }
    | _ => none
  | .answer ip port =>
    match s.phase with
    | .connecting i host socks5Ip p =>
      some { s.store i { s.configs i with
          udpRelayAddr := (if ip = 0 then socks5Ip else ip, port), negotiatedWith := some (host, p) } with
        phase := .answered i host p }
    | _ => none
  | .storeCtrl =>
    match s.phase with
    | .answered i host port => some (s.storeCtrl i host port)
    | _ => none
  | .storeSend created =>
    match s.phase with
    | .controlled i host port => some (s.storeSend i host port created)
    | _ => none
  | .storeConnected =>
    match s.phase with
    | .sending i _ _ => some { s.store i { s.configs i with udpConnected := true } with phase := .idle }
    | _ => none
  | .fail =>
    match s.phase with
    | .opened _ | .resolved _ _ _ | .connecting _ _ _ _ => some { s with phase := .idle }
    | _ => none
  | .drop i =>
    match s.phase, s.starting with
    | .idle, none =>
      if i < s.count ∧ (s.configs i).udpConnected = true then some (s.dropAssociation i) else none
    | _, _ => none
  | .add type proxyIp proxyPort =>
    if proxyIp.isEmpty || proxyPort == 0 || decide (maxProxyConfigs ≤ s.count) then none
    else some (s.addProxyConfig type proxyIp proxyPort)
  | .edit configId type proxyIp proxyPort =>
    if proxyIp.isEmpty || proxyPort == 0 then none
    else (s.find configId).map fun i => s.editProxyConfig i type proxyIp proxyPort
  | .delete configId => (s.find configId).map s.deleteProxyConfig

/-- Whether what an API call does to the slot of an establishment that is under way fits it. -/
def fits (s : Associations) : AssociationAction → Bool
  | .edit configId _ proxyIp proxyPort =>
    (s.find configId).all fun i =>
      s.phase.slot != some i || s.phase.fitsEdit (strncpyTruncate 256 proxyIp) proxyPort
  | .delete configId =>
    (s.find configId).all fun k =>
      s.phase.slot.all fun i =>
        decide (i < k) || decide (s.count ≤ i + 1) ||
          s.phase.fitsMove (s.configs (i + 1)).udpConnected (s.configs (i + 1)).host (s.configs (i + 1)).port
  | .add _ proxyIp proxyPort =>
    s.phase.slot != some s.count || s.phase.fitsMove false (strncpyTruncate 256 proxyIp) proxyPort
  | _ => true

/-- Every configuration with `udp_connected` has what that promises. -/
def AllReady (s : Associations) : Prop :=
  ∀ i < s.count, (s.configs i).udpConnected = true → (s.configs i).Ready s.openSockets

end Associations

/-- What holds of the slot of an establishment while it is the slot of a configuration. -/
def EstablishPhase.Agrees (c : UdpConfig) (opened : List Nat) : EstablishPhase → Prop
  | .idle | .checked _ | .opened _ => True
  | .resolved _ host _ => c.host = host
  | .connecting _ host _ port => c.host = host ∧ c.port = port
  | .answered _ host port => c.host = host ∧ c.port = port ∧ c.negotiatedWith = some (host, port)
  | .controlled _ host port => c.host = host ∧ c.port = port ∧ c.negotiatedWith = some (host, port) ∧
      ∃ socket, c.udpTcpCtrl = some socket ∧ socket ∈ opened
  | .sending _ host port => c.host = host ∧ c.port = port ∧ c.negotiatedWith = some (host, port) ∧
      (∃ socket, c.udpTcpCtrl = some socket ∧ socket ∈ opened) ∧
      ∃ socket, c.udpSendSock = some socket ∧ socket ∈ opened

namespace Associations

/-- The two slots have no socket in common. -/
def Apart (s : Associations) (i j : Nat) : Prop := ∀ socket, (s.configs i).Owns socket → ¬ (s.configs j).Owns socket

structure Inv (s : Associations) : Prop where
  known : ∀ i socket, (s.configs i).Owns socket → socket < s.nextSocket
  ready : s.AllReady
  apart : ∀ i j, i < s.count → j < s.count → i ≠ j → s.Apart i j
  unconnected : ∀ i, s.phase.slot = some i → (s.configs i).udpConnected = false
  agrees : ∀ i, s.phase.slot = some i → i < s.count → s.phase.Agrees (s.configs i) s.openSockets
  /-- The slot under way may have become one behind the last configuration. -/
  leftover : ∀ i j, s.phase.slot = some i → s.count ≤ i → j < s.count → (s.configs j).udpConnected = true → s.Apart i j
  fresh : ∀ k, s.starting = some k → ∀ i, k ≤ i → i < s.count → (s.configs i).udpConnected = false
  passed : ∀ k i, s.starting = some k → s.phase.slot = some i → i < k

theorem inv_init : Inv init where
  known i socket h := by rcases h with h | h <;> cases h
  ready i hi := (Nat.not_lt_zero i hi).elim
  apart i _ hi := (Nat.not_lt_zero i hi).elim
  unconnected i h := by cases h
  agrees i h := by cases h
  leftover i j h := by cases h
  fresh k _ i _ hi := (Nat.not_lt_zero i hi).elim
  passed k i _ h := by cases h

theorem not_owns_withoutSockets (c : UdpConfig) (socket : Nat) : ¬ c.withoutSockets.Owns socket := by
  rintro (h | h) <;> cases h

theorem Ready_mono {c : UdpConfig} {a b : List Nat} (h : c.Ready a)
    (hab : ∀ socket, c.Owns socket → socket ∈ a → socket ∈ b) : c.Ready b := by
  obtain ⟨⟨x, hx, hxa⟩, ⟨y, hy, hya⟩, hn⟩ := h
  exact ⟨⟨x, hx, hab x (.inl hx) hxa⟩, ⟨y, hy, hab y (.inr hy) hya⟩, hn⟩

theorem agrees_mono {c : UdpConfig} {a b : List Nat} {p : EstablishPhase} (h : p.Agrees c a)
    (hab : ∀ socket, c.Owns socket → socket ∈ a → socket ∈ b) : p.Agrees c b := by
  cases p with
  | controlled i host port =>
    obtain ⟨hh, hp, hn, x, hx, hxa⟩ := h
    exact ⟨hh, hp, hn, x, hx, hab x (.inl hx) hxa⟩
  | sending i host port =>
    obtain ⟨hh, hp, hn, ⟨x, hx, hxa⟩, y, hy, hya⟩ := h
    exact ⟨hh, hp, hn, ⟨x, hx, hab x (.inl hx) hxa⟩, y, hy, hab y (.inr hy) hya⟩
  | _ => exact h

theorem mem_closeSockets {s : Associations} {i socket : Nat} (h : socket ∈ s.openSockets)
    (hno : ¬ (s.configs i).Owns socket) : socket ∈ s.closeSockets i := by
  refine List.mem_filter.mpr ⟨h, ?_⟩
  simp only [UdpConfig.Owns, not_or] at hno
  simpa using hno

/-- What a step may do that touches one slot: the slot gets a new value `c`, with sockets that it had or
that are new, and only sockets that it had are closed. -/
structure Touches (s s' : Associations) (i : Nat) (c : UdpConfig) : Prop where
  configs : s'.configs = Function.update s.configs i c
  count : s'.count = s.count
  next : s.nextSocket ≤ s'.nextSocket
  opened : ∀ socket, socket ∈ s.openSockets → ¬ (s.configs i).Owns socket → socket ∈ s'.openSockets
  owned : ∀ socket, c.Owns socket → (s.configs i).Owns socket ∨ (s.nextSocket ≤ socket ∧ socket < s'.nextSocket)

namespace Touches
variable {s s' : Associations} {i : Nat} {c : UdpConfig}

theorem self (t : Touches s s' i c) : s'.configs i = c := by rw [t.configs, Function.update_self]

theorem other (t : Touches s s' i c) {j : Nat} (h : j ≠ i) : s'.configs j = s.configs j := by
  rw [t.configs, Function.update_of_ne h]

theorem known (t : Touches s s' i c) (h : Inv s) (j socket : Nat) (ho : (s'.configs j).Owns socket) :
    socket < s'.nextSocket := by
  by_cases hj : j = i
  · subst hj
    rw [t.self] at ho
    rcases t.owned socket ho with hold | hnew
    · exact Nat.lt_of_lt_of_le (h.known _ _ hold) t.next
    · exact hnew.2
  · rw [t.other hj] at ho
    exact Nat.lt_of_lt_of_le (h.known _ _ ho) t.next

/-- A slot that had nothing in common with the touched one still has nothing in common with it. -/
theorem apart (t : Touches s s' i c) (h : Inv s) {j : Nat} (hj : j ≠ i) (ha : s.Apart i j) : s'.Apart i j := by
  intro socket hi hs
  rw [t.self] at hi
  rw [t.other hj] at hs
  rcases t.owned socket hi with hold | hnew
  · exact ha socket hold hs
  · exact absurd (h.known _ _ hs) (Nat.not_lt.mpr hnew.1)

theorem stays_open (t : Touches s s' i c) {j : Nat} (ha : s.Apart i j) (socket : Nat)
    (ho : (s.configs j).Owns socket) (hs : socket ∈ s.openSockets) : socket ∈ s'.openSockets :=
  t.opened socket hs (fun hi => ha socket hi ho)

end Touches

theorem Apart.symm {s : Associations} {i j : Nat} (h : s.Apart i j) : s.Apart j i :=
  fun socket hj hi => h socket hi hj

section Touch
variable {s s' : Associations} {i : Nat} {c : UdpConfig}

/-- All configurations but the touched one keep what they have. -/
private theorem ready_touch (t : Touches s s' i c) (h : Inv s) (hi : i < s.count ∨ s.phase.slot = some i)
    (hready : i < s.count → c.udpConnected = true → c.Ready s'.openSockets) : s'.AllReady := by
  intro j hj hc
  rw [t.count] at hj
  by_cases he : j = i
  · subst he
    rw [t.self] at hc ⊢
    exact hready hj hc
  · rw [t.other he] at hc ⊢
    refine Ready_mono (h.ready j hj hc) (t.stays_open ?_)
    by_cases hlive : i < s.count
    · exact h.apart i j hlive hj (Ne.symm he)
    · exact h.leftover i j (hi.resolve_left hlive) (Nat.le_of_not_lt hlive) hj hc

private theorem apart_touch (t : Touches s s' i c) (h : Inv s) (a b : Nat) (ha : a < s'.count) (hb : b < s'.count)
    (hne : a ≠ b) : s'.Apart a b := by
  rw [t.count] at ha hb
  by_cases hai : a = i
  · subst hai
    exact t.apart h (Ne.symm hne) (h.apart a b ha hb hne)
  by_cases hbi : b = i
  · subst hbi
    exact (t.apart h hne (h.apart b a hb ha (Ne.symm hne))).symm
  · intro socket hao hbo
    rw [t.other hai] at hao
    rw [t.other hbi] at hbo
    exact h.apart a b ha hb hne socket hao hbo

/-- The relay thread works on its slot. -/
private theorem Inv.work (h : Inv s) (t : Touches s s' i c) (hi : i < s.count ∨ s.phase.slot = some i)
    (hphase : s'.phase.slot = none ∨ s'.phase.slot = some i) (hstart : s'.starting = s.starting)
    (hready : i < s.count → c.udpConnected = true → c.Ready s'.openSockets)
    (hun : s'.phase.slot = some i → c.udpConnected = false)
    (hagrees : s'.phase.slot = some i → i < s.count → s'.phase.Agrees c s'.openSockets)
    (hleft : s'.phase.slot = some i → s.phase.slot = some i)
    (hfresh : c.udpConnected = true → (s.configs i).udpConnected = true ∨ ∃ k, s.phase.slot = some k ∧ k = i) :
    Inv s' where
  known := t.known h
  ready := ready_touch t h hi hready
  apart := apart_touch t h
  unconnected j hj := by
    rcases hphase with hp | hp
    · rw [hp] at hj
      cases hj
    · obtain rfl : i = j := Option.some.inj (hp.symm.trans hj)
      rw [t.self]
      exact hun hp
  agrees j hj hlt := by
    rcases hphase with hp | hp
    · rw [hp] at hj
      cases hj
    · obtain rfl : i = j := Option.some.inj (hp.symm.trans hj)
      rw [t.self]
      exact hagrees hp (t.count ▸ hlt)
  leftover a b ha hle hb hc := by
    rcases hphase with hp | hp
    · rw [hp] at ha
      cases ha
    · obtain rfl : i = a := Option.some.inj (hp.symm.trans ha)
      rw [t.count] at hle hb
      have hne : b ≠ i := by omega
      rw [t.other hne] at hc
      exact t.apart h hne (h.leftover i b (hleft hp) hle hb hc)
  fresh k hk j hkj hj := by
    rw [t.count] at hj
    rw [hstart] at hk
    have hold := h.fresh k hk j hkj hj
    by_cases he : j = i
    · subst he
      rw [t.self]
      refine Bool.eq_false_iff.mpr fun hc => ?_
      rcases hfresh hc with hold' | ⟨a, ha, rfl⟩
      · rw [hold] at hold'
        cases hold'
      · exact absurd (h.passed k a hk ha) (Nat.not_lt.mpr hkj)
    · rw [t.other he]
      exact hold
  passed k j hk hj := by
    rcases hphase with hp | hp
    · rw [hp] at hj
      cases hj
    · obtain rfl : i = j := Option.some.inj (hp.symm.trans hj)
      exact h.passed k i (hstart ▸ hk) (hleft hp)

/-- The API empties another configuration than the one under way. -/
private theorem Inv.beside (h : Inv s) (t : Touches s s' i c) (hi : i < s.count) (hne : s.phase.slot ≠ some i)
    (hphase : s'.phase = s.phase) (hstart : s'.starting = s.starting) (hc : c.udpConnected = false) : Inv s' where
  known := t.known h
  ready := ready_touch t h (.inl hi) (fun _ hc' => by rw [hc] at hc'; cases hc')
  apart := apart_touch t h
  unconnected j hj := by
    rw [hphase] at hj
    rw [t.other (fun he => hne (he ▸ hj))]
    exact h.unconnected j hj
  agrees j hj hlt := by
    rw [hphase] at hj ⊢
    rw [t.count] at hlt
    have hji : j ≠ i := fun he => hne (he ▸ hj)
    rw [t.other hji]
    exact agrees_mono (h.agrees j hj hlt) (t.stays_open (h.apart i j hi hlt (Ne.symm hji)))
  leftover a b ha hle hb hcb := by
    rw [hphase] at ha
    rw [t.count] at hle hb
    have hai : a ≠ i := fun he => hne (he ▸ ha)
    by_cases hbi : b = i
    · subst hbi
      rw [t.self, hc] at hcb
      cases hcb
    · rw [t.other hbi] at hcb
      intro socket hao hbo
      rw [t.other hai] at hao
      rw [t.other hbi] at hbo
      exact h.leftover a b ha hle hb hcb socket hao hbo
  fresh k hk j hkj hj := by
    rw [t.count] at hj
    by_cases he : j = i
    · subst he
      rw [t.self]
      exact hc
    · rw [t.other he]
      exact h.fresh k (hstart ▸ hk) j hkj hj
  passed k j hk hj := h.passed k j (hstart ▸ hk) (hphase ▸ hj)

end Touch

section Steps
variable {s s' : Associations} {i : Nat}

/-- A step that changes where the thread stands and nothing else. -/
private theorem touches_phase (s : Associations) (i : Nat) (p : EstablishPhase) :
    Touches s { s with phase := p } i (s.configs i) where
  configs := (Function.update_eq_self i s.configs).symm
  count := rfl
  next := Nat.le_refl _
  opened _ h _ := h
  owned _ h := .inl h

private theorem Inv.turn (h : Inv s) {p : EstablishPhase} (hs : s.phase.slot = some i)
    (hp : p.slot = none ∨ p.slot = some i) (hagrees : i < s.count → p.Agrees (s.configs i) s.openSockets) :
    Inv { s with phase := p } :=
  h.work (touches_phase s i p) (.inr hs) hp rfl (h.ready i) (fun _ => h.unconnected i hs) (fun _ => hagrees)
    (fun _ => hs) .inl

/-- The slot is emptied of its sockets. -/
private theorem touches_close (s : Associations) (i : Nat) (p : EstablishPhase) {c : UdpConfig}
    (hc : ∀ socket, ¬ c.Owns socket) :
    Touches s { s.store i c with openSockets := s.closeSockets i, phase := p } i c where
  configs := rfl
  count := rfl
  next := Nat.le_refl _
  opened _ h hno := mem_closeSockets h hno
  owned _ h := (hc _ h).elim

private theorem Inv.establish (h : Inv s) (hs : s.phase = .checked i) (now : UInt64) :
    Inv (s.beginEstablish i now) := by
  have hslot : s.phase.slot = some i := by rw [hs]; rfl
  have hun := h.unconnected i hslot
  unfold beginEstablish
  dsimp only
  split
  · exact h.turn hslot (.inl rfl) (fun _ => trivial)
  · refine h.work (touches_close s i _ (not_owns_withoutSockets (s.configs i))) (.inr hslot) (.inr rfl) rfl
      (fun _ hc => ?_) (fun _ => hun) (fun _ _ => trivial) (fun _ => hslot) .inl
    exact absurd hc (Bool.eq_false_iff.mp hun)

private theorem Inv.resolve (h : Inv s) (hs : s.phase = .opened i) (socks5Ip : UInt32) :
    Inv { s with phase := .resolved i (s.configs i).host socks5Ip } :=
  h.turn (by rw [hs]; rfl) (.inr rfl) (fun _ => rfl)

private theorem Inv.readPort (h : Inv s) {host : List UInt8} {socks5Ip : UInt32}
    (hs : s.phase = .resolved i host socks5Ip) :
    Inv { s with phase := .connecting i host socks5Ip (s.configs i).port } := by
  have hslot : s.phase.slot = some i := by rw [hs]; rfl
  refine h.turn hslot (.inr rfl) (fun hi => ⟨?_, rfl⟩)
  have hagrees := h.agrees i hslot hi
  rw [hs] at hagrees
  exact hagrees

private theorem Inv.answer (h : Inv s) {host : List UInt8} {socks5Ip : UInt32} {p : UInt16} (addr : UInt32 × UInt16)
    (hs : s.phase = .connecting i host socks5Ip p) :
    Inv { s.store i { s.configs i with udpRelayAddr := addr, negotiatedWith := some (host, p) } with
      phase := .answered i host p } := by
  have hslot : s.phase.slot = some i := by rw [hs]; rfl
  have hun := h.unconnected i hslot
  have t : Touches s { s.store i { s.configs i with udpRelayAddr := addr, negotiatedWith := some (host, p) } with
      phase := .answered i host p } i { s.configs i with udpRelayAddr := addr, negotiatedWith := some (host, p) } :=
    ⟨rfl, rfl, Nat.le_refl _, fun _ hm _ => hm, fun _ ho => .inl ho⟩
  refine h.work t (.inr hslot) (.inr rfl) rfl (fun _ hc => ?_) (fun _ => hun) (fun _ hi => ?_) (fun _ => hslot) .inl
  · exact absurd hc (Bool.eq_false_iff.mp hun)
  · have hagrees := h.agrees i hslot hi
    rw [hs] at hagrees
    exact ⟨hagrees.1, hagrees.2, rfl⟩

private theorem Inv.storeCtrl (h : Inv s) {host : List UInt8} {port : UInt16} (hs : s.phase = .answered i host port) :
    Inv (s.storeCtrl i host port) := by
  have hslot : s.phase.slot = some i := by rw [hs]; rfl
  have hun := h.unconnected i hslot
  have t : Touches s (s.storeCtrl i host port) i { s.configs i with udpTcpCtrl := some s.nextSocket } := by
    refine ⟨rfl, rfl, Nat.le_succ _, fun _ hm _ => List.mem_cons_of_mem _ hm, fun socket ho => ?_⟩
    rcases ho with ho | ho
    · obtain rfl := Option.some.inj ho
      exact .inr ⟨Nat.le_refl _, Nat.lt_succ_self _⟩
    · exact .inl (.inr ho)
  refine h.work t (.inr hslot) (.inr rfl) rfl (fun _ hc => ?_) (fun _ => hun) (fun _ hi => ?_) (fun _ => hslot) .inl
  · exact absurd hc (Bool.eq_false_iff.mp hun)
  · have hagrees := h.agrees i hslot hi
    rw [hs] at hagrees
    exact ⟨hagrees.1, hagrees.2.1, hagrees.2.2, s.nextSocket, rfl, List.mem_cons_self⟩

private theorem Inv.storeSend (h : Inv s) {host : List UInt8} {port : UInt16} (hs : s.phase = .controlled i host port)
    (created : Bool) : Inv (s.storeSend i host port created) := by
  have hslot : s.phase.slot = some i := by rw [hs]; rfl
  have hun := h.unconnected i hslot
  cases created with
  | true =>
    have t : Touches s (s.storeSend i host port true) i { s.configs i with udpSendSock := some s.nextSocket } := by
      refine ⟨rfl, rfl, Nat.le_succ _, fun _ hm _ => List.mem_cons_of_mem _ hm, fun socket ho => ?_⟩
      rcases ho with ho | ho
      · exact .inl (.inl ho)
      · obtain rfl := Option.some.inj ho
        exact .inr ⟨Nat.le_refl _, Nat.lt_succ_self _⟩
    refine h.work t (.inr hslot) (.inr rfl) rfl (fun _ hc => ?_) (fun _ => hun) (fun _ hi => ?_) (fun _ => hslot) .inl
    · exact absurd hc (Bool.eq_false_iff.mp hun)
    · have hagrees := h.agrees i hslot hi
      rw [hs] at hagrees
      obtain ⟨hhost, hport, hneg, socket, hctrl, hopen⟩ := hagrees
      exact ⟨hhost, hport, hneg, ⟨socket, hctrl, List.mem_cons_of_mem _ hopen⟩, s.nextSocket, rfl, List.mem_cons_self⟩
  | false =>
    have t : Touches s (s.storeSend i host port false) i
        { s.configs i with udpTcpCtrl := none, udpSendSock := none, udpConnected := false } := by
      refine ⟨rfl, rfl, Nat.le_refl _, fun socket hm hno => ?_, fun _ ho => ?_⟩
      · exact List.mem_filter.mpr ⟨hm, by simpa using fun he => hno (.inl he)⟩
      · rcases ho with ho | ho <;> cases ho
    exact h.work t (.inr hslot) (.inl rfl) rfl (fun _ hc => nomatch hc) (fun _ => rfl)
      (fun hp => nomatch hp) (fun _ => hslot) (fun hc => nomatch hc)

private theorem Inv.storeConnected (h : Inv s) {host : List UInt8} {port : UInt16}
    (hs : s.phase = .sending i host port) :
    Inv { s.store i { s.configs i with udpConnected := true } with phase := .idle } := by
  have hslot : s.phase.slot = some i := by rw [hs]; rfl
  have t : Touches s { s.store i { s.configs i with udpConnected := true } with phase := .idle } i
      { s.configs i with udpConnected := true } :=
    ⟨rfl, rfl, Nat.le_refl _, fun _ hm _ => hm, fun _ ho => .inl ho⟩
  refine h.work t (.inr hslot) (.inl rfl) rfl (fun hi _ => ?_) (fun hp => nomatch hp) (fun hp => nomatch hp)
    (fun hp => nomatch hp) (fun _ => .inr ⟨i, hslot, rfl⟩)
  have hagrees := h.agrees i hslot hi
  rw [hs] at hagrees
  obtain ⟨hhost, hport, hneg, hctrl, hsend⟩ := hagrees
  exact ⟨hctrl, hsend, by rw [hneg, ← hhost, ← hport]⟩

private theorem Inv.drop (h : Inv s) (hs : s.phase = .idle) (hi : i < s.count) : Inv (s.dropAssociation i) := by
  have t := touches_close s i s.phase
    (c := { (s.configs i).withoutSockets with udpConnected := false }) (not_owns_withoutSockets (s.configs i))
  have hnone : s.phase.slot = none := by rw [hs]; rfl
  refine h.work t (.inl hi) (.inl hnone) rfl (fun _ hc => nomatch hc) (fun _ => rfl) (fun hp => ?_) (fun hp => hp)
    (fun hc => nomatch hc)
  cases hnone.symm.trans hp

private theorem find_some {configId : UInt32} (h : s.find configId = some i) : i < s.count :=
  List.mem_range.mp (List.mem_of_find?_eq_some h)

/-- An edit that fits an establishment under way leaves it in agreement with its slot. -/
private theorem agrees_of_fitsEdit {p : EstablishPhase} {c c' : UdpConfig} {opened opened' : List Nat}
    {host : List UInt8} {port : UInt16} (h : p.Agrees c opened) (hfits : p.fitsEdit host port = true)
    (hhost : c'.host = host) (hport : c'.port = port) (hneg : c'.negotiatedWith = c.negotiatedWith) :
    p.Agrees c' opened' := by
  subst hhost hport
  cases p with
  | idle => trivial
  | checked => trivial
  | opened => trivial
  | resolved j host ip => exact (beq_iff_eq.mp hfits).symm
  | connecting j host ip port =>
    simp only [EstablishPhase.fitsEdit, Bool.and_eq_true, beq_iff_eq] at hfits
    exact ⟨hfits.1.symm, hfits.2.symm⟩
  | answered j host port =>
    simp only [EstablishPhase.fitsEdit, Bool.and_eq_true, beq_iff_eq] at hfits
    exact ⟨hfits.1.symm, hfits.2.symm, hneg.trans h.2.2⟩
  | controlled j host port => cases hfits
  | sending j host port => cases hfits

private theorem Inv.edit (h : Inv s) (hi : i < s.count) (type : ProxyType) (proxyIp : List UInt8) (proxyPort : UInt16)
    (hok : s.phase.slot = some i → s.phase.fitsEdit (strncpyTruncate 256 proxyIp) proxyPort = true) :
    Inv (s.editProxyConfig i type proxyIp proxyPort) := by
  have t := touches_close s i s.phase
    (c := { (s.configs i).withoutSockets with
      udpConnected := false, type, port := proxyPort, host := strncpyTruncate 256 proxyIp })
    (not_owns_withoutSockets (s.configs i))
  by_cases hs : s.phase.slot = some i
  · refine h.work t (.inl hi) (.inr hs) rfl (fun _ hc => nomatch hc) (fun _ => rfl) (fun _ _ => ?_) (fun _ => hs)
      (fun hc => nomatch hc)
    exact agrees_of_fitsEdit (h.agrees i hs hi) (hok hs) rfl rfl rfl
  · exact h.beside t hi hs rfl rfl rfl

/-- A configuration that fits an establishment under way may take the place of the one in its slot. -/
private theorem agrees_of_fitsMove {p : EstablishPhase} {c : UdpConfig} (opened : List Nat)
    (h : p.fitsMove c.udpConnected c.host c.port = true) (hs : p.slot = some i) :
    c.udpConnected = false ∧ p.Agrees c opened := by
  cases p with
  | idle => cases hs
  | checked => exact ⟨by simpa [EstablishPhase.fitsMove] using h, trivial⟩
  | opened => exact ⟨by simpa [EstablishPhase.fitsMove] using h, trivial⟩
  | resolved j host ip =>
    simp only [EstablishPhase.fitsMove, Bool.and_eq_true, Bool.not_eq_true', beq_iff_eq] at h
    exact ⟨h.1, h.2.symm⟩
  | connecting j host ip port =>
    simp only [EstablishPhase.fitsMove, Bool.and_eq_true, Bool.not_eq_true', beq_iff_eq] at h
    exact ⟨h.1.1, h.1.2.symm, h.2.symm⟩
  | answered j host port => cases h
  | controlled j host port => cases h
  | sending j host port => cases h

/-- The new configuration has no sockets. -/
private theorem Inv.add (h : Inv s) (type : ProxyType) (proxyIp : List UInt8) (proxyPort : UInt16)
    (hok : s.phase.slot = some s.count → s.phase.fitsMove false (strncpyTruncate 256 proxyIp) proxyPort = true) :
    Inv (s.addProxyConfig type proxyIp proxyPort) := by
  generalize hc : ({ UdpConfig.zeroed with
    configId := s.nextConfigId, type, port := proxyPort, host := strncpyTruncate 256 proxyIp } : UdpConfig) = c
  have hnone : ∀ socket, ¬ c.Owns socket := by
    subst hc
    rintro socket (ho | ho) <;> cases ho
  have hun : c.udpConnected = false := by subst hc; rfl
  have hmove : s.phase.slot = some s.count → s.phase.Agrees c s.openSockets := by
    intro hs
    have hfits := hok hs
    subst hc
    exact (agrees_of_fitsMove s.openSockets hfits hs).2
  have hself : (s.addProxyConfig type proxyIp proxyPort).configs s.count = c := by
    subst hc
    exact Function.update_self ..
  have hother : ∀ j, j ≠ s.count → (s.addProxyConfig type proxyIp proxyPort).configs j = s.configs j :=
    fun j hj => Function.update_of_ne hj _ _
  have hapart : ∀ a b, (a = s.count ∨ b = s.count ∨ s.Apart a b) →
      (s.addProxyConfig type proxyIp proxyPort).Apart a b := by
    intro a b hab socket ha hb
    by_cases ha' : a = s.count
    · rw [ha', hself] at ha
      exact hnone socket ha
    by_cases hb' : b = s.count
    · rw [hb', hself] at hb
      exact hnone socket hb
    · rw [hother a ha'] at ha
      rw [hother b hb'] at hb
      exact (hab.resolve_left ha').resolve_left hb' socket ha hb
  constructor
  case known =>
    intro j socket ho
    by_cases hj : j = s.count
    · rw [hj, hself] at ho
      exact (hnone socket ho).elim
    · rw [hother j hj] at ho
      exact h.known j socket ho
  case ready =>
    intro j hj hcj
    by_cases he : j = s.count
    · rw [he, hself, hun] at hcj
      cases hcj
    · rw [hother j he] at hcj ⊢
      exact h.ready j (Nat.lt_of_le_of_ne (Nat.le_of_lt_succ hj) he) hcj
  case apart =>
    intro a b ha hb hne
    apply hapart a b
    rcases Nat.lt_or_eq_of_le (Nat.le_of_lt_succ ha) with ha | ha
    · rcases Nat.lt_or_eq_of_le (Nat.le_of_lt_succ hb) with hb | hb
      · exact .inr (.inr (h.apart a b ha hb hne))
      · exact .inr (.inl hb)
    · exact .inl ha
  case unconnected =>
    intro j hj
    by_cases he : j = s.count
    · rw [he, hself]
      exact hun
    · rw [hother j he]
      exact h.unconnected j hj
  case agrees =>
    intro j hj hlt
    by_cases he : j = s.count
    · rw [he, hself]
      exact hmove (he ▸ hj)
    · rw [hother j he]
      exact h.agrees j hj (Nat.lt_of_le_of_ne (Nat.le_of_lt_succ hlt) he)
  case leftover =>
    intro a b ha hle hb hcb
    apply hapart a b
    rcases Nat.lt_or_eq_of_le (Nat.le_of_lt_succ hb) with hb | hb
    · rw [hother b (Nat.ne_of_lt hb)] at hcb
      exact .inr (.inr (h.leftover a b ha (Nat.le_of_succ_le hle) hb hcb))
    · exact .inr (.inl hb)
  case fresh =>
    intro k hk j hkj hj
    by_cases he : j = s.count
    · rw [he, hself]
      exact hun
    · rw [hother j he]
      exact h.fresh k hk j hkj (Nat.lt_of_le_of_ne (Nat.le_of_lt_succ hj) he)
  case passed => exact fun k j hk hj => h.passed k j hk hj

/-- Where the configuration stood that a deletion of `k` leaves in slot `j`. -/
private def origin (s : Associations) (k j : Nat) : Nat := if k ≤ j ∧ j + 1 < s.count then j + 1 else j

private theorem delete_configs (s : Associations) (k j : Nat) :
    (s.deleteProxyConfig k).configs j = s.configs (s.origin k j) := by
  simp only [deleteProxyConfig, origin]
  split <;> rfl

private theorem origin_spec {k j : Nat} (hk : k < s.count) (hj : j < s.count - 1) :
    s.origin k j < s.count ∧ s.origin k j ≠ k ∧ j ≤ s.origin k j := by
  unfold origin
  split <;> omega

private theorem origin_inj {k a b : Nat} (ha : a < s.count - 1) (hb : b < s.count - 1)
    (h : s.origin k a = s.origin k b) : a = b := by
  unfold origin at h
  split at h <;> split at h <;> omega

private theorem origin_last {k j : Nat} (hj : s.count - 1 ≤ j) : s.origin k j = j := by
  unfold origin
  rw [if_neg (by omega)]

private theorem origin_before {k j : Nat} (hj : j < k) : s.origin k j = j := by
  unfold origin
  rw [if_neg (by omega)]

private theorem origin_behind {k j : Nat} (hk : k ≤ j) (hj : j + 1 < s.count) : s.origin k j = j + 1 :=
  if_pos ⟨hk, hj⟩

private theorem Inv.delete (h : Inv s) {k : Nat} (hk : k < s.count)
    (hok : ∀ i, s.phase.slot = some i → i < k ∨ s.count ≤ i + 1 ∨
      s.phase.fitsMove (s.configs (i + 1)).udpConnected (s.configs (i + 1)).host (s.configs (i + 1)).port = true) :
    Inv (s.deleteProxyConfig k) := by
  have hstay : ∀ j, j < s.count → j ≠ k → ∀ socket, (s.configs j).Owns socket → socket ∈ s.openSockets →
      socket ∈ s.closeSockets k :=
    fun j hj hne socket ho hm => mem_closeSockets hm (fun hko => h.apart k j hk hj (Ne.symm hne) socket hko ho)
  constructor
  case known =>
    intro j socket ho
    rw [delete_configs] at ho
    exact h.known _ socket ho
  case ready =>
    intro j hj hc
    rw [delete_configs] at hc ⊢
    obtain ⟨hlt, hne, -⟩ := origin_spec hk hj
    exact Ready_mono (h.ready _ hlt hc) (hstay _ hlt hne)
  case apart =>
    intro a b ha hb hne socket hao hbo
    rw [delete_configs] at hao hbo
    exact h.apart _ _ (origin_spec hk ha).1 (origin_spec hk hb).1 (fun he => hne (origin_inj ha hb he)) socket hao hbo
  case unconnected =>
    intro i hi
    rw [delete_configs]
    by_cases hlast : s.count - 1 ≤ i
    · rw [origin_last hlast]
      exact h.unconnected i hi
    by_cases hbefore : i < k
    · rw [origin_before hbefore]
      exact h.unconnected i hi
    · have hfits := ((hok i hi).resolve_left hbefore).resolve_left (by omega)
      rw [origin_behind (Nat.le_of_not_lt hbefore) (by omega)]
      exact (agrees_of_fitsMove [] hfits hi).1
  case agrees =>
    intro i hi hlt
    rw [delete_configs]
    have hlt' : i < s.count - 1 := hlt
    by_cases hbefore : i < k
    · rw [origin_before hbefore]
      exact agrees_mono (h.agrees i hi (by omega)) (hstay i (by omega) (by omega))
    · have hfits := ((hok i hi).resolve_left hbefore).resolve_left (by omega)
      rw [origin_behind (Nat.le_of_not_lt hbefore) (by omega)]
      exact (agrees_of_fitsMove _ hfits hi).2
  case leftover =>
    intro i j hi hle hj hc socket hio hjo
    have hle' : s.count - 1 ≤ i := hle
    rw [delete_configs] at hc hjo
    rw [delete_configs, origin_last hle'] at hio
    obtain ⟨hlt, -, -⟩ := origin_spec hk hj
    by_cases hlive : i < s.count
    · have hne : i ≠ s.origin k j := by
        intro he
        rw [← he, h.unconnected i hi] at hc
        cases hc
      exact h.apart i _ hlive hlt hne socket hio hjo
    · exact h.leftover i _ hi (Nat.le_of_not_lt hlive) hlt hc socket hio hjo
  case fresh =>
    intro m hm j hmj hj
    rw [delete_configs]
    obtain ⟨hlt, -, hle⟩ := origin_spec hk hj
    exact h.fresh m hm _ (Nat.le_trans hmj hle) hlt
  case passed => exact fun m i hm hi => h.passed m i hm hi

/-- The thread takes a slot without an association. -/
private theorem Inv.check (h : Inv s) (hi : i < s.count) (hun : (s.configs i).udpConnected = false)
    {starting : Option Nat} (hstart : ∀ k, starting = some k → i < k ∧ ∃ m, s.starting = some m ∧ m ≤ k) :
    Inv { s with phase := .checked i, starting } where
  known := h.known
  ready := h.ready
  apart := h.apart
  unconnected j hj := by
    obtain rfl := Option.some.inj hj
    exact hun
  agrees j _ _ := trivial
  leftover a b ha hle := by
    obtain rfl := Option.some.inj ha
    exact absurd hi (Nat.not_lt.mpr hle)
  fresh k hk j hkj hj := by
    obtain ⟨-, m, hm, hle⟩ := hstart k hk
    exact h.fresh m hm j (Nat.le_trans hle hkj) hj
  passed k j hk hj := by
    obtain rfl := Option.some.inj hj
    exact (hstart k hk).1

/-- The loop at the start goes on without taking a slot. -/
private theorem Inv.pass (h : Inv s) (hs : s.phase = .idle) {starting : Option Nat}
    (hstart : ∀ k, starting = some k → ∃ m, s.starting = some m ∧ m ≤ k) : Inv { s with starting } where
  known := h.known
  ready := h.ready
  apart := h.apart
  unconnected := h.unconnected
  agrees := h.agrees
  leftover := h.leftover
  fresh k hk j hkj hj := by
    obtain ⟨m, hm, hle⟩ := hstart k hk
    exact h.fresh m hm j (Nat.le_trans hle hkj) hj
  passed k j _ hj := by
    rw [show s.phase = .idle from hs] at hj
    cases hj

private theorem Inv.startup (h : Inv s) (referenced : Bool) (hs : s.startup referenced = some s') : Inv s' := by
  unfold Associations.startup at hs
  split at hs
  · rename_i k hidle hstart
    have hnext : ∀ m, some (k + 1) = some m → ∃ n, s.starting = some n ∧ n ≤ m :=
      fun m hm => ⟨k, hstart, Option.some.inj hm ▸ Nat.le_succ k⟩
    split at hs
    · rename_i hlt
      split at hs
      · obtain rfl := Option.some.inj hs
        exact h.check hlt (h.fresh k hstart k (Nat.le_refl k) hlt)
          (fun m hm => ⟨Option.some.inj hm ▸ Nat.lt_succ_self k, hnext m hm⟩)
      · obtain rfl := Option.some.inj hs
        exact h.pass hidle hnext
    · obtain rfl := Option.some.inj hs
      exact h.pass hidle (fun m hm => nomatch hm)
  · cases hs

end Steps

theorem Inv.step {s s' : Associations} {a : AssociationAction} (h : Inv s) (hok : s.fits a = true)
    (hs : s.step a = some s') : Inv s' := by
  cases a with
  | startup referenced => exact h.startup referenced hs
  | check i =>
    simp only [Associations.step] at hs
    split at hs
    · rename_i hidle hstart
      split at hs
      · rename_i hc
        obtain rfl := Option.some.inj hs
        exact h.check hc.1 hc.2.2 (fun k hk => nomatch hstart.symm.trans hk)
      · cases hs
    · cases hs
  | establish now =>
    simp only [Associations.step] at hs
    split at hs
    · rename_i i hp
      exact Option.some.inj hs ▸ h.establish hp now
    · cases hs
  | resolve socks5Ip =>
    simp only [Associations.step] at hs
    split at hs
    · rename_i i hp
      split at hs
      · cases hs
      · exact Option.some.inj hs ▸ h.resolve hp socks5Ip
    · cases hs
  | readPort =>
    simp only [Associations.step] at hs
    split at hs
    · rename_i i host socks5Ip hp
      exact Option.some.inj hs ▸ h.readPort hp
    · cases hs
  | answer ip port =>
    simp only [Associations.step] at hs
    split at hs
    · rename_i i host socks5Ip p hp
      exact Option.some.inj hs ▸ h.answer _ hp
    · cases hs
  | storeCtrl =>
    simp only [Associations.step] at hs
    split at hs
    · rename_i i host port hp
      exact Option.some.inj hs ▸ h.storeCtrl hp
    · cases hs
  | storeSend created =>
    simp only [Associations.step] at hs
    split at hs
    · rename_i i host port hp
      exact Option.some.inj hs ▸ h.storeSend hp created
    · cases hs
  | storeConnected =>
    simp only [Associations.step] at hs
    split at hs
    · rename_i i host port hp
      exact Option.some.inj hs ▸ h.storeConnected hp
    · cases hs
  | fail =>
    simp only [Associations.step] at hs
    split at hs
    · rename_i i hp
      exact Option.some.inj hs ▸ h.turn (i := i) (by rw [hp]; rfl) (.inl rfl) (fun _ => trivial)
    · rename_i i _ _ hp
      exact Option.some.inj hs ▸ h.turn (i := i) (by rw [hp]; rfl) (.inl rfl) (fun _ => trivial)
    · rename_i i _ _ _ hp
      exact Option.some.inj hs ▸ h.turn (i := i) (by rw [hp]; rfl) (.inl rfl) (fun _ => trivial)
    · cases hs
  | drop i =>
    simp only [Associations.step] at hs
    split at hs
    · rename_i hidle _
      split at hs
      · rename_i hc
        exact Option.some.inj hs ▸ h.drop hidle hc.1
      · cases hs
    · cases hs
  | add type proxyIp proxyPort =>
    simp only [Associations.step] at hs
    split at hs
    · cases hs
    · refine Option.some.inj hs ▸ h.add type proxyIp proxyPort (fun hp => ?_)
      simpa [fits, hp] using hok
  | edit configId type proxyIp proxyPort =>
    simp only [Associations.step] at hs
    split at hs
    · cases hs
    · obtain ⟨i, hf, rfl⟩ := Option.map_eq_some_iff.mp hs
      refine h.edit (find_some hf) type proxyIp proxyPort (fun hp => ?_)
      simpa [fits, hf, hp] using hok
  | delete configId =>
    obtain ⟨k, hf, rfl⟩ := Option.map_eq_some_iff.mp hs
    refine h.delete (find_some hf) (fun i hp => ?_)
    simpa [fits, hf, hp, or_assoc] using hok

/-- In a run in which every API call fits the establishment that is under way, a configuration with
`udp_connected` has open sockets and an address that its own host and port gave. -/
theorem associations_ready_in_fitting_runs {s : Associations} (h : Reach step (fun s a => s.fits a = true) init s) :
    s.AllReady :=
  (h.invariant inv_init (fun _ _ _ hi hok hs => hi.step hok hs)).ready

/-- The name `a`. -/
def hostA : List UInt8 := [97]

/-- The name `b`. -/
def hostB : List UInt8 := [98]

/-- Two configurations; the relay establishes the second one while the first is edited, and it is moved
to the first place and edited itself afterwards. -/
theorem associations_ready_after_edits :
    ∃ s, Reach step (fun s a => s.fits a = true) init s ∧ s.count = 1 ∧ (s.configs 0).udpConnected = true ∧
      s.AllReady := by
  obtain ⟨s, hr, ht⟩ := exists_reach_of_exec step (fun s a => s.fits a = true) init
    [.add .socks5 hostA 1080, .add .socks5 hostB 1081, .startup false, .startup true, .establish 5000, .resolve 7,
      .edit 1 .http hostB 9, .readPort, .answer 0 4000, .storeCtrl, .storeSend true, .storeConnected, .delete 1]
    (fun s => s.count == 1 && (s.configs 0).udpConnected) (by decide +kernel)
  obtain ⟨hcount, hconn⟩ := Bool.and_eq_true_iff.mp ht
  exact ⟨s, hr, beq_iff_eq.mp hcount, hconn, associations_ready_in_fitting_runs hr⟩

/-- The configuration is edited while the relay negotiates with its former host; or one of two is
deleted then, and the answer goes to the other. -/
theorem association_of_another_proxy :
    (∃ s, Reach step (fun _ _ => True) init s ∧ ¬ s.AllReady) ∧
    ∃ s, Reach step (fun _ _ => True) init s ∧ s.count = 1 ∧ (s.configs 0).udpConnected = true ∧
      (s.configs 0).negotiatedWith = some (hostA, 1080) ∧ (s.configs 0).host = hostB := by
  constructor
  · obtain ⟨s, hr, ht⟩ := exists_reach_of_exec step (fun _ _ => True) init
      [.add .socks5 hostA 1080, .startup true, .establish 5000, .resolve 7, .readPort, .edit 1 .socks5 hostB 1080,
        .answer 0 4000, .storeCtrl, .storeSend true, .storeConnected]
      (fun s => s.count == 1 && (s.configs 0).udpConnected && (s.configs 0).negotiatedWith == some (hostA, 1080) &&
        (s.configs 0).host == hostB) (by decide +kernel)
    simp only [Bool.and_eq_true, beq_iff_eq] at ht
    obtain ⟨⟨⟨hcount, hconn⟩, hneg⟩, hhost⟩ := ht
    refine ⟨s, hr, fun hall => ?_⟩
    have hready := (hall 0 (by omega) hconn).negotiated
    rw [hneg, hhost] at hready
    cases hready
  · obtain ⟨s, hr, ht⟩ := exists_reach_of_exec step (fun _ _ => True) init
      [.add .socks5 hostA 1080, .add .socks5 hostB 1080, .startup true, .establish 5000, .resolve 7, .readPort,
        .delete 1, .answer 0 4000, .storeCtrl, .storeSend true, .storeConnected]
      (fun s => s.count == 1 && (s.configs 0).udpConnected && (s.configs 0).negotiatedWith == some (hostA, 1080) &&
        (s.configs 0).host == hostB) (by decide +kernel)
    simp only [Bool.and_eq_true, beq_iff_eq] at ht
    exact ⟨s, hr, ht.1.1.1, ht.1.1.2, ht.1.2, ht.2⟩

end Associations
end ProxyBridge.Windows
