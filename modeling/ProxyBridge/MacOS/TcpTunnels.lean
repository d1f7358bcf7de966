import ProxyBridge.Library.Runs
import ProxyBridge.MacOS.FlowVerdicts
import ProxyBridge.MacOS.TcpHandshakes

/-! The tunnel of a TCP flow. Behind the handshake two loops copy in both directions beside each other, and the
timer of the handshake or a stop may end it before. -/
namespace ProxyBridge.MacOS
open Conversations Handshake Runs

/-- Where a loop of the relay is. -/
inductive RelayLoop where
  | reading
  | writing
  | closed
  deriving DecidableEq

inductive TunnelStage where
  | handshake (talk : Talk UInt8 NSError TcpOutcome)
  | opening
  /-- The loops `relayClientToProxy` and `relayProxyToClient`. -/
  | relaying (client proxy : RelayLoop)
  | ended
  | trapped

structure TcpTunnel where
  stage : TunnelStage
  /-- The connection has an entry in `pendingHandshakes`. -/
  pending : Bool
  toProxy : List UInt8
  fromProxy : List UInt8
  fromClient : List UInt8
  toClient : List UInt8
  /-- The errors with which the flow has been closed for reading and for writing. -/
  closes : List (Option NSError)
  cancelled : Bool
  log : List String

inductive TunnelEvent where
  /-- A callback of the handshake. -/
  | answer (a : Answer UInt8 NSError)
  /-- The timer or `stopProxy` finds the entry of the connection. -/
  | handshakeTimeout
  | opened (error : Option NSError)
  | clientRead (data : Option (List UInt8)) (error : Option NSError)
  | proxyWritten (error : Option NSError)
  | proxyRead (data : Option (List UInt8)) (error : Option NSError)
  | clientWritten (error : Option NSError)

namespace TcpTunnel
variable (s : TcpTunnel)

def write (message : String) : TcpTunnel := { s with log := s.log ++ [message] }

def close (error : Option NSError) : TcpTunnel := { s with closes := s.closes ++ [error], cancelled := true }

def closeRelay (error : Option NSError) : TcpTunnel := { s with pending := false }.close error

/-- `completeHandshake` takes the entry away. While the extension is stopping there are no entries. -/
def relayData : TcpTunnel :=
  if s.pending then { s with pending := false, stage := .opening } else { s with stage := .ended }

def finish : TcpOutcome → TcpTunnel
  | .relayData => s.relayData
  | .failed message error => ({ s with stage := .ended }.write message).close error
  | .closeRelay message => ({ s with stage := .ended }.write message).closeRelay none
  | .trapped => { s with stage := .trapped }

/-- Go on with a handshake up to the next callback. -/
def advance (talk : Talk UInt8 NSError TcpOutcome) : TcpTunnel :=
  let s' := { s with stage := .handshake talk, toProxy := talk.sent, fromProxy := talk.taken }
  match talk.rest with
  | .done outcome => s'.finish outcome
  | .write _ _ | .read _ _ _ => s'

/-- A read of a loop that ends with this error. Some errors are expected. -/
def readFailed (who : String) (error : NSError) : TcpTunnel :=
  if error.code ≠ 57 ∧ error.code ≠ 54 ∧ error.code ≠ 89 then
    (s.write (who ++ " read error: " ++ error.localizedDescription)).closeRelay none
  else s.closeRelay none

def writeFailed (who : String) (error : NSError) : TcpTunnel :=
  (s.write (who ++ " write error: " ++ error.localizedDescription)).closeRelay (some error)

def step : TunnelEvent → Option TcpTunnel
  | .answer a =>
    match s.stage with
    | .handshake talk => (talk.step a).map s.advance
    | _ => none
  | .handshakeTimeout => if s.pending then some ({ s with pending := false }.close none) else none
  | .opened error =>
    match s.stage with
    | .opening =>
      match error with
      | some error =>
        let s' := { s with stage := .ended }.write ("Failed to open client flow: " ++ error.localizedDescription)
        some (s'.closeRelay (some error))
      | none => some { s with stage := .relaying .reading .reading }
    | _ => none
  | .clientRead data error =>
    match s.stage with
    | .relaying .reading proxy =>
      match error, data with
      | some error, _ => some ({ s with stage := .relaying .closed proxy }.readFailed "Client" error)
      | none, some (b :: data) =>
        some { s with
          stage := .relaying .writing proxy
          fromClient := s.fromClient ++ b :: data
          toProxy := s.toProxy ++ b :: data }
      | none, _ => some ({ s with stage := .relaying .closed proxy }.closeRelay none)
    | _ => none
  | .proxyWritten error =>
    match s.stage with
    | .relaying .writing proxy =>
      match error with
      | some error => some ({ s with stage := .relaying .closed proxy }.writeFailed "Proxy" error)
      | none => some { s with stage := .relaying .reading proxy }
    | _ => none
  | .proxyRead data error =>
    match s.stage with
    | .relaying client .reading =>
      match error, data with
      | some error, _ => some ({ s with stage := .relaying client .closed }.readFailed "Proxy" error)
      | none, some (b :: data) =>
        some { s with
          stage := .relaying client .writing
          fromProxy := s.fromProxy ++ b :: data
          toClient := s.toClient ++ b :: data }
      | none, _ => some ({ s with stage := .relaying client .closed }.closeRelay none)
    | _ => none
  | .clientWritten error =>
    match s.stage with
    | .relaying client .writing =>
      match error with
      | some error => some ({ s with stage := .relaying client .closed }.writeFailed "Client" error)
      | none => some { s with stage := .relaying client .reading }
    | _ => none

/-- `proxyTCPFlow`, where `armed` is what `armHandshakeTimeout` returns. -/
def proxyTCPFlow (R : SwiftRuntime) (contains200 : String → Bool) (t : TcpTarget) (armed : Bool) : TcpTunnel :=
  let s : TcpTunnel := ⟨.ended, false, [], [], [], [], [], false, []⟩
  if !armed then s.close none
  else
    match t.handshake R contains200 with
    | some talk => { s with pending := true }.advance (.begin talk)
    | none =>
      { s with
        pending := true
        log := ["unsupported proxy type: " ++ t.config.type]
        closes := [none] }

section Invariant
variable (R : SwiftRuntime) (contains200 : String → Bool) (t : TcpTarget)

/-- What a tunnel has passed on, behind a handshake that has or has not succeeded. -/
def Carries (agreed : Bool) : Prop :=
  ∃ sent taken, t.Spoken R contains200 sent taken agreed ∧ s.toProxy = sent ++ s.fromClient ∧
    s.fromProxy = taken ++ s.toClient

def Idle : Prop := s.fromClient = [] ∧ s.toClient = []

/-- The flow is closed and the connection cancelled. -/
def Settled : Prop := s.closes ≠ [] ∧ s.cancelled = true

/-- What holds at each stage. A connection that is left alone has an entry for its timer, and only one for a proxy
of an unknown type ends so. -/
def Inv : Prop :=
  match s.stage with
  | .handshake talk =>
    talk.Keeps (fun sent taken b => t.Spoken R contains200 sent taken (TcpOutcome.agrees b)) ∧
      talk.rest.result = none ∧ s.toProxy = talk.sent ∧ s.fromProxy = talk.taken ∧ s.Idle ∧
      (s.pending = true ∨ s.Settled)
  | .opening => s.Carries R contains200 t true ∧ s.Idle ∧ s.pending = false
  | .relaying client proxy =>
    s.Carries R contains200 t true ∧ s.pending = false ∧ (client = .closed ∨ proxy = .closed → s.Settled)
  | .ended => ∃ agreed, s.Carries R contains200 t agreed ∧ s.Idle ∧
      (s.Settled ∨ s.closes ≠ [] ∧ s.pending = true ∧ t.handshake R contains200 = none)
  | .trapped => ∃ agreed, s.Carries R contains200 t agreed ∧ s.Idle

variable {s R contains200 t}

private theorem Carries.handshake {agreed : Bool} {sent taken : List UInt8}
    (h : t.Spoken R contains200 sent taken agreed) (hidle : s.Idle) (hsent : s.toProxy = sent)
    (htaken : s.fromProxy = taken) : s.Carries R contains200 t agreed :=
  ⟨sent, taken, h, by rw [hsent, hidle.1, List.append_nil], by rw [htaken, hidle.2, List.append_nil]⟩

theorem advance_inv {talk : Talk UInt8 NSError TcpOutcome} (hidle : s.Idle) (hp : s.pending = true ∨ s.Settled)
    (hkeeps : talk.Keeps (fun sent taken b => t.Spoken R contains200 sent taken (TcpOutcome.agrees b))) :
    (s.advance talk).Inv R contains200 t := by
  obtain ⟨rest, sent, taken⟩ := talk
  have hnow := hkeeps.now
  cases rest with
  | write data next => exact ⟨hkeeps, rfl, rfl, rfl, hidle, hp⟩
  | read least most next => exact ⟨hkeeps, rfl, rfl, rfl, hidle, hp⟩
  | done outcome =>
    cases outcome with
    | relayData =>
      rw [advance]
      dsimp only [finish]
      rw [relayData]
      split
      · exact ⟨.handshake hnow hidle rfl rfl, hidle, rfl⟩
      · rename_i hpending
        exact ⟨true, .handshake hnow hidle rfl rfl, hidle, .inl (hp.resolve_left hpending)⟩
    | failed message error =>
      exact ⟨false, .handshake hnow hidle rfl rfl, hidle, .inl ⟨List.append_ne_nil_of_right_ne_nil _ (by simp), rfl⟩⟩
    | closeRelay message =>
      exact ⟨false, .handshake hnow hidle rfl rfl, hidle, .inl ⟨List.append_ne_nil_of_right_ne_nil _ (by simp), rfl⟩⟩
    | trapped => exact ⟨false, .handshake hnow hidle rfl rfl, hidle⟩

theorem proxyTCPFlow_inv (armed : Bool) : (proxyTCPFlow R contains200 t armed).Inv R contains200 t := by
  rw [proxyTCPFlow]
  dsimp only
  split
  · exact ⟨false, ⟨[], [], .silent, rfl, rfl⟩, ⟨rfl, rfl⟩, .inl ⟨by simp [close], rfl⟩⟩
  split
  · rename_i talk htalk
    exact advance_inv ⟨rfl, rfl⟩ (.inl rfl) (.begin (handshake_always htalk))
  · rename_i hnone
    exact ⟨false, ⟨[], [], .silent, rfl, rfl⟩, ⟨rfl, rfl⟩, .inr ⟨by simp, rfl, hnone⟩⟩

theorem Settled.close (error : Option NSError) : (s.close error).Settled :=
  ⟨List.append_ne_nil_of_right_ne_nil _ (List.cons_ne_nil _ _), rfl⟩

/-- A loop that ends closes the flow and cancels the connection, whatever it ends with. -/
theorem closeRelay_inv (hcarries : s.Carries R contains200 t true) (client proxy : RelayLoop)
    (error : Option NSError) : ({ s with stage := .relaying client proxy }.closeRelay error).Inv R contains200 t :=
  ⟨hcarries, rfl, fun _ => Settled.close error⟩

theorem readFailed_inv (hcarries : s.Carries R contains200 t true) (client proxy : RelayLoop) (who : String)
    (error : NSError) : ({ s with stage := .relaying client proxy }.readFailed who error).Inv R contains200 t := by
  unfold readFailed
  split
  · exact closeRelay_inv (s := s.write _) hcarries client proxy none
  · exact closeRelay_inv hcarries client proxy none

theorem writeFailed_inv (hcarries : s.Carries R contains200 t true) (client proxy : RelayLoop) (who : String)
    (error : NSError) : ({ s with stage := .relaying client proxy }.writeFailed who error).Inv R contains200 t :=
  closeRelay_inv (s := s.write _) hcarries client proxy (some error)

theorem Inv.relaying (h : s.Inv R contains200 t) {client proxy : RelayLoop}
    (hstage : s.stage = .relaying client proxy) :
    s.Carries R contains200 t true ∧ s.pending = false ∧ (client = .closed ∨ proxy = .closed → s.Settled) := by
  rwa [Inv, hstage] at h

theorem Inv.answer {talk talk' : Talk UInt8 NSError TcpOutcome} (hstage : s.stage = .handshake talk)
    (h : s.Inv R contains200 t) {a : Answer UInt8 NSError} (hs : talk.step a = some talk') :
    (s.advance talk').Inv R contains200 t := by
  rw [Inv, hstage] at h
  obtain ⟨hkeeps, -, -, -, hidle, hp⟩ := h
  exact advance_inv hidle hp (hkeeps.step hs)

theorem Inv.handshakeTimeout (h : s.Inv R contains200 t) :
    ({ s with pending := false }.close none).Inv R contains200 t := by
  have hsettled : ({ s with pending := false }.close none).Settled := Settled.close none
  obtain ⟨stage, _⟩ := s
  cases stage with
  | handshake talk => exact ⟨h.1, h.2.1, h.2.2.1, h.2.2.2.1, h.2.2.2.2.1, .inr hsettled⟩
  | opening => exact ⟨h.1, h.2.1, rfl⟩
  | relaying client proxy => exact ⟨h.1, rfl, fun _ => hsettled⟩
  | ended =>
    obtain ⟨agreed, hcarries, hidle, -⟩ := h
    exact ⟨agreed, hcarries, hidle, .inl hsettled⟩
  | trapped => exact h

/-- What goes through the tunnel in one turn of the loop from the client. -/
theorem Carries.fromClient {agreed : Bool} (h : s.Carries R contains200 t agreed) (stage : TunnelStage)
    (data : List UInt8) :
    { s with
      stage
      fromClient := s.fromClient ++ data
      toProxy := s.toProxy ++ data }.Carries R contains200 t agreed := by
  obtain ⟨sent, taken, hspoken, hproxy, hclient⟩ := h
  exact ⟨sent, taken, hspoken, by rw [hproxy, List.append_assoc], hclient⟩

/-- The same for the loop from the proxy. -/
theorem Carries.fromProxy {agreed : Bool} (h : s.Carries R contains200 t agreed) (stage : TunnelStage)
    (data : List UInt8) :
    { s with
      stage
      fromProxy := s.fromProxy ++ data
      toClient := s.toClient ++ data }.Carries R contains200 t agreed := by
  obtain ⟨sent, taken, hspoken, hproxy, hclient⟩ := h
  exact ⟨sent, taken, hspoken, hproxy, by rw [hclient, List.append_assoc]⟩

theorem Inv.step (h : s.Inv R contains200 t) {e : TunnelEvent} {s' : TcpTunnel} (hs : s.step e = some s') :
    s'.Inv R contains200 t := by
  cases e with
  | answer a =>
    simp only [TcpTunnel.step] at hs
    split at hs
    · rename_i talk hstage
      obtain ⟨talk', htalk, rfl⟩ := Option.map_eq_some_iff.mp hs
      exact h.answer hstage htalk
    · cases hs
  | handshakeTimeout =>
    simp only [TcpTunnel.step] at hs
    split at hs
    · obtain rfl := Option.some.inj hs
      exact h.handshakeTimeout
    · cases hs
  | opened error =>
    simp only [TcpTunnel.step] at hs
    split at hs
    · rename_i hstage
      rw [Inv, hstage] at h
      obtain ⟨hcarries, hidle, hpending⟩ := h
      split at hs
      · obtain rfl := Option.some.inj hs
        exact ⟨true, hcarries, hidle, .inl (Settled.close _)⟩
      · obtain rfl := Option.some.inj hs
        exact ⟨hcarries, hpending, by simp⟩
    · cases hs
  | clientRead data error =>
    simp only [TcpTunnel.step] at hs
    split at hs
    · rename_i proxy hstage
      obtain ⟨hcarries, hpending, hclosed⟩ := h.relaying hstage
      split at hs
      · obtain rfl := Option.some.inj hs
        exact readFailed_inv hcarries _ _ _ _
      · obtain rfl := Option.some.inj hs
        exact ⟨hcarries.fromClient _ _, hpending, fun hc => hclosed (hc.imp_left (by simp))⟩
      · obtain rfl := Option.some.inj hs
        exact closeRelay_inv hcarries _ _ _
    · cases hs
  | proxyWritten error =>
    simp only [TcpTunnel.step] at hs
    split at hs
    · rename_i proxy hstage
      obtain ⟨hcarries, hpending, hclosed⟩ := h.relaying hstage
      split at hs
      · obtain rfl := Option.some.inj hs
        exact writeFailed_inv hcarries _ _ _ _
      · obtain rfl := Option.some.inj hs
        exact ⟨hcarries, hpending, fun hc => hclosed (hc.imp_left (by simp))⟩
    · cases hs
  | proxyRead data error =>
    simp only [TcpTunnel.step] at hs
    split at hs
    · rename_i client hstage
      obtain ⟨hcarries, hpending, hclosed⟩ := h.relaying hstage
      split at hs
      · obtain rfl := Option.some.inj hs
        exact readFailed_inv hcarries _ _ _ _
      · obtain rfl := Option.some.inj hs
        exact ⟨hcarries.fromProxy _ _, hpending, fun hc => hclosed (hc.imp_right (by simp))⟩
      · obtain rfl := Option.some.inj hs
        exact closeRelay_inv hcarries _ _ _
    · cases hs
  | clientWritten error =>
    simp only [TcpTunnel.step] at hs
    split at hs
    · rename_i client hstage
      obtain ⟨hcarries, hpending, hclosed⟩ := h.relaying hstage
      split at hs
      · obtain rfl := Option.some.inj hs
        exact writeFailed_inv hcarries _ _ _ _
      · obtain rfl := Option.some.inj hs
        exact ⟨hcarries, hpending, fun hc => hclosed (hc.imp_right (by simp))⟩
    · cases hs

/-- What has been sent ahead of the client's bytes and received ahead of those for it. -/
theorem Inv.carries (h : s.Inv R contains200 t) :
    ∃ agreed, s.Carries R contains200 t agreed ∧
      (agreed = false → s.Idle ∧ s.stage ≠ .opening ∧ ∀ client proxy, s.stage ≠ .relaying client proxy) := by
  unfold Inv at h
  split at h
  · rename_i talk hstage
    obtain ⟨hkeeps, hresult, hsent, htaken, hidle, -⟩ := h
    have hnow := hkeeps.now
    rw [hresult] at hnow
    exact ⟨false, .handshake hnow hidle hsent htaken, fun _ => ⟨hidle, by simp [hstage], by simp [hstage]⟩⟩
  · exact ⟨true, h.1, fun hfalse => by cases hfalse⟩
  · exact ⟨true, h.1, fun hfalse => by cases hfalse⟩
  · rename_i hstage
    obtain ⟨agreed, hcarries, hidle, -⟩ := h
    exact ⟨agreed, hcarries, fun _ => ⟨hidle, by simp [hstage], by simp [hstage]⟩⟩
  · rename_i hstage
    obtain ⟨agreed, hcarries, hidle⟩ := h
    exact ⟨agreed, hcarries, fun _ => ⟨hidle, by simp [hstage], by simp [hstage]⟩⟩

end Invariant

/-- Nothing more is to come, or one of the loops has ended. -/
def Over (s : TcpTunnel) : Prop :=
  match s.stage with
  | .relaying client proxy => client = .closed ∨ proxy = .closed
  | .ended => True
  | .handshake _ | .opening | .trapped => False

/-- However the callbacks and the timer come, and whatever the proxy answers: behind the bytes of the handshake the
proxy is sent just what the client has sent, and the client is given just what the proxy has sent behind what the
reads of the handshake took, in the order in which it came. Those reads may take less than the proxy's answer, whose
end the client is then given, or more than it. Nothing is passed on, nor is the flow opened, unless the proxy has
agreed to reach the destination of the flow. When a handshake or a loop has ended, the flow is closed and the
connection cancelled, but for a proxy of an unknown type, whose connection is left to the timer. -/
theorem tcp_flows_tunnel_to_destination {R : SwiftRuntime} {contains200 : String → Bool} {t : TcpTarget} {armed : Bool}
    {s : TcpTunnel} (hr : Reach step (fun _ _ => True) (proxyTCPFlow R contains200 t armed) s) :
    (∃ agreed sent taken, t.Spoken R contains200 sent taken agreed ∧ s.toProxy = sent ++ s.fromClient ∧
      s.fromProxy = taken ++ s.toClient ∧
      (agreed = false → (s.fromClient = [] ∧ s.toClient = []) ∧ s.stage ≠ .opening ∧
        ∀ client proxy, s.stage ≠ .relaying client proxy)) ∧
    ((∀ b ∈ utf8Bytes t.destination, b ≠ 13 ∧ b ≠ 32) → t.Connects R (t.httpRequest R)) ∧
    (s.Over → s.closes ≠ [] ∧ (s.cancelled = true ∨ s.pending = true ∧ t.handshake R contains200 = none)) := by
  have h : s.Inv R contains200 t := by
    apply hr.invariant
    · exact proxyTCPFlow_inv armed
    · exact fun _ _ _ h _ hs => h.step hs
  obtain ⟨agreed, ⟨sent, taken, hspoken, hproxy, hclient⟩, hidle⟩ := h.carries
  refine ⟨⟨agreed, sent, taken, hspoken, hproxy, hclient, hidle⟩, httpRequest_connects, fun hover => ?_⟩
  unfold Over at hover
  split at hover
  · rename_i hstage
    obtain ⟨-, -, hclosed⟩ := h.relaying hstage
    exact ⟨(hclosed hover).1, .inl (hclosed hover).2⟩
  · rename_i hstage
    rw [Inv, hstage] at h
    obtain ⟨agreed, -, -, hsettled | ⟨hcloses, hpending, hnone⟩⟩ := h
    · exact ⟨hsettled.1, .inl hsettled.2⟩
    · exact ⟨hcloses, .inr ⟨hpending, hnone⟩⟩
  · exact hover.elim
  · exact hover.elim
  · exact hover.elim

def namedTarget : TcpTarget := ⟨"a", 80, ⟨"socks5", "proxy", 1080, none, none⟩⟩

/-- A handshake, a byte from the client and a byte from the proxy. -/
theorem tcp_flows_tunnel_to_destination_named :
    ∃ s sent taken, Reach step (fun _ _ => True) (proxyTCPFlow plainRuntime (fun _ => false) namedTarget true) s ∧
      namedTarget.Spoken plainRuntime (fun _ => false) sent taken true ∧ s.toProxy = sent ++ [7] ∧
      s.fromProxy = taken ++ [8] := by
  obtain ⟨s, hr, hbytes⟩ := exists_reach_of_exec step (fun _ _ => True)
    (proxyTCPFlow plainRuntime (fun _ => false) namedTarget true)
    [.answer (.wrote none), .answer (.read (some [5, 0]) none), .answer (.wrote none),
      .answer (.read (some [5, 0, 0, 1, 127, 0, 0, 1, 4, 210]) none), .opened none, .clientRead (some [7]) none,
      .proxyRead (some [8]) none]
    (fun s => s.fromClient == [7] && s.toClient == [8]) (by decide +kernel)
  rw [Bool.and_eq_true, beq_iff_eq, beq_iff_eq] at hbytes
  obtain ⟨⟨agreed, sent, taken, hspoken, hproxy, hclient, hidle⟩, -⟩ := tcp_flows_tunnel_to_destination hr
  cases agreed with
  | false => cases hbytes.1.symm.trans (hidle rfl).1.1
  | true => exact ⟨s, sent, taken, hr, hspoken, hbytes.1 ▸ hproxy, hbytes.2 ▸ hclient⟩

end TcpTunnel

end ProxyBridge.MacOS
