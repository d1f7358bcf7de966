import ProxyBridge.Library.Runs
import ProxyBridge.MacOS.KokoroBoxConfiguration

/-! The three channels that change the active configuration: the polls of the shared policy file on
their queue, the provider messages, and `startProxy` and `stopProxy`, which the system calls one after
the other. -/
namespace ProxyBridge.MacOS
open Runs

structure KokoroBoxPolicyEnvelope where
  version : Int
  revision : String
  configuration : KokoroBoxConfiguration
  deriving DecidableEq, Repr

/-- Where a poll stands, with the envelope that it read. -/
inductive PollPhase where
  | idle
  | read (envelope : KokoroBoxPolicyEnvelope)
  /-- The revision differs from the last one. -/
  | installing (envelope : KokoroBoxPolicyEnvelope)
  | installed (envelope : KokoroBoxPolicyEnvelope)
  /-- The revision is the last one. -/
  | acknowledging (envelope : KokoroBoxPolicyEnvelope)
  deriving DecidableEq

/-- Whether the acknowledgement that the poll is going to write speaks of the active configuration. -/
def PollPhase.relies : PollPhase → Bool
  | .installed _ | .acknowledging _ => true
  | .idle | .read _ | .installing _ => false

/-- Where `startProxy` and `stopProxy` stand. -/
inductive Lifecycle where
  | stopped
  /-- `startProxy` has installed the observer. -/
  | starting
  | started
  /-- `stopProxy` has removed the observer. -/
  | unobserved
  /-- It has forgotten the revision. -/
  | forgotten
  /-- It has cleared the configuration. -/
  | cleared
  deriving DecidableEq, Repr

/-- Whether polls may be under way. -/
def Lifecycle.active : Lifecycle → Bool
  | .starting | .started => true
  | .stopped | .unobserved | .forgotten | .cleared => false

/-- An acknowledgement with status `ok`, and the configuration that was active when it was written. -/
structure Acknowledged where
  envelope : KokoroBoxPolicyEnvelope
  active : Option KokoroBoxConfiguration

structure SharedPolicy where
  configuration : Option KokoroBoxConfiguration
  trafficLoggingEnabled : Bool
  lastRevision : Option String
  /-- The configuration of the envelope that `lastRevision` was taken from. -/
  lastConfiguration : Option KokoroBoxConfiguration
  observerInstalled : Bool
  /-- Polls that wait on the queue. -/
  queued : Nat
  poll : PollPhase
  lifecycle : Lifecycle
  acknowledgements : List Acknowledged

inductive PolicyAction where
  /-- The timer fires or a notification comes. -/
  | notify
  /-- The next poll starts; the file may be missing or not decode. -/
  | read (envelope : Option KokoroBoxPolicyEnvelope)
  | compare
  | install
  | record
  | acknowledge (written : Bool)
  /-- A message `replaceKokoroBoxConfiguration`, with what its data decode to. -/
  | replace (decoded : Option KokoroBoxConfiguration)
  | observe
  /-- The rest of `startProxy`, with the configuration of the provider if it has one. -/
  | start (provider : Option (Option KokoroBoxConfiguration))
  | unobserve
  | forget
  | clear
  | complete

namespace SharedPolicy

def init : SharedPolicy := ⟨none, true, none, none, false, 0, .idle, .stopped, []⟩

section Validation
variable (lowercased : String → String)

/-- The active configuration does not change when the new one is not valid. -/
def installKokoroBoxConfiguration (s : SharedPolicy) (decoded : Option KokoroBoxConfiguration) : SharedPolicy :=
  match validatedKokoroBoxConfiguration lowercased decoded with
  | some configuration =>
    { s with configuration := some configuration, trafficLoggingEnabled := configuration.diagnosticLogging }
  | none => s

/-- The steps of `loadSharedKokoroBoxPolicy`. -/
def advancePoll (s : SharedPolicy) : PolicyAction → PollPhase → Option SharedPolicy
  | .read envelope, .idle =>
    if s.queued = 0 then none
    else some { s with
      queued := s.queued - 1
      poll := (envelope.filter (fun e => e.version == 1)).elim .idle .read }
  | .compare, .read e =>
    some { s with poll := if s.lastRevision = some e.revision then .acknowledging e else .installing e }
  | .install, .installing e =>
    match validatedKokoroBoxConfiguration lowercased (some e.configuration) with
    | some _ => some { s.installKokoroBoxConfiguration lowercased (some e.configuration) with poll := .installed e }
    | none => some { s with poll := .idle }
  | .record, .installed e =>
    some { s with
      lastRevision := some e.revision, lastConfiguration := some e.configuration, poll := .acknowledging e }
  | .acknowledge written, .acknowledging e =>
    some { s with
      poll := .idle
      acknowledgements := if written then ⟨e, s.configuration⟩ :: s.acknowledgements else s.acknowledgements }
  | _, _ => none

/-- The steps of `startProxy` and `stopProxy`. -/
def advanceLifecycle (s : SharedPolicy) : PolicyAction → Lifecycle → Option SharedPolicy
  | .observe, .stopped | .observe, .started => some { s with observerInstalled := true, lifecycle := .starting }
  | .start provider, .starting =>
    some { provider.elim s (s.installKokoroBoxConfiguration lowercased) with lifecycle := .started }
  | .unobserve, .started => some { s with observerInstalled := false, lifecycle := .unobserved }
  | .forget, .unobserved => some { s with lastRevision := none, lifecycle := .forgotten }
  | .clear, .forgotten => some { s with configuration := none, lifecycle := .cleared }
  | .complete, .cleared => some { s with lifecycle := .stopped }
  | _, _ => none

def step (s : SharedPolicy) : PolicyAction → Option SharedPolicy
  | .notify => if s.observerInstalled then some { s with queued := s.queued + 1 } else none
  | .replace decoded => some (s.installKokoroBoxConfiguration lowercased decoded)
  | .read envelope => s.advancePoll lowercased (.read envelope) s.poll
  | .compare => s.advancePoll lowercased .compare s.poll
  | .install => s.advancePoll lowercased .install s.poll
  | .record => s.advancePoll lowercased .record s.poll
  | .acknowledge written => s.advancePoll lowercased (.acknowledge written) s.poll
  | .observe => s.advanceLifecycle lowercased .observe s.lifecycle
  | .start provider => s.advanceLifecycle lowercased (.start provider) s.lifecycle
  | .unobserve => s.advanceLifecycle lowercased .unobserve s.lifecycle
  | .forget => s.advanceLifecycle lowercased .forget s.lifecycle
  | .clear => s.advanceLifecycle lowercased .clear s.lifecycle
  | .complete => s.advanceLifecycle lowercased .complete s.lifecycle

/-- Whether a configuration from a message or from `startProxy` may become active now: `stopProxy` has
yet to clear it, or it is the active one, or no revision is recorded and no poll relies on the active one. -/
def admits (s : SharedPolicy) (configuration : KokoroBoxConfiguration) : Bool :=
  match s.lifecycle with
  | .unobserved | .forgotten => true
  | .cleared | .stopped => false
  | .starting | .started =>
    s.configuration == some configuration || (s.lastRevision.isNone && !s.poll.relies)

/-- Such a configuration comes only when it is admitted; `stopProxy` removes the observer while no poll
waits or runs; and an envelope with the last revision has the configuration that was recorded with it. -/
def undisturbed (s : SharedPolicy) : PolicyAction → Bool
  | .replace decoded => (validatedKokoroBoxConfiguration lowercased decoded).all s.admits
  | .start provider => provider.all fun decoded => (validatedKokoroBoxConfiguration lowercased decoded).all s.admits
  | .unobserve => s.queued == 0 && s.poll == .idle
  | .compare =>
    match s.poll with
    | .read e => s.lastRevision != some e.revision || s.lastConfiguration == some e.configuration
    | _ => true
  | _ => true

end Validation

structure Inv (s : SharedPolicy) : Prop where
  recorded : s.lifecycle.active = true → s.lastRevision ≠ none → (∀ e, s.poll ≠ .installed e) →
    s.configuration = s.lastConfiguration
  polled : ∀ e, s.poll = .installed e ∨ s.poll = .acknowledging e → s.configuration = some e.configuration
  quiet : s.lifecycle.active = false → s.queued = 0 ∧ s.poll = .idle ∧ s.observerInstalled = false
  forgotten : s.lifecycle = .forgotten ∨ s.lifecycle = .cleared ∨ s.lifecycle = .stopped → s.lastRevision = none
  cleared : s.lifecycle = .cleared ∨ s.lifecycle = .stopped → s.configuration = none
  acknowledged : ∀ a ∈ s.acknowledgements, a.active = some a.envelope.configuration

theorem inv_init : Inv init where
  recorded h := by cases h
  polled e h := by rcases h with h | h <;> cases h
  quiet _ := ⟨rfl, rfl, rfl⟩
  forgotten _ := rfl
  cleared _ := rfl
  acknowledged a h := by cases h

section Step
variable {lowercased : String → String} {s s' : SharedPolicy}

private theorem validated_some {c c' : KokoroBoxConfiguration}
    (h : validatedKokoroBoxConfiguration lowercased (some c) = some c') : c' = c :=
  (Option.some.inj (Option.filter_eq_some_iff.mp h).1).symm

/-- While a poll is under way neither `startProxy` nor `stopProxy` has left the observer removed. -/
private theorem Inv.active (h : Inv s) (hp : s.poll ≠ .idle) : s.lifecycle.active = true := by
  cases ha : s.lifecycle.active with
  | true => rfl
  | false => exact (hp (h.quiet ha).2.1).elim

/-- A step of a poll leaves the lifecycle alone. -/
private theorem Inv.pollStep (h : Inv s) (hp : s.poll ≠ .idle ∨ s.queued ≠ 0) (hl : s'.lifecycle = s.lifecycle)
    (hrec : s'.lastRevision ≠ none → (∀ e, s'.poll ≠ .installed e) → s'.configuration = s'.lastConfiguration)
    (hpolled : ∀ e, s'.poll = .installed e ∨ s'.poll = .acknowledging e → s'.configuration = some e.configuration)
    (hack : ∀ a ∈ s'.acknowledgements, a.active = some a.envelope.configuration) : Inv s' := by
  have hactive : s.lifecycle.active = true := by
    cases ha : s.lifecycle.active with
    | true => rfl
    | false =>
      obtain ⟨hq, hi, -⟩ := h.quiet ha
      exact (hp.elim (fun hp => hp hi) (fun hp => hp hq)).elim
  have hno : ∀ l, l.active = false → s'.lifecycle ≠ l := by
    intro l hl' he
    rw [← he, hl, hactive] at hl'
    cases hl'
  refine ⟨fun _ => hrec, hpolled, fun ha => ?_, fun hf => ?_, fun hc => ?_, hack⟩
  · rw [hl, hactive] at ha
    cases ha
  · rcases hf with hf | hf | hf <;> exact (hno _ rfl hf).elim
  · rcases hc with hc | hc <;> exact (hno _ rfl hc).elim

private theorem Inv.read (h : Inv s) (hq : s.queued ≠ 0) (hp : s.poll = .idle)
    (envelope : Option KokoroBoxPolicyEnvelope) :
    Inv { s with queued := s.queued - 1, poll := envelope.elim .idle .read } := by
  have hactive : s.lifecycle.active = true := by
    cases ha : s.lifecycle.active with
    | true => rfl
    | false => exact (hq (h.quiet ha).1).elim
  refine h.pollStep (.inr hq) rfl (fun hl _ => ?_) (fun e he => ?_) h.acknowledged
  · exact h.recorded hactive hl (fun e he => by rw [hp] at he; cases he)
  · cases envelope <;> rcases he with he | he <;> cases he

private theorem Inv.compare (h : Inv s) {e : KokoroBoxPolicyEnvelope} (hp : s.poll = .read e)
    (hok : s.lastRevision = some e.revision → s.lastConfiguration = some e.configuration) :
    Inv { s with poll := if s.lastRevision = some e.revision then .acknowledging e else .installing e } := by
  have hne : s.poll ≠ .idle := by rw [hp]; exact fun hc => nomatch hc
  have hrec := h.recorded (h.active hne)
  have hno : ∀ e', s.poll ≠ .installed e' := fun e' he => by rw [hp] at he; cases he
  refine h.pollStep (.inl hne) rfl (fun hl _ => hrec hl hno) (fun e' he => ?_) h.acknowledged
  by_cases hr : s.lastRevision = some e.revision
  · simp only [hr, if_true] at he
    obtain rfl : e = e' := by
      rcases he with he | he
      · cases he
      · exact PollPhase.acknowledging.inj he
    exact (hrec (by rw [hr]; exact fun hc => nomatch hc) hno).trans (hok hr)
  · simp only [hr, if_false] at he
    rcases he with he | he <;> cases he

private theorem Inv.install (h : Inv s) {e : KokoroBoxPolicyEnvelope} (hp : s.poll = .installing e)
    (hs : s.advancePoll lowercased .install (.installing e) = some s') : Inv s' := by
  have hne : s.poll ≠ .idle := by rw [hp]; exact fun hc => nomatch hc
  simp only [advancePoll] at hs
  split at hs
  · rename_i c hc
    obtain rfl := Option.some.inj hs
    obtain rfl := validated_some hc
    simp only [installKokoroBoxConfiguration, hc]
    refine h.pollStep (.inl hne) rfl (fun _ hi => (hi e rfl).elim) (fun e' he => ?_) h.acknowledged
    obtain rfl : e = e' := by
      rcases he with he | he
      · exact PollPhase.installed.inj he
      · cases he
    rfl
  · obtain rfl := Option.some.inj hs
    refine h.pollStep (.inl hne) rfl (fun hl _ => ?_) (fun e' he => ?_) h.acknowledged
    · exact h.recorded (h.active hne) hl (fun e' he => by rw [hp] at he; cases he)
    · rcases he with he | he <;> cases he

private theorem Inv.record (h : Inv s) {e : KokoroBoxPolicyEnvelope} (hp : s.poll = .installed e) :
    Inv { s with
      lastRevision := some e.revision, lastConfiguration := some e.configuration, poll := .acknowledging e } := by
  have hne : s.poll ≠ .idle := by rw [hp]; exact fun hc => nomatch hc
  have hactive := h.polled e (.inl hp)
  refine h.pollStep (.inl hne) rfl (fun _ _ => hactive) (fun e' he => ?_) h.acknowledged
  obtain rfl : e = e' := by
    rcases he with he | he
    · cases he
    · exact PollPhase.acknowledging.inj he
  exact hactive

private theorem Inv.acknowledge (h : Inv s) {e : KokoroBoxPolicyEnvelope} (hp : s.poll = .acknowledging e)
    (written : Bool) :
    Inv { s with
      poll := .idle
      acknowledgements := if written then ⟨e, s.configuration⟩ :: s.acknowledgements else s.acknowledgements } := by
  have hne : s.poll ≠ .idle := by rw [hp]; exact fun hc => nomatch hc
  refine h.pollStep (.inl hne) rfl (fun hl _ => ?_) (fun e' he => ?_) (fun a ha => ?_)
  · exact h.recorded (h.active hne) hl (fun e' he => by rw [hp] at he; cases he)
  · rcases he with he | he <;> cases he
  · cases written with
    | false => exact h.acknowledged a ha
    | true =>
      rcases List.mem_cons.mp ha with rfl | ha
      · exact h.polled e (.inr hp)
      · exact h.acknowledged a ha

/-- The active configuration is replaced by itself, or nothing relies on it. -/
private theorem Inv.replaceActive (h : Inv s) {c : KokoroBoxConfiguration} (hl : s.lifecycle.active = true)
    (hok : s.configuration = some c ∨ s.lastRevision = none ∧ s.poll.relies = false) :
    Inv { s with configuration := some c, trafficLoggingEnabled := c.diagnosticLogging } := by
  have hno : ∀ l, l.active = false → s.lifecycle ≠ l := by
    intro l hl' he
    rw [← he, hl] at hl'
    cases hl'
  refine ⟨fun _ hr hp => ?_, fun e he => ?_, fun ha => ?_, h.forgotten, fun hc => ?_, h.acknowledged⟩
  · rcases hok with hc | ⟨hnone, -⟩
    · exact hc.symm.trans (h.recorded hl hr hp)
    · exact (hr hnone).elim
  · rcases hok with hc | ⟨-, hrelies⟩
    · exact hc.symm.trans (h.polled e he)
    · rcases he with he | he <;> simp [show s.poll = _ from he, PollPhase.relies] at hrelies
  · cases hl.symm.trans ha
  · rcases hc with hc | hc <;> exact (hno _ rfl hc).elim

/-- The configuration is going to be cleared. -/
private theorem Inv.replaceStopping (h : Inv s) {c : KokoroBoxConfiguration}
    (hl : s.lifecycle = .unobserved ∨ s.lifecycle = .forgotten) :
    Inv { s with configuration := some c, trafficLoggingEnabled := c.diagnosticLogging } := by
  have hquiet : s.queued = 0 ∧ s.poll = .idle ∧ s.observerInstalled = false := by
    apply h.quiet
    rcases hl with hl | hl <;> rw [hl] <;> rfl
  refine ⟨fun ha => ?_, fun e he => ?_, fun _ => hquiet, h.forgotten, fun hc => ?_, h.acknowledged⟩
  · rcases hl with hl | hl <;> simp [show s.lifecycle = _ from hl, Lifecycle.active] at ha
  · rcases he with he | he <;> cases hquiet.2.1.symm.trans he
  · rcases hl with hl | hl <;> simp [show s.lifecycle = _ from hl] at hc

private theorem admits_cases {c : KokoroBoxConfiguration} (h : s.admits c = true) :
    (s.lifecycle = .unobserved ∨ s.lifecycle = .forgotten) ∨
      s.lifecycle.active = true ∧ (s.configuration = some c ∨ s.lastRevision = none ∧ s.poll.relies = false) := by
  unfold admits at h
  split at h
  · rename_i hl
    exact .inl (.inl hl)
  · rename_i hl
    exact .inl (.inr hl)
  · cases h
  · cases h
  · rename_i hl
    exact .inr ⟨by rw [hl]; rfl, by simpa using h⟩
  · rename_i hl
    exact .inr ⟨by rw [hl]; rfl, by simpa using h⟩

/-- A message or `startProxy` brings a configuration. -/
private theorem Inv.replace (h : Inv s) (decoded : Option KokoroBoxConfiguration)
    (hok : (validatedKokoroBoxConfiguration lowercased decoded).all s.admits = true) :
    Inv (s.installKokoroBoxConfiguration lowercased decoded) := by
  unfold installKokoroBoxConfiguration
  cases hv : validatedKokoroBoxConfiguration lowercased decoded with
  | none => exact h
  | some c =>
    rw [hv] at hok
    rcases admits_cases hok with hl | ⟨hl, hcase⟩
    · exact h.replaceStopping hl
    · exact h.replaceActive hl hcase

private theorem Inv.observe (h : Inv s) (hl : s.lifecycle = .stopped ∨ s.lifecycle = .started) :
    Inv { s with observerInstalled := true, lifecycle := .starting } := by
  refine ⟨fun _ hr hp => ?_, h.polled, fun ha => (nomatch ha), fun hf => ?_, fun hc => ?_, h.acknowledged⟩
  · rcases hl with hl | hl
    · exact (hr (h.forgotten (.inr (.inr hl)))).elim
    · exact h.recorded (by rw [hl]; rfl) hr hp
  · rcases hf with hf | hf | hf <;> cases hf
  · rcases hc with hc | hc <;> cases hc

/-- The end of `startProxy`. -/
private theorem Inv.started (h : Inv s) (hl : s.lifecycle = .starting) : Inv { s with lifecycle := .started } := by
  refine ⟨fun _ => h.recorded (by rw [hl]; rfl), h.polled, fun ha => (nomatch ha), fun hf => ?_, fun hc => ?_,
    h.acknowledged⟩
  · rcases hf with hf | hf | hf <;> cases hf
  · rcases hc with hc | hc <;> cases hc

private theorem Inv.unobserve (h : Inv s) (hq : s.queued = 0) (hi : s.poll = .idle) :
    Inv { s with observerInstalled := false, lifecycle := .unobserved } := by
  refine ⟨fun ha => (nomatch ha), h.polled, fun _ => ⟨hq, hi, rfl⟩, fun hf => ?_, fun hc => ?_, h.acknowledged⟩
  · rcases hf with hf | hf | hf <;> cases hf
  · rcases hc with hc | hc <;> cases hc

private theorem Inv.forget (h : Inv s) (hl : s.lifecycle = .unobserved) :
    Inv { s with lastRevision := none, lifecycle := .forgotten } := by
  refine ⟨fun ha => (nomatch ha), h.polled, fun _ => h.quiet (by rw [hl]; rfl), fun _ => rfl, fun hc => ?_,
    h.acknowledged⟩
  rcases hc with hc | hc <;> cases hc

private theorem Inv.clear (h : Inv s) (hl : s.lifecycle = .forgotten) :
    Inv { s with configuration := none, lifecycle := .cleared } := by
  have hquiet := h.quiet (by rw [hl]; rfl)
  refine ⟨fun ha => (nomatch ha), fun e he => ?_, fun _ => hquiet, fun _ => h.forgotten (.inl hl), fun _ => rfl,
    h.acknowledged⟩
  rcases he with he | he <;> cases hquiet.2.1.symm.trans he

private theorem Inv.complete (h : Inv s) (hl : s.lifecycle = .cleared) : Inv { s with lifecycle := .stopped } :=
  ⟨fun ha => (nomatch ha), h.polled, fun _ => h.quiet (by rw [hl]; rfl), fun _ => h.forgotten (.inr (.inl hl)),
    fun _ => h.cleared (.inl hl), h.acknowledged⟩

private theorem Inv.advancePoll (h : Inv s) {a : PolicyAction} (hok : s.undisturbed lowercased a = true)
    (hs : s.advancePoll lowercased a s.poll = some s') : Inv s' := by
  cases hp : s.poll with
  | idle =>
    rw [hp] at hs
    cases a with
    | read envelope =>
      simp only [SharedPolicy.advancePoll] at hs
      split at hs
      · cases hs
      · rename_i hq
        exact Option.some.inj hs ▸ h.read hq hp _
    | _ => cases hs
  | read e =>
    rw [hp] at hs
    cases a with
    | compare =>
      refine Option.some.inj hs ▸ h.compare hp (fun hr => ?_)
      simpa [undisturbed, hp, hr] using hok
    | _ => cases hs
  | installing e =>
    rw [hp] at hs
    cases a with
    | install => exact h.install hp hs
    | _ => cases hs
  | installed e =>
    rw [hp] at hs
    cases a with
    | record => exact Option.some.inj hs ▸ h.record hp
    | _ => cases hs
  | acknowledging e =>
    rw [hp] at hs
    cases a with
    | acknowledge written => exact Option.some.inj hs ▸ h.acknowledge hp written
    | _ => cases hs

private theorem install_lifecycle (s : SharedPolicy) (decoded : Option KokoroBoxConfiguration) :
    (s.installKokoroBoxConfiguration lowercased decoded).lifecycle = s.lifecycle := by
  unfold installKokoroBoxConfiguration
  split <;> rfl

private theorem Inv.advanceLifecycle (h : Inv s) {a : PolicyAction} (hok : s.undisturbed lowercased a = true)
    (hs : s.advanceLifecycle lowercased a s.lifecycle = some s') : Inv s' := by
  unfold SharedPolicy.advanceLifecycle at hs
  split at hs
  · rename_i hl
    exact Option.some.inj hs ▸ h.observe (.inl hl)
  · rename_i hl
    exact Option.some.inj hs ▸ h.observe (.inr hl)
  · rename_i provider hl
    obtain rfl := Option.some.inj hs
    cases provider with
    | none => exact h.started hl
    | some decoded => exact (h.replace decoded hok).started ((install_lifecycle s decoded).trans hl)
  · obtain ⟨hq, hi⟩ := Bool.and_eq_true_iff.mp hok
    exact Option.some.inj hs ▸ h.unobserve (beq_iff_eq.mp hq) (beq_iff_eq.mp hi)
  · rename_i hl
    exact Option.some.inj hs ▸ h.forget hl
  · rename_i hl
    exact Option.some.inj hs ▸ h.clear hl
  · rename_i hl
    exact Option.some.inj hs ▸ h.complete hl
  · cases hs

theorem Inv.step {a : PolicyAction} (h : Inv s) (hok : s.undisturbed lowercased a = true)
    (hs : s.step lowercased a = some s') : Inv s' := by
  cases a with
  | notify =>
    simp only [SharedPolicy.step] at hs
    split at hs
    · rename_i ho
      obtain rfl := Option.some.inj hs
      refine ⟨h.recorded, h.polled, fun ha => ?_, h.forgotten, h.cleared, h.acknowledged⟩
      cases ho.symm.trans (h.quiet ha).2.2
    · cases hs
  | replace decoded => exact Option.some.inj hs ▸ h.replace decoded hok
  | read envelope => exact h.advancePoll hok hs
  | compare => exact h.advancePoll hok hs
  | install => exact h.advancePoll hok hs
  | record => exact h.advancePoll hok hs
  | acknowledge written => exact h.advancePoll hok hs
  | observe => exact h.advanceLifecycle hok hs
  | start provider => exact h.advanceLifecycle hok hs
  | unobserve => exact h.advanceLifecycle hok hs
  | forget => exact h.advanceLifecycle hok hs
  | clear => exact h.advanceLifecycle hok hs
  | complete => exact h.advanceLifecycle hok hs

end Step

/-- In an undisturbed run every acknowledgement speaks of the configuration that is active, and none is
active between the end of `stopProxy` and the next `startProxy`. -/
theorem acknowledged_policy_active {lowercased : String → String} {s : SharedPolicy}
    (h : Reach (step lowercased) (fun s a => s.undisturbed lowercased a = true) init s) :
    (∀ a ∈ s.acknowledgements, a.active = some a.envelope.configuration) ∧
      (s.lifecycle = .stopped → s.configuration = none) := by
  have hinv := h.invariant inv_init (fun _ _ _ hi hok hs => hi.step hok hs)
  exact ⟨hinv.acknowledged, fun hl => hinv.cleared (.inr hl)⟩

/-- A configuration without rules. -/
def emptyPolicy (proxyUdpDns : Bool) : KokoroBoxConfiguration :=
  ⟨1, true, true, "127.0.0.1", 7891, proxyUdpDns, "127.0.0.1", 7892, false, []⟩

/-- The envelope of its first revision. -/
def firstEnvelope : KokoroBoxPolicyEnvelope := ⟨1, "1", emptyPolicy true⟩

/-- A poll between the two parts of `startProxy`, a message that brings the same configuration, a second
poll, and `stopProxy`. -/
theorem acknowledged_policy_active_then_stopped :
    ∃ s, Reach (step id) (fun s a => s.undisturbed id a = true) init s ∧ s.acknowledgements.length = 2 ∧
      (∀ a ∈ s.acknowledgements, a.active = some a.envelope.configuration) ∧ s.configuration = none := by
  obtain ⟨s, hr, ht⟩ := exists_reach_of_exec (step id) (fun s a => s.undisturbed id a = true) init
    [.observe, .notify, .read (some firstEnvelope), .start (some (some (emptyPolicy false))), .compare, .install,
      .record, .acknowledge true, .notify, .replace (some (emptyPolicy true)), .read (some firstEnvelope), .compare,
      .acknowledge true, .unobserve, .forget, .clear, .complete]
    (fun s => s.acknowledgements.length == 2 && s.lifecycle == .stopped) (by decide +kernel)
  obtain ⟨hlen, hl⟩ := Bool.and_eq_true_iff.mp ht
  obtain ⟨hacks, hstop⟩ := acknowledged_policy_active hr
  exact ⟨s, hr, beq_iff_eq.mp hlen, hacks, hstop (beq_iff_eq.mp hl)⟩

/-- A message replaces the configuration and the next poll acknowledges the recorded revision for it; a
poll that waits when the observer is removed installs its configuration after `stopProxy`. -/
theorem acknowledged_policy_not_active :
    (∃ s, Reach (step id) (fun _ _ => True) init s ∧
      ∃ a ∈ s.acknowledgements, a.active ≠ some a.envelope.configuration) ∧
    ∃ s, Reach (step id) (fun _ _ => True) init s ∧ s.lifecycle = .stopped ∧ s.configuration ≠ none := by
  constructor
  · obtain ⟨s, hr, ht⟩ := exists_reach_of_exec (step id) (fun _ _ => True) init
      [.observe, .start none, .notify, .read (some firstEnvelope), .compare, .install, .record, .acknowledge true,
        .replace (some (emptyPolicy false)), .notify, .read (some firstEnvelope), .compare, .acknowledge true]
      (fun s => s.acknowledgements.any (fun a => a.active != some a.envelope.configuration)) (by decide +kernel)
    obtain ⟨a, ha, hne⟩ := List.any_eq_true.mp ht
    exact ⟨s, hr, a, ha, by simpa using hne⟩
  · obtain ⟨s, hr, ht⟩ := exists_reach_of_exec (step id) (fun _ _ => True) init
      [.observe, .start none, .notify, .unobserve, .forget, .clear, .complete, .read (some firstEnvelope), .compare,
        .install]
      (fun s => s.lifecycle == .stopped && s.configuration.isSome) (by decide +kernel)
    obtain ⟨hl, hc⟩ := Bool.and_eq_true_iff.mp ht
    refine ⟨s, hr, beq_iff_eq.mp hl, fun hnone => ?_⟩
    rw [hnone] at hc
    cases hc

end SharedPolicy
end ProxyBridge.MacOS
