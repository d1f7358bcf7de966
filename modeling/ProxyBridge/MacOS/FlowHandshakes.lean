import ProxyBridge.MacOS.FlowSteps

/-! The attempts of a provider: each has a connection and a token of its own, and once an attempt is
settled nothing but its own callbacks refers to the connection. -/
namespace ProxyBridge.MacOS
namespace AppProxyProvider
variable {UUID : Type} {uuid : Nat → UUID} {s s' : AppProxyProvider UUID} {c : Nat}

theorem lookup_of_erase {α β : Type} [DecidableEq α] {d : AList fun _ : α => β} {a b : α} {p : β}
    (h : (d.erase a).lookup b = some p) : b ≠ a ∧ d.lookup b = some p := by
  by_cases hb : b = a
  · rw [hb, AList.lookup_erase] at h
    cases h
  · rw [AList.lookup_erase_ne hb] at h
    exact ⟨hb, h⟩

theorem Settled.notMem {id : Nat} {p : PendingHandshake UUID} (h : s.Settled c)
    (hp : s.pendingHandshakes.lookup id = some p) : p.connection ≠ c :=
  h.2 id p hp

theorem lookup_of_insert {α β : Type} [DecidableEq α] {d : AList fun _ : α => β} {a b : α} {p q : β}
    (h : (d.insert a q).lookup b = some p) : b = a ∧ p = q ∨ d.lookup b = some p := by
  by_cases hb : b = a
  · rw [hb, AList.lookup_insert] at h
    exact .inl ⟨hb, (Option.some.inj h).symm⟩
  · rw [AList.lookup_insert_ne hb] at h
    exact .inr h

/-- Pending handshakes are for live connections and stand under their identifiers; every attempt has a token
that `UUID()` has returned for it alone. -/
structure Registry (uuid : Nat → UUID) (s : AppProxyProvider UUID) : Prop where
  live : ∀ c, (s.connection c).live = true → c ∈ s.created
  armed : ∀ c, (s.connection c).token.isSome → c ∈ s.created
  identifiers : ∀ c c', (s.connection c).live = true → (s.connection c').live = true →
    (s.connection c).identifier = (s.connection c').identifier → c = c'
  entries : ∀ id p, s.pendingHandshakes.lookup id = some p → (s.connection p.connection).live = true ∧
    (s.connection p.connection).identifier = id ∧ (s.connection p.connection).token = some p.token
  issued : ∀ c t, (s.connection c).token = some t → ∃ n < s.uuids, uuid n = t
  tokens : ∀ c c' t, (s.connection c).token = some t → (s.connection c').token = some t → c = c'

namespace Registry

theorem initial : (initial : AppProxyProvider UUID).Registry uuid where
  live _ h := nomatch h
  armed _ h := nomatch h
  identifiers _ _ h := nomatch h
  entries _ _ h := nomatch h
  issued _ _ h := nomatch h
  tokens _ _ _ h := nomatch h

theorem entry_of_live (h : s.Registry uuid) {p : PendingHandshake UUID} (hlive : (s.connection c).live = true)
    (hp : s.pendingHandshakes.lookup (s.connection c).identifier = some p) : p.connection = c := by
  obtain ⟨hlive', hid, _⟩ := h.entries _ _ hp
  exact h.identifiers _ _ hlive' hlive hid

/-- Once its entry is erased no pending handshake is for the connection. -/
theorem erased (h : s.Registry uuid) (hlive : (s.connection c).live = true) {id : Nat} {p : PendingHandshake UUID}
    (hp : (s.pendingHandshakes.erase (s.connection c).identifier).lookup id = some p) : p.connection ≠ c := by
  obtain ⟨hne, hp⟩ := lookup_of_erase hp
  obtain ⟨_, hid, _⟩ := h.entries _ _ hp
  rintro rfl
  exact hne hid.symm

/-- Connections and pending handshakes are at most given up. -/
theorem keep (h : s.Registry uuid) (hcreated : s'.created = s.created) (huuids : s'.uuids = s.uuids)
    (hlive : ∀ c, (s'.connection c).live = true → (s.connection c).live = true)
    (hid : ∀ c, (s'.connection c).identifier = (s.connection c).identifier)
    (htoken : ∀ c, (s'.connection c).token = (s.connection c).token)
    (hpending : ∀ id p, s'.pendingHandshakes.lookup id = some p → s.pendingHandshakes.lookup id = some p ∧
      ((s.connection p.connection).live = true → (s'.connection p.connection).live = true)) : s'.Registry uuid where
  live c hc := hcreated ▸ h.live c (hlive c hc)
  armed c hc := by
    rw [htoken] at hc
    exact hcreated ▸ h.armed c hc
  identifiers c c' hc hc' heq := by
    rw [hid, hid] at heq
    exact h.identifiers c c' (hlive c hc) (hlive c' hc') heq
  entries id p hp := by
    obtain ⟨hold, hkept⟩ := hpending id p hp
    obtain ⟨hc, hident, htok⟩ := h.entries id p hold
    exact ⟨hkept hc, (hid _).trans hident, (htoken _).trans htok⟩
  issued c t hc := by
    rw [htoken] at hc
    exact huuids ▸ h.issued c t hc
  tokens c c' t hc hc' := by
    rw [htoken] at hc hc'
    exact h.tokens c c' t hc hc'

private theorem created (h : s.Registry uuid) {identifier : Nat} (udp : Bool) (flow : Nat) (hc : c ∉ s.created)
    (hid : ∀ c' ∈ s.created, (s.connection c').live = true → (s.connection c').identifier ≠ identifier) :
    (s.createTCPConnection c identifier udp flow).Registry uuid := by
  have hself : (s.createTCPConnection c identifier udp flow).connection c =
      ⟨identifier, udp, flow, none, .running, true⟩ := Function.update_self ..
  have hother : ∀ d, d ≠ c → (s.createTCPConnection c identifier udp flow).connection d = s.connection d :=
    fun d hd => Function.update_of_ne hd ..
  have htoken : ∀ d t, ((s.createTCPConnection c identifier udp flow).connection d).token = some t →
      (s.connection d).token = some t := by
    intro d t hd
    by_cases hdc : d = c
    · rw [hdc, hself] at hd
      cases hd
    · rwa [hother d hdc] at hd
  refine ⟨fun d hd => ?_, fun d hd => ?_, fun d d' hd hd' heq => ?_, fun id p hp => ?_, fun d t hd => ?_,
    fun d d' t hd hd' => h.tokens d d' t (htoken d t hd) (htoken d' t hd')⟩
  · by_cases hdc : d = c
    · exact hdc ▸ Finset.mem_insert_self ..
    · rw [hother d hdc] at hd
      exact Finset.mem_insert_of_mem (h.live d hd)
  · obtain ⟨t, ht⟩ := Option.isSome_iff_exists.mp hd
    exact Finset.mem_insert_of_mem (h.armed d (by rw [htoken d t ht]; rfl))
  · by_cases hdc : d = c
    · by_cases hdc' : d' = c
      · exact hdc.trans hdc'.symm
      · rw [hdc, hself, hother d' hdc'] at heq
        rw [hother d' hdc'] at hd'
        exact (hid d' (h.live d' hd') hd' heq.symm).elim
    · rw [hother d hdc] at hd heq
      by_cases hdc' : d' = c
      · rw [hdc', hself] at heq
        exact (hid d (h.live d hd) hd heq).elim
      · rw [hother d' hdc'] at hd' heq
        exact h.identifiers d d' hd hd' heq
  · have hne : p.connection ≠ c := by
      rintro rfl
      exact hc (h.live _ (h.entries id p hp).1)
    rw [hother _ hne]
    exact h.entries id p hp
  · exact h.issued d t (htoken d t hd)

/-- An attempt gets the next token. -/
private theorem attempt (h : s.Registry uuid) (huuid : Function.Injective uuid) (hlive : (s.connection c).live = true)
    (hconn : s'.connection = Function.update s.connection c { s.connection c with token := some (uuid s.uuids) })
    (hcreated : s'.created = s.created) (huuids : s'.uuids = s.uuids + 1)
    (hpending : ∀ id p, s'.pendingHandshakes.lookup id = some p →
      p.connection ≠ c ∧ s.pendingHandshakes.lookup id = some p ∨
        id = (s.connection c).identifier ∧ p.connection = c ∧ p.token = uuid s.uuids) : s'.Registry uuid := by
  have hself : s'.connection c = { s.connection c with token := some (uuid s.uuids) } := by
    rw [hconn, Function.update_self]
  have hother : ∀ d, d ≠ c → s'.connection d = s.connection d := by
    intro d hd
    rw [hconn, Function.update_of_ne hd]
  have hkeep : ∀ d, (s'.connection d).live = (s.connection d).live ∧
      (s'.connection d).identifier = (s.connection d).identifier := by
    intro d
    by_cases hdc : d = c
    · rw [hdc, hself]
      exact ⟨rfl, rfl⟩
    · rw [hother d hdc]
      exact ⟨rfl, rfl⟩
  have hnew : ∀ d, d ≠ c → (s'.connection d).token ≠ some (uuid s.uuids) := by
    intro d hd htok
    rw [hother d hd] at htok
    obtain ⟨n, hn, heq⟩ := h.issued d _ htok
    exact Nat.lt_irrefl _ (huuid heq ▸ hn)
  refine ⟨fun d hd => ?_, fun d hd => ?_, fun d d' hd hd' heq => ?_, fun id p hp => ?_, fun d t hd => ?_,
    fun d d' t hd hd' => ?_⟩
  · rw [(hkeep d).1] at hd
    exact hcreated ▸ h.live d hd
  · by_cases hdc : d = c
    · exact hcreated ▸ hdc ▸ h.live c hlive
    · rw [hother d hdc] at hd
      exact hcreated ▸ h.armed d hd
  · rw [(hkeep d).1] at hd
    rw [(hkeep d').1] at hd'
    rw [(hkeep d).2, (hkeep d').2] at heq
    exact h.identifiers d d' hd hd' heq
  · rcases hpending id p hp with ⟨hne, hold⟩ | ⟨rfl, hpc, htok⟩
    · rw [hother _ hne]
      exact h.entries id p hold
    · rw [hpc, hself, htok]
      exact ⟨hlive, rfl, rfl⟩
  · rw [huuids]
    by_cases hdc : d = c
    · rw [hdc, hself] at hd
      exact ⟨s.uuids, Nat.lt_succ_self _, Option.some.inj hd⟩
    · rw [hother d hdc] at hd
      obtain ⟨n, hn, heq⟩ := h.issued d t hd
      exact ⟨n, Nat.lt_succ_of_lt hn, heq⟩
  · by_cases hdc : d = c
    · by_cases hdc' : d' = c
      · exact hdc.trans hdc'.symm
      · rw [hdc, hself] at hd
        rw [← Option.some.inj hd] at hd'
        exact (hnew d' hdc' hd').elim
    · by_cases hdc' : d' = c
      · rw [hdc', hself] at hd'
        rw [← Option.some.inj hd'] at hd
        exact (hnew d hdc hd).elim
      · rw [hother d hdc] at hd
        rw [hother d' hdc'] at hd'
        exact h.tokens d d' t hd hd'

/-- No pending handshake is for a connection without a token. -/
theorem unarmed (h : s.Registry uuid) (htoken : (s.connection c).token = none) {id : Nat} {p : PendingHandshake UUID}
    (hp : s.pendingHandshakes.lookup id = some p) : p.connection ≠ c := by
  rintro rfl
  rw [(h.entries id p hp).2.2] at htoken
  cases htoken

theorem not_retained (h : s.retains c = false) :
    (∀ id p, s.pendingHandshakes.lookup id = some p → p.connection ≠ c) := by
  intro id p hp hpc
  have hmem := AList.mem_lookup_iff.mp (Option.mem_def.mpr hp)
  have hany : s.pendingHandshakes.entries.any (·.2.connection == c) = true :=
    List.any_eq_true.mpr ⟨⟨id, p⟩, hmem, beq_iff_eq.mpr hpc⟩
  simp [retains, hany] at h

private theorem keep_call (h : s.Registry uuid) {call : HandshakeCall} (hcreated : s'.created = s.created)
    (huuids : s'.uuids = s.uuids)
    (hconn : s'.connection = Function.update s.connection c { s.connection c with call := call })
    (hpending : ∀ id p, s'.pendingHandshakes.lookup id = some p → s.pendingHandshakes.lookup id = some p) :
    s'.Registry uuid := by
  have hlive : ∀ d, (s'.connection d).live = (s.connection d).live := by
    rw [hconn]
    exact apply_update_same NWTCPConnection.live rfl
  refine h.keep hcreated huuids (fun d hd => hlive d ▸ hd) ?_ ?_ (fun id p hp => ⟨hpending id p hp, fun hd => ?_⟩)
  · rw [hconn]
    exact apply_update_same NWTCPConnection.identifier rfl
  · rw [hconn]
    exact apply_update_same NWTCPConnection.token rfl
  · rw [hlive]
    exact hd

theorem step (h : s.Registry uuid) (huuid : Function.Injective uuid) (hs : Step uuid s s') : s'.Registry uuid := by
  have hsame : ∀ t : AppProxyProvider UUID, t.connection = s.connection → t.created = s.created → t.uuids = s.uuids →
      (∀ id p, t.pendingHandshakes.lookup id = some p → s.pendingHandshakes.lookup id = some p) → t.Registry uuid := by
    intro t hconn hcreated huuids hpending
    refine h.keep hcreated huuids ?_ ?_ ?_ (fun id p hp => ⟨hpending id p hp, ?_⟩)
    · exact hconn ▸ fun _ hc => hc
    · exact hconn ▸ fun _ => rfl
    · exact hconn ▸ fun _ => rfl
    · exact hconn ▸ fun hc => hc
  cases hs with
  | quiet hq => exact hsame s' hq.connection hq.created hq.uuids (fun id p hp => hq.pendingHandshakes ▸ hp)
  | created udp flow hc hid => exact h.created udp flow hc hid
  | armed hlive htoken hgo =>
    refine h.attempt huuid hlive rfl rfl rfl (fun id p hp => ?_)
    rcases lookup_of_insert hp with ⟨hid, rfl⟩ | hold
    · exact .inr ⟨hid, rfl, rfl⟩
    · exact .inl ⟨h.unarmed htoken hold, hold⟩
  | armRefused hlive htoken hstop =>
    exact h.attempt huuid hlive rfl rfl rfl (fun id p hp => .inl ⟨h.unarmed htoken hp, hp⟩)
  | timedOut timers hp => exact hsame _ rfl rfl rfl (fun id q hq => (lookup_of_erase hq).2)
  | notPassed hlive hcall => exact h.keep_call rfl rfl rfl (fun id q hq => (lookup_of_erase hq).2)
  | passed hlive hcall hp => exact h.keep_call rfl rfl rfl (fun id q hq => (lookup_of_erase hq).2)
  | closed hlive hudp => exact hsame _ rfl rfl rfl (fun id q hq => (lookup_of_erase hq).2)
  | failed hlive hcall => exact h.keep_call rfl rfl rfl (fun id q hq => hq)
  | insertRefused dns hi hstop =>
    exact hsame _ rfl rfl rfl (fun id q hq => hq)
  | inserted dns hi ha hgo =>
    exact hsame _ rfl rfl rfl (fun id q hq => hq)
  | tornDown ha hdue => exact hsame _ rfl rfl rfl (fun id q hq => hq)
  | stoppedHandshakes hcall horder => exact hsame _ rfl rfl rfl (fun id q hq => nomatch hq)
  | stoppedAssociations hcall horder => exact hsame _ rfl rfl rfl (fun id q hq => hq)
  | @released c hlive hretained =>
    refine h.keep rfl rfl (fun d hd => ?_) (apply_update_same NWTCPConnection.identifier rfl)
      (apply_update_same NWTCPConnection.token rfl) (fun id p hp => ⟨hp, fun hd => ?_⟩)
    · by_cases hdc : d = c
      · exact hdc ▸ hlive
      · have hother : (s.setConnection c { s.connection c with live := false }).connection d = s.connection d :=
          Function.update_of_ne hdc ..
        rwa [hother] at hd
    · have hother : (s.setConnection c { s.connection c with live := false }).connection p.connection =
          s.connection p.connection := Function.update_of_ne (not_retained hretained id p hp) ..
      rwa [hother]

end Registry
/-- What a connection keeps for good. -/
structure Keeps (conn conn' : NWTCPConnection UUID) : Prop where
  udp : conn'.udp = conn.udp
  token : ∀ t, conn.token = some t → conn'.token = some t
  failed : conn.call = .failed → conn'.call = .failed
  relayed : conn.call = .relayed → conn'.call = .relayed

private theorem Keeps.refl (conn : NWTCPConnection UUID) : Keeps conn conn :=
  ⟨rfl, fun _ ht => ht, fun h => h, fun h => h⟩

private theorem Keeps.update {heap : Nat → NWTCPConnection UUID} {c : Nat} {new : NWTCPConnection UUID}
    (h : Keeps (heap c) new) (d : Nat) : Keeps (heap d) (Function.update heap c new d) := by
  by_cases hd : d = c
  · rw [hd, Function.update_self]
    exact h
  · rw [Function.update_of_ne hd]
    exact .refl _

theorem Step.created_subset (h : Step uuid s s') : s.created ⊆ s'.created := by
  cases h with
  | quiet hq => exact hq.created.symm.subset
  | created udp flow hc hid => exact Finset.subset_insert ..
  | _ => exact Finset.Subset.refl _

theorem Step.keeps (h : Step uuid s s') (hc : c ∈ s.created) : Keeps (s.connection c) (s'.connection c) := by
  cases h with
  | quiet hq => exact hq.connection ▸ .refl _
  | @created d identifier udp flow hd hid =>
    have hne : c ≠ d := fun heq => hd (heq ▸ hc)
    have hsame : (s.createTCPConnection d identifier udp flow).connection c = s.connection c :=
      Function.update_of_ne hne ..
    exact hsame ▸ .refl _
  | armed hlive htoken hgo =>
    refine Keeps.update ?_ c
    exact ⟨rfl, fun t ht => (nomatch htoken.symm.trans ht), fun h => h, fun h => h⟩
  | armRefused hlive htoken hstop =>
    refine Keeps.update ?_ c
    exact ⟨rfl, fun t ht => (nomatch htoken.symm.trans ht), fun h => h, fun h => h⟩
  | notPassed hlive hcall =>
    refine Keeps.update ?_ c
    exact ⟨rfl, fun _ ht => ht, fun h => (hcall h).elim, fun _ => rfl⟩
  | passed hlive hcall hp =>
    refine Keeps.update ?_ c
    exact ⟨rfl, fun _ ht => ht, fun h => (hcall h).elim, fun _ => rfl⟩
  | failed hlive hcall =>
    refine Keeps.update ?_ c
    exact ⟨rfl, fun _ ht => ht, fun _ => rfl, fun h => nomatch hcall.symm.trans h⟩
  | released hlive hretained =>
    refine Keeps.update ?_ c
    exact ⟨rfl, fun _ ht => ht, fun h => h, fun h => h⟩
  | _ => exact .refl _

/-- A new pending handshake is for a connection that had no token. -/
private theorem Step.lookup (h : Step uuid s s') {id : Nat} {p : PendingHandshake UUID}
    (hp : s'.pendingHandshakes.lookup id = some p) :
    s.pendingHandshakes.lookup id = some p ∨ (s.connection p.connection).token = none := by
  cases h with
  | quiet hq => exact .inl (hq.pendingHandshakes ▸ hp)
  | armed hlive htoken hgo =>
    rcases lookup_of_insert hp with ⟨_, rfl⟩ | hold
    · exact .inr htoken
    · exact .inl hold
  | timedOut timers hq => exact .inl (lookup_of_erase hp).2
  | notPassed hlive hcall => exact .inl (lookup_of_erase hp).2
  | passed hlive hcall hq => exact .inl (lookup_of_erase hp).2
  | closed hlive hudp => exact .inl (lookup_of_erase hp).2
  | stoppedHandshakes hcall horder => exact nomatch hp
  | _ => exact .inl hp

theorem Step.settled (h : Step uuid s s') (hr : s.Registry uuid) (hc : s.Settled c) : s'.Settled c := by
  obtain ⟨t, ht⟩ := Option.isSome_iff_exists.mp hc.1
  refine ⟨?_, fun id p hp => ?_⟩
  · rw [(h.keeps (hr.armed c hc.1)).token t ht]
    rfl
  · rcases h.lookup hp with hold | hnone
    · exact hc.notMem hold
    · rintro rfl
      rw [hnone] at ht
      cases ht

/-- Of the events that the newer one may follow: a connection passes once, and not after anyone but its own
callbacks has cancelled it. -/
def Permitted (newer older : Event UUID) : Prop :=
  ∀ c, newer = .passed c → older ≠ .passed c ∧
    ∀ who, older = .did (.cancel (.connection c) who) → who = .closeRelay ∨ who = .failHandshake

/-- Why a connection may have been cancelled. -/
def Accounted (s : AppProxyProvider UUID) (c : Nat) (who : Canceller UUID) : Prop :=
  who = .closeRelay ∧ (s.connection c).udp = false ∨ who = .failHandshake ∧ (s.connection c).call = .failed ∨
    s.Settled c

/-- What has been cancelled and passed agrees with the attempts. -/
structure Ledger (s : AppProxyProvider UUID) : Prop where
  timed : ∀ c t, .timer t ∈ s.cancellers (.connection c) → (s.connection c).token = some t
  cancelled : ∀ c who, who ∈ s.cancellers (.connection c) → c ∈ s.created ∧ s.Accounted c who
  passed : ∀ c, .passed c ∈ s.log → s.Settled c
  order : s.log.Pairwise Permitted

private theorem Accounted.mono {who : Canceller UUID} (h : s.Accounted c who)
    (hkeeps : Keeps (s.connection c) (s'.connection c)) (hsettled : s.Settled c → s'.Settled c) :
    s'.Accounted c who := by
  rcases h with ⟨hwho, hudp⟩ | ⟨hwho, hcall⟩ | hold
  · exact .inl ⟨hwho, hkeeps.udp.trans hudp⟩
  · exact .inr (.inl ⟨hwho, hkeeps.failed hcall⟩)
  · exact .inr (.inr (hsettled hold))

/-- What a step may log. -/
private def Logs (s s' : AppProxyProvider UUID) : Prop :=
  s'.log = s.log ∨ (∃ effect, s'.log = .did effect :: s.log) ∨
    ∃ c, s'.log = .passed c :: s.log ∧ ¬ s.Settled c ∧ s'.Settled c

private theorem Ledger.next (h : s.Ledger) (hr : s.Registry uuid) (hs : Step uuid s s') {new : List (Effect UUID)}
    (hdue : s'.due = new + s.due) (hlog : Logs s s')
    (hnew : ∀ c who, .cancel (.connection c) who ∈ new → c ∈ s'.created ∧ s'.Accounted c who ∧
      ∀ t, who = .timer t → (s'.connection c).token = some t) : s'.Ledger := by
  have hcases : ∀ c who, who ∈ s'.cancellers (.connection c) → .cancel (.connection c) who ∈ new ∨
      who ∈ s.cancellers (.connection c) := by
    intro c who hwho
    rw [cancellers_of_due hdue, Multiset.mem_add, mem_cancelsOf, Multiset.mem_coe] at hwho
    exact hwho
  refine ⟨fun c t ht => ?_, fun c who hwho => ?_, fun c hc => ?_, ?_⟩
  · rcases hcases c _ ht with hmem | hold
    · exact (hnew c _ hmem).2.2 t rfl
    · exact (hs.keeps (h.cancelled c _ hold).1).token t (h.timed c t hold)
  · rcases hcases c who hwho with hmem | hold
    · exact ⟨(hnew c who hmem).1, (hnew c who hmem).2.1⟩
    · obtain ⟨hc, hacc⟩ := h.cancelled c who hold
      exact ⟨hs.created_subset hc, hacc.mono (hs.keeps hc) (hs.settled hr)⟩
  · rcases hlog with heq | ⟨effect, heq⟩ | ⟨d, heq, _, hd⟩
    · exact hs.settled hr (h.passed c (heq ▸ hc))
    · rw [heq] at hc
      rcases List.mem_cons.mp hc with hc | hc
      · cases hc
      · exact hs.settled hr (h.passed c hc)
    · rw [heq] at hc
      rcases List.mem_cons.mp hc with hc | hc
      · obtain rfl := Event.passed.inj hc
        exact hd
      · exact hs.settled hr (h.passed c hc)
  · rcases hlog with heq | ⟨effect, heq⟩ | ⟨d, heq, hd, _⟩
    · exact heq ▸ h.order
    · rw [heq]
      exact List.pairwise_cons.mpr ⟨fun _ _ _ hne => (nomatch hne), h.order⟩
    · rw [heq]
      refine List.pairwise_cons.mpr ⟨fun older holder c hc => ?_, h.order⟩
      obtain rfl := Event.passed.inj hc
      refine ⟨fun heq => hd (h.passed d (heq ▸ holder)), fun who hwho => ?_⟩
      subst hwho
      rcases (h.cancelled d who (mem_cancellers_of_did holder)).2 with hclose | hfail | hsettled
      · exact .inl hclose.1
      · exact .inr hfail.1
      · exact (hd hsettled).elim

/-- The handshake of the connection is over and was completed for a UDP flow. -/
def Relayed (s : AppProxyProvider UUID) (c : Nat) : Prop :=
  c ∈ s.created ∧ (s.connection c).udp = true ∧ (s.connection c).call = .relayed ∧ s.Settled c

theorem Step.relayed (h : Step uuid s s') (hr : s.Registry uuid) (hc : s.Relayed c) : s'.Relayed c := by
  obtain ⟨hcreated, hudp, hcall, hsettled⟩ := hc
  have hkeeps := h.keeps hcreated
  exact ⟨h.created_subset hcreated, hkeeps.udp.trans hudp, hkeeps.relayed hcall, h.settled hr hsettled⟩

/-- Associations are built and kept around completed connections. -/
structure Controls (s : AppProxyProvider UUID) : Prop where
  inserting : ∀ c ∈ s.inserting, s.Relayed c
  inserted : ∀ a ∈ s.inserted, ∀ c, .connection c ∈ (s.association a).channels → s.Relayed c
  mapped : ∀ flow a, s.udpAssociations.lookup flow = some a → a ∈ s.inserted

theorem connection_mem_channels {association : UDPAssociation} :
    .connection c ∈ association.channels ↔ c = association.controlConnection := by
  simp [UDPAssociation.channels]

namespace Controls

theorem initial : (initial : AppProxyProvider UUID).Controls where
  inserting _ h := nomatch h
  inserted _ h := nomatch h
  mapped _ _ h := nomatch h

private theorem keep (h : s.Controls) (hr : s.Registry uuid) (hs : Step uuid s s')
    (hinserting : ∀ c ∈ s'.inserting, c ∈ s.inserting ∨ s'.Relayed c) (hinserted : s'.inserted = s.inserted)
    (hchannels : ∀ a ∈ s.inserted, (s'.association a).channels = (s.association a).channels)
    (hmapped : ∀ flow a, s'.udpAssociations.lookup flow = some a → s.udpAssociations.lookup flow = some a) :
    s'.Controls where
  inserting c hc := by
    rcases hinserting c hc with hold | hnew
    · exact hs.relayed hr (h.inserting c hold)
    · exact hnew
  inserted a ha c hc := by
    rw [hinserted] at ha
    rw [hchannels a ha] at hc
    exact hs.relayed hr (h.inserted a ha c hc)
  mapped flow a ha := hinserted ▸ h.mapped flow a (hmapped flow a ha)

end Controls

theorem Registry.pending_not_settled (hr : s.Registry uuid) (hlive : (s.connection c).live = true)
    {p : PendingHandshake UUID} (hp : s.pendingHandshakes.lookup (s.connection c).identifier = some p) :
    ¬ s.Settled c :=
  fun hsettled => hsettled.notMem hp (hr.entry_of_live hlive hp)

private theorem Registry.settled_of_erase (hr : s.Registry uuid) (hlive : (s.connection c).live = true)
    {p : PendingHandshake UUID} (hp : s.pendingHandshakes.lookup (s.connection c).identifier = some p)
    (htoken : (s'.connection c).token = (s.connection c).token)
    (hpending : s'.pendingHandshakes = s.pendingHandshakes.erase (s.connection c).identifier) : s'.Settled c := by
  refine ⟨?_, fun id q hq => hr.erased hlive (hpending ▸ hq)⟩
  rw [htoken, ← hr.entry_of_live hlive hp, (hr.entries _ p hp).2.2]
  rfl

theorem Controls.step (h : s.Controls) (hr : s.Registry uuid) (hs : Step uuid s s') : s'.Controls := by
  have hs' := hs
  cases hs with
  | quiet hq =>
    exact h.keep hr hs' (fun c hc => .inl (hq.inserting ▸ hc)) hq.inserted (fun a _ => hq.channels a)
      (fun _ _ ha => hq.udpAssociations ▸ ha)
  | @passed c p hlive hcall hp =>
    refine h.keep hr hs' (fun d hd => ?_) rfl (fun _ _ => rfl) (fun _ _ ha => ha)
    simp only at hd
    split at hd
    · rename_i hudp
      rcases List.mem_cons.mp hd with rfl | hd
      · refine .inr ⟨hr.live d hlive, ?_, ?_, hr.settled_of_erase hlive hp ?_ rfl⟩
        · exact (apply_update_same NWTCPConnection.udp (by rfl) d).trans hudp
        · exact congrArg _ (Function.update_self ..)
        · exact apply_update_same NWTCPConnection.token (by rfl) d
      · exact .inl hd
    · exact .inl hd
  | insertRefused dns hi hstop =>
    exact h.keep hr hs' (fun d hd => .inl (List.mem_of_mem_eraseIdx hd)) rfl (fun _ _ => rfl) (fun _ _ ha => ha)
  | @inserted i c a dns hi ha hgo =>
    have hother : ∀ b ∈ s.inserted, Function.update s.association a (s.newAssociation c dns) b = s.association b := by
      intro b hb
      refine Function.update_of_ne ?_ ..
      rintro rfl
      exact ha hb
    refine ⟨fun d hd => ?_, fun b hb d hd => ?_, fun flow b hb => ?_⟩
    · exact hs'.relayed hr (h.inserting d (List.mem_of_mem_eraseIdx hd))
    · rcases Finset.mem_insert.mp hb with rfl | hb
      · have hself : Function.update s.association b (s.newAssociation c dns) b = s.newAssociation c dns :=
          Function.update_self ..
        have hdc : d = (s.newAssociation c dns).controlConnection := connection_mem_channels.mp (hself ▸ hd)
        rw [hdc]
        exact hs'.relayed hr (h.inserting c (List.mem_of_getElem? hi))
      · exact hs'.relayed hr (h.inserted b hb d (hother b hb ▸ hd))
    · rcases lookup_of_insert hb with ⟨_, rfl⟩ | hold
      · exact Finset.mem_insert_self ..
      · exact Finset.mem_insert_of_mem (h.mapped flow b hold)
  | tornDown ha hdue =>
    exact h.keep hr hs' (fun _ hd => .inl hd) rfl (fun b _ => apply_update_same UDPAssociation.channels (by rfl) b)
      (fun _ _ hb => (lookup_of_erase hb).2)
  | stoppedAssociations hcall horder =>
    exact h.keep hr hs' (fun _ hd => .inl hd) rfl (fun _ _ => rfl) (fun _ _ hb => nomatch hb)
  | _ => exact h.keep hr hs' (fun _ hd => .inl hd) rfl (fun _ _ => rfl) (fun _ _ hb => hb)

namespace Ledger

theorem initial : (initial : AppProxyProvider UUID).Ledger where
  timed _ _ h := nomatch h
  cancelled _ _ h := nomatch h
  passed _ h := nomatch h
  order := .nil

private theorem next_nothing (h : s.Ledger) (hr : s.Registry uuid) (hs : Step uuid s s') (hdue : s'.due = s.due)
    (hlog : Logs s s') : s'.Ledger := by
  have hnothing : s'.due = ([] : List (Effect UUID)) + s.due := by
    rw [hdue]
    exact (zero_add _).symm
  exact h.next hr hs hnothing hlog (fun _ _ hmem => nomatch hmem)

/-- Connections are cancelled that are settled by now. -/
private theorem next_settled (h : s.Ledger) (hr : s.Registry uuid) (hs : Step uuid s s') {new : List (Effect UUID)}
    (hdue : s'.due = new + s.due) (hlog : s'.log = s.log)
    (hnew : ∀ c who, .cancel (.connection c) who ∈ new → s'.Settled c ∧
      ∀ t, who = .timer t → (s'.connection c).token = some t) (hr' : s'.Registry uuid) : s'.Ledger := by
  refine h.next hr hs hdue (.inl hlog) (fun c who hmem => ?_)
  obtain ⟨hsettled, htoken⟩ := hnew c who hmem
  exact ⟨hr'.armed c hsettled.1, .inr (.inr hsettled), htoken⟩

theorem step (h : s.Ledger) (hr : s.Registry uuid) (hr' : s'.Registry uuid) (hcontrols : s.Controls)
    (hs : Step uuid s s') : s'.Ledger := by
  have hs' := hs
  cases hs with
  | quiet hq =>
    apply h.next_nothing hr hs' hq.due
    rcases hq.log with heq | heq
    · exact .inl heq
    · exact .inr (.inl heq)
  | created udp flow hc hid => exact h.next_nothing hr hs' rfl (.inl rfl)
  | armed hlive htoken hgo => exact h.next_nothing hr hs' rfl (.inl rfl)
  | @armRefused c hlive htoken hstop =>
    refine h.next_settled hr hs' (due_spawn_perform _ _) rfl (fun d who hmem => ?_) hr'
    obtain ⟨rfl, rfl⟩ : d = c ∧ .armRefused = who := by simpa using hmem
    refine ⟨⟨?_, fun id p hp => hr.unarmed htoken hp⟩, fun t ht => nomatch ht⟩
    have hself := congrArg NWTCPConnection.token
      (Function.update_self d { s.connection d with token := some (uuid s.uuids) } s.connection)
    exact Option.isSome_iff_exists.mpr ⟨_, hself⟩
  | @timedOut id p timers hp =>
    refine h.next_settled hr hs' (due_spawn_perform _ _) rfl (fun d who hmem => ?_) hr'
    obtain ⟨rfl, rfl⟩ : d = p.connection ∧ .timer p.token = who := by simpa using hmem
    obtain ⟨hlive, hid, htoken⟩ := hr.entries id p hp
    refine ⟨⟨Option.isSome_iff_exists.mpr ⟨_, htoken⟩, fun id' q hq => hr.erased hlive (hid.symm ▸ hq)⟩, fun t ht => ?_⟩
    obtain rfl := Canceller.timer.inj ht
    exact htoken
  | notPassed hlive hcall => exact h.next_nothing hr hs' rfl (.inl rfl)
  | @passed c p hlive hcall hp =>
    refine h.next_nothing hr hs' rfl (.inr (.inr ⟨c, rfl, hr.pending_not_settled hlive hp, ?_⟩))
    exact hr.settled_of_erase hlive hp (apply_update_same NWTCPConnection.token (by rfl) c) rfl
  | @closed c hlive hudp =>
    refine h.next hr hs' (due_spawn_perform _ _) (.inl rfl) (fun d who hmem => ?_)
    obtain ⟨rfl, rfl⟩ : d = c ∧ .closeRelay = who := by simpa using hmem
    exact ⟨hr.live d hlive, .inl ⟨rfl, hudp⟩, fun t ht => nomatch ht⟩
  | @failed c hlive hcall =>
    refine h.next hr hs' (due_spawn_perform _ _) (.inl rfl) (fun d who hmem => ?_)
    obtain ⟨rfl, rfl⟩ : d = c ∧ .failHandshake = who := by
      split at hmem <;> simpa using hmem
    refine ⟨hr.live d hlive, .inr (.inl ⟨rfl, ?_⟩), fun t ht => nomatch ht⟩
    exact congrArg NWTCPConnection.call
      (Function.update_self d { s.connection d with call := .failed } s.connection)
  | @insertRefused i c dns hi hstop =>
    refine h.next_settled hr hs' (due_spawn_perform _ _) rfl (fun d who hmem => ?_) hr'
    obtain ⟨hd, rfl⟩ : .connection d ∈ (s.newAssociation c dns).channels ∧ .insertionRefused = who := by
      simpa using hmem
    have hdc : d = c := connection_mem_channels.mp hd
    rw [hdc]
    exact ⟨(hs'.relayed hr (hcontrols.inserting c (List.mem_of_getElem? hi))).2.2.2, fun t ht => nomatch ht⟩
  | @inserted i c a dns hi ha hgo =>
    refine h.next_settled hr hs' (due_spawn_perform _ _) rfl (fun d who hmem => ?_) hr'
    obtain ⟨b, hb, hmem⟩ := List.mem_flatMap.mp hmem
    obtain ⟨hd, rfl⟩ := mem_cancelAll.mp hmem
    have hinserted := hcontrols.mapped _ b (Option.mem_toList.mp hb)
    exact ⟨(hs'.relayed hr (hcontrols.inserted b hinserted d hd)).2.2.2, fun t ht => nomatch ht⟩
  | @tornDown flow a threads ha hdue =>
    refine h.next_settled hr hs' hdue rfl (fun d who hmem => ?_) hr'
    obtain ⟨hd, rfl⟩ : .connection d ∈ (s.association a).channels ∧ .teardown = who := by simpa using hmem
    exact ⟨(hs'.relayed hr (hcontrols.inserted a (hcontrols.mapped flow a ha) d hd)).2.2.2, fun t ht => nomatch ht⟩
  | @stoppedHandshakes order hcall horder =>
    refine h.next_settled hr hs' (due_of_stop hcall rfl rfl rfl) rfl (fun d who hmem => ?_) hr'
    obtain ⟨p, hp, hmem⟩ := List.mem_flatMap.mp hmem
    obtain ⟨rfl, rfl⟩ : d = p.connection ∧ .stop = who := by simpa using hmem
    obtain ⟨⟨id, q⟩, hentry, rfl⟩ := List.mem_map.mp (horder.subset hp)
    have htoken := (hr.entries id q (AList.mem_lookup_iff.mpr hentry)).2.2
    exact ⟨⟨Option.isSome_iff_exists.mpr ⟨_, htoken⟩, fun _ _ hq => nomatch hq⟩, fun t ht => nomatch ht⟩
  | @stoppedAssociations order hcall horder =>
    refine h.next_settled hr hs' (due_of_stop hcall rfl rfl rfl) rfl (fun d who hmem => ?_) hr'
    obtain ⟨a, ha, hmem⟩ := List.mem_flatMap.mp hmem
    obtain ⟨hd, rfl⟩ : .connection d ∈ (s.association a).channels ∧ .stop = who := by simpa using hmem
    obtain ⟨⟨flow, b⟩, hentry, rfl⟩ := List.mem_map.mp (horder.subset ha)
    have hinserted := hcontrols.mapped flow b (AList.mem_lookup_iff.mpr hentry)
    exact ⟨(hs'.relayed hr (hcontrols.inserted b hinserted d hd)).2.2.2, fun t ht => nomatch ht⟩
  | released hlive hretained => exact h.next_nothing hr hs' rfl (.inl rfl)

end Ledger
end AppProxyProvider
end ProxyBridge.MacOS
