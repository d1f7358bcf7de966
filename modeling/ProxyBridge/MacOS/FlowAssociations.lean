import ProxyBridge.MacOS.FlowHandshakes

/-! Each inserted association stands in `udpAssociations` until one place of the source takes it out, and
that place cancels its channels. -/
namespace ProxyBridge.MacOS
open Runs
variable {UUID : Type}

/-- The places that take an association out of `udpAssociations`. -/
def Canceller.Removes (who : Canceller UUID) : Prop :=
  who = .teardown ∨ who = .replacement ∨ who = .stop

namespace AppProxyProvider
variable {uuid : Nat → UUID} {s s' : AppProxyProvider UUID}

/-- `who` alone cancels the channels of the association, each once. -/
def CancelledBy (s : AppProxyProvider UUID) (a : Nat) (who : Canceller UUID) : Prop :=
  ∀ ch ∈ (s.association a).channels, s.cancellers ch = {who}

/-- A channel that belongs to no inserted association, to no association that is being built and to no later one. -/
def Foreign (s : AppProxyProvider UUID) (ch : Channel) : Prop :=
  (∀ a ∈ s.inserted, ch ∉ (s.association a).channels) ∧ (∀ c ∈ s.inserting, ch ≠ .connection c) ∧
    ∀ u, s.sessions ≤ u → ch ≠ .session u

/-- The channels of associations, and of those that are about to be built, are theirs alone and are cancelled only by
those that take the associations out. -/
structure Custody (s : AppProxyProvider UUID) : Prop where
  uncancelled : ∀ c ∈ s.inserting, s.cancellers (.connection c) = 0
  unused : ∀ c ∈ s.inserting, ∀ a ∈ s.inserted, .connection c ∉ (s.association a).channels
  inserting : s.inserting.Nodup
  distinct : ∀ a ∈ s.inserted, ∀ b ∈ s.inserted, ∀ ch ∈ (s.association a).channels,
    ch ∈ (s.association b).channels → a = b
  channels : ∀ a ∈ s.inserted, (s.association a).channels.Nodup
  sessions : ∀ a ∈ s.inserted, ∀ u, .session u ∈ (s.association a).channels → u < s.sessions
  fresh : ∀ u, s.sessions ≤ u → s.cancellers (.session u) = 0
  mapped : ∀ flow a, s.udpAssociations.lookup flow = some a → a ∈ s.inserted ∧ (s.association a).clientFlow = flow ∧
    ∀ ch ∈ (s.association a).channels, s.cancellers ch = 0
  removed : ∀ a ∈ s.inserted, s.udpAssociations.lookup (s.association a).clientFlow ≠ some a →
    ∃ who, who.Removes ∧ s.CancelledBy a who

namespace Custody

theorem initial : (initial : AppProxyProvider UUID).Custody where
  uncancelled _ h := nomatch h
  unused _ h := nomatch h
  inserting := .nil
  distinct _ h := nomatch h
  channels _ h := nomatch h
  sessions _ h := nomatch h
  fresh _ _ := rfl
  mapped _ _ h := nomatch h
  removed _ h := nomatch h

/-- Nothing but foreign channels is cancelled. -/
private theorem keep (h : s.Custody) {new : List (Effect UUID)} (hdue : s'.due = new + s.due)
    (hinserting : s'.inserting.Sublist s.inserting) (hinserted : s'.inserted = s.inserted)
    (hchannels : ∀ a, (s'.association a).channels = (s.association a).channels)
    (hflow : ∀ a, (s'.association a).clientFlow = (s.association a).clientFlow) (hsessions : s.sessions ≤ s'.sessions)
    (hmap : s'.udpAssociations = s.udpAssociations) (hnew : ∀ ch who, .cancel ch who ∈ new → s'.Foreign ch) :
    s'.Custody := by
  have hsame : ∀ ch, ¬ s'.Foreign ch → s'.cancellers ch = s.cancellers ch :=
    fun ch hch => cancellers_of_due_of_notMem hdue (fun who hmem => hch (hnew ch who hmem))
  have hassoc : ∀ a ∈ s.inserted, ∀ ch ∈ (s.association a).channels, s'.cancellers ch = s.cancellers ch := by
    intro a ha ch hch
    refine hsame ch (fun hforeign => hforeign.1 a (hinserted ▸ ha) ?_)
    rw [hchannels]
    exact hch
  refine ⟨fun c hc => ?_, fun c hc a ha => ?_, hinserting.nodup h.inserting, fun a ha b hb ch hcha hchb => ?_,
    fun a ha => ?_, fun a ha u hu => ?_, fun u hu => ?_, fun flow a ha => ?_, fun a ha hgone => ?_⟩
  · rw [hsame _ (fun hforeign => hforeign.2.1 c hc rfl)]
    exact h.uncancelled c (hinserting.subset hc)
  · rw [hchannels]
    exact h.unused c (hinserting.subset hc) a (hinserted ▸ ha)
  · rw [hchannels] at hcha hchb
    exact h.distinct a (hinserted ▸ ha) b (hinserted ▸ hb) ch hcha hchb
  · rw [hchannels]
    exact h.channels a (hinserted ▸ ha)
  · rw [hchannels] at hu
    exact Nat.lt_of_lt_of_le (h.sessions a (hinserted ▸ ha) u hu) hsessions
  · rw [hsame _ (fun hforeign => hforeign.2.2 u hu rfl)]
    exact h.fresh u (hsessions.trans hu)
  · obtain ⟨hin, hclient, hnone⟩ := h.mapped flow a (hmap ▸ ha)
    refine ⟨hinserted ▸ hin, (hflow a).trans hclient, fun ch hch => ?_⟩
    rw [hchannels] at hch
    rw [hassoc a hin ch hch]
    exact hnone ch hch
  · rw [hmap, hflow] at hgone
    obtain ⟨who, hwho, hby⟩ := h.removed a (hinserted ▸ ha) hgone
    refine ⟨who, hwho, fun ch hch => ?_⟩
    rw [hchannels] at hch
    rw [hassoc a (hinserted ▸ ha) ch hch]
    exact hby ch hch

/-- Some associations are taken out of the dictionary by `who`, which cancels their channels. -/
private theorem hand (h : s.Custody) (gone : List Nat) {new : List (Effect UUID)} {who : Canceller UUID}
    (hwho : who.Removes) (hdue : s'.due = new + s.due) (hinserting : s'.inserting = s.inserting)
    (hinserted : s'.inserted = s.inserted) (hsessions : s'.sessions = s.sessions)
    (hchannels : ∀ a, (s'.association a).channels = (s.association a).channels)
    (hflow : ∀ a, (s'.association a).clientFlow = (s.association a).clientFlow)
    (hgone : ∀ a ∈ gone, ∃ flow, s.udpAssociations.lookup flow = some a)
    (hmap : ∀ flow a, s'.udpAssociations.lookup flow = some a ↔ s.udpAssociations.lookup flow = some a ∧ a ∉ gone)
    (hnew : ∀ ch by', .cancel ch by' ∈ new → ∃ a ∈ gone, ch ∈ (s.association a).channels)
    (honce : ∀ a ∈ gone, ∀ ch ∈ (s.association a).channels, cancelsOf ch new = {who}) : s'.Custody := by
  have hmem : ∀ a ∈ gone, a ∈ s.inserted ∧ ∀ ch ∈ (s.association a).channels, s.cancellers ch = 0 := by
    intro a ha
    obtain ⟨flow, hlookup⟩ := hgone a ha
    obtain ⟨hin, _, hnone⟩ := h.mapped flow a hlookup
    exact ⟨hin, hnone⟩
  have hother : ∀ a ∈ s.inserted, a ∉ gone → ∀ ch ∈ (s.association a).channels, s'.cancellers ch = s.cancellers ch := by
    intro a ha hnot ch hch
    refine cancellers_of_due_of_notMem hdue (fun by' hby => hnot ?_)
    obtain ⟨b, hb, hchb⟩ := hnew ch by' hby
    exact h.distinct a ha b (hmem b hb).1 ch hch hchb ▸ hb
  refine ⟨fun c hc => ?_, fun c hc a ha => ?_, hinserting ▸ h.inserting, fun a ha b hb ch hcha hchb => ?_,
    fun a ha => ?_, fun a ha u hu => ?_, fun u hu => ?_, fun flow a ha => ?_, fun a ha hnone => ?_⟩
  · rw [hinserting] at hc
    rw [cancellers_of_due_of_notMem hdue (fun by' hby => ?_)]
    · exact h.uncancelled c hc
    · obtain ⟨b, hb, hchb⟩ := hnew _ by' hby
      exact h.unused c hc b (hmem b hb).1 hchb
  · rw [hchannels]
    exact h.unused c (hinserting ▸ hc) a (hinserted ▸ ha)
  · rw [hchannels] at hcha hchb
    exact h.distinct a (hinserted ▸ ha) b (hinserted ▸ hb) ch hcha hchb
  · rw [hchannels]
    exact h.channels a (hinserted ▸ ha)
  · rw [hchannels] at hu
    exact hsessions ▸ h.sessions a (hinserted ▸ ha) u hu
  · rw [hsessions] at hu
    rw [cancellers_of_due_of_notMem hdue (fun by' hby => ?_)]
    · exact h.fresh u hu
    · obtain ⟨b, hb, hchb⟩ := hnew _ by' hby
      exact Nat.not_lt.mpr hu (h.sessions b (hmem b hb).1 u hchb)
  · obtain ⟨hlookup, hnot⟩ := (hmap flow a).mp ha
    obtain ⟨hin, hclient, hzero⟩ := h.mapped flow a hlookup
    refine ⟨hinserted ▸ hin, (hflow a).trans hclient, fun ch hch => ?_⟩
    rw [hchannels] at hch
    rw [hother a hin hnot ch hch]
    exact hzero ch hch
  · rw [hinserted] at ha
    rw [hflow] at hnone
    by_cases hag : a ∈ gone
    · refine ⟨who, hwho, fun ch hch => ?_⟩
      rw [hchannels] at hch
      rw [cancellers_of_due hdue, honce a hag ch hch, (hmem a hag).2 ch hch, add_zero]
    · obtain ⟨by', hremoves, hby⟩ := h.removed a ha (fun hlookup => hnone ((hmap _ a).mpr ⟨hlookup, hag⟩))
      refine ⟨by', hremoves, fun ch hch => ?_⟩
      rw [hchannels] at hch
      rw [hother a ha hag ch hch]
      exact hby ch hch

private theorem channel_of_new {c : Nat} {dns : Bool} {ch : Channel} (hch : ch ∈ (s.newAssociation c dns).channels) :
    ch = .connection c ∨ ∃ u, ch = .session u ∧ s.sessions ≤ u ∧ u < s.sessions + 2 := by
  rcases List.mem_cons.mp hch with rfl | hch
  · exact .inl rfl
  · rcases List.mem_cons.mp hch with rfl | hch
    · exact .inr ⟨s.sessions, rfl, Nat.le_refl _, by omega⟩
    · cases dns with
      | false => cases hch
      | true =>
        obtain rfl : ch = .session (s.sessions + 1) := List.mem_singleton.mp hch
        exact .inr ⟨s.sessions + 1, rfl, Nat.le_succ _, by omega⟩

private theorem channels_new_nodup (s : AppProxyProvider UUID) (c : Nat) (dns : Bool) :
    (s.newAssociation c dns).channels.Nodup := by
  cases dns <;> simp [UDPAssociation.channels, newAssociation]

private theorem mem_eraseIdx (h : s.Custody) {i c d : Nat} (hi : s.inserting[i]? = some c)
    (hd : d ∈ s.inserting.eraseIdx i) : d ∈ s.inserting ∧ d ≠ c := by
  obtain ⟨j, hji, hj⟩ := List.mem_eraseIdx_iff_getElem?.mp hd
  refine ⟨List.mem_of_getElem? hj, ?_⟩
  rintro rfl
  obtain ⟨hlt, _⟩ := List.getElem?_eq_some_iff.mp hj
  exact hji ((List.getElem?_inj hlt h.inserting).mp (hj.trans hi.symm))

/-- The channels of a new association are in no association that was inserted. -/
private theorem apart_new (h : s.Custody) {c : Nat} (hc : c ∈ s.inserting) {dns : Bool} {ch : Channel}
    (hch : ch ∈ (s.newAssociation c dns).channels) : ∀ a ∈ s.inserted, ch ∉ (s.association a).channels := by
  intro a ha hcha
  rcases channel_of_new hch with rfl | ⟨u, rfl, hu, _⟩
  · exact h.unused c hc a ha hcha
  · exact Nat.not_lt.mpr hu (h.sessions a ha u hcha)

/-- A connection that waits for its insertion gets its association, under a flow that has none. -/
private theorem add (h : s.Custody) {i c a : Nat} {dns : Bool} (hi : s.inserting[i]? = some c) (ha : a ∉ s.inserted)
    (hdue : s'.due = s.due) (hinserting : s'.inserting = s.inserting.eraseIdx i)
    (hinserted : s'.inserted = insert a s.inserted) (hsessions : s'.sessions = s.sessions + 2)
    (hassoc : s'.association = Function.update s.association a (s.newAssociation c dns))
    (hmap : ∀ flow b, s'.udpAssociations.lookup flow = some b ↔
      flow = (s.connection c).flow ∧ b = a ∨ s.udpAssociations.lookup flow = some b) : s'.Custody := by
  have hc : c ∈ s.inserting := List.mem_of_getElem? hi
  have hself : s'.association a = s.newAssociation c dns := by rw [hassoc, Function.update_self]
  have hother : ∀ b ∈ s.inserted, s'.association b = s.association b := by
    rintro b hb
    rw [hassoc, Function.update_of_ne]
    rintro rfl
    exact ha hb
  have hcancellers : ∀ ch, s'.cancellers ch = s.cancellers ch := fun ch => by rw [cancellers, cancellers, hdue]
  have hwait : ∀ d ∈ s'.inserting, d ∈ s.inserting ∧ d ≠ c := by
    intro d hd
    rw [hinserting] at hd
    exact h.mem_eraseIdx hi hd
  have hzero : ∀ ch ∈ (s.newAssociation c dns).channels, s.cancellers ch = 0 := by
    intro ch hch
    rcases channel_of_new hch with rfl | ⟨u, rfl, hu, _⟩
    · exact h.uncancelled c hc
    · exact h.fresh u hu
  have hcases : ∀ b ∈ s'.inserted, b = a ∨ b ∈ s.inserted := by
    rw [hinserted]
    exact fun b hb => Finset.mem_insert.mp hb
  refine ⟨fun d hd => ?_, fun d hd b hb => ?_, hinserting ▸ h.inserting.eraseIdx i, fun b hb b' hb' ch hch hch' => ?_,
    fun b hb => ?_, fun b hb u hu => ?_, fun u hu => ?_, fun flow b hb => ?_, fun b hb hnone => ?_⟩
  · rw [hcancellers]
    exact h.uncancelled d (hwait d hd).1
  · rcases hcases b hb with rfl | hb
    · rw [hself, connection_mem_channels]
      exact (hwait d hd).2
    · rw [hother b hb]
      exact h.unused d (hwait d hd).1 b hb
  · rcases hcases b hb with rfl | hb
    · rcases hcases b' hb' with rfl | hb'
      · rfl
      · rw [hself] at hch
        rw [hother b' hb'] at hch'
        exact (h.apart_new hc hch b' hb' hch').elim
    · rw [hother b hb] at hch
      rcases hcases b' hb' with rfl | hb'
      · rw [hself] at hch'
        exact (h.apart_new hc hch' b hb hch).elim
      · rw [hother b' hb'] at hch'
        exact h.distinct b hb b' hb' ch hch hch'
  · rcases hcases b hb with rfl | hb
    · rw [hself]
      exact channels_new_nodup s c dns
    · rw [hother b hb]
      exact h.channels b hb
  · rw [hsessions]
    rcases hcases b hb with rfl | hb
    · rw [hself] at hu
      rcases channel_of_new hu with heq | ⟨v, heq, _, hv⟩
      · cases heq
      · cases heq
        exact hv
    · rw [hother b hb] at hu
      exact Nat.lt_add_right 2 (h.sessions b hb u hu)
  · rw [hcancellers]
    exact h.fresh u (by omega)
  · rcases (hmap flow b).mp hb with ⟨rfl, rfl⟩ | hold
    · rw [hself]
      refine ⟨hinserted ▸ Finset.mem_insert_self .., rfl, fun ch hch => ?_⟩
      rw [hcancellers]
      exact hzero ch hch
    · obtain ⟨hin, hflow, hnone⟩ := h.mapped flow b hold
      rw [hother b hin]
      refine ⟨hinserted ▸ Finset.mem_insert_of_mem hin, hflow, fun ch hch => ?_⟩
      rw [hcancellers]
      exact hnone ch hch
  · rcases hcases b hb with rfl | hb
    · rw [hself] at hnone
      exact (hnone ((hmap _ b).mpr (.inl ⟨rfl, rfl⟩))).elim
    · rw [hother b hb] at hnone
      obtain ⟨who, hwho, hby⟩ := h.removed b hb (fun hold => hnone ((hmap _ b).mpr (.inr hold)))
      refine ⟨who, hwho, fun ch hch => ?_⟩
      rw [hother b hb] at hch
      rw [hcancellers]
      exact hby ch hch

private theorem foreign_connection (hcontrols : s.Controls) {c : Nat} (hc : ¬ s.Relayed c) :
    s.Foreign (.connection c) := by
  refine ⟨fun a ha hch => hc (hcontrols.inserted a ha c hch), fun d hd heq => ?_, fun _ _ heq => nomatch heq⟩
  obtain rfl := Channel.connection.inj heq
  exact hc (hcontrols.inserting c hd)

private theorem keep_nothing (h : s.Custody) (hdue : s'.due = s.due) (hinserting : s'.inserting = s.inserting)
    (hinserted : s'.inserted = s.inserted)
    (hchannels : ∀ a, (s'.association a).channels = (s.association a).channels)
    (hflow : ∀ a, (s'.association a).clientFlow = (s.association a).clientFlow) (hsessions : s'.sessions = s.sessions)
    (hmap : s'.udpAssociations = s.udpAssociations) : s'.Custody := by
  have hnothing : s'.due = ([] : List (Effect UUID)) + s.due := by
    rw [hdue]
    exact (zero_add _).symm
  exact h.keep hnothing (hinserting ▸ .refl _) hinserted hchannels hflow hsessions.symm.le hmap
    (fun _ _ hmem => nomatch hmem)

/-- Only a connection that is not relayed is cancelled. -/
private theorem keep_connection (h : s.Custody) (hcontrols : s.Controls) {new : List (Effect UUID)}
    (hdue : s'.due = new + s.due) (hinserting : s'.inserting = s.inserting) (hinserted : s'.inserted = s.inserted)
    (hassoc : s'.association = s.association) (hsessions : s'.sessions = s.sessions)
    (hmap : s'.udpAssociations = s.udpAssociations)
    (hnew : ∀ ch who, .cancel ch who ∈ new → ∃ c, ch = .connection c ∧ ¬ s.Relayed c) : s'.Custody := by
  refine h.keep hdue (hinserting ▸ .refl _) hinserted (fun _ => hassoc ▸ rfl) (fun _ => hassoc ▸ rfl)
    hsessions.symm.le hmap (fun ch who hmem => ?_)
  obtain ⟨c, rfl, hc⟩ := hnew ch who hmem
  obtain ⟨hused, hwait, hlater⟩ := foreign_connection hcontrols hc
  exact ⟨hinserted ▸ hassoc ▸ hused, hinserting ▸ hwait, hsessions ▸ hlater⟩

private theorem passed (h : s.Custody) (hr : s.Registry uuid) (hledger : s.Ledger) (hcontrols : s.Controls) {c : Nat}
    {p : PendingHandshake UUID} (hlive : (s.connection c).live = true) (hcall : (s.connection c).call ≠ .failed)
    (hudp : (s.connection c).udp = true) (hp : s.pendingHandshakes.lookup (s.connection c).identifier = some p)
    (hdue : s'.due = s.due) (hinserting : s'.inserting = c :: s.inserting) (hinserted : s'.inserted = s.inserted)
    (hassoc : s'.association = s.association) (hsessions : s'.sessions = s.sessions)
    (hmap : s'.udpAssociations = s.udpAssociations) : s'.Custody := by
  have hpending := hr.pending_not_settled hlive hp
  have hnot : ¬ s.Relayed c := fun hrelayed => hpending hrelayed.2.2.2
  have hzero : s.cancellers (.connection c) = 0 := by
    refine Multiset.eq_zero_of_forall_notMem (fun who hwho => ?_)
    rcases (hledger.cancelled c who hwho).2 with ⟨_, htcp⟩ | ⟨_, hfailed⟩ | hsettled
    · rw [hudp] at htcp
      cases htcp
    · exact hcall hfailed
    · exact hpending hsettled
  have hcancellers : ∀ ch, s'.cancellers ch = s.cancellers ch := fun ch => by rw [cancellers, cancellers, hdue]
  refine ⟨fun d hd => ?_, fun d hd a ha => ?_, ?_, ?_, ?_, ?_, ?_, ?_, ?_⟩
  · rw [hcancellers]
    rcases List.mem_cons.mp (hinserting ▸ hd) with rfl | hd
    · exact hzero
    · exact h.uncancelled d hd
  · rw [hassoc]
    rcases List.mem_cons.mp (hinserting ▸ hd) with rfl | hd
    · exact fun hch => hnot (hcontrols.inserted a (hinserted ▸ ha) d hch)
    · exact h.unused d hd a (hinserted ▸ ha)
  · rw [hinserting]
    exact List.nodup_cons.mpr ⟨fun hc => hnot (hcontrols.inserting c hc), h.inserting⟩
  · rw [hinserted, hassoc]
    exact h.distinct
  · rw [hinserted, hassoc]
    exact h.channels
  · rw [hinserted, hassoc, hsessions]
    exact h.sessions
  · intro u hu
    rw [hcancellers]
    exact h.fresh u (hsessions ▸ hu)
  · intro flow a ha
    rw [hinserted, hassoc]
    simp only [hcancellers]
    exact h.mapped flow a (hmap ▸ ha)
  · intro a ha hgone
    rw [hmap, hassoc] at hgone
    obtain ⟨who, hwho, hby⟩ := h.removed a (hinserted ▸ ha) hgone
    refine ⟨who, hwho, fun ch hch => ?_⟩
    rw [hassoc] at hch
    rw [hcancellers]
    exact hby ch hch

/-- The associations of the dictionary, by the flows that they stand under. -/
private theorem mem_values (h : s.Custody) {order : List Nat}
    (horder : order.Perm (s.udpAssociations.entries.map (·.2))) :
    order.Nodup ∧ ∀ a, a ∈ order ↔ ∃ flow, s.udpAssociations.lookup flow = some a := by
  refine ⟨horder.nodup_iff.mpr ?_, fun a => ⟨fun ha => ?_, fun ha => ?_⟩⟩
  · refine List.Nodup.map_on (fun x hx y hy heq => ?_) s.udpAssociations.nodupKeys.nodup
    obtain ⟨_, hxflow, _⟩ := h.mapped x.1 x.2 (AList.mem_lookup_iff.mpr hx)
    obtain ⟨_, hyflow, _⟩ := h.mapped y.1 y.2 (AList.mem_lookup_iff.mpr hy)
    exact Sigma.ext (hxflow.symm.trans ((congrArg (fun b => (s.association b).clientFlow) heq).trans hyflow))
      (heq_of_eq heq)
  · obtain ⟨⟨flow, b⟩, hentry, rfl⟩ := List.mem_map.mp (horder.subset ha)
    exact ⟨flow, AList.mem_lookup_iff.mpr hentry⟩
  · obtain ⟨flow, hlookup⟩ := ha
    exact horder.symm.subset (List.mem_map.mpr ⟨⟨flow, a⟩, AList.mem_lookup_iff.mp hlookup, rfl⟩)

private theorem cancelsOf_append_closeFlow (ch : Channel) (effects : List (Effect UUID)) (flow : Nat) :
    cancelsOf ch ((effects ++ closeFlow flow : List (Effect UUID)) : Multiset (Effect UUID)) =
      cancelsOf ch effects := by
  rw [← Multiset.coe_add, cancelsOf_add, cancelsOf_eq_zero (fun who hmem => mem_closeFlow (Multiset.mem_coe.mp hmem)),
    add_zero]

/-- Associations that share no channel are cancelled one after the other. -/
private theorem cancelsOf_all {who : Canceller UUID} {order : List Nat} (hnodup : order.Nodup)
    {channels : Nat → List Channel} {flow : Nat → Nat} (hchannels : ∀ a ∈ order, (channels a).Nodup)
    (hdistinct : ∀ a ∈ order, ∀ b ∈ order, ∀ ch ∈ channels a, ch ∈ channels b → a = b) {a : Nat} (ha : a ∈ order)
    {ch : Channel} (hch : ch ∈ channels a) :
    cancelsOf ch ((order.flatMap fun b => cancelAll who (channels b) ++ closeFlow (flow b) : List (Effect UUID)) :
      Multiset (Effect UUID)) = {who} := by
  induction order with
  | nil => cases ha
  | cons b order ih =>
    obtain ⟨hb, hnodup⟩ := List.nodup_cons.mp hnodup
    rw [List.flatMap_cons, ← Multiset.coe_add, cancelsOf_add, cancelsOf_append_closeFlow]
    by_cases hab : a = b
    · subst hab
      rw [cancelsOf_cancelAll (hchannels a ha) hch, cancelsOf_eq_zero (fun by' hmem => ?_), add_zero]
      obtain ⟨d, hd, hmem⟩ := List.mem_flatMap.mp (Multiset.mem_coe.mp hmem)
      obtain ⟨hchd, _⟩ : ch ∈ channels d ∧ who = by' := by simpa using hmem
      exact hb (hdistinct a ha d (List.mem_cons_of_mem _ hd) ch hch hchd ▸ hd)
    · have hrest : a ∈ order := (List.mem_cons.mp ha).resolve_left hab
      rw [ih hnodup (fun d hd => hchannels d (List.mem_cons_of_mem _ hd))
        (fun d hd e he => hdistinct d (List.mem_cons_of_mem _ hd) e (List.mem_cons_of_mem _ he)) hrest,
        cancelsOf_eq_zero (fun by' hmem => ?_), zero_add]
      obtain ⟨hchb, _⟩ := mem_cancelAll.mp (Multiset.mem_coe.mp hmem)
      exact hab (hdistinct a ha b (List.mem_cons_self ..) ch hch hchb)

private theorem tornDown (h : s.Custody) {flow a : Nat} (ha : s.udpAssociations.lookup flow = some a)
    (hdue : s'.due = (cancelAll .teardown (s.association a).channels ++ closeFlow flow : List (Effect UUID)) + s.due)
    (hinserting : s'.inserting = s.inserting) (hinserted : s'.inserted = s.inserted)
    (hsessions : s'.sessions = s.sessions)
    (hassoc : s'.association = Function.update s.association a { s.association a with isTornDown := true })
    (hmap : s'.udpAssociations = s.udpAssociations.erase flow) : s'.Custody := by
  obtain ⟨hin, hflow, _⟩ := h.mapped flow a ha
  refine h.hand [a] (.inl rfl) hdue hinserting hinserted hsessions ?_ ?_ ?_ ?_ ?_ ?_
  · rw [hassoc]
    exact apply_update_same UDPAssociation.channels rfl
  · rw [hassoc]
    exact apply_update_same UDPAssociation.clientFlow rfl
  · intro b hb
    obtain rfl := List.mem_singleton.mp hb
    exact ⟨flow, ha⟩
  · intro flow' b
    rw [hmap, List.mem_singleton]
    constructor
    · intro hb
      obtain ⟨hne, hold⟩ := lookup_of_erase hb
      refine ⟨hold, ?_⟩
      rintro rfl
      exact hne ((h.mapped flow' b hold).2.1.symm.trans hflow)
    · rintro ⟨hold, hne⟩
      rw [AList.lookup_erase_ne]
      · exact hold
      · rintro rfl
        exact hne (Option.some.inj (hold.symm.trans ha))
  · intro ch who hmem
    obtain ⟨hch, _⟩ : ch ∈ (s.association a).channels ∧ .teardown = who := by simpa using hmem
    exact ⟨a, List.mem_singleton_self a, hch⟩
  · intro b hb ch hch
    obtain rfl := List.mem_singleton.mp hb
    rw [cancelsOf_append_closeFlow]
    exact cancelsOf_cancelAll (h.channels b hin) hch

private theorem stoppedAssociations (h : s.Custody) {order : List Nat} (hcall : s.stopCall = .handshakes [])
    (horder : order.Perm (s.udpAssociations.entries.map (·.2))) : (s.stopAssociations order).Custody := by
  obtain ⟨hnodup, hmem⟩ := h.mem_values horder
  have hin : ∀ a ∈ order, a ∈ s.inserted := by
    intro a ha
    obtain ⟨flow, hlookup⟩ := (hmem a).mp ha
    exact (h.mapped flow a hlookup).1
  refine h.hand order (.inr (.inr rfl)) (due_of_stop hcall rfl rfl rfl) rfl rfl rfl (fun _ => rfl) (fun _ => rfl)
    (fun a ha => (hmem a).mp ha) (fun flow a => ⟨fun ha => (nomatch ha), ?_⟩) (fun ch who hch => ?_)
    (fun a ha ch hch => ?_)
  · rintro ⟨ha, hnot⟩
    exact (hnot ((hmem a).mpr ⟨flow, ha⟩)).elim
  · obtain ⟨a, ha, hch⟩ := List.mem_flatMap.mp hch
    obtain ⟨hch, _⟩ : ch ∈ (s.association a).channels ∧ .stop = who := by simpa using hch
    exact ⟨a, ha, hch⟩
  · exact cancelsOf_all hnodup (fun b hb => h.channels b (hin b hb))
      (fun b hb d hd => h.distinct b (hin b hb) d (hin d hd)) ha hch

/-- The insertion takes out the association of the same flow and then adds its own. -/
private theorem inserted (h : s.Custody) {i c a : Nat} {dns : Bool} (hi : s.inserting[i]? = some c)
    (ha : a ∉ s.inserted)
    (hdue : s'.due = ((s.udpAssociations.lookup (s.connection c).flow).toList.flatMap fun b =>
      cancelAll .replacement (s.association b).channels : List (Effect UUID)) + s.due)
    (hinserting : s'.inserting = s.inserting.eraseIdx i) (hinserted : s'.inserted = insert a s.inserted)
    (hsessions : s'.sessions = s.sessions + 2)
    (hassoc : s'.association = Function.update s.association a (s.newAssociation c dns))
    (hmap : s'.udpAssociations = s.udpAssociations.insert (s.connection c).flow a) : s'.Custody := by
  let existing := (s.udpAssociations.lookup (s.connection c).flow).toList
  let replaced := { s with udpAssociations := s.udpAssociations.erase (s.connection c).flow }.spawn
    ((existing.flatMap fun b => cancelAll .replacement (s.association b).channels).map .perform)
  have hexisting : ∀ b, b ∈ existing ↔ s.udpAssociations.lookup (s.connection c).flow = some b :=
    fun b => Option.mem_toList
  have hdue' : replaced.due = (existing.flatMap fun b =>
      cancelAll .replacement (s.association b).channels : List (Effect UUID)) + s.due := due_spawn_perform _ _
  have hlookup : ∀ flow b, replaced.udpAssociations.lookup flow = some b ↔
      s.udpAssociations.lookup flow = some b ∧ b ∉ existing := by
    intro flow b
    rw [hexisting]
    constructor
    · intro hb
      obtain ⟨hne, hold⟩ := lookup_of_erase hb
      refine ⟨hold, fun hsame => hne ?_⟩
      exact (h.mapped flow b hold).2.1.symm.trans (h.mapped _ b hsame).2.1
    · rintro ⟨hold, hnot⟩
      refine (AList.lookup_erase_ne ?_).trans hold
      rintro rfl
      exact hnot hold
  have hhanded : replaced.Custody := by
    refine h.hand existing (.inr (.inl rfl)) hdue' rfl rfl rfl (fun _ => rfl) (fun _ => rfl)
      (fun b hb => ⟨_, (hexisting b).mp hb⟩) hlookup (fun ch who hmem => ?_) (fun b hb ch hch => ?_)
    · obtain ⟨b, hb, hmem⟩ := List.mem_flatMap.mp hmem
      exact ⟨b, hb, (mem_cancelAll.mp hmem).1⟩
    · have hone : existing = [b] := by
        simp only [existing, (hexisting b).mp hb, Option.toList_some]
      rw [hone, List.flatMap_singleton]
      exact cancelsOf_cancelAll (h.channels b (h.mapped _ b ((hexisting b).mp hb)).1) hch
  refine hhanded.add hi ha (hdue.trans hdue'.symm) hinserting hinserted hsessions hassoc (fun flow b => ?_)
  rw [hmap]
  constructor
  · intro hb
    by_cases hflow : flow = (s.connection c).flow
    · rw [hflow, AList.lookup_insert] at hb
      exact .inl ⟨hflow, (Option.some.inj hb).symm⟩
    · rw [AList.lookup_insert_ne hflow] at hb
      exact .inr ((AList.lookup_erase_ne hflow).trans hb)
  · rintro (⟨rfl, rfl⟩ | hb)
    · exact AList.lookup_insert _
    · obtain ⟨hne, hold⟩ := lookup_of_erase hb
      exact (AList.lookup_insert_ne hne).trans hold

theorem step (h : s.Custody) (hr : s.Registry uuid) (hledger : s.Ledger) (hcontrols : s.Controls)
    (hs : Step uuid s s') : s'.Custody := by
  cases hs with
  | quiet hq =>
    exact h.keep_nothing hq.due hq.inserting hq.inserted hq.channels hq.clientFlow hq.sessions hq.udpAssociations
  | @armRefused c hlive htoken hstop =>
    refine h.keep_connection hcontrols (due_spawn_perform _ _) rfl rfl rfl rfl rfl (fun ch who hmem => ?_)
    obtain ⟨rfl, _⟩ : ch = .connection c ∧ .armRefused = who := by simpa using hmem
    refine ⟨c, rfl, fun hrelayed => ?_⟩
    have harmed := hrelayed.2.2.2.1
    rw [htoken] at harmed
    cases harmed
  | @timedOut id p timers hp =>
    refine h.keep_connection hcontrols (due_spawn_perform _ _) rfl rfl rfl rfl rfl (fun ch who hmem => ?_)
    obtain ⟨rfl, _⟩ : ch = .connection p.connection ∧ .timer p.token = who := by simpa using hmem
    exact ⟨p.connection, rfl, fun hrelayed => hrelayed.2.2.2.notMem hp rfl⟩
  | @passed c p hlive hcall hp =>
    cases hudp : (s.connection c).udp with
    | false => exact h.keep_nothing rfl rfl rfl (fun _ => rfl) (fun _ => rfl) rfl rfl
    | true => exact h.passed hr hledger hcontrols hlive hcall hudp hp rfl rfl rfl rfl rfl rfl
  | @closed c hlive hudp =>
    refine h.keep_connection hcontrols (due_spawn_perform _ _) rfl rfl rfl rfl rfl (fun ch who hmem => ?_)
    obtain ⟨rfl, _⟩ : ch = .connection c ∧ .closeRelay = who := by simpa using hmem
    refine ⟨c, rfl, fun hrelayed => ?_⟩
    have hrelayed := hrelayed.2.1
    rw [hudp] at hrelayed
    cases hrelayed
  | @failed c hlive hcall =>
    refine h.keep_connection hcontrols (due_spawn_perform _ _) rfl rfl rfl rfl rfl (fun ch who hmem => ?_)
    obtain ⟨rfl, _⟩ : ch = .connection c ∧ .failHandshake = who := by
      split at hmem <;> simpa using hmem
    refine ⟨c, rfl, fun hrelayed => ?_⟩
    have hrelayed := hrelayed.2.2.1
    rw [hcall] at hrelayed
    cases hrelayed
  | @insertRefused i c dns hi hstop =>
    refine h.keep (due_spawn_perform _ _) (List.eraseIdx_sublist ..) rfl (fun _ => rfl) (fun _ => rfl)
      (Nat.le_add_right ..) rfl (fun ch who hmem => ?_)
    obtain ⟨hch, _⟩ : ch ∈ (s.newAssociation c dns).channels ∧ .insertionRefused = who := by simpa using hmem
    refine ⟨h.apart_new (List.mem_of_getElem? hi) hch, fun d hd heq => ?_, fun u hu heq => ?_⟩
    · rcases channel_of_new (heq ▸ hch) with hdc | ⟨v, hdv, _⟩
      · exact (h.mem_eraseIdx hi hd).2 (Channel.connection.inj hdc)
      · cases hdv
    · rcases channel_of_new (heq ▸ hch) with huc | ⟨v, huv, _, hv⟩
      · cases huc
      · cases huv
        exact Nat.not_lt.mpr hu hv
  | inserted dns hi ha hgo => exact h.inserted hi ha (due_spawn_perform _ _) rfl rfl rfl rfl rfl
  | tornDown ha hdue => exact h.tornDown ha hdue rfl rfl rfl rfl rfl
  | @stoppedHandshakes order hcall horder =>
    refine h.keep_connection hcontrols (due_of_stop hcall rfl rfl rfl) rfl rfl rfl rfl rfl (fun ch who hmem => ?_)
    obtain ⟨p, hp, hmem⟩ := List.mem_flatMap.mp hmem
    obtain ⟨rfl, _⟩ : ch = .connection p.connection ∧ .stop = who := by simpa using hmem
    obtain ⟨⟨id, q⟩, hentry, rfl⟩ := List.mem_map.mp (horder.subset hp)
    exact ⟨q.connection, rfl, fun hrelayed => hrelayed.2.2.2.notMem (AList.mem_lookup_iff.mpr hentry) rfl⟩
  | stoppedAssociations hcall horder => exact h.stoppedAssociations hcall horder
  | _ => exact h.keep_nothing rfl rfl rfl (fun _ => rfl) (fun _ => rfl) rfl rfl

end Custody
/-- What the sections of `stopProxy` leave behind. -/
structure Stops (s : AppProxyProvider UUID) : Prop where
  stopping : s.stopCall.called = s.proxyStopping
  handshakes : s.stopCall.called = true → s.pendingHandshakes = ∅
  associations : s.stopCall.sectionsRun = true → s.udpAssociations = ∅

namespace Stops

theorem initial : (initial : AppProxyProvider UUID).Stops where
  stopping := rfl
  handshakes h := nomatch h
  associations h := nomatch h

theorem called_of_sectionsRun {call : StopCall UUID} (h : call.sectionsRun = true) : call.called = true := by
  cases call with
  | notCalled => cases h
  | handshakes script => rfl
  | associations script => rfl

private theorem keep (h : s.Stops) (hcall : s'.stopCall = s.stopCall) (hstop : s'.proxyStopping = s.proxyStopping)
    (hpending : s.pendingHandshakes = ∅ → s'.pendingHandshakes = ∅)
    (hmap : s.udpAssociations = ∅ → s'.udpAssociations = ∅) : s'.Stops where
  stopping := by rw [hcall, hstop, h.stopping]
  handshakes hcalled := hpending (h.handshakes (hcall ▸ hcalled))
  associations hrun := hmap (h.associations (hcall ▸ hrun))

theorem step (h : s.Stops) (hs : Step uuid s s') : s'.Stops := by
  have hgone : ∀ (id : Nat), s.pendingHandshakes = ∅ → s.pendingHandshakes.erase id = ∅ := by
    intro id hempty
    rw [hempty]
    rfl
  have hcalled : s.proxyStopping = false → s.stopCall.called ≠ true := by
    intro hgo
    rw [h.stopping, hgo]
    exact Bool.false_ne_true
  cases hs with
  | quiet hq =>
    refine ⟨by rw [hq.called, hq.proxyStopping, h.stopping], fun hcall => ?_, fun hrun => ?_⟩
    · exact hq.pendingHandshakes.trans (h.handshakes (hq.called ▸ hcall))
    · exact hq.udpAssociations.trans (h.associations (hq.sectionsRun ▸ hrun))
  | armed hlive htoken hgo =>
    exact ⟨h.stopping, fun hcall => (hcalled hgo hcall).elim, h.associations⟩
  | timedOut timers hp => exact h.keep rfl rfl (hgone _) (fun hempty => hempty)
  | notPassed hlive hcall => exact h.keep rfl rfl (hgone _) (fun hempty => hempty)
  | passed hlive hcall hp => exact h.keep rfl rfl (hgone _) (fun hempty => hempty)
  | closed hlive hudp => exact h.keep rfl rfl (hgone _) (fun hempty => hempty)
  | inserted dns hi ha hgo =>
    exact ⟨h.stopping, h.handshakes, fun hrun => (hcalled hgo (called_of_sectionsRun hrun)).elim⟩
  | tornDown ha hdue =>
    refine h.keep rfl rfl (fun hempty => hempty) (fun hempty => ?_)
    rw [hempty] at ha
    cases ha
  | stoppedHandshakes hcall horder => exact ⟨rfl, fun _ => rfl, fun hrun => nomatch hrun⟩
  | stoppedAssociations hcall horder =>
    have hbefore : s.stopCall.called = true := by
      rw [hcall]
      rfl
    exact ⟨hbefore.symm.trans h.stopping, fun _ => h.handshakes hbefore, fun _ => rfl⟩
  | _ => exact h.keep rfl rfl (fun hempty => hempty) (fun hempty => hempty)

end Stops

theorem Step.sectionsRun (hs : Step uuid s s') (h : s.stopCall.sectionsRun = true) :
    s'.stopCall.sectionsRun = true := by
  cases hs with
  | quiet hq => exact hq.sectionsRun.trans h
  | stoppedHandshakes hcall horder =>
    rw [hcall] at h
    cases h
  | stoppedAssociations hcall horder => rfl
  | failed hlive hcall => exact h
  | _ => exact h

/-- The invariant of the provider. -/
structure Inv (uuid : Nat → UUID) (s : AppProxyProvider UUID) : Prop where
  registry : s.Registry uuid
  ledger : s.Ledger
  controls : s.Controls
  custody : s.Custody
  stops : s.Stops

theorem Inv.initial : (initial : AppProxyProvider UUID).Inv uuid :=
  ⟨.initial, .initial, .initial, .initial, .initial⟩

theorem Inv.step (h : s.Inv uuid) (huuid : Function.Injective uuid) (hs : Step uuid s s') : s'.Inv uuid := by
  have hregistry := h.registry.step huuid hs
  exact ⟨hregistry, h.ledger.step h.registry hregistry h.controls hs, h.controls.step h.registry hs,
    h.custody.step h.registry h.ledger h.controls hs, h.stops.step hs⟩

end AppProxyProvider
end ProxyBridge.MacOS
