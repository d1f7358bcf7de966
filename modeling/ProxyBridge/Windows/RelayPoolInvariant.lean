import ProxyBridge.Windows.RelayPoolBuffers

/-! What holds of the relay pool whatever the order in which its threads run: its list, count and
event agree, and every buffer has one holder. -/
namespace ProxyBridge.Windows
open Runs TwoWayLists Ownership
namespace RelayPool

/-! The thread that releases a connection. -/
section Release
variable {s : RelayPool} {rc : Addr} {side : RelaySide} {c : PoolConn} {r : ReleaseCall}

private theorem coherent_release (hc : c.Coherent) (hold : c.release ≠ .running) (hnew : r ≠ .running) :
    PoolConn.Coherent { c with release := r } :=
  ⟨hc.refs, iff_of_false hnew (fun he => hold (hc.running.mpr he)), hc.getting⟩

/-- Both directions have come to their end. -/
private theorem ended_of_release (hc : c.Coherent) (hold : c.release ≠ .running) (side : RelaySide) :
    (c.dir side).call = .ended := by
  by_contra hne
  exact hold (hc.running.mpr ⟨side, hne⟩)

/-- The call has another buffer in hand, and no direction is concerned. -/
private theorem hold_release_only (htakes : ∀ side, r.takes side = c.release.takes side) (x : ConnHolder)
    (hx : x ≠ .release) : PoolConn.hold { c with release := r } x = c.hold x := by
  cases x with
  | direction side => simp only [PoolConn.hold, htakes]
  | call side => rfl
  | release => exact (hx rfl).elim

/-- `relay_buf_put` is called for the buffer of a direction. -/
private theorem Inv.beginPut (h : s.Inv) (hrc : rc ∈ s.live) (hrel : (s.conn rc).release ≠ .running)
    (hlinked : (s.conn rc).release.isLinked = false) (hhand : (s.conn rc).release.inHand = none)
    (htakes : (s.conn rc).release.takes side = false)
    (hother : ∀ side', side' ≠ side → (s.conn rc).release.takes side' =
      (ReleaseCall.putting side ((s.conn rc).dir side).buf).takes side')
    (hself : (ReleaseCall.putting side ((s.conn rc).dir side).buf).takes side = true) :
    (s.setRelease rc (.putting side ((s.conn rc).dir side).buf)).Inv := by
  have hc := h.coherent rc hrc
  have hended := ended_of_release hc hrel side
  have hown : ((s.conn rc).dir side).own = ((s.conn rc).dir side).buf := by
    simp [PoolDir.own, hended, DirCall.handsOver]
  have hsame : ∀ x, x ≠ .direction side → x ≠ .release → PoolConn.hold { s.conn rc with
      release := .putting side ((s.conn rc).dir side).buf } x = (s.conn rc).hold x := by
    intro x hx hx'
    cases x with
    | direction side' =>
      have hne : side' ≠ side := fun e => hx (e ▸ rfl)
      simp only [PoolConn.hold, hother side' hne]
    | call side' => rfl
    | release => exact (hx' rfl).elim
  refine h.setConn (p := s.pool) (B := s.buffers) hlinked.symm (coherent_release hc hrel (by simp)) ?_ h.bounded
  cases hbuf : ((s.conn rc).dir side).buf with
  | none =>
    rw [hbuf] at hsame hself
    refine owned_setConn h.owned hrc (fun x => ?_)
    by_cases hx : x = .direction side
    · subst hx
      simp [PoolConn.hold, hself, htakes, hown, hbuf]
    by_cases hx' : x = .release
    · subst hx'
      exact hhand.symm
    · exact hsame x hx hx'
  | some b =>
    rw [hbuf] at hsame hself
    have hk : (s.conn rc).hold (.direction side) = some b := by simp [PoolConn.hold, htakes, hown, hbuf]
    have hk' : (s.conn rc).hold .release = none := hhand
    exact owned_move h.owned hrc hk hk' (if_pos hself) rfl hsame

/-- The section of `relay_release` under the lock. -/
private theorem ListInv.unlink (h : s.ListInv) (hrc : rc ∈ s.live) (hrel : (s.conn rc).release = .unlinking) :
    ListInv (setRelease { s with
      links := s.links.unlink rc
      activeRelays := s.activeRelays - 1
      done := if s.activeRelays - 1 = 0 then s.done.map (fun _ => true) else s.done
      members := s.members.erase rc } rc .closing) := by
  have hmem : rc ∈ s.members := (h.linked rc).mpr ⟨hrc, by rw [hrel]; rfl⟩
  obtain ⟨xs, ys, hsplit⟩ := List.append_of_mem hmem
  have herase : s.members.erase rc = xs ++ ys := by
    have hnd := h.list.nodup
    rw [hsplit] at hnd ⊢
    have hxs : rc ∉ xs := fun hx => (List.nodup_append.mp hnd).2.2 rc hx rc (by simp) rfl
    rw [List.erase_append_right _ hxs, List.erase_cons_head]
  have hlen : (s.members.erase rc).length + 1 = s.members.length := List.length_erase_add_one hmem
  have hleft : s.activeRelays - 1 = (s.members.erase rc).length := by
    rw [h.count, ← hlen]
    omega
  have hopen : ¬ s.Closed := by
    intro hclosed
    rw [(h.closed hclosed).2] at hmem
    cases hmem
  have hnotEmpty : s.members ≠ [] := List.ne_nil_of_mem hmem
  refine ⟨?_, fun rc' => ?_, hleft, fun b hb => ?_, fun hd => ?_, ?_, h.created,
    fun hcl => (hopen hcl).elim, h.waiting⟩
  · have hlist := h.list
    rw [hsplit] at hlist
    simp only [setRelease, RelayPool.setConn, herase]
    exact hlist.unlink
  · simp only [setRelease, RelayPool.setConn]
    rw [h.list.nodup.mem_erase_iff, h.linked]
    by_cases hne : rc' = rc
    · subst hne
      simp [ReleaseCall.isLinked]
    · simp [hne]
  · simp only [setRelease, RelayPool.setConn] at hb ⊢
    split at hb
    · rename_i hz
      obtain ⟨_, _, rfl⟩ := Option.map_eq_some_iff.mp hb
      have hnil : (s.members.erase rc).length = 0 := by omega
      exact iff_of_true rfl (List.length_eq_zero_iff.mp hnil)
    · rename_i hz
      refine iff_of_false (fun hbt => hnotEmpty ((h.signalled b hb).mp hbt)) (fun hnil => hz ?_)
      rw [hleft, hnil]
      rfl
  · simp only [setRelease, RelayPool.setConn] at hd
    apply h.eventless
    split at hd
    · exact Option.map_eq_none_iff.mp hd
    · exact hd
  · exact fun hcl => (hopen (.inr (.inl hcl))).elim

/-- Both buffers have been put back when the connection is freed. -/
private theorem Inv.freeConn (h : s.Inv) (hrc : rc ∈ s.live) (hrel : (s.conn rc).release = .returned .download) :
    Inv { s with live := s.live.erase rc } where
  lists := by
    obtain ⟨hlist, hmem, hcount, hsignalled, heventless, hcreating, hcreated, hclosed, hwaiting⟩ := h.lists
    refine ⟨hlist, fun rc' => (hmem rc').trans ?_, hcount, hsignalled, heventless, hcreating, hcreated, hclosed,
      hwaiting⟩
    rw [Finset.mem_erase]
    by_cases hne : rc' = rc
    · subst hne
      simp [hrel, ReleaseCall.isLinked]
    · simp [hne]
  coherent rc' hrc' := h.coherent rc' (Finset.mem_of_mem_erase hrc')
  owned := by
    refine h.owned.congr (fun x => ?_)
    cases x with
    | slot n => rfl
    | conn rc' k =>
      by_cases hne : rc' = rc
      · subst hne
        have hended := ended_of_release (h.coherent rc' hrc) (by simp [hrel])
        rw [hold_conn hrc]
        simp only [hold, Finset.mem_erase, ne_eq, not_true_eq_false, false_and, if_false]
        cases k with
        | direction side => simp [PoolConn.hold, hrel, ReleaseCall.takes]
        | call side => simp [PoolConn.hold, hended, DirCall.inHand]
        | release => simp [PoolConn.hold, hrel, ReleaseCall.inHand]
      · simp only [hold, Finset.mem_erase, ne_eq, hne, not_false_eq_true, true_and]
  bounded := h.bounded

theorem Inv.advanceRelease (h : s.Inv) (hrc : rc ∈ s.live) {s' : RelayPool} (hs : s.advanceRelease rc = some s') :
    s'.Inv := by
  have hc := h.coherent rc hrc
  cases hrel : (s.conn rc).release with
  | running => simp only [RelayPool.advanceRelease, hrel, reduceCtorEq] at hs
  | unlinking =>
    simp only [RelayPool.advanceRelease, hrel, Option.some.injEq] at hs
    subst hs
    refine ⟨h.lists.unlink hrc hrel, fun rc' hrc' => ?_, ?_, h.bounded⟩
    · by_cases hne : rc' = rc
      · subst hne
        simp only [setRelease, RelayPool.setConn, Function.update_self]
        exact coherent_release hc (by simp [hrel]) (by simp)
      · simp only [setRelease, RelayPool.setConn, Function.update_of_ne hne]
        exact h.coherent rc' hrc'
    · have hsame : ∀ k, PoolConn.hold { s.conn rc with release := .closing } k = (s.conn rc).hold k := by
        intro k
        cases k with
        | direction side => simp [PoolConn.hold, hrel, ReleaseCall.takes]
        | call side => rfl
        | release => simp [PoolConn.hold, hrel, ReleaseCall.inHand]
      exact (owned_setConn h.owned hrc hsame).congr (fun x => by cases x <;> rfl)
  | closing =>
    simp only [RelayPool.advanceRelease, hrel, Option.some.injEq] at hs
    subst hs
    refine h.beginPut hrc ?_ ?_ ?_ ?_ (fun side' hne => ?_) rfl
    all_goals simp [hrel, ReleaseCall.isLinked, ReleaseCall.inHand, ReleaseCall.takes]
    exact hne
  | putting side b =>
    have hrun : (s.conn rc).release ≠ .running := by simp [hrel]
    have htakes : ∀ side', (ReleaseCall.returned side).takes side' = (s.conn rc).release.takes side' := by
      intro side'
      rw [hrel]
      cases side <;> rfl
    cases b with
    | none =>
      simp only [RelayPool.advanceRelease, hrel, Option.some.injEq] at hs
      subst hs
      refine h.setConn (p := s.pool) (B := s.buffers) (by rw [hrel]; rfl) (coherent_release hc hrun (by simp))
        (owned_setConn h.owned hrc fun x => ?_) h.bounded
      by_cases hx : x = .release
      · subst hx
        simp [PoolConn.hold, hrel, ReleaseCall.inHand]
      · exact hold_release_only htakes x hx
    | some b =>
      have hk : (s.conn rc).hold .release = some b := by simp [PoolConn.hold, hrel, ReleaseCall.inHand]
      simp only [RelayPool.advanceRelease, hrel, put, Option.some.injEq] at hs
      split at hs
      · rename_i hroom
        subst hs
        refine h.setConn (p := s.pool ++ [b]) (B := s.buffers) (by rw [hrel]; rfl) (coherent_release hc hrun (by simp))
          (owned_push h.owned hrc hk rfl (hold_release_only htakes)) ?_
        rw [List.length_append]
        exact hroom
      · subst hs
        refine h.setConn (p := s.pool) (B := s.buffers) (by rw [hrel]; rfl) (coherent_release hc hrun (by simp))
          (owned_setConn h.owned hrc fun x => ?_) h.bounded
        by_cases hx : x = .release
        · subst hx
          exact hk.symm
        · refine hold_release_only (fun side' => ?_) x hx
          rw [hrel]
          cases side <;> rfl
  | freeing side b =>
    simp only [RelayPool.advanceRelease, hrel, Option.some.injEq] at hs
    subst hs
    have hk : (s.conn rc).hold .release = some b := by simp [PoolConn.hold, hrel, ReleaseCall.inHand]
    have hrun : (s.conn rc).release ≠ .running := by simp [hrel]
    have htakes : ∀ side', (ReleaseCall.returned side).takes side' = (s.conn rc).release.takes side' := by
      intro side'
      rw [hrel]
      cases side <;> rfl
    exact h.setConn (p := s.pool) (B := s.buffers.erase b) (by rw [hrel]; rfl) (coherent_release hc hrun (by simp))
      (owned_free h.owned hrc hk rfl (hold_release_only htakes)) h.bounded
  | returned side =>
    cases side with
    | upload =>
      simp only [RelayPool.advanceRelease, hrel, Option.some.injEq] at hs
      subst hs
      refine h.beginPut hrc ?_ ?_ ?_ ?_ (fun side' hne => ?_) rfl
      all_goals simp [hrel, ReleaseCall.isLinked, ReleaseCall.inHand, ReleaseCall.takes]
      cases side' with
      | upload => rfl
      | download => exact (hne rfl).elim
    | download =>
      simp only [RelayPool.advanceRelease, hrel, Option.some.injEq] at hs
      subst hs
      exact h.freeConn hrc hrel

end Release

section Pool
variable {s : RelayPool}

/-- The section of `relay_start` under the lock. -/
theorem Inv.relayStart (h : s.Inv) {rc : Addr} (hrc : rc ∉ s.live) (running : Bool) :
    (s.relayStart rc running).Inv := by
  simp only [RelayPool.relayStart]
  split
  · exact h
  rename_i haccept
  have hacc : s.accepting = true := by
    simp only [Bool.or_eq_true, Bool.not_eq_true', not_or, Bool.not_eq_false] at haccept
    exact haccept.1
  have hopen : ¬ s.Closed := fun hcl => by simp [(h.lists.closed hcl).1] at hacc
  have hnew : rc ∉ s.members := fun hm => hrc ((h.lists.linked rc).mp hm).1
  have hother : ∀ rc', rc' ∈ s.live → rc' ≠ rc := fun rc' hl e => hrc (e ▸ hl)
  refine ⟨⟨h.lists.list.push hnew, fun rc' => ?_, ?_, fun b hb => ?_, fun hd => ?_,
    fun hcl => (hopen (.inr (.inl hcl))).elim, h.lists.created, fun hcl => (hopen hcl).elim, h.lists.waiting⟩,
    fun rc' hrc' => ?_, ?_, h.bounded⟩
  · rw [List.mem_cons, h.lists.linked, Finset.mem_insert]
    by_cases hne : rc' = rc
    · subst hne
      simp [PoolConn.started, ReleaseCall.isLinked]
    · simp [hne]
  · rw [h.lists.count, List.length_cons]
    rfl
  · obtain ⟨_, _, rfl⟩ := Option.map_eq_some_iff.mp hb
    exact iff_of_false Bool.false_ne_true (List.cons_ne_nil _ _)
  · exact h.lists.eventless (Option.map_eq_none_iff.mp hd)
  · rcases Finset.mem_insert.mp hrc' with rfl | hrc'
    · simp only [Function.update_self]
      exact ⟨rfl, iff_of_true rfl ⟨.upload, by simp [PoolConn.started]⟩, fun side hg => rfl⟩
    · simp only [Function.update_of_ne (hother rc' hrc')]
      exact h.coherent rc' hrc'
  · refine h.owned.congr (fun x => ?_)
    cases x with
    | slot n => rfl
    | conn rc' k =>
      by_cases hne : rc' = rc
      · subst hne
        simp only [hold, Finset.mem_insert_self, if_true, Function.update_self, hrc, if_false]
        cases k <;> rfl
      · simp only [hold, Finset.mem_insert, hne, false_or, Function.update_of_ne hne]

private theorem conn_relayPoolAbort (s : RelayPool) (rc : Addr) :
    (s.relayPoolAbort.conn rc).dir = (s.conn rc).dir ∧ (s.relayPoolAbort.conn rc).refs = (s.conn rc).refs ∧
      (s.relayPoolAbort.conn rc).release = (s.conn rc).release := by
  simp only [relayPoolAbort]
  split <;> exact ⟨rfl, rfl, rfl⟩

theorem Inv.relayPoolAbort (h : s.Inv) : s.relayPoolAbort.Inv where
  lists := by
    obtain ⟨hlist, hmem, hcount, hsignalled, heventless, hcreating, hcreated, hclosed, _⟩ := h.lists
    refine ⟨hlist, fun rc => (hmem rc).trans ?_, hcount, hsignalled, heventless, hcreating, hcreated,
      fun hcl => ⟨rfl, (hclosed hcl).2⟩, fun _ => rfl⟩
    rw [(conn_relayPoolAbort s rc).2.2]
    rfl
  coherent rc hrc := by
    obtain ⟨hdir, hrefs, hrelease⟩ := conn_relayPoolAbort s rc
    have hc := h.coherent rc hrc
    exact ⟨by rw [hrefs, hdir]; exact hc.refs, by rw [hrelease, hdir]; exact hc.running, by rw [hdir]; exact hc.getting⟩
  owned := by
    refine h.owned.congr (fun x => ?_)
    cases x with
    | slot n => rfl
    | conn rc k =>
      obtain ⟨hdir, _, hrelease⟩ := conn_relayPoolAbort s rc
      have hsame : (s.relayPoolAbort.conn rc).hold k = (s.conn rc).hold k := by
        cases k <;> simp only [PoolConn.hold, hdir, hrelease]
      simp only [hold, hsame]
      rfl
  bounded := h.bounded

/-- The control thread touches neither the connections nor the buffers. -/
private theorem Inv.control (h : s.Inv) {iocp accepting : Bool} {done : Option Bool} {control : PoolControl}
    (hlists : ListInv { s with iocp := iocp, done := done, accepting := accepting, control := control }) :
    Inv { s with iocp := iocp, done := done, accepting := accepting, control := control } :=
  ⟨hlists, h.coherent, h.owned.congr (fun x => by cases x <;> rfl), h.bounded⟩

theorem Inv.init : Inv init where
  lists := ⟨TwoWay.empty_represents, fun rc => by simp [RelayPool.init], rfl, fun _ hb => (nomatch hb), fun _ => rfl,
    fun hc => (nomatch hc), fun hc => (nomatch hc), fun _ => ⟨rfl, rfl⟩, fun hc => (nomatch hc)⟩
  coherent rc hrc := by cases hrc
  owned := .empty (fun x => by cases x <;> rfl)
  bounded := Nat.zero_le _

/-- One buffer of the pool is freed. -/
private theorem Inv.freePooled (h : s.Inv) {b : Addr} (htop : s.pool.getLast? = some b) :
    Inv { s.free b with pool := s.pool.dropLast } where
  lists := by
    obtain ⟨hlist, hmem, hcount, hsignalled, heventless, hcreating, hcreated, hclosed, hwaiting⟩ := h.lists
    exact ⟨hlist, hmem, hcount, hsignalled, heventless, hcreating, hcreated, hclosed, hwaiting⟩
  coherent := h.coherent
  owned := h.owned.free (hold_top htop) hold_dropLast_top hold_dropLast
  bounded := by
    rw [List.length_dropLast]
    exact Nat.le_trans (Nat.sub_le ..) h.bounded

theorem Inv.step (h : s.Inv) {a : PoolAction} {s' : RelayPool} (hs : s.step a = some s') : s'.Inv := by
  obtain ⟨hlist, hmem, hcount, hsignalled, heventless, hcreating, hcreated, hclosed, hwaiting⟩ := h.lists
  cases a with
  | start rc running =>
    obtain ⟨hrc, hs⟩ := Option.ite_none_left_eq_some.mp hs
    exact Option.some.inj hs ▸ h.relayStart hrc running
  | begin rc side =>
    obtain ⟨⟨hrc, hcall⟩, hs⟩ := Option.ite_none_right_eq_some.mp hs
    exact Option.some.inj hs ▸ h.turn hrc (.inl hcall) .wait
  | complete rc side turn =>
    obtain ⟨⟨hrc, hcall⟩, hs⟩ := Option.ite_none_right_eq_some.mp hs
    exact Option.some.inj hs ▸ h.turn hrc (.inr hcall) turn
  | advance rc side alloc ok =>
    obtain ⟨hrc, hs⟩ := Option.ite_none_right_eq_some.mp hs
    exact h.advanceDir hrc hs
  | release rc =>
    obtain ⟨hrc, hs⟩ := Option.ite_none_right_eq_some.mp hs
    exact h.advanceRelease hrc hs
  | abort => exact Option.some.inj hs ▸ h.relayPoolAbort
  | createEvent ok =>
    obtain ⟨⟨_, hiocp⟩, hs⟩ := Option.ite_none_right_eq_some.mp hs
    obtain ⟨hacc, hnil⟩ := hclosed (.inl hiocp)
    cases ok with
    | false => exact Option.some.inj hs ▸ h
    | true =>
      obtain rfl := Option.some.inj hs
      refine h.control ⟨hlist, hmem, hcount, fun b hb => ?_, fun hd => (nomatch hd), fun _ => ⟨hiocp, by simp⟩,
        fun hc => (nomatch hc), fun _ => ⟨hacc, hnil⟩, fun hc => (nomatch hc)⟩
      cases hb
      exact iff_of_true rfl hnil
  | createPort ok =>
    obtain ⟨hcontrol, hs⟩ := Option.ite_none_right_eq_some.mp hs
    obtain ⟨hacc, hnil⟩ := hclosed (.inr (.inl hcontrol))
    obtain ⟨hiocp, hdone⟩ := hcreating hcontrol
    cases ok with
    | false =>
      obtain rfl := Option.some.inj hs
      exact h.control ⟨hlist, hmem, hcount, fun _ hb => (nomatch hb), fun _ => hiocp, fun hc => (nomatch hc),
        fun hc => (nomatch hc), fun _ => ⟨hacc, hnil⟩, fun hc => (nomatch hc)⟩
    | true =>
      obtain rfl := Option.some.inj hs
      exact h.control ⟨hlist, hmem, hcount, hsignalled, fun hd => (hdone hd).elim, fun hc => (nomatch hc),
        fun _ => rfl, fun _ => ⟨hacc, hnil⟩, fun hc => (nomatch hc)⟩
  | createWorkers ok =>
    obtain ⟨hcontrol, hs⟩ := Option.ite_none_right_eq_some.mp hs
    obtain ⟨hacc, hnil⟩ := hclosed (.inr (.inr (.inl hcontrol)))
    have hiocp := hcreated hcontrol
    cases ok with
    | false =>
      obtain rfl := Option.some.inj hs
      exact h.control ⟨hlist, hmem, hcount, fun _ hb => (nomatch hb), fun _ => rfl, fun hc => (nomatch hc),
        fun hc => (nomatch hc), fun _ => ⟨hacc, hnil⟩, fun hc => (nomatch hc)⟩
    | true =>
      obtain rfl := Option.some.inj hs
      refine h.control ⟨hlist, hmem, hcount, hsignalled, heventless, fun hc => (nomatch hc), fun hc => (nomatch hc),
        fun hcl => ?_, fun hc => (nomatch hc)⟩
      simp [Closed, hiocp] at hcl
  | stop =>
    obtain ⟨⟨_, hiocp⟩, hs⟩ := Option.ite_none_right_eq_some.mp hs
    obtain rfl := Option.some.inj hs
    have ha := h.relayPoolAbort
    obtain ⟨hlist, hmem, hcount, hsignalled, heventless, _, _, _, _⟩ := ha.lists
    refine ha.control ⟨hlist, hmem, hcount, hsignalled, heventless, fun hc => (nomatch hc), fun hc => (nomatch hc),
      fun hcl => ?_, fun _ => rfl⟩
    have hiocp' : s.relayPoolAbort.iocp = true := hiocp
    simp [Closed, hiocp'] at hcl
  | waited =>
    obtain ⟨⟨hcontrol, hdone⟩, hs⟩ := Option.ite_none_right_eq_some.mp hs
    obtain rfl := Option.some.inj hs
    exact h.control ⟨hlist, hmem, hcount, hsignalled, heventless, fun hc => (nomatch hc), fun hc => (nomatch hc),
      fun _ => ⟨hwaiting hcontrol, (hsignalled true hdone).mp rfl⟩, fun hc => (nomatch hc)⟩
  | closeHandles =>
    obtain ⟨hcontrol, hs⟩ := Option.ite_none_right_eq_some.mp hs
    obtain rfl := Option.some.inj hs
    obtain ⟨hacc, hnil⟩ := hclosed (.inr (.inr (.inr hcontrol)))
    exact h.control ⟨hlist, hmem, hcount, fun _ hb => (nomatch hb), fun _ => rfl, fun hc => (nomatch hc),
      fun hc => (nomatch hc), fun _ => ⟨hacc, hnil⟩, fun hc => (nomatch hc)⟩
  | freePooled =>
    obtain ⟨hcontrol, hs⟩ := Option.ite_none_right_eq_some.mp hs
    split at hs
    · obtain rfl := Option.some.inj hs
      refine h.control ⟨hlist, hmem, hcount, hsignalled, heventless, fun hc => (nomatch hc), fun hc => (nomatch hc),
        fun hcl => ?_, fun hc => (nomatch hc)⟩
      have hiocp : s.iocp = false := by simpa [Closed] using hcl
      exact hclosed (.inl hiocp)
    · rename_i b htop
      exact Option.some.inj hs ▸ h.freePooled htop

private theorem put_frame (b : Addr) {kept full : RelayPool → RelayPool}
    (hkept : ∀ s, (kept s).accepting = s.accepting ∧ (kept s).members = s.members)
    (hfull : ∀ s, (full s).accepting = s.accepting ∧ (full s).members = s.members) :
    (s.put b kept full).accepting = s.accepting ∧ (s.put b kept full).members = s.members := by
  unfold put
  split
  · exact hkept _
  · exact hfull s

/-- The thread of a direction leaves the list alone. -/
private theorem advanceDir_frame {rc : Addr} {side : RelaySide} {alloc : Option Addr} {ok : Bool} {s' : RelayPool}
    (hs : s.advanceDir rc side alloc ok = some s') : s'.accepting = s.accepting ∧ s'.members = s.members := by
  simp only [advanceDir] at hs
  split at hs
  case h_2 => exact Option.some.inj hs ▸ put_frame _ (fun _ => ⟨rfl, rfl⟩) (fun _ => ⟨rfl, rfl⟩)
  case h_5 =>
    split at hs
    · exact Option.some.inj hs ▸ ⟨rfl, rfl⟩
    · exact Option.some.inj hs ▸ ⟨rfl, rfl⟩
  case h_6 =>
    split at hs
    · exact Option.some.inj hs ▸ ⟨rfl, rfl⟩
    · split at hs
      · cases hs
      · exact Option.some.inj hs ▸ ⟨rfl, rfl⟩
  all_goals first
    | exact Option.some.inj hs ▸ ⟨rfl, rfl⟩
    | cases hs

/-- Releasing a connection takes at most that one out of the list. -/
private theorem advanceRelease_frame {rc : Addr} {s' : RelayPool} (hs : s.advanceRelease rc = some s') :
    s'.accepting = s.accepting ∧ s'.members.Sublist s.members := by
  simp only [advanceRelease] at hs
  split at hs
  case h_1 => cases hs
  case h_2 => exact Option.some.inj hs ▸ ⟨rfl, List.erase_sublist⟩
  case h_5 =>
    have hput : s'.accepting = s.accepting ∧ s'.members = s.members :=
      Option.some.inj hs ▸ put_frame _ (fun _ => ⟨rfl, rfl⟩) (fun _ => ⟨rfl, rfl⟩)
    exact ⟨hput.1, by rw [hput.2]⟩
  all_goals exact Option.some.inj hs ▸ ⟨rfl, List.Sublist.refl _⟩

/-- While the pool does not accept, no step but the end of `relay_pool_start` changes that or adds a
connection. -/
private theorem refuses_step {a : PoolAction} {s' : RelayPool} (hacc : s.accepting = false)
    (ha : a ≠ .createWorkers true) (hs : s.step a = some s') :
    s'.accepting = false ∧ s'.members.Sublist s.members := by
  have hsame : ∀ t : RelayPool, t.accepting = s.accepting ∧ t.members = s.members →
      t.accepting = false ∧ t.members.Sublist s.members := by
    rintro t ⟨h1, h2⟩
    exact ⟨h1.trans hacc, by rw [h2]⟩
  cases a with
  | start rc running =>
    obtain ⟨_, hs⟩ := Option.ite_none_left_eq_some.mp hs
    obtain rfl := Option.some.inj hs
    refine hsame _ ?_
    rw [relayStart, if_pos (by simp [hacc])]
    exact ⟨rfl, rfl⟩
  | begin rc side =>
    obtain ⟨_, hs⟩ := Option.ite_none_right_eq_some.mp hs
    exact hsame _ (Option.some.inj hs ▸ ⟨rfl, rfl⟩)
  | complete rc side turn =>
    obtain ⟨_, hs⟩ := Option.ite_none_right_eq_some.mp hs
    exact hsame _ (Option.some.inj hs ▸ ⟨rfl, rfl⟩)
  | advance rc side alloc ok =>
    obtain ⟨_, hs⟩ := Option.ite_none_right_eq_some.mp hs
    exact hsame _ (advanceDir_frame hs)
  | release rc =>
    obtain ⟨_, hs⟩ := Option.ite_none_right_eq_some.mp hs
    obtain ⟨hsame, hsub⟩ := advanceRelease_frame hs
    exact ⟨hsame.trans hacc, hsub⟩
  | abort => exact Option.some.inj hs ▸ ⟨rfl, List.Sublist.refl _⟩
  | createEvent ok =>
    obtain ⟨_, hs⟩ := Option.ite_none_right_eq_some.mp hs
    cases ok <;> exact hsame _ (Option.some.inj hs ▸ ⟨rfl, rfl⟩)
  | createPort ok =>
    obtain ⟨_, hs⟩ := Option.ite_none_right_eq_some.mp hs
    cases ok <;> exact hsame _ (Option.some.inj hs ▸ ⟨rfl, rfl⟩)
  | createWorkers ok =>
    obtain ⟨_, hs⟩ := Option.ite_none_right_eq_some.mp hs
    cases ok with
    | false => exact hsame _ (Option.some.inj hs ▸ ⟨rfl, rfl⟩)
    | true => exact (ha rfl).elim
  | stop =>
    obtain ⟨_, hs⟩ := Option.ite_none_right_eq_some.mp hs
    exact Option.some.inj hs ▸ ⟨rfl, List.Sublist.refl _⟩
  | waited =>
    obtain ⟨_, hs⟩ := Option.ite_none_right_eq_some.mp hs
    exact hsame _ (Option.some.inj hs ▸ ⟨rfl, rfl⟩)
  | closeHandles =>
    obtain ⟨_, hs⟩ := Option.ite_none_right_eq_some.mp hs
    exact hsame _ (Option.some.inj hs ▸ ⟨rfl, rfl⟩)
  | freePooled =>
    obtain ⟨_, hs⟩ := Option.ite_none_right_eq_some.mp hs
    split at hs <;> exact hsame _ (Option.some.inj hs ▸ ⟨rfl, rfl⟩)

end Pool

/-- What the pool guarantees whatever the order of its critical sections. The list from the head on is
doubly linked and has the connections that were started and not yet released. -/
structure Sound (s : RelayPool) : Prop where
  list : s.links.Represents s.members
  started : ∀ rc, rc ∈ s.members ↔ rc ∈ s.live ∧ (s.conn rc).release.isLinked = true
  count : s.activeRelays = s.members.length
  signalled : ∀ b, s.done = some b → (b = true ↔ s.members = [])
  eventless : s.done = none → s.members = []
  held : ∀ b ∈ s.buffers, ∃! k, s.hold k = some b
  allocated : ∀ k b, s.hold k = some b → b ∈ s.buffers
  bounded : s.pool.length ≤ relayPoolKeep

theorem Inv.sound {s : RelayPool} (h : s.Inv) : s.Sound where
  list := h.lists.list
  started := h.lists.linked
  count := h.lists.count
  signalled := h.lists.signalled
  eventless hd := (h.lists.closed (.inl (h.lists.eventless hd))).2
  held _ hb := h.owned.existsUnique hb
  allocated := h.owned.mem
  bounded := h.bounded

/-- `relay_pool_abort` reaches every connection of the list. -/
theorem Inv.closing_relayPoolAbort {s : RelayPool} (h : s.Inv) {rc : Addr} (hrc : rc ∈ s.members) :
    (s.relayPoolAbort.conn rc).closing = true := by
  have hlen : s.members.length ≤ s.live.card := by
    rw [← List.toFinset_card_of_nodup h.lists.list.nodup]
    refine Finset.card_le_card (fun x hx => ?_)
    exact ((h.lists.linked x).mp (List.mem_toFinset.mp hx)).1
  have hreached := h.lists.list.follow_eq hlen
  simp only [RelayPool.relayPoolAbort, hreached, if_pos hrc]

/-- The pool refuses connections, and has none but the ones that were there. -/
private structure Refuses (old : List Addr) (s : RelayPool) : Prop where
  accepting : s.accepting = false
  members : s.members.Sublist old

/-- In every run of the threads of the pool, its list, count, event and buffers agree. After
`relay_pool_abort` nothing is added to the list before `relay_pool_start` has succeeded again. -/
theorem relay_pool_sound {s : RelayPool} (h : Reach step (fun _ _ => True) init s) :
    s.Sound ∧ ∀ s', s.step .abort = some s' → (∀ rc ∈ s.members, (s'.conn rc).closing = true) ∧
      ∀ t, Reach step (fun _ a => a ≠ .createWorkers true) s' t →
        t.accepting = false ∧ t.members.Sublist s.members := by
  have hinv : s.Inv := h.invariant Inv.init (fun _ _ _ hi _ hs => hi.step hs)
  refine ⟨hinv.sound, fun s' hs => ?_⟩
  obtain rfl := Option.some.inj hs
  refine ⟨fun rc hrc => hinv.closing_relayPoolAbort hrc, fun t ht => ?_⟩
  have hstart : s.relayPoolAbort.Refuses s.members := ⟨rfl, List.Sublist.refl _⟩
  have hrefuses : t.Refuses s.members := by
    refine ht.invariant hstart (fun u a u' hu ha hstep => ?_)
    obtain ⟨hacc, hsub⟩ := refuses_step hu.accepting ha hstep
    exact ⟨hacc, hsub.trans hu.members⟩
  exact ⟨hrefuses.accepting, hrefuses.members⟩

/-- Two connections are started, and one of them has got a buffer. -/
theorem relay_pool_sound_two_connections :
    ∃ s, Reach step (fun _ _ => True) init s ∧ s.members = [2, 1] ∧ s.buffers = {7} ∧ s.Sound ∧
      ∃ s', s.step .abort = some s' ∧ (∀ rc ∈ s.members, (s'.conn rc).closing = true) ∧ s'.accepting = false := by
  obtain ⟨s, hr, ht⟩ := exists_reach_of_exec step (fun _ _ => True) init
    [.createEvent true, .createPort true, .createWorkers true, .start 1 true, .start 2 true, .begin 1 .upload,
      .advance 1 .upload none true, .advance 1 .upload none true, .complete 1 .upload .read,
      .advance 1 .upload none true, .advance 1 .upload (some 7) true, .advance 1 .upload none true]
    (fun s => decide (s.members = [2, 1]) && decide (s.buffers = {7}) && decide (((s.conn 1).dir .upload).buf = some 7))
    (by decide +kernel)
  simp only [Bool.and_eq_true, decide_eq_true_eq] at ht
  obtain ⟨⟨hmembers, hbuffers⟩, _⟩ := ht
  obtain ⟨hsound, habort⟩ := relay_pool_sound hr
  obtain ⟨hclosing, hrefuses⟩ := habort _ rfl
  exact ⟨s, hr, hmembers, hbuffers, hsound, _, rfl, hclosing, (hrefuses _ .start).1⟩

end RelayPool
end ProxyBridge.Windows
