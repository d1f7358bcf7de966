import ProxyBridge.Windows.RelayPool

/-! Who holds the buffers of the relay pool, and what the thread of a direction does to them. The
invariant of the pool is stated here, since each of its steps is about a part of it. -/
namespace ProxyBridge.Windows
open Runs TwoWayLists Ownership

/-- The buffer that the call has in hand. -/
def DirCall.inHand : DirCall → Option Addr
  | .putting b => b
  | .freeing b | .gotten b => some b
  | _ => none

/-- The direction has passed what its field points to on to `relay_buf_put`. -/
def DirCall.handsOver : DirCall → Bool
  | .putting _ | .freeing _ | .returned => true
  | _ => false

/-- The direction is getting a buffer. -/
def DirCall.isGetting : DirCall → Bool
  | .getting | .allocating | .gotten _ => true
  | _ => false

/-- The reference that the direction has to its connection. -/
def DirCall.reference : DirCall → Int
  | .ended => 0
  | _ => 1

/-- The buffer that a direction has. -/
def PoolDir.own (d : PoolDir) : Option Addr := if d.call.handsOver then none else d.buf

def ReleaseCall.inHand : ReleaseCall → Option Addr
  | .putting _ b => b
  | .freeing _ b => some b
  | _ => none

/-- `relay_release` has passed the buffer of this direction to `relay_buf_put`. -/
def ReleaseCall.takes : ReleaseCall → RelaySide → Bool
  | .running, _ | .unlinking, _ | .closing, _ => false
  | .putting .upload _, side | .freeing .upload _, side | .returned .upload, side => side = .upload
  | .putting .download _, _ | .freeing .download _, _ | .returned .download, _ => true

/-- The connection is in the list of the pool. -/
def ReleaseCall.isLinked : ReleaseCall → Bool
  | .running | .unlinking => true
  | _ => false

/-- Where a connection can have a buffer: in one of its directions, in the call that the thread of a
direction is in, or in the call of the thread that releases it. -/
inductive ConnHolder where
  | direction (side : RelaySide)
  | call (side : RelaySide)
  | release
  deriving DecidableEq

/-- Who can hold a buffer: the pool, or a direction or a call in progress of a connection. -/
inductive BufferHolder where
  | slot (n : Nat)
  | conn (rc : Addr) (k : ConnHolder)
  deriving DecidableEq

def PoolConn.hold (c : PoolConn) : ConnHolder → Option Addr
  | .direction side => if c.release.takes side then none else (c.dir side).own
  | .call side => (c.dir side).call.inHand
  | .release => c.release.inHand

/-- The references are those that the directions have not dropped yet, and a direction gets a buffer
only if it has none. -/
structure PoolConn.Coherent (c : PoolConn) : Prop where
  refs : c.refs = (c.dir .upload).call.reference + (c.dir .download).call.reference
  running : c.release = .running ↔ ∃ side, (c.dir side).call ≠ .ended
  getting : ∀ side, (c.dir side).call.isGetting = true → (c.dir side).buf = none

namespace RelayPool

def hold (s : RelayPool) : BufferHolder → Option Addr
  | .slot n => s.pool[n]?
  | .conn rc k => if rc ∈ s.live then (s.conn rc).hold k else none

/-- Nothing can be added before the pool is started. -/
def Closed (s : RelayPool) : Prop :=
  s.iocp = false ∨ s.control = .eventCreated ∨ s.control = .portCreated ∨ s.control = .drained

/-- The list with its count, its event and its flag. -/
structure ListInv (s : RelayPool) : Prop where
  list : s.links.Represents s.members
  linked : ∀ rc, rc ∈ s.members ↔ rc ∈ s.live ∧ (s.conn rc).release.isLinked = true
  count : s.activeRelays = s.members.length
  signalled : ∀ b, s.done = some b → (b = true ↔ s.members = [])
  eventless : s.done = none → s.iocp = false
  creating : s.control = .eventCreated → s.iocp = false ∧ s.done ≠ none
  created : s.control = .portCreated → s.iocp = true
  closed : s.Closed → s.accepting = false ∧ s.members = []
  waiting : s.control = .waiting → s.accepting = false

structure Inv (s : RelayPool) : Prop where
  lists : s.ListInv
  coherent : ∀ rc ∈ s.live, (s.conn rc).Coherent
  owned : Owned s.hold s.buffers
  bounded : s.pool.length ≤ relayPoolKeep

section Holders
variable {s : RelayPool} {rc : Addr} {c : PoolConn} {k k' : ConnHolder} {b : Addr}

theorem hold_conn (hrc : rc ∈ s.live) (k : ConnHolder) : s.hold (.conn rc k) = (s.conn rc).hold k := if_pos hrc

theorem hold_setConn_self (hrc : rc ∈ s.live) (k : ConnHolder) : (s.setConn rc c).hold (.conn rc k) = c.hold k := by
  simp only [hold, setConn, Function.update_self]
  exact if_pos hrc

/-- A change of a connection moves no buffer of another holder. -/
theorem hold_setConn_other (hrc : rc ∈ s.live) {x : BufferHolder}
    (h : ∀ k, x = .conn rc k → c.hold k = (s.conn rc).hold k) : (s.setConn rc c).hold x = s.hold x := by
  cases x with
  | slot n => rfl
  | conn rc' k =>
    by_cases hne : rc' = rc
    · subst hne
      rw [hold_setConn_self hrc, hold_conn hrc]
      exact h k rfl
    · simp only [hold, setConn, Function.update_of_ne hne]

/-- The connection keeps what it holds. -/
theorem owned_setConn (h : Owned s.hold s.buffers) (hrc : rc ∈ s.live) (hsame : ∀ k, c.hold k = (s.conn rc).hold k) :
    Owned (s.setConn rc c).hold s.buffers :=
  h.congr (fun _ => hold_setConn_other hrc (fun k _ => hsame k))

/-- A buffer goes from one holder of the connection to another. -/
theorem owned_move (h : Owned s.hold s.buffers) (hrc : rc ∈ s.live) (hk : (s.conn rc).hold k = some b)
    (hk' : (s.conn rc).hold k' = none) (hnew : c.hold k = none) (hnew' : c.hold k' = some b)
    (hsame : ∀ x, x ≠ k → x ≠ k' → c.hold x = (s.conn rc).hold x) : Owned (s.setConn rc c).hold s.buffers := by
  rw [← hold_conn hrc] at hk hk'
  refine h.transfer hk hk' ((hold_setConn_self hrc k).trans hnew) ((hold_setConn_self hrc k').trans hnew')
    (fun x hxk hxk' => hold_setConn_other hrc (fun y hy => hsame y ?_ ?_))
  · rintro rfl
    exact hxk hy
  · rintro rfl
    exact hxk' hy

theorem owned_malloc (h : Owned s.hold s.buffers) (hrc : rc ∈ s.live) (hb : b ∉ s.buffers)
    (hk : (s.conn rc).hold k = none) (hnew : c.hold k = some b)
    (hsame : ∀ x, x ≠ k → c.hold x = (s.conn rc).hold x) :
    Owned (setConn { s with buffers := insert b s.buffers } rc c).hold (insert b s.buffers) := by
  rw [← hold_conn hrc] at hk
  refine h.alloc hk hb ?_ (fun x hxk => ?_)
  · exact (hold_setConn_self (s := { s with buffers := insert b s.buffers }) hrc k).trans hnew
  · refine hold_setConn_other (s := { s with buffers := insert b s.buffers }) hrc (fun y hy => hsame y ?_)
    rintro rfl
    exact hxk hy

theorem owned_free (h : Owned s.hold s.buffers) (hrc : rc ∈ s.live) (hk : (s.conn rc).hold k = some b)
    (hnew : c.hold k = none) (hsame : ∀ x, x ≠ k → c.hold x = (s.conn rc).hold x) :
    Owned ((s.free b).setConn rc c).hold (s.free b).buffers := by
  rw [← hold_conn hrc] at hk
  refine h.free hk ?_ (fun x hxk => ?_)
  · exact (hold_setConn_self (s := s.free b) hrc k).trans hnew
  · refine hold_setConn_other (s := s.free b) hrc (fun y hy => hsame y ?_)
    rintro rfl
    exact hxk hy

/-- A call puts its buffer on top of the pool. -/
theorem owned_push (h : Owned s.hold s.buffers) (hrc : rc ∈ s.live) (hk : (s.conn rc).hold k = some b)
    (hnew : c.hold k = none) (hsame : ∀ x, x ≠ k → c.hold x = (s.conn rc).hold x) :
    Owned (setConn { s with pool := s.pool ++ [b] } rc c).hold s.buffers := by
  rw [← hold_conn hrc] at hk
  have htop : s.hold (.slot s.pool.length) = none := List.getElem?_eq_none (Nat.le_refl _)
  refine h.transfer hk htop ?_ ?_ (fun x hxk hxtop => ?_)
  · exact (hold_setConn_self (s := { s with pool := s.pool ++ [b] }) hrc k).trans hnew
  · exact List.getElem?_concat_length
  · rw [hold_setConn_other (s := { s with pool := s.pool ++ [b] }) hrc (fun y hy => hsame y ?_)]
    · cases x with
      | conn rc' k' => rfl
      | slot n =>
        have hn : n ≠ s.pool.length := fun e => hxtop (e ▸ rfl)
        rcases Nat.lt_or_gt_of_ne hn with hlt | hgt
        · exact List.getElem?_append_left hlt
        · have hout : s.pool.length + 1 ≤ n := hgt
          simp only [hold]
          rw [List.getElem?_eq_none (by simpa using hout), List.getElem?_eq_none (by omega)]
    · rintro rfl
      exact hxk hy

/-- The buffer on top of the pool. -/
theorem hold_top (h : s.pool.getLast? = some b) : s.hold (.slot (s.pool.length - 1)) = some b := by
  rw [List.getLast?_eq_getElem?] at h
  exact h

/-- Taking a buffer off the pool leaves the others there. -/
theorem hold_dropLast (x : BufferHolder) (hx : x ≠ .slot (s.pool.length - 1)) :
    hold { s with pool := s.pool.dropLast } x = s.hold x := by
  cases x with
  | conn rc' k' => rfl
  | slot n =>
    have hn : n ≠ s.pool.length - 1 := fun e => hx (e ▸ rfl)
    simp only [hold]
    rw [List.getElem?_dropLast]
    split
    · rfl
    · exact (List.getElem?_eq_none (by omega)).symm

theorem hold_dropLast_top : hold { s with pool := s.pool.dropLast } (.slot (s.pool.length - 1)) = none := by
  exact List.getElem?_eq_none (by simp)

/-- A call takes the buffer on top of the pool. -/
theorem owned_pop (h : Owned s.hold s.buffers) (hrc : rc ∈ s.live) (htop : s.pool.getLast? = some b)
    (hk : (s.conn rc).hold k = none) (hnew : c.hold k = some b)
    (hsame : ∀ x, x ≠ k → c.hold x = (s.conn rc).hold x) :
    Owned (setConn { s with pool := s.pool.dropLast } rc c).hold s.buffers := by
  rw [← hold_conn hrc] at hk
  refine h.transfer (hold_top htop) hk ?_ ?_ (fun x hxtop hxk => ?_)
  · exact hold_dropLast_top
  · exact (hold_setConn_self (s := { s with pool := s.pool.dropLast }) hrc k).trans hnew
  · rw [hold_setConn_other (s := { s with pool := s.pool.dropLast }) hrc (fun y hy => hsame y ?_)]
    · exact hold_dropLast x hxtop
    · rintro rfl
      exact hxk hy

end Holders

/-! The thread of a direction. -/
section Directions
variable {s : RelayPool} {rc : Addr} {side : RelaySide} {c c' : PoolConn} {b : Addr}

private theorem takes_running (hc : c.Coherent) (hlive : (c.dir side).call ≠ .ended) (side' : RelaySide) :
    c.release.takes side' = false := by
  rw [hc.running.mpr ⟨side, hlive⟩]
  rfl

/-- Only this direction is at another place. -/
private structure Moves (side : RelaySide) (c c' : PoolConn) : Prop where
  other : ∀ side', side' ≠ side → c'.dir side' = c.dir side'
  takes : ∀ side', c'.release.takes side' = c.release.takes side'
  inHand : c'.release.inHand = c.release.inHand

private theorem Moves.hold (h : Moves side c c') {x : ConnHolder} (hdir : x ≠ .direction side)
    (hcall : x ≠ .call side) : c'.hold x = c.hold x := by
  cases x with
  | direction side' =>
    have hne : side' ≠ side := fun e => hdir (e ▸ rfl)
    simp only [PoolConn.hold, h.takes, h.other side' hne]
  | call side' =>
    have hne : side' ≠ side := fun e => hcall (e ▸ rfl)
    simp only [PoolConn.hold, h.other side' hne]
  | release => exact h.inHand

private theorem Moves.hold_direction (h : Moves side c c') (hown : (c'.dir side).own = (c.dir side).own)
    {x : ConnHolder} (hcall : x ≠ .call side) : c'.hold x = c.hold x := by
  by_cases hdir : x = .direction side
  · subst hdir
    simp only [PoolConn.hold, h.takes, hown]
  · exact h.hold hdir hcall

private theorem Moves.hold_same (h : Moves side c c') (hown : (c'.dir side).own = (c.dir side).own)
    (hhand : (c'.dir side).call.inHand = (c.dir side).call.inHand) (x : ConnHolder) : c'.hold x = c.hold x := by
  by_cases hcall : x = .call side
  · subst hcall
    exact hhand
  · exact h.hold_direction hown hcall

private theorem reference_eq_one {call : DirCall} (h : call ≠ .ended) : call.reference = 1 := by
  cases call with
  | ended => exact (h rfl).elim
  | _ => rfl

private theorem reference_eq_zero {call : DirCall} : call.reference = 0 ↔ call = .ended := by
  cases call <;> simp [DirCall.reference]

private theorem eq_other_of_ne {side side' : RelaySide} (h : side' ≠ side) : side' = side.other := by
  cases side with
  | upload =>
    cases side' with
    | upload => exact (h rfl).elim
    | download => rfl
  | download =>
    cases side' with
    | upload => rfl
    | download => exact (h rfl).elim

private theorem other_ne (side : RelaySide) : side.other ≠ side := by
  cases side <;> simp [RelaySide.other]

private theorem refs_eq (c : PoolConn) (side : RelaySide) :
    (c.dir .upload).call.reference + (c.dir .download).call.reference =
      (c.dir side).call.reference + (c.dir side.other).call.reference := by
  cases side with
  | upload => rfl
  | download => exact Int.add_comm ..

/-- A direction that keeps its reference is at another place. -/
private theorem coherent_move (h : c.Coherent) (hm : Moves side c c') (hlive : (c.dir side).call ≠ .ended)
    (hlive' : (c'.dir side).call ≠ .ended) (hget : (c'.dir side).call.isGetting = true → (c'.dir side).buf = none)
    (hrefs : c'.refs = c.refs) (hrelease : c'.release = c.release) : c'.Coherent where
  refs := by
    rw [hrefs, h.refs, refs_eq c side, refs_eq c' side, hm.other _ (other_ne side), reference_eq_one hlive,
      reference_eq_one hlive']
  running := iff_of_true (hrelease.trans (h.running.mpr ⟨side, hlive⟩)) ⟨side, hlive'⟩
  getting side' hg := by
    by_cases hs : side' = side
    · subst hs
      exact hget hg
    · rw [hm.other side' hs] at hg ⊢
      exact h.getting side' hg

/-- The reference of a direction is dropped; the last one leads into `relay_release`. -/
private theorem coherent_drop (h : c.Coherent) (hm : Moves side c c') (hlive : (c.dir side).call ≠ .ended)
    (hended : (c'.dir side).call = .ended) (hrefs : c'.refs = c.refs - 1)
    (hrelease : c'.release = if c.refs - 1 = 0 then .unlinking else c.release) : c'.Coherent := by
  have hother : c'.dir side.other = c.dir side.other := hm.other _ (other_ne side)
  have hleft : c.refs - 1 = (c.dir side.other).call.reference := by
    rw [h.refs, refs_eq c side, reference_eq_one hlive]
    omega
  refine ⟨?_, ?_, fun side' hg => ?_⟩
  · rw [hrefs, hleft, refs_eq c' side, hended, hother]
    exact (Int.zero_add _).symm
  · rw [hrelease, hleft, h.running.mpr ⟨side, hlive⟩]
    constructor
    · intro hr
      refine ⟨side.other, fun he => ?_⟩
      rw [hother] at he
      rw [if_pos (reference_eq_zero.mpr he)] at hr
      cases hr
    · rintro ⟨side', hne⟩
      have hs : side' ≠ side := fun e => hne (e ▸ hended)
      rw [eq_other_of_ne hs, hother] at hne
      exact if_neg (fun hz => hne (reference_eq_zero.mp hz))
  · by_cases hs : side' = side
    · subst hs
      rw [hended] at hg
      cases hg
    · rw [hm.other side' hs] at hg ⊢
      exact h.getting side' hg

/-- The list is not concerned by what becomes of the buffers and of the calls. -/
theorem Inv.setConn (h : s.Inv) {p : List Addr} {B : Finset Addr}
    (hlinked : c'.release.isLinked = (s.conn rc).release.isLinked) (hcoherent : c'.Coherent)
    (howned : Owned (RelayPool.setConn { s with pool := p, buffers := B } rc c').hold B)
    (hbounded : p.length ≤ relayPoolKeep) : Inv (RelayPool.setConn { s with pool := p, buffers := B } rc c') where
  lists := by
    obtain ⟨hlist, hmem, hcount, hsignalled, heventless, hcreating, hcreated, hclosed, hwaiting⟩ := h.lists
    refine ⟨hlist, fun rc' => (hmem rc').trans ?_, hcount, hsignalled, heventless, hcreating, hcreated, hclosed,
      hwaiting⟩
    by_cases hne : rc' = rc
    · subst hne
      simp only [RelayPool.setConn, Function.update_self, hlinked]
    · simp only [RelayPool.setConn, Function.update_of_ne hne]
  coherent rc' hrc' := by
    by_cases hne : rc' = rc
    · subst hne
      simp only [RelayPool.setConn, Function.update_self]
      exact hcoherent
    · simp only [RelayPool.setConn, Function.update_of_ne hne]
      exact h.coherent rc' hrc'
  owned := howned
  bounded := hbounded

/-- A direction goes on with the same buffer. -/
private theorem Inv.keep (h : s.Inv) (hm : Moves side (s.conn rc) c') (hrc : rc ∈ s.live)
    (hlinked : c'.release.isLinked = (s.conn rc).release.isLinked) (hcoherent : c'.Coherent)
    (hown : (c'.dir side).own = ((s.conn rc).dir side).own)
    (hhand : (c'.dir side).call.inHand = ((s.conn rc).dir side).call.inHand) : (s.setConn rc c').Inv :=
  h.setConn (p := s.pool) (B := s.buffers) hlinked hcoherent (owned_setConn h.owned hrc (hm.hold_same hown hhand))
    h.bounded

private theorem withDir_dir (c : PoolConn) (side : RelaySide) (d : PoolDir) : (c.withDir side d).dir side = d :=
  Function.update_self ..

private theorem moves_withDir (c : PoolConn) (side : RelaySide) (d : PoolDir) : Moves side c (c.withDir side d) :=
  ⟨fun _ h => Function.update_of_ne h .., fun _ => rfl, rfl⟩

section
variable {d : PoolDir}

private theorem hold_call (c : PoolConn) (side : RelaySide) (d : PoolDir) :
    (c.withDir side d).hold (.call side) = d.call.inHand := by
  simp only [PoolConn.hold, withDir_dir]

private theorem hold_direction (htakes : c.release.takes side = false) :
    (c.withDir side d).hold (.direction side) = d.own := by
  have htakes' : (c.withDir side d).release.takes side = false := htakes
  simp [PoolConn.hold, htakes', withDir_dir]

private theorem hold_call_only (hown : d.own = (c.dir side).own) (x : ConnHolder) (hx : x ≠ .call side) :
    (c.withDir side d).hold x = c.hold x := by
  refine (moves_withDir c side d).hold_direction ?_ hx
  rw [withDir_dir]
  exact hown

private theorem coherent_withDir (hc : c.Coherent) (hlive : (c.dir side).call ≠ .ended) (hlive' : d.call ≠ .ended)
    (hget : d.call.isGetting = true → d.buf = none) : (c.withDir side d).Coherent := by
  refine coherent_move hc (moves_withDir c side d) hlive ?_ ?_ rfl rfl
  · rw [withDir_dir]
    exact hlive'
  · rw [withDir_dir]
    exact hget

private theorem Inv.keepDir (h : s.Inv) (hrc : rc ∈ s.live) (hlive : ((s.conn rc).dir side).call ≠ .ended)
    (hlive' : d.call ≠ .ended) (hget : d.call.isGetting = true → d.buf = none)
    (hown : d.own = ((s.conn rc).dir side).own) (hhand : d.call.inHand = ((s.conn rc).dir side).call.inHand) :
    (s.setDir rc side d).Inv := by
  refine h.keep (moves_withDir (s.conn rc) side d) hrc rfl
    (coherent_withDir (h.coherent rc hrc) hlive hlive' hget) ?_ ?_
  · rw [withDir_dir]
    exact hown
  · rw [withDir_dir]
    exact hhand

end

private theorem posted_spec (d : PoolDir) (ok : Bool) :
    (d.posted ok).call ≠ .ended ∧ ((d.posted ok).call.isGetting = true → False) ∧ (d.posted ok).own = d.buf ∧
      (d.posted ok).call.inHand = none := by
  cases ok <;> simp [PoolDir.posted, PoolDir.own, DirCall.isGetting, DirCall.handsOver, DirCall.inHand]

section Advance
variable {alloc : Option Addr} {ok : Bool} {s' : RelayPool}

/-- `relay_buf_put` keeps the buffer, or is about to free it. -/
private theorem Inv.advance_putting (h : s.Inv) (hrc : rc ∈ s.live) {b : Option Addr}
    (hcall : ((s.conn rc).dir side).call = .putting b) (hs : s.advanceDir rc side alloc ok = some s') : s'.Inv := by
  have hc := h.coherent rc hrc
  have hlive : ((s.conn rc).dir side).call ≠ .ended := by simp [hcall]
  have hown : ((s.conn rc).dir side).own = none := by simp [PoolDir.own, hcall, DirCall.handsOver]
  cases b with
  | none =>
    simp only [RelayPool.advanceDir, hcall, Option.some.injEq] at hs
    subst hs
    exact h.keepDir hrc hlive (by simp) (by simp [DirCall.isGetting]) hown.symm (by simp [hcall, DirCall.inHand])
  | some b =>
    simp only [RelayPool.advanceDir, hcall, put, Option.some.injEq] at hs
    have hk : (s.conn rc).hold (.call side) = some b := by simp [PoolConn.hold, hcall, DirCall.inHand]
    split at hs
    · rename_i hroom
      subst hs
      refine h.setConn (p := s.pool ++ [b]) (B := s.buffers) rfl
        (coherent_withDir hc hlive (by simp) (by simp [DirCall.isGetting]))
        (owned_push h.owned hrc hk (hold_call ..) (hold_call_only hown.symm)) ?_
      rw [List.length_append]
      exact hroom
    · subst hs
      exact h.keepDir hrc hlive (by simp) (by simp [DirCall.isGetting]) hown.symm (by simp [hcall, DirCall.inHand])

private theorem Inv.advance_freeing (h : s.Inv) (hrc : rc ∈ s.live) {b : Addr}
    (hcall : ((s.conn rc).dir side).call = .freeing b) (hs : s.advanceDir rc side alloc ok = some s') : s'.Inv := by
  have hc := h.coherent rc hrc
  simp only [RelayPool.advanceDir, hcall, Option.some.injEq] at hs
  subst hs
  have hlive : ((s.conn rc).dir side).call ≠ .ended := by simp [hcall]
  have hown : ((s.conn rc).dir side).own = none := by simp [PoolDir.own, hcall, DirCall.handsOver]
  have hk : (s.conn rc).hold (.call side) = some b := by simp [PoolConn.hold, hcall, DirCall.inHand]
  exact h.setConn (p := s.pool) (B := s.buffers.erase b) rfl
    (coherent_withDir hc hlive (by simp) (by simp [DirCall.isGetting]))
    (owned_free h.owned hrc hk (hold_call ..) (hold_call_only hown.symm)) h.bounded

private theorem Inv.advance_returned (h : s.Inv) (hrc : rc ∈ s.live) (hcall : ((s.conn rc).dir side).call = .returned)
    (hs : s.advanceDir rc side alloc ok = some s') : s'.Inv := by
  simp only [RelayPool.advanceDir, hcall, Option.some.injEq] at hs
  subst hs
  obtain ⟨hlive', hget, hown, hhand⟩ := posted_spec { (s.conn rc).dir side with buf := none } ok
  refine h.keepDir hrc (by simp [hcall]) hlive' (fun hg => (hget hg).elim) (hown.trans ?_) (hhand.trans ?_)
  · simp [PoolDir.own, hcall, DirCall.handsOver]
  · simp [hcall, DirCall.inHand]

/-- `relay_buf_get` takes a buffer of the pool, or is about to allocate one. -/
private theorem Inv.advance_getting (h : s.Inv) (hrc : rc ∈ s.live) (hcall : ((s.conn rc).dir side).call = .getting)
    (hs : s.advanceDir rc side alloc ok = some s') : s'.Inv := by
  have hc := h.coherent rc hrc
  have hlive : ((s.conn rc).dir side).call ≠ .ended := by simp [hcall]
  have hbuf : ((s.conn rc).dir side).buf = none := hc.getting side (by rw [hcall]; rfl)
  have hown : ((s.conn rc).dir side).own = none := by simp [PoolDir.own, hbuf]
  simp only [RelayPool.advanceDir, hcall] at hs
  split at hs
  · rename_i b htop
    obtain rfl := Option.some.inj hs
    have hk : (s.conn rc).hold (.call side) = none := by simp [PoolConn.hold, hcall, DirCall.inHand]
    refine h.setConn (p := s.pool.dropLast) (B := s.buffers) rfl
      (coherent_withDir hc hlive (by simp) (fun _ => hbuf))
      (owned_pop h.owned hrc htop hk (hold_call ..) (hold_call_only (hown.trans ?_).symm)) ?_
    · simp [PoolDir.own, hbuf]
    · rw [List.length_dropLast]
      exact Nat.le_trans (Nat.sub_le ..) h.bounded
  · obtain rfl := Option.some.inj hs
    exact h.keepDir hrc hlive (by simp) (fun _ => hbuf) (by simp [PoolDir.own, hbuf]) (by simp [hcall, DirCall.inHand])

private theorem Inv.advance_allocating (h : s.Inv) (hrc : rc ∈ s.live)
    (hcall : ((s.conn rc).dir side).call = .allocating) (hs : s.advanceDir rc side alloc ok = some s') : s'.Inv := by
  have hc := h.coherent rc hrc
  have hlive : ((s.conn rc).dir side).call ≠ .ended := by simp [hcall]
  have hbuf : ((s.conn rc).dir side).buf = none := hc.getting side (by rw [hcall]; rfl)
  cases alloc with
  | none =>
    simp only [RelayPool.advanceDir, hcall, Option.some.injEq] at hs
    subst hs
    exact h.keepDir hrc hlive (by simp) (by simp [DirCall.isGetting]) (by simp [PoolDir.own, hbuf])
      (by simp [hcall, DirCall.inHand])
  | some b =>
    simp only [RelayPool.advanceDir, hcall] at hs
    split at hs
    · cases hs
    rename_i hfresh
    obtain rfl := Option.some.inj hs
    have hk : (s.conn rc).hold (.call side) = none := by simp [PoolConn.hold, hcall, DirCall.inHand]
    exact h.setConn (p := s.pool) (B := insert b s.buffers) rfl
      (coherent_withDir hc hlive (by simp) (fun _ => hbuf))
      (owned_malloc h.owned hrc hfresh hk (hold_call ..) (hold_call_only (by simp [PoolDir.own, hbuf]))) h.bounded

private theorem Inv.advance_gotten (h : s.Inv) (hrc : rc ∈ s.live) {b : Addr}
    (hcall : ((s.conn rc).dir side).call = .gotten b) (hs : s.advanceDir rc side alloc ok = some s') : s'.Inv := by
  have hc := h.coherent rc hrc
  simp only [RelayPool.advanceDir, hcall, Option.some.injEq] at hs
  subst hs
  have hlive : ((s.conn rc).dir side).call ≠ .ended := by simp [hcall]
  have hbuf : ((s.conn rc).dir side).buf = none := hc.getting side (by rw [hcall]; rfl)
  obtain ⟨hlive', hget, hown, hhand⟩ := posted_spec ⟨some b, .gotten b⟩ ok
  have htakes := takes_running hc hlive side
  have hk : (s.conn rc).hold (.call side) = some b := by simp [PoolConn.hold, hcall, DirCall.inHand]
  have hk' : (s.conn rc).hold (.direction side) = none := by simp [PoolConn.hold, htakes, PoolDir.own, hbuf]
  exact h.setConn (p := s.pool) (B := s.buffers) rfl
    (coherent_withDir hc hlive hlive' (fun hg => (hget hg).elim))
    (owned_move h.owned hrc hk hk' ((hold_call ..).trans hhand) ((hold_direction htakes).trans hown) (fun x hx hx' =>
      (moves_withDir ..).hold hx' hx)) h.bounded

private theorem Inv.advance_posting (h : s.Inv) (hrc : rc ∈ s.live) (hcall : ((s.conn rc).dir side).call = .posting)
    (hs : s.advanceDir rc side alloc ok = some s') : s'.Inv := by
  simp only [RelayPool.advanceDir, hcall, Option.some.injEq] at hs
  subst hs
  obtain ⟨hlive', hget, hown, hhand⟩ := posted_spec ((s.conn rc).dir side) ok
  refine h.keepDir hrc (by simp [hcall]) hlive' (fun hg => (hget hg).elim) (hown.trans ?_) (hhand.trans ?_)
  · simp [PoolDir.own, hcall, DirCall.handsOver]
  · simp [hcall, DirCall.inHand]

private theorem Inv.advance_ending (h : s.Inv) (hrc : rc ∈ s.live) {cleanEof : Bool}
    (hcall : ((s.conn rc).dir side).call = .ending cleanEof) (hs : s.advanceDir rc side alloc ok = some s') :
    s'.Inv := by
  have hc := h.coherent rc hrc
  simp only [RelayPool.advanceDir, hcall, Option.some.injEq] at hs
  subst hs
  have hm : Moves side (s.conn rc) { (s.conn rc).withDir side { (s.conn rc).dir side with call := .releasing } with
      closing := (s.conn rc).closing || !cleanEof } :=
    ⟨fun _ hne => Function.update_of_ne hne .., fun _ => rfl, rfl⟩
  refine h.keep hm hrc rfl (coherent_move hc hm (by simp [hcall]) ?_ ?_ rfl rfl) ?_ ?_
  · simp [withDir_dir]
  · simp [withDir_dir, DirCall.isGetting]
  · simp [withDir_dir, PoolDir.own, hcall, DirCall.handsOver]
  · simp [withDir_dir, hcall, DirCall.inHand]

private theorem Inv.advance_releasing (h : s.Inv) (hrc : rc ∈ s.live)
    (hcall : ((s.conn rc).dir side).call = .releasing) (hs : s.advanceDir rc side alloc ok = some s') : s'.Inv := by
  have hc := h.coherent rc hrc
  simp only [RelayPool.advanceDir, hcall, Option.some.injEq] at hs
  subst hs
  have hlive : ((s.conn rc).dir side).call ≠ .ended := by simp [hcall]
  have hrun : (s.conn rc).release = .running := hc.running.mpr ⟨side, hlive⟩
  have hm : Moves side (s.conn rc) { (s.conn rc).withDir side { (s.conn rc).dir side with call := .ended } with
      refs := (s.conn rc).refs - 1
      release := if (s.conn rc).refs - 1 = 0 then .unlinking else (s.conn rc).release } := by
    rw [hrun]
    refine ⟨fun _ hne => Function.update_of_ne hne .., fun _ => ?_, ?_⟩
    · split
      · rw [hrun]
        rfl
      · rw [hrun]
    · split
      · rw [hrun]
        rfl
      · rw [hrun]
  refine h.keep hm hrc ?_ (coherent_drop hc hm hlive ?_ rfl rfl) ?_ ?_
  · rw [hrun]
    simp only
    split <;> rfl
  · simp [withDir_dir]
  · simp [withDir_dir, PoolDir.own, hcall, DirCall.handsOver]
  · simp [withDir_dir, hcall, DirCall.inHand]

theorem Inv.advanceDir (h : s.Inv) (hrc : rc ∈ s.live) (hs : s.advanceDir rc side alloc ok = some s') : s'.Inv := by
  cases hcall : ((s.conn rc).dir side).call with
  | unstarted => simp only [RelayPool.advanceDir, hcall, reduceCtorEq] at hs
  | pending => simp only [RelayPool.advanceDir, hcall, reduceCtorEq] at hs
  | ended => simp only [RelayPool.advanceDir, hcall, reduceCtorEq] at hs
  | putting b => exact h.advance_putting hrc hcall hs
  | freeing b => exact h.advance_freeing hrc hcall hs
  | returned => exact h.advance_returned hrc hcall hs
  | getting => exact h.advance_getting hrc hcall hs
  | allocating => exact h.advance_allocating hrc hcall hs
  | gotten b => exact h.advance_gotten hrc hcall hs
  | posting => exact h.advance_posting hrc hcall hs
  | ending cleanEof => exact h.advance_ending hrc hcall hs
  | releasing => exact h.advance_releasing hrc hcall hs

end Advance

/-- A completion is handled, or `relay_start` comes to the direction. -/
theorem Inv.turn (h : s.Inv) (hrc : rc ∈ s.live)
    (hcall : ((s.conn rc).dir side).call = .unstarted ∨ ((s.conn rc).dir side).call = .pending) (turn : RelayTurn) :
    (s.setDir rc side (((s.conn rc).dir side).turn turn)).Inv := by
  have hlive : ((s.conn rc).dir side).call ≠ .ended := by rcases hcall with hcall | hcall <;> simp [hcall]
  have hown : ((s.conn rc).dir side).own = ((s.conn rc).dir side).buf := by
    rcases hcall with hcall | hcall <;> simp [PoolDir.own, hcall, DirCall.handsOver]
  have hhand : ((s.conn rc).dir side).call.inHand = none := by
    rcases hcall with hcall | hcall <;> simp [hcall, DirCall.inHand]
  cases turn with
  | read =>
    simp only [PoolDir.turn]
    split
    · rename_i hbuf
      exact h.keepDir hrc hlive (by simp) (fun _ => hbuf) hown.symm hhand.symm
    · exact h.keepDir hrc hlive (by simp) (by simp [DirCall.isGetting]) hown.symm hhand.symm
  | send => exact h.keepDir hrc hlive (by simp [PoolDir.turn]) (fun hg => by cases hg) hown.symm hhand.symm
  | finish cleanEof =>
    exact h.keepDir hrc hlive (by simp [PoolDir.turn]) (fun hg => by cases hg) hown.symm hhand.symm
  | wait =>
    cases hbuf : ((s.conn rc).dir side).buf with
    | none =>
      exact h.keepDir hrc hlive (by simp [PoolDir.turn]) (fun hg => by cases hg) (hown.trans hbuf).symm
        (hbuf.trans hhand.symm)
    | some b =>
      have hc := h.coherent rc hrc
      have htakes := takes_running hc hlive side
      have hk : (s.conn rc).hold (.direction side) = some b := by simp [PoolConn.hold, htakes, hown, hbuf]
      have hk' : (s.conn rc).hold (.call side) = none := hhand
      refine h.setConn (p := s.pool) (B := s.buffers) rfl
        (coherent_withDir hc hlive (by simp [PoolDir.turn]) (by simp [PoolDir.turn, DirCall.isGetting]))
        (owned_move h.owned hrc hk hk' ((hold_direction htakes).trans ?_) ((hold_call ..).trans ?_)
          (fun x hx hx' => (moves_withDir ..).hold hx hx')) h.bounded
      · simp [PoolDir.turn, PoolDir.own, DirCall.handsOver]
      · simp [PoolDir.turn, DirCall.inHand, hbuf]

end Directions

end RelayPool
end ProxyBridge.Windows
