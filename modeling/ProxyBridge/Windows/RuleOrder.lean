import Mathlib.Data.List.InsertIdx
import ProxyBridge.Windows.RuleApi

/-! The order of the rules under the rule API: what `ProxyBridge_MoveRuleToPosition` does to the
chain, and the identifiers that the calls hand out. -/
namespace ProxyBridge.Windows
open IntrusiveChains

section Relinking
variable {links : Links Unit Addr} {row : List Addr}

private theorem walkTo_eq (limit : UInt32) (l : List Addr) (fuel : Nat) (current : Option Addr) (pos : UInt32)
    (hc : links.Segment current l none) (hf : l.length ≤ fuel) (hp : pos ≤ limit) :
    walkTo links limit fuel current pos = l[limit.toNat - pos.toNat]? := by
  induction l generalizing current fuel pos with
  | nil =>
    have hq : current = none := hc
    subst hq
    cases fuel <;> rfl
  | cons a l ih =>
    obtain ⟨rfl, hn⟩ := hc
    cases fuel with
    | zero => simp at hf
    | succ fuel =>
      have hf' : l.length ≤ fuel := by simpa using hf
      have hle := UInt32.le_iff_toNat_le.mp hp
      rw [walkTo]
      split
      · rename_i hlt
        have hlt' := UInt32.lt_iff_toNat_lt.mp hlt
        have hmax := limit.toNat_lt
        have hsucc : (pos + 1).toNat = pos.toNat + 1 := by
          rw [UInt32.toNat_add]
          exact Nat.mod_eq_of_lt (by simp; omega)
        have hindex : limit.toNat - pos.toNat = limit.toNat - (pos + 1).toNat + 1 := by omega
        rw [ih fuel _ (pos + 1) hn hf' (UInt32.le_iff_toNat_le.mpr (by omega)), hindex, List.getElem?_cons_succ]
      · rename_i hge
        have hge' : ¬ pos.toNat < limit.toNat := fun h => hge (UInt32.lt_iff_toNat_lt.mpr h)
        have hindex : limit.toNat - pos.toNat = 0 := by omega
        rw [hindex, List.getElem?_cons_zero]

/-- The last link of a chain with a node on it is that of its last node. -/
private theorem lastNode_eq (l : List Addr) (fuel : Nat) (a : Addr) (hc : links.Segment (links.next a) l none)
    (hf : l.length ≤ fuel) : Cursor.field (lastNode links fuel a) = Cursor.after () (a :: l) := by
  induction l generalizing a fuel with
  | nil =>
    have hn : links.next a = none := hc
    cases fuel with
    | zero => rfl
    | succ fuel => simp [lastNode, hn, Cursor.after]
  | cons b l ih =>
    obtain ⟨hb, hn⟩ := hc
    cases fuel with
    | zero => simp at hf
    | succ fuel =>
      rw [lastNode, hb]
      refine (ih fuel b hn (by simpa using hf)).trans ?_
      simp [Cursor.after]

private theorem insertIdx_eq {α : Type} (row : List α) (a : α) {k : Nat} (hk : k ≤ row.length) :
    row.insertIdx k a = row.take k ++ a :: row.drop k := by
  induction row generalizing k with
  | nil =>
    obtain rfl : k = 0 := by simpa using hk
    rfl
  | cons b row ih =>
    cases k with
    | zero => rfl
    | succ k => simpa using ih (by simpa using hk)

/-- Linking behind the first `k` nodes inserts at index `k`. -/
private theorem insertAt_represents (h : links.Represents (fun _ => row)) {a : Addr} (ha : a ∉ row) {k : Nat}
    (hk : k ≤ row.length) :
    (links.insertAt (.after () (row.take k)) a).Represents (fun _ => row.insertIdx k a) := by
  have hins := h.insert_after () (row.take k) (row.drop k) (fun _ => ha) (List.take_append_drop k row).symm
  rw [RuleTable.update_rows] at hins
  rwa [← insertIdx_eq row a hk] at hins

/-- A rule is linked in at its position, or behind the last one, unless that search starts at NULL. -/
private theorem relink_represents (h : links.Represents (fun _ => row)) {a : Addr} (ha : a ∉ row) {fuel : Nat}
    (hf : row.length ≤ fuel) {newPosition : UInt32} (hpos : newPosition ≠ 0)
    (hok : row ≠ [] ∨ newPosition = 1) :
    ∃ links', relink links fuel a newPosition = some links' ∧
      links'.Represents (fun _ => row.insertIdx (min newPosition.toNat (row.length + 1) - 1) a) := by
  have hpos' : newPosition.toNat ≠ 0 := fun h0 => hpos (UInt32.toNat_inj.mp h0)
  by_cases hone : newPosition = 1
  · subst hone
    refine ⟨links.insertAt (.bucket ()) a, rfl, ?_⟩
    have hindex : min (1 : UInt32).toNat (row.length + 1) - 1 = 0 := by
      have h1 : (1 : UInt32).toNat = 1 := rfl
      omega
    rw [hindex]
    exact insertAt_represents h ha (Nat.zero_le _)
  have hone' : newPosition.toNat ≠ 1 := fun h1 => hone (UInt32.toNat_inj.mp h1)
  have hle : (1 : UInt32) ≤ newPosition := UInt32.le_iff_toNat_le.mpr (by simp; omega)
  have hpred : (newPosition - 1).toNat = newPosition.toNat - 1 := UInt32.toNat_sub_of_le _ _ hle
  have hwalk := walkTo_eq (newPosition - 1) row fuel (links.head ()) 1 (h.chain ()) hf
    (UInt32.le_iff_toNat_le.mpr (by rw [hpred]; simp; omega))
  have hindex : (newPosition - 1).toNat - (1 : UInt32).toNat = newPosition.toNat - 2 := by
    rw [hpred]
    simp
    omega
  rw [hindex] at hwalk
  simp only [relink, hone, beq_iff_eq, if_false, hwalk]
  cases hget : row[newPosition.toNat - 2]? with
  | some current =>
    obtain ⟨hlt, hcurrent⟩ := List.getElem?_eq_some_iff.mp hget
    have hafter : Cursor.after () (row.take (newPosition.toNat - 1)) = .field current := by
      have hsucc : newPosition.toNat - 1 = newPosition.toNat - 2 + 1 := by omega
      rw [hsucc, List.take_add_one, hget]
      exact Links.Represents.after_append_singleton () _ current
    have hmin : min newPosition.toNat (row.length + 1) - 1 = newPosition.toNat - 1 := by omega
    refine ⟨_, rfl, ?_⟩
    rw [hmin, ← hafter]
    exact insertAt_represents h ha (by omega)
  | none =>
    have hlen := List.getElem?_eq_none_iff.mp hget
    obtain ⟨first, l, rfl⟩ := List.exists_cons_of_ne_nil (hok.resolve_right hone)
    obtain ⟨hfirst, hl⟩ := h.chain ()
    have hlast := lastNode_eq l fuel first hl (by simp at hf; omega)
    have hread : links.next (lastNode links fuel first) = none := by
      have hr := h.read_after () (first :: l) [] (List.append_nil _).symm
      rw [← hlast] at hr
      exact hr
    have hne : a ≠ lastNode links fuel first := by
      intro he
      have hmem : (lastNode links fuel first) ∈ first :: l := by
        have hcursor : Cursor.after () (first :: l) = .field ((first :: l).getLast (by simp)) := by
          simp [Cursor.after, List.getLast?_eq_some_getLast]
        rw [hcursor, Cursor.field.injEq] at hlast
        rw [hlast]
        exact List.getLast_mem _
      exact ha (he ▸ hmem)
    have hmin : min newPosition.toNat ((first :: l).length + 1) - 1 = (first :: l).length := by omega
    have hwrite : (links.write (.field (lastNode links fuel first)) (some a)).write (.field a) none =
        links.insertAt (.after () ((first :: l).take (first :: l).length)) a := by
      rw [List.take_length, ← hlast]
      simp only [Links.insertAt, Links.write, Links.read, hread, Links.mk.injEq, true_and]
      exact (Function.update_comm hne none (some a) links.next).symm
    refine ⟨_, by rw [hfirst, Option.map_some, hwrite], ?_⟩
    rw [hmin]
    exact insertAt_represents h ha (Nat.le_refl _)

end Relinking

namespace RuleTable
variable {s : RuleTable} {nodes : List Addr}

/-- Identifiers are not zero and no two rules share one. -/
structure DistinctIds (s : RuleTable) : Prop where
  ne_zero : ∀ rule ∈ s.rules, rule.ruleId ≠ 0
  nodup : (s.rules.map (·.ruleId)).Nodup

/-- There are fewer rules than identifiers. -/
private theorem DistinctIds.length_lt (h : s.DistinctIds) : s.rules.length < 4294967296 := by
  have hnd : (s.rules.map (·.ruleId.toNat)).Nodup := by
    have hmap : s.rules.map (·.ruleId.toNat) = (s.rules.map (·.ruleId)).map UInt32.toNat := by simp
    rw [hmap]
    exact h.nodup.map (fun a b hab => UInt32.toNat_inj.mp hab)
  have hsub : s.rules.map (·.ruleId.toNat) ⊆ List.range' 1 4294967295 := by
    intro n hn
    obtain ⟨rule, hrule, rfl⟩ := List.mem_map.mp hn
    have hz : rule.ruleId.toNat ≠ 0 := fun h0 => h.ne_zero rule hrule (UInt32.toNat_inj.mp h0)
    have hlt := rule.ruleId.toNat_lt
    simp only [List.mem_range'_1]
    omega
  have hle := (hnd.subperm hsub).length_le
  rw [List.length_map, List.length_range'] at hle
  omega

private theorem positionFrom_eq (ruleId : UInt32) (done rest : List Addr) (a : Addr) (fuel : Nat)
    (current : Option Addr) (position : UInt32) (hc : s.store.links.Segment current (done ++ a :: rest) none)
    (hf : (done ++ a :: rest).length ≤ fuel) (ha : (s.store.node a).ruleId = ruleId)
    (hdone : ∀ b ∈ done, (s.store.node b).ruleId ≠ ruleId) :
    s.positionFrom ruleId fuel current position = position + UInt32.ofNat done.length := by
  induction done generalizing current fuel position with
  | nil =>
    obtain ⟨rfl, _⟩ := hc
    cases fuel with
    | zero => simp at hf
    | succ fuel => simp [positionFrom, ha]
  | cons b done ih =>
    obtain ⟨rfl, hn⟩ := hc
    cases fuel with
    | zero => simp at hf
    | succ fuel =>
      have hb : ((s.store.node b).ruleId == ruleId) = false := by simpa using hdone b List.mem_cons_self
      rw [positionFrom, hb, if_neg Bool.false_ne_true,
        ih fuel _ (position + 1) hn (by simpa using hf) (fun c hc => hdone c (List.mem_cons_of_mem b hc)),
        List.length_cons, UInt32.ofNat_add, UInt32.add_assoc, UInt32.add_comm 1]
      rfl

/-- A rule is at the position after those in front of it. -/
private theorem Threaded.getRulePosition_eq (h : s.Threaded nodes) {ruleId : UInt32} (hz : ruleId ≠ 0)
    {done rest : List Addr} {a : Addr} (hr : nodes = done ++ a :: rest) (ha : (s.store.node a).ruleId = ruleId)
    (hdone : ∀ b ∈ done, (s.store.node b).ruleId ≠ ruleId) (hlen : done.length < 4294967295) :
    (s.getRulePosition ruleId).toNat = done.length + 1 := by
  have hfuel : (done ++ a :: rest).length ≤ s.store.live.card :=
    hr ▸ h.represents.row_length_le () s.store.live (h.live_of_mem ())
  have hchain : s.store.links.Segment (s.store.links.head ()) (done ++ a :: rest) none :=
    hr ▸ h.represents.chain ()
  have hz' : (ruleId == 0) = false := by simpa using hz
  rw [getRulePosition, hz', if_neg Bool.false_ne_true,
    positionFrom_eq ruleId done rest a _ _ 1 hchain hfuel ha hdone, UInt32.toNat_add, UInt32.toNat_ofNat']
  have h1 : (1 : UInt32).toNat = 1 := rfl
  omega

/-- A rule that is found leaves its place, and the rest of the call links it in again. -/
private theorem Threaded.move_eq (h : s.Threaded nodes) {ruleId newPosition : UInt32} (hz : ruleId ≠ 0)
    (hpos : newPosition ≠ 0) {done rest : List Addr} {a : Addr} (hr : nodes = done ++ a :: rest)
    (hfind : s.find ruleId = .after () done) (hread : s.store.links.read (s.find ruleId) = some a) :
    ∃ links : Links Unit Addr, links.Represents (fun _ => done ++ rest) ∧
      s.moveRuleToPosition ruleId newPosition =
        (relink links s.store.live.card a newPosition).map (fun links =>
          (RuleTable.invalidateUdpDecisions { s with store := { s.store with links := links } }, true)) := by
  refine ⟨s.store.links.unlink (s.find ruleId), ?_, ?_⟩
  · have hunlink := h.represents.unlink_after () done rest a hr
    rwa [update_rows, ← hfind] at hunlink
  · simp [moveRuleToPosition, hz, hpos, hread]

/-- A table whose chain is threaded anew through the same nodes. -/
private theorem Threaded.rethread (h : s.Threaded nodes) {links : Links Unit Addr} {nodes' : List Addr}
    (hl : links.Represents (fun _ => nodes')) (hmem : ∀ a, a ∈ nodes' ↔ a ∈ nodes) :
    RuleTable.Threaded (RuleTable.invalidateUdpDecisions { s with store := { s.store with links := links } })
      nodes' := by
  refine ⟨hl, fun a => ?_, fun _ _ _ => rfl⟩
  have hlive := h.mem a
  simp only [exists_const] at hlive ⊢
  rw [hmem a]
  exact hlive

/-- Where a rule is found, the call completes if another rule is left or the rule goes first. -/
private theorem Threaded.move_completes (h : s.Threaded nodes) {ruleId newPosition : UInt32} (hz : ruleId ≠ 0)
    (hpos : newPosition ≠ 0) {done rest : List Addr} {a : Addr} (hr : nodes = done ++ a :: rest)
    (hfind : s.find ruleId = .after () done) (hread : s.store.links.read (s.find ruleId) = some a)
    (hok : done ++ rest ≠ [] ∨ newPosition = 1) :
    ∃ s' : RuleTable, s.moveRuleToPosition ruleId newPosition = some (s', true) ∧
      s'.Threaded ((done ++ rest).insertIdx (min newPosition.toNat nodes.length - 1) a) ∧
      s'.store.node = s.store.node ∧ s'.hasActiveRules = s.hasActiveRules ∧
      s'.hasDomainRules = s.hasDomainRules ∧ s'.nextRuleId = s.nextRuleId := by
  obtain ⟨links, hl, hmove⟩ := h.move_eq hz hpos hr hfind hread
  have hnd : (done ++ a :: rest).Nodup := hr ▸ h.represents.nodup ()
  have ha : a ∉ done ++ rest := (List.nodup_middle.mp hnd |> List.nodup_cons.mp).1
  have hlen : nodes.length = (done ++ rest).length + 1 := by
    rw [hr]
    simp
    omega
  have hf : (done ++ rest).length ≤ s.store.live.card := by
    have hle := h.represents.row_length_le () s.store.live (h.live_of_mem ())
    omega
  obtain ⟨links', hrelink, hl'⟩ := relink_represents hl ha hf hpos hok
  rw [← hlen] at hl'
  refine ⟨_, by rw [hmove, hrelink]; rfl, h.rethread hl' (fun b => ?_), rfl, rfl, rfl, rfl⟩
  rw [List.mem_insertIdx (by omega), hr]
  simp only [List.mem_append, List.mem_cons]
  tauto

/-- A rule that is alone cannot be moved behind the end of the list. -/
private theorem Threaded.move_crashes (h : s.Threaded nodes) {ruleId newPosition : UInt32} (hz : ruleId ≠ 0)
    (hpos : newPosition ≠ 0) (hone : newPosition ≠ 1) {a : Addr} (hr : nodes = [] ++ a :: [])
    (hfind : s.find ruleId = .after () []) (hread : s.store.links.read (s.find ruleId) = some a) :
    s.moveRuleToPosition ruleId newPosition = none := by
  obtain ⟨links, hl, hmove⟩ := h.move_eq hz hpos hr hfind hread
  have hhead : links.head () = none := hl.chain ()
  have hwalk : ∀ fuel, walkTo links (newPosition - 1) fuel none 1 = none := by
    intro fuel
    cases fuel <;> rfl
  rw [hmove]
  simp [relink, hone, hhead, hwalk]

/-- The move that a caller asks for: the rule goes to the position, or to the end if there are not
so many rules, the others keep their order, and the table then tells its position. -/
def MovesTo (s : RuleTable) (ruleId newPosition : UInt32) : Prop :=
  ∃ s' rule, s.moveRuleToPosition ruleId newPosition = some (s', true) ∧
    s.rules.find? (·.ruleId == ruleId) = some rule ∧
    s'.rules = (s.rules.eraseP (·.ruleId == ruleId)).insertIdx (min newPosition.toNat s.rules.length - 1) rule ∧
    s'.rules.Perm s.rules ∧
    s'.rules.eraseIdx (min newPosition.toNat s.rules.length - 1) = s.rules.eraseP (·.ruleId == ruleId) ∧
    (s.DistinctIds → (s'.getRulePosition ruleId).toNat = min newPosition.toNat s.rules.length)

/-- A rule that is not in front of its identifier's first rule has another identifier. -/
private theorem DistinctIds.node_ne (h : s.DistinctIds) (hs : s.Threaded nodes) {done rest : List Addr} {a b : Addr}
    (hr : nodes = done ++ a :: rest) (hb : b ∈ done ++ rest) : (s.store.node b).ruleId ≠ (s.store.node a).ruleId := by
  have hnd := h.nodup
  rw [hs.rules_eq, List.map_map, hr, List.map_append, List.map_cons, List.nodup_middle, ← List.map_append,
    List.nodup_cons] at hnd
  intro he
  exact hnd.1 (List.mem_map.mpr ⟨b, hb, he⟩)

/-- The call does what the caller asks for unless the only rule is to go behind the end. -/
private theorem movesTo_iff (hs : s.Linked) {ruleId newPosition : UInt32} (hz : ruleId ≠ 0) (hpos : newPosition ≠ 0)
    (hmem : ∃ rule ∈ s.rules, rule.ruleId = ruleId) :
    s.MovesTo ruleId newPosition ↔ 2 ≤ s.rules.length ∨ newPosition = 1 := by
  obtain ⟨nodes, h⟩ := hs
  rcases h.find_cases ruleId with ⟨_, hall⟩ | ⟨done, a, rest, hr, hfind, hread, hid, hdone⟩
  · obtain ⟨rule, hrule, he⟩ := hmem
    exact absurd he (hall rule hrule)
  have hlen : s.rules.length = (done ++ rest).length + 1 := by
    rw [h.rules_eq, hr]
    simp
    omega
  have hlen' : nodes.length = s.rules.length := by rw [h.rules_eq, List.length_map]
  have hcond : (2 ≤ s.rules.length ∨ newPosition = 1) ↔ (done ++ rest ≠ [] ∨ newPosition = 1) := by
    have hone : 2 ≤ (done ++ rest).length + 1 ↔ 0 < (done ++ rest).length := by omega
    rw [hlen, ← List.length_pos_iff, hone]
  rw [hcond]
  constructor
  · rintro ⟨s', rule, hmove, _⟩
    by_contra hn
    obtain ⟨hnil, hone⟩ := not_or.mp hn
    obtain ⟨rfl, rfl⟩ := List.append_eq_nil_iff.mp (not_not.mp hnil)
    rw [h.move_crashes hz hpos hone hr hfind hread] at hmove
    cases hmove
  · intro hok
    obtain ⟨s', hmove, hthreaded, hnode, _⟩ := h.move_completes hz hpos hr hfind hread hok
    set k := min newPosition.toNat nodes.length - 1 with hk
    have hkle : k ≤ (done ++ rest).length := by omega
    have herase : s.rules.eraseP (·.ruleId == ruleId) = (done ++ rest).map s.store.node := by
      rw [h.rules_eq, hr, List.map_append, List.map_cons, List.eraseP_append_right, List.eraseP_cons_of_pos,
        List.map_append]
      · simpa using hid
      · intro rule hrule
        obtain ⟨b, hb, rfl⟩ := List.mem_map.mp hrule
        simpa using hdone b hb
    have hfound : s.rules.find? (·.ruleId == ruleId) = some (s.store.node a) := by
      rw [h.rules_eq, hr, List.map_append, List.map_cons, List.find?_append]
      have hnone : (done.map s.store.node).find? (·.ruleId == ruleId) = none := by
        rw [List.find?_eq_none]
        intro rule hrule
        obtain ⟨b, hb, rfl⟩ := List.mem_map.mp hrule
        simpa using hdone b hb
      rw [hnone]
      simp [hid]
    have hrules : s'.rules = (s.rules.eraseP (·.ruleId == ruleId)).insertIdx k (s.store.node a) := by
      rw [hthreaded.rules_eq, hnode, List.map_insertIdx, herase]
    rw [MovesTo, ← hlen', ← hk]
    refine ⟨s', s.store.node a, hmove, hfound, hrules, ?_, ?_, ?_⟩
    · rw [hrules, herase, h.rules_eq, hr]
      refine (List.perm_insertIdx _ _ (by simpa using hkle)).trans ?_
      rw [List.map_append, List.map_append, List.map_cons]
      exact List.perm_middle.symm
    · rw [hrules, List.eraseIdx_insertIdx_self]
    · intro hids
      have hlt := hids.length_lt
      have hsplit := insertIdx_eq (done ++ rest) a hkle
      have htake : ((done ++ rest).take k).length = k := List.length_take_of_le hkle
      have hfront : ∀ b ∈ (done ++ rest).take k, (s'.store.node b).ruleId ≠ ruleId := by
        intro b hb
        rw [hnode, ← hid]
        exact hids.node_ne h hr (List.mem_of_mem_take hb)
      rw [hthreaded.getRulePosition_eq hz hsplit (by rw [hnode]; exact hid) hfront (by omega), htake]
      have hpos' : newPosition.toNat ≠ 0 := fun h0 => hpos (UInt32.toNat_inj.mp h0)
      omega

/-- What a completed call can do: nothing but use up an identifier, reorder the rules, change or drop
one and bring the flags up to date, or append a rule. -/
theorem call_cases (hs : s.Linked) {c : RuleCall} (hfresh : c.Fresh s) {s' : RuleTable} (hcall : s.call c = some s') :
    (∃ n, s' = { s with nextRuleId := n } ∧ (n = s.nextRuleId ∨ (c.additions = 1 ∧ n = s.nextRuleId + 1))) ∨
    (s'.Linked ∧ s'.rules.Perm s.rules ∧ s'.hasActiveRules = s.hasActiveRules ∧
      s'.hasDomainRules = s.hasDomainRules ∧ s'.nextRuleId = s.nextRuleId) ∨
    (∃ t : RuleTable, s' = t.updateHasActiveRules ∧ t.Linked ∧
      (t.rules.map (·.ruleId)).Sublist (s.rules.map (·.ruleId)) ∧ t.nextRuleId = s.nextRuleId) ∨
    ∃ (t : RuleTable) (rule : ProcessRule), s' = t.updateHasActiveRules ∧ t.Linked ∧ t.rules = s.rules ++ [rule] ∧
      rule.ruleId = s.nextRuleId ∧ c.additions = 1 ∧ t.nextRuleId = s.nextRuleId + 1 := by
  have hkeep : some s = some s' → ∃ n, s' = { s with nextRuleId := n } ∧
      (n = s.nextRuleId ∨ (c.additions = 1 ∧ n = s.nextRuleId + 1)) := by
    intro he
    obtain rfl := Option.some.inj he
    exact ⟨s.nextRuleId, rfl, .inl rfl⟩
  have hupdate : ∀ ruleId f, some (s.updateRule ruleId f).1 = some s' →
      (∀ rule : ProcessRule, (f rule).ruleId = rule.ruleId) →
      (∃ n, s' = { s with nextRuleId := n } ∧ (n = s.nextRuleId ∨ (c.additions = 1 ∧ n = s.nextRuleId + 1))) ∨
      ∃ t : RuleTable, s' = t.updateHasActiveRules ∧ t.Linked ∧
        (t.rules.map (·.ruleId)).Sublist (s.rules.map (·.ruleId)) ∧ t.nextRuleId = s.nextRuleId := by
    intro ruleId f he hf
    rcases updateRule_cases hs ruleId f with ⟨heq, _⟩ | ⟨pre, rule, post, t, hsplit, _, _, heq, hlinked, hrules, hnext⟩
    · rw [heq] at he
      exact .inl (hkeep he)
    · rw [heq] at he
      refine .inr ⟨t, (Option.some.inj he).symm, hlinked, ?_, hnext⟩
      rw [hrules, hsplit, List.map_append, List.map_append, List.map_cons, List.map_cons, hf]
  cases c with
  | addRule params alloc =>
    have he : (s.addRule params alloc).1 = s' := Option.some.inj hcall
    rcases addRule_cases hs params alloc hfresh with
      ⟨_, _, hsame | hused⟩ | ⟨name, t, _, _, heq, hlinked, hrules, hnext⟩
    · exact .inl (hkeep (by rw [← he, hsame]))
    · exact .inl ⟨_, he.symm.trans hused, .inr ⟨rfl, rfl⟩⟩
    · rw [heq] at he
      exact .inr (.inr (.inr ⟨t, _, he.symm, hlinked, hrules, rfl, rfl, hnext⟩))
  | enableRule ruleId =>
    simp only [call, enableRule] at hcall
    split at hcall
    · exact .inl (hkeep hcall)
    · exact (hupdate _ _ hcall (fun _ => rfl)).imp id (fun h => .inr (.inl h))
  | disableRule ruleId =>
    simp only [call, disableRule] at hcall
    split at hcall
    · exact .inl (hkeep hcall)
    · exact (hupdate _ _ hcall (fun _ => rfl)).imp id (fun h => .inr (.inl h))
  | deleteRule ruleId =>
    have he : (s.deleteRule ruleId).1 = s' := Option.some.inj hcall
    rcases deleteRule_cases hs ruleId with ⟨heq, _⟩ | ⟨pre, rule, post, t, hsplit, _, _, _, heq, hlinked, hrules, hnext⟩
    · exact .inl (hkeep (by rw [← he, heq]))
    · rw [heq] at he
      refine .inr (.inr (.inl ⟨t, he.symm, hlinked, ?_, hnext⟩))
      rw [hrules, hsplit, List.map_append, List.map_append, List.map_cons]
      exact List.Sublist.append_left (List.sublist_cons_self ..) _
  | editRule ruleId params hosts ports domains =>
    simp only [call, editRule] at hcall
    split at hcall
    · split at hcall
      · exact .inl (hkeep hcall)
      · split at hcall
        · exact (hupdate _ _ hcall (fun _ => rfl)).imp id (fun h => .inr (.inl h))
        · exact .inl (hkeep hcall)
    · exact .inl (hkeep hcall)
  | moveRuleToPosition ruleId newPosition =>
    have hsame : s.moveRuleToPosition ruleId newPosition = some (s, false) → s.call (.moveRuleToPosition ruleId
        newPosition) = some s := fun h => by simp only [call, h, Option.map_some]
    by_cases hz : ruleId = 0
    · exact .inl (hkeep ((hsame (by simp [moveRuleToPosition, hz])).symm.trans hcall))
    by_cases hpos : newPosition = 0
    · exact .inl (hkeep ((hsame (by simp [moveRuleToPosition, hpos])).symm.trans hcall))
    obtain ⟨nodes, h⟩ := hs
    rcases h.find_cases ruleId with ⟨hread, _⟩ | ⟨done, a, rest, hr, hfind, hread, _⟩
    · exact .inl (hkeep ((hsame (by simp [moveRuleToPosition, hz, hpos, hread])).symm.trans hcall))
    · by_cases hok : done ++ rest ≠ [] ∨ newPosition = 1
      · obtain ⟨t, hmove, hthreaded, hnode, hactive, hdomain, hnext⟩ := h.move_completes hz hpos hr hfind hread hok
        simp only [call, hmove, Option.map_some, Option.some.injEq] at hcall
        subst hcall
        refine .inr (.inl ⟨⟨_, hthreaded⟩, ?_, hactive, hdomain, hnext⟩)
        rw [hthreaded.rules_eq, h.rules_eq, hnode, hr]
        apply List.Perm.map
        refine (List.perm_insertIdx _ _ ?_).trans List.perm_middle.symm
        simp
        omega
      · obtain ⟨hnil, hone⟩ := not_or.mp hok
        obtain ⟨rfl, rfl⟩ := List.append_eq_nil_iff.mp (not_not.mp hnil)
        simp [call, h.move_crashes hz hpos hone hr hfind hread] at hcall

/-- An identifier that no rule has moves nothing. -/
private theorem move_unknown (hs : s.Linked) {ruleId : UInt32} (newPosition : UInt32)
    (hall : ∀ rule ∈ s.rules, rule.ruleId ≠ ruleId) : s.moveRuleToPosition ruleId newPosition = some (s, false) := by
  obtain ⟨nodes, h⟩ := hs
  rcases h.find_cases ruleId with ⟨hread, _⟩ | ⟨done, a, rest, hr, _, _, hid, _⟩
  · unfold moveRuleToPosition
    split
    · rfl
    · rw [hread]
  · have ha : s.store.node a ∈ s.rules := by
      rw [h.rules_eq, hr]
      simp
    exact absurd hid (hall _ ha)

/-- Among distinct identifiers, deleting drops exactly the named rule. -/
private theorem deleteRule_eq (hs : s.Linked) (hids : s.DistinctIds) (ruleId : UInt32) :
    (s.deleteRule ruleId).1.rules = s.rules.filter (·.ruleId != ruleId) ∧
    ((s.deleteRule ruleId).2 = true ↔ ∃ rule ∈ s.rules, rule.ruleId = ruleId) := by
  rcases deleteRule_cases hs ruleId with ⟨heq, hnone⟩ | ⟨pre, rule, post, t, hsplit, hid, _, hpre, heq, _, hrules, _⟩
  · have hall : ∀ rule ∈ s.rules, rule.ruleId ≠ ruleId := by
      rcases hnone with rfl | hall
      · exact hids.ne_zero
      · exact hall
    rw [heq]
    constructor
    · exact (List.filter_eq_self.mpr (fun rule hrule => by simpa using hall rule hrule)).symm
    · simpa using hall
  · have hpost : ∀ r ∈ post, r.ruleId ≠ ruleId := by
      have hnd := hids.nodup
      rw [hsplit, List.map_append, List.map_cons, List.nodup_append] at hnd
      intro r hr he
      exact (List.nodup_cons.mp hnd.2.1).1 (List.mem_map.mpr ⟨r, hr, he.trans hid.symm⟩)
    rw [heq]
    refine ⟨?_, fun _ => ⟨rule, by rw [hsplit]; simp, hid⟩, fun _ => rfl⟩
    change t.rules = _
    rw [hrules, hsplit, List.filter_append, List.filter_cons_of_neg (by simp [hid]),
      List.filter_eq_self.mpr (fun r hr => by simpa using hpre r hr),
      List.filter_eq_self.mpr (fun r hr => by simpa using hpost r hr)]

end RuleTable

namespace RuleHistory
variable {h : RuleHistory}

/-- Before the identifiers run out, every rule has one that was handed out. -/
private structure Handed (h : RuleHistory) : Prop where
  distinct : h.table.DistinctIds
  lt_next : ∀ rule ∈ h.table.rules, rule.ruleId.toNat < h.table.nextRuleId.toNat
  one_le : 1 ≤ h.table.nextRuleId.toNat
  le_additions : h.table.nextRuleId.toNat ≤ h.additions + 1

/-- Fewer rules with the same identifiers, while the next one only grows. -/
private theorem Handed.mono (hh : h.Handed) {h' : RuleHistory}
    (hids : (h'.table.rules.map (·.ruleId)).Subperm (h.table.rules.map (·.ruleId)))
    (hlo : h.table.nextRuleId.toNat ≤ h'.table.nextRuleId.toNat)
    (hhi : h'.table.nextRuleId.toNat ≤ h'.additions + 1) : h'.Handed := by
  have hmem : ∀ rule ∈ h'.table.rules, ∃ old ∈ h.table.rules, old.ruleId = rule.ruleId := by
    intro rule hrule
    exact List.mem_map.mp (hids.subset (List.mem_map_of_mem hrule))
  refine ⟨⟨?_, ?_⟩, ?_, hh.one_le.trans hlo, hhi⟩
  · intro rule hrule
    obtain ⟨old, hold, he⟩ := hmem rule hrule
    exact he ▸ hh.distinct.ne_zero old hold
  · obtain ⟨l, hperm, hsub⟩ := hids
    exact hperm.nodup_iff.mp (hh.distinct.nodup.sublist hsub)
  · intro rule hrule
    obtain ⟨old, hold, he⟩ := hmem rule hrule
    exact he ▸ (hh.lt_next old hold).trans_le hlo

private theorem succ_toNat {n : UInt32} {k : Nat} (hle : n.toNat ≤ k + 1) (hk : k + 1 < 4294967295) :
    (n + 1).toNat = n.toNat + 1 := by
  have h1 : (1 : UInt32).toNat = 1 := rfl
  rw [UInt32.toNat_add]
  omega

private theorem initial_handed : initial.Handed where
  distinct := ⟨fun _ hr => (nomatch hr), List.nodup_nil⟩
  lt_next _ hr := (nomatch hr)
  one_le := Nat.le_refl 1
  le_additions := Nat.le_refl 1

/-- The chain is intact, and so are the identifiers until they run out. -/
private structure Kept (h : RuleHistory) : Prop where
  linked : h.table.Linked
  handed : h.additions < 4294967295 → h.Handed

private theorem Kept.call {h' : RuleHistory} (hk : h.Kept) {c : RuleCall} (hfresh : c.Fresh h.table)
    (hstep : h.call c = some h') : h'.Kept := by
  obtain ⟨hlinked, hhanded⟩ := hk
  obtain ⟨s', hcall, rfl⟩ := Option.map_eq_some_iff.mp hstep
  rcases RuleTable.call_cases hlinked hfresh hcall with ⟨n, rfl, hn⟩ | ⟨hl, hperm, _, _, hnext⟩ |
    ⟨t, rfl, hl, hsub, hnext⟩ | ⟨t, rule, rfl, hl, hrules, hid, hadd, hnext⟩
  · refine ⟨hlinked, fun hlt => ?_⟩
    have hlt' : h.additions + c.additions < 4294967295 := hlt
    have hh := hhanded (by omega)
    have hle := hh.le_additions
    rcases hn with rfl | ⟨hadd, rfl⟩
    · exact hh.mono (List.Subperm.refl _) (Nat.le_refl _) (by simp; omega)
    · have hsucc := succ_toNat hle (by omega)
      exact hh.mono (List.Subperm.refl _) (by simp only [hsucc]; omega) (by simp only [hsucc]; omega)
  · refine ⟨hl, fun hlt => ?_⟩
    have hlt' : h.additions + c.additions < 4294967295 := hlt
    have hh := hhanded (by omega)
    have hle := hh.le_additions
    exact hh.mono (hperm.map _).subperm (Nat.le_of_eq (congrArg _ hnext.symm)) (by simp only [hnext]; omega)
  · refine ⟨hl, fun hlt => ?_⟩
    have hlt' : h.additions + c.additions < 4294967295 := hlt
    have hh := hhanded (by omega)
    have hle := hh.le_additions
    refine hh.mono hsub.subperm (Nat.le_of_eq (congrArg _ hnext.symm)) ?_
    change t.nextRuleId.toNat ≤ h.additions + c.additions + 1
    rw [hnext]
    omega
  · refine ⟨hl, fun hlt => ?_⟩
    have hlt' : h.additions + c.additions < 4294967295 := hlt
    have hh := hhanded (by omega)
    have hle := hh.le_additions
    have hone := hh.one_le
    have hsucc : t.nextRuleId.toNat = h.table.nextRuleId.toNat + 1 := by
      rw [hnext]
      exact succ_toNat hle (by omega)
    have hmem : ∀ r ∈ t.rules, r ∈ h.table.rules ∨ r = rule := by
      intro r hr
      rw [hrules] at hr
      simpa using hr
    refine ⟨⟨?_, ?_⟩, ?_, ?_, ?_⟩
    · intro r hr
      rcases hmem r hr with hold | rfl
      · exact hh.distinct.ne_zero r hold
      · rw [hid]
        intro h0
        rw [h0] at hone
        exact absurd hone (by decide)
    · change (t.rules.map (·.ruleId)).Nodup
      rw [hrules, List.map_append, List.nodup_append]
      refine ⟨hh.distinct.nodup, List.nodup_singleton _, ?_⟩
      intro i hi j hj
      obtain ⟨r, hr, rfl⟩ := List.mem_map.mp hi
      obtain rfl : j = rule.ruleId := by simpa using hj
      intro he
      have hlt := hh.lt_next r hr
      rw [he, hid] at hlt
      omega
    · intro r hr
      change r.ruleId.toNat < t.nextRuleId.toNat
      rw [hsucc]
      rcases hmem r hr with hold | rfl
      · have hlt := hh.lt_next r hold
        omega
      · rw [hid]
        omega
    · change 1 ≤ t.nextRuleId.toNat
      omega
    · change t.nextRuleId.toNat ≤ h.additions + c.additions + 1
      omega

private theorem Reached.kept (hr : Reached h) : h.Kept := by
  have hinit : RuleHistory.initial.Kept := ⟨RuleTable.initial_linked, fun _ => initial_handed⟩
  exact hr.invariant hinit (fun _ _ _ hk hfresh hstep => hk.call hfresh hstep)

end RuleHistory

/-- Moving a rule does what it should exactly if another rule is in the list or the new position is
the first. The calls hand out identifiers other than zero and never one twice, until they run out;
adding appends and deleting drops the named rule. -/
theorem rule_moves_iff_not_alone (s : RuleTable) (hs : s.Linked) (ruleId newPosition : UInt32) (h : RuleHistory)
    (hr : RuleHistory.Reached h) :
    (ruleId ≠ 0 → newPosition ≠ 0 → (∃ rule ∈ s.rules, rule.ruleId = ruleId) →
      (s.MovesTo ruleId newPosition ↔ 2 ≤ s.rules.length ∨ newPosition = 1)) ∧
    ((∀ rule ∈ s.rules, rule.ruleId ≠ ruleId) → s.moveRuleToPosition ruleId newPosition = some (s, false)) ∧
    h.table.Linked ∧ (h.additions < 4294967295 →
      h.table.DistinctIds ∧
      (∀ params alloc, (∀ a, alloc.rule = some a → a ∉ h.table.store.live) →
        (RuleTable.accepts params alloc = true → ∃ processName, params.processName = some processName ∧
          (h.table.addRule params alloc).2 ≠ 0 ∧
          (h.table.addRule params alloc).1.rules =
            h.table.rules ++ [params.built processName (h.table.addRule params alloc).2]) ∧
        (RuleTable.accepts params alloc = false → (h.table.addRule params alloc).2 = 0 ∧
          (h.table.addRule params alloc).1.rules = h.table.rules)) ∧
      ∀ id, (h.table.deleteRule id).1.rules = h.table.rules.filter (·.ruleId != id) ∧
        ((h.table.deleteRule id).2 = true ↔ ∃ rule ∈ h.table.rules, rule.ruleId = id)) := by
  obtain ⟨hlinked, hhanded⟩ := hr.kept
  refine ⟨RuleTable.movesTo_iff hs, RuleTable.move_unknown hs newPosition, hlinked, fun hlt => ?_⟩
  refine ⟨(hhanded hlt).distinct, ?_, RuleTable.deleteRule_eq hlinked (hhanded hlt).distinct⟩
  intro params alloc hfresh
  rcases RuleTable.addRule_cases hlinked params alloc hfresh with
    ⟨hrefused, hzero, hsame | hused⟩ | ⟨name, t, haccepted, hname, heq, _, hrules, _⟩
  · refine ⟨fun ha => ?_, fun _ => ⟨hzero, by rw [hsame]⟩⟩
    rw [hrefused] at ha
    cases ha
  · refine ⟨fun ha => ?_, fun _ => ⟨hzero, ?_⟩⟩
    · rw [hrefused] at ha
      cases ha
    · rw [hused]
      rfl
  · refine ⟨fun _ => ⟨name, hname, ?_, ?_⟩, fun hn => ?_⟩
    · rw [heq]
      intro h0
      have hone := (hhanded hlt).one_le
      rw [show h.table.nextRuleId = 0 from h0] at hone
      exact absurd hone (by decide)
    · rw [heq]
      exact hrules
    · rw [haccepted] at hn
      cases hn

/-- A caller that adds one catch-all after the other. -/
def catchAllCall (a : Addr) : RuleCall :=
  .addRule ⟨some wildcard, none, none, none, .both, .proxy, 1⟩ ⟨some a, true, true, true⟩

theorem catchAllCall_reached :
    ∃ h, RuleHistory.initial.call (catchAllCall 0) = some h ∧ RuleHistory.Reached h := by
  have hfresh : (catchAllCall 0).Fresh RuleHistory.initial.table := by
    intro a _ ha
    exact absurd ha (Finset.notMem_empty a)
  exact ⟨_, rfl, .next .start hfresh rfl⟩

/-- Of two rules the first goes behind the second. -/
theorem rule_moves_iff_not_alone_two : ∃ s : RuleTable, s.rules.map (·.ruleId) = [1, 2] ∧ s.MovesTo 1 5 := by
  obtain ⟨first, hfirst, hreached⟩ := catchAllCall_reached
  have hfresh : (catchAllCall 1).Fresh first.table := by
    obtain rfl := Option.some.inj hfirst
    intro a ha
    obtain rfl := Option.some.inj ha
    decide
  obtain ⟨second, hsecond⟩ : ∃ h, first.call (catchAllCall 1) = some h := ⟨_, rfl⟩
  have hids : second.table.rules.map (·.ruleId) = [1, 2] := by
    obtain rfl := Option.some.inj hfirst
    obtain rfl := Option.some.inj hsecond
    decide
  have hsecond' : RuleHistory.Reached second := hreached.next hfresh hsecond
  have hlinked := (rule_moves_iff_not_alone _ RuleTable.initial_linked 0 0 second hsecond').2.2.1
  have hmoves := (rule_moves_iff_not_alone second.table hlinked 1 5 second hsecond').1
  refine ⟨second.table, hids, (hmoves (by decide) (by decide) ?_).mpr ?_⟩
  · have hmem : 1 ∈ second.table.rules.map (·.ruleId) := hids ▸ List.mem_cons_self
    exact List.mem_map.mp hmem
  · have hlen := congrArg List.length hids
    rw [List.length_map] at hlen
    exact .inl (Nat.le_of_eq hlen.symm)

/-- The only rule of the list has no second place to go to: the call does not complete. -/
theorem rule_alone_move_crashes : ∃ h, RuleHistory.Reached h ∧ h.table.rules.map (·.ruleId) = [1] ∧
    h.table.moveRuleToPosition 1 2 = none := by
  obtain ⟨h, hcall, hreached⟩ := catchAllCall_reached
  refine ⟨h, hreached, ?_, ?_⟩
  · obtain rfl := Option.some.inj hcall
    decide
  · obtain rfl := Option.some.inj hcall
    rfl

end ProxyBridge.Windows
