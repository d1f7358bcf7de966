import ProxyBridge.Windows.Conntrack

/-! The two connection tables link the same nodes. Each operation is split into the steps that
take a node out of the reverse index, rewrite it and put it back. -/
namespace ProxyBridge.Windows
open IntrusiveChains IntrusiveChains.Links

/-- The forward table and the reverse index link the live nodes. The node `out`, if any, is
the one an operation holds outside the reverse index. -/
structure Linked (t : Tables) (rows revRows : Bucket → List Addr) (out : Option Addr) : Prop where
  fwd : t.fwd.Represents rows
  rev : t.rev.Represents revRows
  mem_fwd : ∀ a, a ∈ t.live ↔ ∃ i, a ∈ rows i
  bucket : ∀ i, ∀ a ∈ rows i, bucketOf (t.node a).srcPort = i
  unique : ∀ a ∈ t.live, ∀ b ∈ t.live, (t.node a).key = (t.node b).key → a = b
  mem_rev : ∀ i a, a ∈ revRows i ↔ a ∈ t.live ∧ some a ≠ out ∧ (t.node a).revHash = i
  inRev : ∀ a ∈ t.live, some a ≠ out →
    (t.node a).inRev = true ∧ (t.node a).revBucket = (t.node a).revHash

theorem linked_empty : Linked Tables.empty (fun _ => []) (fun _ => []) none where
  fwd := empty_represents
  rev := empty_represents
  mem_fwd a := by simp [Tables.empty]
  bucket i a ha := by cases ha
  unique a ha := by simp [Tables.empty] at ha
  mem_rev i a := by simp [Tables.empty]
  inRev a ha := by simp [Tables.empty] at ha

namespace Linked
variable {t : Tables} {rows revRows : Bucket → List Addr} {out : Option Addr}

theorem live_of_mem (h : Linked t rows revRows out) {i : Bucket} {a : Addr} (ha : a ∈ rows i) :
    a ∈ t.live := (h.mem_fwd a).mpr ⟨i, ha⟩

theorem row_of_live (h : Linked t rows revRows out) {a : Addr} (ha : a ∈ t.live) :
    a ∈ rows (bucketOf (t.node a).srcPort) := by
  obtain ⟨i, hi⟩ := (h.mem_fwd a).mp ha
  rwa [h.bucket i a hi]

theorem fuel_fwd (h : Linked t rows revRows out) (i : Bucket) : (rows i).length ≤ t.live.card :=
  h.fwd.row_length_le i t.live (fun _ ha => h.live_of_mem ha)

theorem fuel_rev (h : Linked t rows revRows out) (i : Bucket) : (revRows i).length ≤ t.live.card :=
  h.rev.row_length_le i t.live (fun a ha => ((h.mem_rev i a).mp ha).1)

/-- Rewriting a node in place, away from its key and from what the reverse index reads. -/
theorem modify (h : Linked t rows revRows out) (a : Addr) (f : ConnectionInfo → ConnectionInfo)
    (hk : (f (t.node a)).key = (t.node a).key)
    (hr : some a = out ∨ ((f (t.node a)).revHash = (t.node a).revHash ∧
      (f (t.node a)).inRev = (t.node a).inRev ∧ (f (t.node a)).revBucket = (t.node a).revBucket)) :
    Linked (t.modify a f) rows revRows out := by
  have hkey : ∀ b, ((t.modify a f).node b).key = (t.node b).key := by
    intro b
    by_cases hb : b = a
    · subst hb; simpa [Tables.modify] using hk
    · simp [Tables.modify, hb]
  have hport : ∀ b, ((t.modify a f).node b).srcPort = (t.node b).srcPort :=
    fun b => congrArg FlowKey.srcPort (hkey b)
  have hrev : ∀ b, some b ≠ out → ((t.modify a f).node b).revHash = (t.node b).revHash ∧
      ((t.modify a f).node b).inRev = (t.node b).inRev ∧
      ((t.modify a f).node b).revBucket = (t.node b).revBucket := by
    intro b hb
    by_cases hba : b = a
    · subst hba
      simpa [Tables.modify] using hr.resolve_left hb
    · simp [Tables.modify, hba]
  refine ⟨h.fwd, h.rev, h.mem_fwd, ?_, ?_, ?_, ?_⟩
  · intro i b hb
    rw [hport]
    exact h.bucket i b hb
  · intro b hb c hc he
    rw [hkey, hkey] at he
    exact h.unique b hb c hc he
  · intro i b
    rw [h.mem_rev]
    refine and_congr_right fun _ => and_congr_right fun hb => ?_
    rw [(hrev b hb).1]
  · intro b hb ho
    rw [(hrev b ho).1, (hrev b ho).2.1, (hrev b ho).2.2]
    exact h.inRev b hb ho

private theorem erase_revRow (h : Linked t rows revRows none) (a : Addr) (i : Bucket) (b : Addr) :
    b ∈ Function.update revRows (t.node a).revHash ((revRows (t.node a).revHash).erase a) i ↔
      b ∈ t.live ∧ b ≠ a ∧ (t.node b).revHash = i := by
  by_cases hi : i = (t.node a).revHash
  · subst hi
    rw [Function.update_self, (h.rev.nodup _).mem_erase_iff, h.mem_rev]
    constructor
    · rintro ⟨hne, hb, _, he⟩
      exact ⟨hb, hne, he⟩
    · rintro ⟨hb, hne, he⟩
      exact ⟨hne, hb, by simp, he⟩
  · rw [Function.update_of_ne hi, h.mem_rev]
    constructor
    · rintro ⟨hb, _, he⟩
      exact ⟨hb, fun e => hi (by rw [← he, e]), he⟩
    · rintro ⟨hb, _, he⟩
      exact ⟨hb, by simp, he⟩

/-- What `rev_unlink` does to the reverse index, whatever the forward table holds meanwhile. -/
theorem revUnlink_rev (h : Linked t rows revRows none) {a : Addr} (ha : a ∈ t.live)
    (fwd : Links Bucket Addr) :
    (({ t with fwd := fwd } : Tables).revUnlink a).rev.Represents
      (Function.update revRows (t.node a).revHash ((revRows (t.node a).revHash).erase a)) := by
  obtain ⟨hin, hb⟩ := h.inRev a ha (by simp)
  have hu := h.rev.unlink_seek (· == a) (t.node a).revHash t.live.card (h.fuel_rev _)
  simp only [Tables.revUnlink, hin, if_true, hb, Tables.modify]
  rw [List.erase_eq_eraseP']
  refine hu.write_field ?_ none
  intro i hmem
  rw [← List.erase_eq_eraseP'] at hmem
  exact ((h.erase_revRow a i a).mp hmem).2.1 rfl

theorem revUnlink_frame (t : Tables) (a : Addr) :
    (t.revUnlink a).live = t.live ∧ (t.revUnlink a).fwd = t.fwd ∧
    ∀ b, (t.revUnlink a).node b =
      if b = a ∧ (t.node a).inRev then { t.node b with inRev := false } else t.node b := by
  unfold Tables.revUnlink
  split
  · rename_i hin
    refine ⟨rfl, rfl, fun b => ?_⟩
    by_cases hb : b = a
    · subst hb; simp [Tables.modify, hin]
    · simp [Tables.modify, hb]
  · rename_i hin
    exact ⟨rfl, rfl, fun b => by simp [hin]⟩

/-- A change of the reverse index alone leaves the forward table and the keys as they are. -/
private theorem reindex {t' : Tables} {revRows' : Bucket → List Addr} {out' : Option Addr}
    (h : Linked t rows revRows out) (hl : t'.live = t.live) (hf : t'.fwd = t.fwd)
    (hkey : ∀ b, (t'.node b).key = (t.node b).key) (hrev : t'.rev.Represents revRows')
    (hmem : ∀ i b, b ∈ revRows' i ↔ b ∈ t'.live ∧ some b ≠ out' ∧ (t'.node b).revHash = i)
    (hin : ∀ b ∈ t'.live, some b ≠ out' → (t'.node b).inRev = true ∧ (t'.node b).revBucket = (t'.node b).revHash) :
    Linked t' rows revRows' out' where
  fwd := hf ▸ h.fwd
  rev := hrev
  mem_fwd := by
    rw [hl]
    exact h.mem_fwd
  bucket i b hb := by
    have hport : (t'.node b).srcPort = (t.node b).srcPort := congrArg FlowKey.srcPort (hkey b)
    rw [hport]
    exact h.bucket i b hb
  unique b hb c hc he := by
    rw [hl] at hb hc
    rw [hkey, hkey] at he
    exact h.unique b hb c hc he
  mem_rev := hmem
  inRev := hin

/-- `rev_unlink` takes a live node out of the reverse index and nothing else. -/
theorem revUnlink (h : Linked t rows revRows none) {a : Addr} (ha : a ∈ t.live) :
    Linked (t.revUnlink a) rows
      (Function.update revRows (t.node a).revHash ((revRows (t.node a).revHash).erase a)) (some a) := by
  obtain ⟨hl, hf, hn⟩ := revUnlink_frame t a
  have hkey : ∀ b, ((t.revUnlink a).node b).key = (t.node b).key := by
    intro b; rw [hn]; split <;> rfl
  have hhash : ∀ b, ((t.revUnlink a).node b).revHash = (t.node b).revHash := by
    intro b; rw [hn]; split <;> rfl
  refine h.reindex hl hf hkey (h.revUnlink_rev ha t.fwd) ?_ ?_
  · intro i b
    rw [h.erase_revRow a i b, hl, hhash]
    simp
  · intro b hb ho
    rw [hl] at hb
    have hba : b ≠ a := by simpa using ho
    rw [hn b, if_neg (fun e => hba e.1)]
    exact h.inRev b hb (by simp)

theorem revInsert_frame (t : Tables) (a : Addr) :
    (t.revInsert a).live = t.live ∧ (t.revInsert a).fwd = t.fwd ∧
    (t.revInsert a).rev = t.rev.push (t.node a).revHash a ∧
    ∀ b, (t.revInsert a).node b =
      if b = a then { t.node b with revBucket := (t.node a).revHash, inRev := true } else t.node b := by
  refine ⟨rfl, rfl, rfl, fun b => ?_⟩
  by_cases hb : b = a
  · subst hb; simp [Tables.revInsert, Tables.modify]
  · simp [Tables.revInsert, Tables.modify, hb]

/-- `rev_insert` puts the node held outside back under its current destination. -/
theorem revInsert {a : Addr} (h : Linked t rows revRows (some a)) (ha : a ∈ t.live) :
    Linked (t.revInsert a) rows
      (Function.update revRows (t.node a).revHash (a :: revRows (t.node a).revHash)) none := by
  obtain ⟨hl, hf, hr, hn⟩ := revInsert_frame t a
  have hout : ∀ i, a ∉ revRows i := fun i hi => ((h.mem_rev i a).mp hi).2.1 rfl
  have hkey : ∀ b, ((t.revInsert a).node b).key = (t.node b).key := by
    intro b; rw [hn]; split <;> rfl
  have hhash : ∀ b, ((t.revInsert a).node b).revHash = (t.node b).revHash := by
    intro b; rw [hn]; split <;> rfl
  refine h.reindex hl hf hkey (hr ▸ h.rev.push _ hout) ?_ ?_
  · intro i b
    rw [hl, hhash]
    by_cases hi : i = (t.node a).revHash
    · subst hi
      rw [Function.update_self, List.mem_cons, h.mem_rev]
      constructor
      · rintro (rfl | ⟨hb, _, he⟩)
        · exact ⟨ha, by simp, rfl⟩
        · exact ⟨hb, by simp, he⟩
      · rintro ⟨hb, _, he⟩
        by_cases hba : b = a
        · exact .inl hba
        · exact .inr ⟨hb, by simpa using hba, he⟩
    · rw [Function.update_of_ne hi, h.mem_rev]
      constructor
      · rintro ⟨hb, _, he⟩
        exact ⟨hb, by simp, he⟩
      · rintro ⟨hb, _, he⟩
        refine ⟨hb, ?_, he⟩
        intro e
        have hba : b = a := Option.some.inj e
        exact hi (by rw [← he, hba])
  · intro b hb _
    rw [hl] at hb
    rw [hhash, hn b]
    by_cases hba : b = a
    · subst hba; simp
    · rw [if_neg hba]
      exact h.inRev b hb (by simpa using hba)

/-- Linking a freshly allocated node with a key no live node has. -/
theorem insert (h : Linked t rows revRows none) {a : Addr} (ha : a ∉ t.live)
    (f : ConnectionInfo → ConnectionInfo)
    (hk : ∀ b ∈ t.live, (t.node b).key ≠ (f .zeroed).key) :
    Linked { (t.calloc a).modify a f with fwd := t.fwd.push (bucketOf (f .zeroed).srcPort) a }
      (Function.update rows (bucketOf (f .zeroed).srcPort) (a :: rows (bucketOf (f .zeroed).srcPort)))
      revRows (some a) := by
  have hself : ((t.calloc a).modify a f).node a = f .zeroed := by simp [Tables.modify, Tables.calloc]
  have hother : ∀ b, b ≠ a → ((t.calloc a).modify a f).node b = t.node b := by
    intro b hb; simp [Tables.modify, Tables.calloc, hb]
  have hnot : ∀ i, a ∉ rows i := fun i hi => ha (h.live_of_mem hi)
  have hne : ∀ b ∈ t.live, b ≠ a := by rintro b hb rfl; exact ha hb
  have hlive : ∀ b, b ∈ ((t.calloc a).modify a f).live ↔ b = a ∨ b ∈ t.live := by
    intro b; simp [Tables.modify, Tables.calloc]
  have hrow : ∀ i b, b ∈ Function.update rows (bucketOf (f .zeroed).srcPort)
      (a :: rows (bucketOf (f .zeroed).srcPort)) i ↔
      (b = a ∧ i = bucketOf (f .zeroed).srcPort) ∨ b ∈ rows i := by
    intro i b
    by_cases hi : i = bucketOf (f .zeroed).srcPort
    · subst hi; simp
    · simp [hi]
  refine ⟨h.fwd.push _ hnot, h.rev, ?_, ?_, ?_, ?_, ?_⟩
  · intro b
    rw [hlive]
    simp only [hrow]
    constructor
    · rintro (rfl | hb)
      · exact ⟨_, .inl ⟨rfl, rfl⟩⟩
      · obtain ⟨i, hi⟩ := (h.mem_fwd b).mp hb
        exact ⟨i, .inr hi⟩
    · rintro ⟨i, ⟨rfl, _⟩ | hi⟩
      · exact .inl rfl
      · exact .inr (h.live_of_mem hi)
  · intro i b hb
    rcases (hrow i b).mp hb with ⟨rfl, rfl⟩ | hi
    · rw [hself]
    · rw [hother b (hne b (h.live_of_mem hi))]
      exact h.bucket i b hi
  · intro b hb c hc he
    rcases (hlive b).mp hb with rfl | hb' <;> rcases (hlive c).mp hc with rfl | hc'
    · rfl
    · rw [hself, hother c (hne c hc')] at he
      exact (hk c hc' he.symm).elim
    · rw [hself, hother b (hne b hb')] at he
      exact (hk b hb' he).elim
    · rw [hother b (hne b hb'), hother c (hne c hc')] at he
      exact h.unique b hb' c hc' he
  · intro i b
    rw [h.mem_rev, hlive]
    constructor
    · rintro ⟨hb, _, he⟩
      exact ⟨.inr hb, by simpa using hne b hb, by rw [hother b (hne b hb)]; exact he⟩
    · rintro ⟨hb, hba, he⟩
      have hba' : b ≠ a := by simpa using hba
      rw [hother b hba'] at he
      exact ⟨hb.resolve_left hba', by simp, he⟩
  · intro b hb hba
    have hba' : b ≠ a := by simpa using hba
    rw [hother b hba']
    exact h.inRev b (((hlive b).mp hb).resolve_left hba') (by simp)

/-- Taking a node out of both tables at a forward cursor and freeing it. -/
theorem removeAt (h : Linked t rows revRows none) {i : Bucket} {done rest : List Addr} {a : Addr}
    (hr : rows i = done ++ a :: rest) :
    Linked (t.removeAt (.after i done) a) (Function.update rows i (done ++ rest))
      (Function.update revRows (t.node a).revHash ((revRows (t.node a).revHash).erase a)) none := by
  have hai : a ∈ rows i := by rw [hr]; simp
  have ha := h.live_of_mem hai
  obtain ⟨hl, hf, hn⟩ := revUnlink_frame { t with fwd := t.fwd.unlink (.after i done) } a
  have hnode : ∀ b, b ≠ a → (t.removeAt (.after i done) a).node b = t.node b := by
    intro b hb
    exact (hn b).trans (if_neg (fun e => hb e.1))
  have hlive : ∀ b, b ∈ (t.removeAt (.after i done) a).live ↔ b ≠ a ∧ b ∈ t.live := by
    intro b
    simp only [Tables.removeAt, Tables.free, hl, Finset.mem_erase]
  have hnd : (done ++ a :: rest).Nodup := hr ▸ h.fwd.nodup i
  have hrow : ∀ j b, b ∈ Function.update rows i (done ++ rest) j ↔ b ∈ rows j ∧ b ≠ a := by
    intro j b
    by_cases hj : j = i
    · subst hj
      rw [Function.update_self, hr]
      have hrest : (done ++ a :: rest).erase a = done ++ rest := by
        have hnot : a ∉ done := by
          intro hd
          exact (List.nodup_append.mp hnd).2.2 a hd a (by simp) rfl
        rw [List.erase_append_right _ hnot, List.erase_cons_head]
      rw [← hrest, hnd.mem_erase_iff]
      exact and_comm
    · rw [Function.update_of_ne hj]
      exact ⟨fun hb => ⟨hb, fun e => hj (h.fwd.disjoint j i a (e ▸ hb) hai)⟩, fun hb => hb.1⟩
  refine ⟨?_, h.revUnlink_rev ha _, ?_, ?_, ?_, ?_, ?_⟩
  · exact (show (t.removeAt (.after i done) a).fwd = t.fwd.unlink (.after i done) from hf) ▸
      h.fwd.unlink_after i done rest a hr
  · intro b
    rw [hlive, h.mem_fwd]
    simp only [hrow]
    constructor
    · rintro ⟨hba, j, hj⟩
      exact ⟨j, hj, hba⟩
    · rintro ⟨j, hj, hba⟩
      exact ⟨hba, j, hj⟩
  · intro j b hb
    obtain ⟨hb', hba⟩ := (hrow j b).mp hb
    rw [hnode b hba]
    exact h.bucket j b hb'
  · intro b hb c hc he
    obtain ⟨hba, hb'⟩ := (hlive b).mp hb
    obtain ⟨hca, hc'⟩ := (hlive c).mp hc
    rw [hnode b hba, hnode c hca] at he
    exact h.unique b hb' c hc' he
  · intro j b
    rw [h.erase_revRow a j b, hlive]
    constructor
    · rintro ⟨hb, hba, he⟩
      exact ⟨⟨hba, hb⟩, by simp, by rw [hnode b hba]; exact he⟩
    · rintro ⟨⟨hba, hb⟩, _, he⟩
      rw [hnode b hba] at he
      exact ⟨hb, hba, he⟩
  · intro b hb _
    obtain ⟨hba, hb'⟩ := (hlive b).mp hb
    rw [hnode b hba]
    exact h.inRev b hb' (by simp)

end Linked
end ProxyBridge.Windows
