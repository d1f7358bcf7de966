import ProxyBridge.Windows.ConntrackRuns
import ProxyBridge.Windows.FlowMap

/-! The reverse lookups for UDP replies walk one bucket of the reverse index. They answer as a scan
of the whole forward table would. -/
namespace ProxyBridge.Windows
open IntrusiveChains

/-- A UDP entry of this family with this original destination. -/
def ConnectionInfo.sendsToV4 (destIp : UInt32) (destPort : UInt16) (c : ConnectionInfo) : Bool :=
  c.isUdp && !c.isIpv6 && c.origDestIp == destIp && c.origDestPort == destPort

def ConnectionInfo.sendsToV6 (destIp6 : Ip6) (destPort : UInt16) (c : ConnectionInfo) : Bool :=
  c.isUdp && c.isIpv6 && c.origDestPort == destPort && c.origDestIp6 == destIp6

namespace Tables

/-- The entries that a scan of the forward table meets, bucket by bucket. -/
def scanForward (t : Tables) : List Addr :=
  (List.finRange connectionHashSize).flatMap (fun i => t.fwd.follow t.live.card (t.fwd.head i))

/-- The answer is one of the wanted entries of the scan that were active last, and there is an
answer if there is a wanted entry. -/
structure AnswersScan (t : Tables) (wanted : ConnectionInfo → Bool) (winner : Option Addr) : Prop where
  found : winner.isSome = true ↔ ∃ a ∈ t.scanForward, wanted (t.node a) = true
  sends : ∀ a, winner = some a → a ∈ t.scanForward ∧ wanted (t.node a) = true
  newest : ∀ a, winner = some a → ∀ b ∈ t.scanForward, wanted (t.node b) = true →
    (t.node b).lastActivity ≤ (t.node a).lastActivity

/-- The entry that is kept after meeting `a`. -/
private def newer (t : Tables) (wanted : ConnectionInfo → Bool) (best : Option Addr) (a : Addr) : Option Addr :=
  let better := match best with
    | none => true
    | some b => decide ((t.node a).lastActivity > (t.node b).lastActivity)
  if wanted (t.node a) && better then some a else best

private theorem newer_le (t : Tables) (wanted : ConnectionInfo → Bool) {best : Option Addr} {a b : Addr}
    (hb : best = some b ∨ (b = a ∧ wanted (t.node a) = true)) :
    ∃ c, newer t wanted best a = some c ∧ (t.node b).lastActivity ≤ (t.node c).lastActivity := by
  unfold newer
  rcases hb with rfl | ⟨rfl, hw⟩
  · by_cases hp : (wanted (t.node a) && decide ((t.node a).lastActivity > (t.node b).lastActivity)) = true
    · refine ⟨a, if_pos hp, ?_⟩
      simp only [Bool.and_eq_true, decide_eq_true_eq] at hp
      exact UInt64.le_of_lt hp.2
    · exact ⟨b, if_neg hp, UInt64.le_refl _⟩
  · cases best with
    | none => exact ⟨b, by simp [hw], UInt64.le_refl _⟩
    | some d =>
      by_cases hd : (t.node b).lastActivity > (t.node d).lastActivity
      · exact ⟨b, by simp [hw, hd], UInt64.le_refl _⟩
      · exact ⟨d, by simp [hd], UInt64.not_lt.mp hd⟩

/-- The walk of a chain keeps the entry that was active last. -/
private theorem newest_max (t : Tables) (wanted : ConnectionInfo → Bool) (l : List Addr) (fuel : Nat)
    (q best : Option Addr) (hseg : t.rev.Segment q l none) (hf : l.length ≤ fuel) :
    ∀ b, best = some b ∨ (b ∈ l ∧ wanted (t.node b) = true) →
      ∃ a, t.newest wanted fuel q best = some a ∧ (t.node b).lastActivity ≤ (t.node a).lastActivity := by
  induction l generalizing fuel q best with
  | nil =>
    obtain rfl : q = none := hseg
    rintro b (rfl | ⟨hb, _⟩)
    · cases fuel <;> exact ⟨b, rfl, UInt64.le_refl _⟩
    · cases hb
  | cons c l ih =>
    obtain ⟨rfl, hseg⟩ := hseg
    cases fuel with
    | zero => simp at hf
    | succ fuel =>
      intro b hb
      have hstep : t.newest wanted (fuel + 1) (some c) best =
          t.newest wanted fuel (t.rev.next c) (newer t wanted best c) := rfl
      have hnext := ih fuel (t.rev.next c) (newer t wanted best c) hseg (by simpa using hf)
      rw [hstep]
      have hmet : (best = some b ∨ (b = c ∧ wanted (t.node c) = true)) ∨ (b ∈ l ∧ wanted (t.node b) = true) := by
        rcases hb with hb | ⟨hb, hw⟩
        · exact .inl (.inl hb)
        · rcases List.mem_cons.mp hb with rfl | hb
          · exact .inl (.inr ⟨rfl, hw⟩)
          · exact .inr ⟨hb, hw⟩
      rcases hmet with hnow | hlater
      · obtain ⟨d, hd, hle⟩ := newer_le t wanted hnow
        obtain ⟨a, ha, hle'⟩ := hnext d (.inl hd)
        exact ⟨a, ha, UInt64.le_trans hle hle'⟩
      · exact hnext b (.inr hlater)

/-- A scan of the forward table meets exactly the allocated entries. -/
private theorem Consistent.mem_scanForward {t : Tables} (h : t.Consistent) (a : Addr) :
    a ∈ t.scanForward ↔ a ∈ t.live := by
  obtain ⟨rows, revRows, hl⟩ := h
  rw [hl.mem_fwd, scanForward, List.mem_flatMap]
  refine exists_congr (fun i => ?_)
  rw [hl.fwd.follow_eq i _ (hl.fuel_fwd i)]
  exact ⟨fun hi => hi.2, fun hi => ⟨List.mem_finRange i, hi⟩⟩

/-- Walking the one reverse bucket that holds all the wanted entries is as good as a scan. -/
private theorem Consistent.newest_answersScan {t : Tables} (h : t.Consistent) {wanted : ConnectionInfo → Bool}
    {i : Bucket} (hi : ∀ c, wanted c = true → c.revHash = i) :
    t.AnswersScan wanted (t.newest wanted t.live.card (t.rev.head i) none) := by
  have hmax : ∀ b ∈ t.scanForward, wanted (t.node b) = true → ∃ a,
      t.newest wanted t.live.card (t.rev.head i) none = some a ∧
      (t.node b).lastActivity ≤ (t.node a).lastActivity := by
    intro b hb hw
    have hlive := (h.mem_scanForward b).mp hb
    obtain ⟨rows, revRows, hl⟩ := h
    have hmem : b ∈ revRows i := (hl.mem_rev i b).mpr ⟨hlive, by simp, hi _ hw⟩
    exact newest_max t wanted (revRows i) _ _ none (hl.rev.chain i) (hl.fuel_rev i) b (.inr ⟨hmem, hw⟩)
  have hsends : ∀ a, t.newest wanted t.live.card (t.rev.head i) none = some a →
      a ∈ t.scanForward ∧ wanted (t.node a) = true := by
    intro a ha
    obtain ⟨hlive, hw⟩ := h.newest_live wanted _ i ha
    exact ⟨(h.mem_scanForward a).mpr hlive, hw⟩
  refine ⟨⟨fun hs => ?_, ?_⟩, hsends, ?_⟩
  · obtain ⟨a, ha⟩ := Option.isSome_iff_exists.mp hs
    exact ⟨a, hsends a ha⟩
  · rintro ⟨b, hb, hw⟩
    obtain ⟨a, ha, _⟩ := hmax b hb hw
    rw [ha]
    rfl
  · intro a ha b hb hw
    obtain ⟨a', ha', hle⟩ := hmax b hb hw
    obtain rfl : a' = a := Option.some.inj (ha'.symm.trans ha)
    exact hle

end Tables

/-- In consistent tables either reverse lookup finds a client exactly if a scan of the whole forward
table finds an entry of the family for the destination, and its client was active last among these. -/
theorem reverse_lookup_agrees_with_scan (t : Tables) (h : t.Consistent) (destPort : UInt16) :
    (∀ now destIp, ∃ winner, t.AnswersScan (ConnectionInfo.sendsToV4 destIp destPort) winner ∧
      (t.findV4UdpSender now destIp destPort).1 =
        winner.map (fun a => ((t.node a).srcIp, (t.node a).srcPort))) ∧
    ∀ destIp6, ∃ winner, t.AnswersScan (ConnectionInfo.sendsToV6 destIp6 destPort) winner ∧
      t.findV6UdpSender destIp6 destPort = winner.map (fun a => ((t.node a).srcIp6, (t.node a).srcPort)) := by
  constructor
  · intro now destIp
    refine ⟨_, h.newest_answersScan (i := revHashV4 destIp destPort) (fun c hc => ?_), rfl⟩
    simp only [ConnectionInfo.sendsToV4, Bool.and_eq_true, Bool.not_eq_true', beq_iff_eq] at hc
    obtain ⟨⟨⟨_, hv⟩, hd⟩, hp⟩ := hc
    simp [ConnectionInfo.revHash, hv, hd, hp]
  · intro destIp6
    refine ⟨_, h.newest_answersScan (i := revHashV6 destIp6 destPort) (fun c hc => ?_), rfl⟩
    simp only [ConnectionInfo.sendsToV6, Bool.and_eq_true, beq_iff_eq] at hc
    obtain ⟨⟨⟨_, hv⟩, hp⟩, hd⟩ := hc
    simp [ConnectionInfo.revHash, hv, hd, hp]

/-- Two clients of one destination: the reply goes to the one that was active later. -/
theorem reverse_lookup_agrees_with_scan_two_clients :
    ∃ t : Tables, t.Consistent ∧ (t.findV4UdpSender 300 0x08080808 53).1 = some (0x0100007f, 5001) ∧
      ∃ winner, t.AnswersScan (ConnectionInfo.sendsToV4 0x08080808 53) winner ∧
        (t.findV4UdpSender 300 0x08080808 53).1 =
          winner.map (fun a => ((t.node a).srcIp, (t.node a).srcPort)) := by
  let first := Tables.empty.apply (.addConnection 1 100 (some 0) 5000 true 0x0100007f 0x08080808 53 1)
  let second := first.apply (.addConnection 1 200 (some 1) 5001 true 0x0100007f 0x08080808 53 1)
  have hlive : first.live = {0} := by decide +kernel
  have hfirst : first.Reachable :=
    .next (a := .addConnection 1 100 (some 0) 5000 true 0x0100007f 0x08080808 53 1) .start
      (fun a _ => Finset.notMem_empty a) rfl
  have hsecond : second.Reachable := by
    refine .next (a := .addConnection 1 200 (some 1) 5001 true 0x0100007f 0x08080808 53 1) hfirst (fun a ha => ?_) rfl
    obtain rfl := Option.some.inj ha
    rw [hlive]
    decide
  exact ⟨second, hsecond.consistent, by decide +kernel,
    (reverse_lookup_agrees_with_scan second hsecond.consistent 53).1 300 0x08080808⟩

end ProxyBridge.Windows
