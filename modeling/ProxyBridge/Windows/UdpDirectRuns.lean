import ProxyBridge.Library.BigEndian
import ProxyBridge.Windows.UdpDirect

/-! The table of DIRECT verdicts as the bytes it consists of. A slot is written over by flows of
either family, and an IPv4 flow writes and compares four of the sixteen bytes of an address. -/
namespace ProxyBridge.Windows

/-- The ends of a datagram, as both functions of the cache take them. -/
inductive UdpTuple where
  | v4 (source : UInt32) (sourcePort : UInt16) (destination : UInt32) (destinationPort : UInt16)
  | v6 (source : Ip6) (sourcePort : UInt16) (destination : Ip6) (destinationPort : UInt16)
  deriving DecidableEq

namespace UdpTuple

def ipv6 : UdpTuple → Bool
  | v4 .. => false
  | v6 .. => true

def source : UdpTuple → IpAddr
  | v4 source _ _ _ => .v4 source
  | v6 source _ _ _ => .v6 source

def destination : UdpTuple → IpAddr
  | v4 _ _ destination _ => .v4 destination
  | v6 _ _ destination _ => .v6 destination

def sourcePort : UdpTuple → UInt16
  | v4 _ sourcePort _ _ => sourcePort
  | v6 _ sourcePort _ _ => sourcePort

def destinationPort : UdpTuple → UInt16
  | v4 _ _ _ destinationPort => destinationPort
  | v6 _ _ _ destinationPort => destinationPort

def slot (x : UdpTuple) : Fin 4096 := udpDirectSlot x.source x.sourcePort x.destination x.destinationPort

theorem ext_iff {x y : UdpTuple} : x = y ↔ x.source = y.source ∧ x.sourcePort = y.sourcePort ∧
    x.destination = y.destination ∧ x.destinationPort = y.destinationPort := by
  cases x <;> cases y <;> simp [source, sourcePort, destination, destinationPort]

end UdpTuple

/-- `memcpy` over the front of a field of sixteen bytes. -/
def memcpyFront (field : Ip6) (bytes : List UInt8) : Ip6 :=
  Vector.ofFn (fun i : Fin 16 => bytes.getD i.val field[i])

/-- `memcmp` of the front of a field of sixteen bytes. -/
def memcmpFront (field : Ip6) (bytes : List UInt8) : Bool := field.toList.take bytes.length == bytes

/-- `UDP_DIRECT_ENTRY` with all its bytes. -/
structure UdpDirectBytes where
  source : Ip6
  destination : Ip6
  sourcePort : UInt16
  destinationPort : UInt16
  ipv6 : Bool
  generation : UInt32
  expires : UInt64

def UdpDirectBytes.zeroed : UdpDirectBytes := ⟨.zero, .zero, 0, 0, false, 0, 0⟩

/-- The part of the process that the cache depends on. -/
structure UdpDirectState where
  entries : Fin 4096 → UdpDirectBytes
  generation : UInt32
  running : Bool
  clock : UInt64

/-- `startSucceeds` tells whether `ProxyBridge_Start` leaves the service running. -/
inductive UdpDirectCall where
  | remember (x : UdpTuple) (generation : UInt32)
  | invalidate
  | advance (ms : UInt64)
  | proxyBridgeStart (startSucceeds : Bool)
  | proxyBridgeStop

namespace UdpDirectState

def init (clock : UInt64) : UdpDirectState := ⟨fun _ => .zeroed, 1, false, clock⟩

variable (s : UdpDirectState)

def cached (x : UdpTuple) : Bool :=
  let entry := s.entries x.slot
  decide (entry.expires > s.clock) && entry.generation == s.generation && entry.ipv6 == x.ipv6 &&
    entry.sourcePort == x.sourcePort && entry.destinationPort == x.destinationPort &&
    memcmpFront entry.source x.source.bytes && memcmpFront entry.destination x.destination.bytes

def remember (x : UdpTuple) (generation : UInt32) : UdpDirectState :=
  let entry := s.entries x.slot
  let written : UdpDirectBytes :=
    ⟨memcpyFront entry.source x.source.bytes, memcpyFront entry.destination x.destination.bytes, x.sourcePort,
      x.destinationPort, x.ipv6, generation, s.clock + 5000⟩
  { s with entries := Function.update s.entries x.slot written }

def invalidate : UdpDirectState := { s with generation := s.generation + 1 }

def step : UdpDirectCall → UdpDirectState
  | .remember x generation => s.remember x generation
  | .invalidate => s.invalidate
  | .advance ms => { s with clock := s.clock + ms }
  | .proxyBridgeStart startSucceeds => if s.running then s else { s.invalidate with running := startSucceeds }
  | .proxyBridgeStop => { s with running := false }

def run (s : UdpDirectState) (calls : List UdpDirectCall) : UdpDirectState := calls.foldl step s

/-- How often a call increments the generation. -/
def bumps : UdpDirectCall → Nat
  | .invalidate => 1
  | .proxyBridgeStart _ => if s.running then 0 else 1
  | _ => 0

/-- How often the calls increment it in turn. -/
def invalidations : UdpDirectState → List UdpDirectCall → Nat
  | _, [] => 0
  | s, c :: calls => s.bumps c + invalidations (s.step c) calls

end UdpDirectState

def UdpDirectCall.elapsed : UdpDirectCall → Nat
  | .advance ms => ms.toNat
  | _ => 0

/-- The milliseconds that pass during the calls. -/
def UdpDirectCall.elapsedOver (calls : List UdpDirectCall) : Nat := calls.foldr (fun c n => c.elapsed + n) 0

theorem UdpDirectCall.elapsedOver_cons (c : UdpDirectCall) (calls : List UdpDirectCall) :
    elapsedOver (c :: calls) = c.elapsed + elapsedOver calls := rfl

theorem UdpDirectCall.elapsedOver_append (front back : List UdpDirectCall) :
    elapsedOver (front ++ back) = elapsedOver front + elapsedOver back := by
  induction front with
  | nil => exact (Nat.zero_add _).symm
  | cons c front ih => rw [List.cons_append, elapsedOver_cons, elapsedOver_cons, ih, Nat.add_assoc]

/-! An address that was copied over the front of a field is what a comparison finds there. -/

theorem IpAddr.bytes_length (a : IpAddr) : a.bytes.length = if a.isIpv6 then 16 else 4 := by
  cases a with
  | v4 ip => rfl
  | v6 ip6 => simp [IpAddr.bytes, IpAddr.isIpv6]

theorem IpAddr.bytes_inj {a b : IpAddr} (h : a.bytes = b.bytes) : a = b := by
  have hlen := congrArg List.length h
  cases a with
  | v4 ip =>
    cases b with
    | v4 ip' =>
      simp only [IpAddr.bytes, List.cons.injEq, and_true] at h
      rw [← BigEndian.octets_word ip, h.1, h.2.1, h.2.2.1, h.2.2.2, BigEndian.octets_word ip']
    | v6 ip6' => simp [IpAddr.bytes] at hlen
  | v6 ip6 =>
    cases b with
    | v4 ip' => simp [IpAddr.bytes] at hlen
    | v6 ip6' => exact congrArg IpAddr.v6 (Vector.toList_inj.mp h)

private theorem take_memcpyFront (field : Ip6) {bytes : List UInt8} (h : bytes.length ≤ 16) :
    (memcpyFront field bytes).toList.take bytes.length = bytes := by
  apply List.ext_getElem
  · simp
    omega
  · intro i hi hi'
    simp [memcpyFront, List.getD_eq_getElem?_getD, hi']

theorem memcmpFront_memcpyFront (field : Ip6) {a b : IpAddr} (h : a.isIpv6 = b.isIpv6) :
    memcmpFront (memcpyFront field a.bytes) b.bytes = true ↔ a = b := by
  have hlen : a.bytes.length = b.bytes.length := by rw [IpAddr.bytes_length, IpAddr.bytes_length, h]
  have hle : a.bytes.length ≤ 16 := by
    rw [IpAddr.bytes_length]
    split <;> omega
  rw [memcmpFront, beq_iff_eq, ← hlen, take_memcpyFront field hle]
  exact ⟨IpAddr.bytes_inj, fun e => e ▸ rfl⟩

namespace UdpTuple

@[simp] theorem isIpv6_source (x : UdpTuple) : x.source.isIpv6 = x.ipv6 := by cases x <;> rfl

@[simp] theorem isIpv6_destination (x : UdpTuple) : x.destination.isIpv6 = x.ipv6 := by cases x <;> rfl

end UdpTuple

namespace UdpDirectState
variable {s : UdpDirectState} {x : UdpTuple} {calls : List UdpDirectCall}

@[simp] theorem run_nil : s.run [] = s := rfl

@[simp] theorem run_cons (c : UdpDirectCall) : s.run (c :: calls) = (s.step c).run calls := rfl

theorem run_append (front back : List UdpDirectCall) : s.run (front ++ back) = (s.run front).run back :=
  List.foldl_append

/-- A slot keeps its bytes while no remembered flow falls into it. -/
theorem run_entries_of_forall (i : Fin 4096) (h : ∀ y g, .remember y g ∈ calls → y.slot ≠ i) :
    (s.run calls).entries i = s.entries i := by
  induction calls generalizing s with
  | nil => rfl
  | cons c calls ih =>
    rw [run_cons, ih (fun y g hy => h y g (List.mem_cons_of_mem _ hy))]
    cases c with
    | remember y g =>
      have hne := h y g List.mem_cons_self
      simp only [step, UdpDirectState.remember, Function.update_of_ne hne.symm]
    | proxyBridgeStart startSucceeds =>
      simp only [step, invalidate]
      split <;> rfl
    | _ => rfl

theorem step_clock (c : UdpDirectCall) (h : s.clock.toNat + c.elapsed < 18446744073709551616) :
    (s.step c).clock.toNat = s.clock.toNat + c.elapsed := by
  cases c with
  | advance ms =>
    simp only [UdpDirectCall.elapsed] at h
    simp only [step, UInt64.toNat_add, UdpDirectCall.elapsed]
    omega
  | proxyBridgeStart startSucceeds =>
    simp only [step, invalidate]
    split <;> rfl
  | _ => rfl

theorem run_clock (h : s.clock.toNat + UdpDirectCall.elapsedOver calls < 18446744073709551616) :
    (s.run calls).clock.toNat = s.clock.toNat + UdpDirectCall.elapsedOver calls := by
  induction calls generalizing s with
  | nil => rfl
  | cons c calls ih =>
    rw [UdpDirectCall.elapsedOver_cons] at h ⊢
    have hc := step_clock (s := s) c (by omega)
    rw [run_cons, ih (by omega), hc]
    omega

/-- What the cache answers for a flow, once a flow was remembered in its slot and none after it. -/
private theorem cached_after_remember {before after : List UdpDirectCall} {y : UdpTuple} {g : UInt32}
    (hclock : s.clock.toNat + UdpDirectCall.elapsedOver (before ++ .remember y g :: after) + 5000 <
      18446744073709551616)
    (hslot : y.slot = x.slot) (hafter : ∀ z h, .remember z h ∈ after → z.slot ≠ x.slot) :
    (s.run (before ++ .remember y g :: after)).cached x = true ↔
      y = x ∧ UdpDirectCall.elapsedOver after < 5000 ∧ g = (s.run (before ++ .remember y g :: after)).generation := by
  have hsum : UdpDirectCall.elapsedOver (before ++ .remember y g :: after) =
      UdpDirectCall.elapsedOver before + UdpDirectCall.elapsedOver after := by
    rw [UdpDirectCall.elapsedOver_append, UdpDirectCall.elapsedOver_cons]
    exact congrArg (_ + ·) (Nat.zero_add _)
  rw [hsum] at hclock
  have hnow := @run_clock s (before ++ .remember y g :: after) (by omega)
  have hthen := @run_clock s before (by omega)
  rw [hsum] at hnow
  set final := s.run (before ++ .remember y g :: after) with hfinal
  set m := s.run before
  have hentry : final.entries x.slot = (m.remember y g).entries x.slot := by
    rw [hfinal, run_append, run_cons]
    exact run_entries_of_forall x.slot hafter
  have hexpires : (m.clock + 5000).toNat = m.clock.toNat + 5000 := by
    rw [UInt64.toNat_add]
    exact Nat.mod_eq_of_lt (by simp; omega)
  simp only [cached, hentry, UdpDirectState.remember, hslot, Function.update_self, Bool.and_eq_true,
    decide_eq_true_eq, beq_iff_eq, gt_iff_lt, UInt64.lt_iff_toNat_lt, hexpires, hnow, hthen]
  constructor
  · rintro ⟨⟨⟨⟨⟨⟨htime, hgen⟩, hfamily⟩, hsp⟩, hdp⟩, hsource⟩, hdest⟩
    have hs : y.source.isIpv6 = x.source.isIpv6 := by simpa using hfamily
    have hd : y.destination.isIpv6 = x.destination.isIpv6 := by simpa using hfamily
    rw [memcmpFront_memcpyFront _ hs] at hsource
    rw [memcmpFront_memcpyFront _ hd] at hdest
    exact ⟨UdpTuple.ext_iff.mpr ⟨hsource, hsp, hdest, hdp⟩, by omega, hgen⟩
  · rintro ⟨rfl, htime, hgen⟩
    exact ⟨⟨⟨⟨⟨⟨by omega, hgen⟩, rfl⟩, rfl⟩, rfl⟩, (memcmpFront_memcpyFront _ rfl).mpr rfl⟩,
      (memcmpFront_memcpyFront _ rfl).mpr rfl⟩

/-- Either no flow was remembered in a slot, or there is a last one. -/
private theorem exists_last_remember (i : Fin 4096) (calls : List UdpDirectCall) :
    (∀ y g, .remember y g ∈ calls → y.slot ≠ i) ∨
    ∃ before y g after, calls = before ++ .remember y g :: after ∧ y.slot = i ∧
      ∀ z h, .remember z h ∈ after → z.slot ≠ i := by
  induction calls with
  | nil => exact .inl (fun y g hy => nomatch hy)
  | cons c calls ih =>
    rcases ih with hnone | ⟨before, y, g, after, rfl, hslot, hafter⟩
    · cases c with
      | remember y g =>
        by_cases hslot : y.slot = i
        · exact .inr ⟨[], y, g, calls, rfl, hslot, hnone⟩
        · refine .inl (fun z h hz => ?_)
          rcases List.mem_cons.mp hz with heq | hz
          · obtain ⟨rfl, rfl⟩ := UdpDirectCall.remember.inj heq
            exact hslot
          · exact hnone z h hz
      | _ => exact .inl (fun z h hz => hnone z h ((List.mem_cons.mp hz).resolve_left (fun e => nomatch e)))
    · exact .inr ⟨c :: before, y, g, after, rfl, hslot, hafter⟩

/-- The generation counts the invalidations modulo 2³². -/
theorem run_generation : (s.run calls).generation = s.generation + UInt32.ofNat (s.invalidations calls) := by
  induction calls generalizing s with
  | nil => simp [invalidations]
  | cons c calls ih =>
    have hstep : (s.step c).generation = s.generation + UInt32.ofNat (s.bumps c) := by
      cases c with
      | proxyBridgeStart startSucceeds =>
        simp only [step, bumps]
        split <;> simp [invalidate]
      | invalidate => rfl
      | _ => simp [step, bumps, UdpDirectState.remember]
    rw [run_cons, ih, hstep, invalidations, UInt32.ofNat_add, UInt32.add_assoc]

theorem invalidations_append (front back : List UdpDirectCall) :
    s.invalidations (front ++ back) = s.invalidations front + (s.run front).invalidations back := by
  induction front generalizing s with
  | nil => simp [invalidations]
  | cons c front ih => simp only [List.cons_append, invalidations, ih, run_cons, Nat.add_assoc]

/-- The service does not come up without an invalidation. -/
theorem invalidations_pos_of_running (hstopped : s.running = false) (h : (s.run calls).running = true) :
    0 < s.invalidations calls := by
  induction calls generalizing s with
  | nil => exact absurd (hstopped.symm.trans h) Bool.false_ne_true
  | cons c calls ih =>
    rw [run_cons] at h
    cases c with
    | proxyBridgeStart startSucceeds =>
      simp only [invalidations, bumps, hstopped]
      exact Nat.add_pos_left Nat.zero_lt_one _
    | invalidate => exact Nat.add_pos_left Nat.zero_lt_one _
    | remember y g => exact Nat.add_pos_right _ (ih (s := s.remember y g) hstopped h)
    | advance ms => exact Nat.add_pos_right _ (ih (s := s.step (.advance ms)) hstopped h)
    | proxyBridgeStop => exact Nat.add_pos_right _ (ih (s := s.step .proxyBridgeStop) rfl h)

/-- A stop and a start of the service invalidate at least once. -/
private theorem invalidations_pos_of_restart (s : UdpDirectState) (between : List UdpDirectCall) (startSucceeds : Bool)
    (later : List UdpDirectCall) :
    0 < s.invalidations (.proxyBridgeStop :: (between ++ .proxyBridgeStart startSucceeds :: later)) := by
  have hsplit : s.invalidations (.proxyBridgeStop :: (between ++ .proxyBridgeStart startSucceeds :: later)) =
      0 + ((s.step .proxyBridgeStop).invalidations between +
        (((s.step .proxyBridgeStop).run between).bumps (.proxyBridgeStart startSucceeds) +
          (((s.step .proxyBridgeStop).run between).step (.proxyBridgeStart startSucceeds)).invalidations later)) := by
    rw [invalidations, invalidations_append, invalidations]
    rfl
  cases hrunning : ((s.step .proxyBridgeStop).run between).running with
  | false =>
    rw [hsplit, bumps, hrunning]
    exact Nat.add_pos_right _ (Nat.add_pos_right _ (Nat.add_pos_left Nat.zero_lt_one _))
  | true =>
    have hpos := invalidations_pos_of_running (s := s.step .proxyBridgeStop) rfl hrunning
    omega

/-- A generation that was read before some of the invalidations is not current after them. -/
theorem generation_eq_iff (h : s.invalidations calls < 4294967296) :
    s.generation = (s.run calls).generation ↔ s.invalidations calls = 0 := by
  rw [run_generation, ← UInt32.toNat_inj, UInt32.toNat_add, UInt32.toNat_ofNat']
  have hlt := s.generation.toNat_lt
  omega

/-- The cache answers for exactly the flow that was remembered last in its slot, for five seconds
and under its own generation. A generation stays current until the next invalidation, and does not
outlast a stop and a start of the service. -/
theorem cached_exact (clock : UInt64) (calls : List UdpDirectCall) (x : UdpTuple)
    (hclock : clock.toNat + UdpDirectCall.elapsedOver calls + 5000 < UInt64.size)
    (hcount : (init clock).invalidations calls < UInt32.size) :
    let final := (init clock).run calls
    (final.cached x = true ↔ ∃ before g after, calls = before ++ .remember x g :: after ∧
      (∀ y h, .remember y h ∈ after → y.slot ≠ x.slot) ∧ UdpDirectCall.elapsedOver after < 5000 ∧
      g = final.generation) ∧
    (∀ earlier later, calls = earlier ++ later →
      (((init clock).run earlier).generation = final.generation ↔
        ((init clock).run earlier).invalidations later = 0)) ∧
    ∀ earlier between startSucceeds later,
      calls = earlier ++ .proxyBridgeStop :: between ++ .proxyBridgeStart startSucceeds :: later →
      ((init clock).run earlier).generation ≠ final.generation := by
  intro final
  have hcurrent : ∀ earlier later, calls = earlier ++ later →
      (((init clock).run earlier).generation = final.generation ↔
        ((init clock).run earlier).invalidations later = 0) := by
    rintro earlier later rfl
    rw [invalidations_append] at hcount
    have hlt : ((init clock).run earlier).invalidations later < 4294967296 :=
      Nat.lt_of_le_of_lt (Nat.le_add_left _ _) hcount
    have hfinal : final = ((init clock).run earlier).run later := run_append earlier later
    rw [hfinal]
    exact generation_eq_iff hlt
  refine ⟨⟨fun h => ?_, ?_⟩, hcurrent, ?_⟩
  · rcases exists_last_remember x.slot calls with hnone | ⟨before, y, g, after, rfl, hslot, hafter⟩
    · have hentry : final.entries x.slot = .zeroed := run_entries_of_forall x.slot hnone
      rw [cached, hentry] at h
      simp [UdpDirectBytes.zeroed] at h
    · obtain ⟨rfl, htime, hgen⟩ := (cached_after_remember hclock hslot hafter).mp h
      exact ⟨before, g, after, rfl, hafter, htime, hgen⟩
  · rintro ⟨before, g, after, rfl, hafter, htime, hgen⟩
    exact (cached_after_remember hclock rfl hafter).mpr ⟨rfl, htime, hgen⟩
  · intro earlier between startSucceeds later hcalls heq
    rw [List.append_assoc, List.cons_append] at hcalls
    have hzero := (hcurrent _ _ hcalls).mp heq
    have hpos := invalidations_pos_of_restart ((init clock).run earlier) between startSucceeds later
    omega

theorem cached_exact_at_4999 :
    ((init 1000).run [.remember (.v4 1 2 3 4) 1, .advance 4999]).cached (.v4 1 2 3 4) = true := by
  have hexact := cached_exact 1000 [.remember (.v4 1 2 3 4) 1, .advance 4999] (.v4 1 2 3 4) (by decide) (by decide)
  refine hexact.1.mpr ⟨[], 1, [.advance 4999], rfl, fun y h hy => ?_, by decide, rfl⟩
  exact absurd (List.mem_singleton.mp hy) (fun e => nomatch e)

end UdpDirectState

/-! The table of `UdpDirectEntry` values that the packet thread is modelled with is what these
bytes stand for. -/

/-- The bytes of an entry hold a value; of an IPv4 address, four of the sixteen. -/
structure UdpDirectBytes.Holds (b : UdpDirectBytes) (e : UdpDirectEntry) : Prop where
  sourceFamily : e.source.isIpv6 = b.ipv6
  destinationFamily : e.destination.isIpv6 = b.ipv6
  source : b.source.toList.take e.source.bytes.length = e.source.bytes
  destination : b.destination.toList.take e.destination.bytes.length = e.destination.bytes
  sourcePort : b.sourcePort = e.sourcePort
  destinationPort : b.destinationPort = e.destinationPort
  generation : b.generation = e.generation
  expires : b.expires = e.expires

/-- A comparison with the bytes of an address of the same family compares the addresses. -/
private theorem memcmpFront_eq {field : Ip6} {held a : IpAddr}
    (hheld : field.toList.take held.bytes.length = held.bytes) (hfamily : held.isIpv6 = a.isIpv6) :
    memcmpFront field a.bytes = (held == a) := by
  have hlen : a.bytes.length = held.bytes.length := by rw [IpAddr.bytes_length, IpAddr.bytes_length, hfamily]
  rw [memcmpFront, hlen, hheld, Bool.eq_iff_iff, beq_iff_eq, beq_iff_eq]
  exact ⟨IpAddr.bytes_inj, fun e => e ▸ rfl⟩

namespace UdpDirectState
variable {s : UdpDirectState} {t : UdpDirectTable}

def Holds (s : UdpDirectState) (t : UdpDirectTable) : Prop := ∀ i, (s.entries i).Holds (t i)

theorem init_holds (clock : UInt64) : (init clock).Holds (fun _ => .zeroed) := by
  intro i
  have hzeroed : UdpDirectBytes.zeroed.Holds .zeroed := ⟨rfl, rfl, by decide, by decide, rfl, rfl, rfl, rfl⟩
  exact hzeroed

theorem Holds.cached_eq (h : s.Holds t) (x : UdpTuple) :
    s.cached x = udpDirectCached t s.generation s.clock x.source x.sourcePort x.destination x.destinationPort := by
  obtain ⟨hsf, hdf, hs, hd, hsp, hdp, hg, he⟩ := h x.slot
  have hslot : udpDirectSlot x.source x.sourcePort x.destination x.destinationPort = x.slot := rfl
  simp only [cached, udpDirectCached, hslot, hsp, hdp, hg, he]
  by_cases hfamily : (s.entries x.slot).ipv6 = x.ipv6
  · rw [memcmpFront_eq hs (by rw [hsf, hfamily, UdpTuple.isIpv6_source]),
      memcmpFront_eq hd (by rw [hdf, hfamily, UdpTuple.isIpv6_destination]), hfamily]
    simp
  · have hsource : ((t x.slot).source == x.source) = false := by
      refine beq_eq_false_iff_ne.mpr (fun e => hfamily ?_)
      rw [← hsf, e, UdpTuple.isIpv6_source]
    simp [hfamily, hsource]

theorem Holds.remember (h : s.Holds t) (x : UdpTuple) (generation : UInt32) :
    (s.remember x generation).Holds
      (udpDirectRemember t s.clock x.source x.sourcePort x.destination x.destinationPort generation) := by
  have hle : ∀ a : IpAddr, a.bytes.length ≤ 16 := by
    intro a
    rw [IpAddr.bytes_length]
    split <;> omega
  have hslot : udpDirectSlot x.source x.sourcePort x.destination x.destinationPort = x.slot := rfl
  intro i
  by_cases hi : i = x.slot
  · subst hi
    simp only [UdpDirectState.remember, udpDirectRemember, hslot, Function.update_self]
    exact ⟨x.isIpv6_source, x.isIpv6_destination, take_memcpyFront _ (hle _), take_memcpyFront _ (hle _),
      rfl, rfl, rfl, rfl⟩
  · simp only [UdpDirectState.remember, udpDirectRemember, hslot, Function.update_of_ne hi]
    exact h i

end UdpDirectState
end ProxyBridge.Windows
