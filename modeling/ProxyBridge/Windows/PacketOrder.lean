import Mathlib.Data.List.Forall2
import ProxyBridge.Windows.PacketProcessor

/-! What one batch becomes: a turn of the loop queues at most one packet, there is always room for it,
and so the packets that are sent keep the order in which they were received. -/
namespace ProxyBridge.Windows

/-- The headers that were found are whole and lie within the packet. -/
structure ParsedPacket.Inside (h : ParsedPacket) (n : Nat) : Prop where
  ipHeader : ∀ i ∈ h.ipHeader, i + 20 ≤ n
  ipv6Header : ∀ i ∈ h.ipv6Header, i + 40 ≤ n
  tcpHeader : ∀ i ∈ h.tcpHeader, i + 20 ≤ n
  udpHeader : ∀ i ∈ h.udpHeader, i + 8 ≤ n

/-- The parser splits what was received into these packets. -/
def DivertHelpers.Splits (W : DivertHelpers) (received : List QueuedPacket) : Prop :=
  ∀ front p back, received = front ++ p :: back → ∃ h, W.parsePacket (packedBytes (p :: back)) = some h ∧
    h.Inside p.bytes.length ∧ h.nextLen.toNat = (packedBytes back).length ∧
    (back ≠ [] → h.nextPacket = some p.bytes.length)

/-- The bytes of a packet, perhaps with addresses and ports written into its headers. -/
inductive HeadersStored (packet : List UInt8) : List UInt8 → Prop where
  | same : HeadersStored packet packet
  | ipv4 (ip transport : Nat) (p : Packet UInt32) : HeadersStored packet (ipv4Layout.store packet ip transport p)
  | ipv6 (ip transport : Nat) (p : Packet Ip6) : HeadersStored packet (ipv6Layout.store packet ip transport p)

/-- A packet is sent as it was received, or in its place and length with new headers and checksums. -/
inductive SentFor (W : DivertHelpers) (received : QueuedPacket) : QueuedPacket → Prop where
  | unmodified : SentFor W received received
  | rewritten (sent : QueuedPacket) (stored : List UInt8) (outbound : Bool) : HeadersStored received.bytes stored →
      (sent.bytes, sent.addr) = W.calcChecksums stored { received.addr with outbound := outbound } →
      sent.bytes.length = received.bytes.length → SentFor W received sent

theorem SentFor.length_eq {W : DivertHelpers} {received sent : QueuedPacket} (h : SentFor W received sent) :
    sent.bytes.length = received.bytes.length := by
  cases h with
  | unmodified => rfl
  | rewritten _ _ _ _ _ hlen => exact hlen

/-- All that a turn can do to the batch. -/
inductive Queues (W : DivertHelpers) (received : QueuedPacket) (s after : PacketLoop) : Prop where
  | nothing : after.batch = s.batch → after.results = s.results → Queues W received s after
  | one (sent : QueuedPacket) : SentFor W received sent → after.batch = (s.batch.queue sent).2 →
      after.results = s.results ++ [(s.batch.queue sent).1] → Queues W received s after

section Turns
variable {W : DivertHelpers} {p : QueuedPacket} {s : PacketLoop}

theorem HeaderLayout.store_length {α : Type} (L : HeaderLayout α) {packet : List UInt8} {ip transport : Nat}
    (hip : ip + L.size ≤ packet.length) (htransport : transport + 4 ≤ packet.length) (q : Packet α) :
    (L.store packet ip transport q).length = packet.length := by
  have hsrc := L.srcAddr_fits
  have hdst := L.dstAddr_fits
  have hports (port : UInt16) : (headerPortBytes port).length = 2 := rfl
  refine copyTo_length (copyTo_length (copyTo_length (copyTo_length rfl ?_) ?_) ?_) ?_
  · rw [L.bytes_length]
    omega
  · rw [L.bytes_length]
    omega
  · rw [hports]
    omega
  · rw [hports]
    omega

/-- The code below the branches queues what is rewritten. -/
private theorem finish_tail {t : PacketLoop} {stored : List UInt8} (outbound : Bool)
    (hbatch : t.batch = s.batch) (hresults : t.results = s.results) (hstored : HeadersStored p.bytes stored)
    (hlen : stored.length = p.bytes.length) :
    Queues W p s (W.finish p.bytes.length.toUInt32 (.tail t stored { p.addr with outbound := outbound })) := by
  have hsums : (W.calcChecksums stored { p.addr with outbound := outbound }).1.length = p.bytes.length :=
    (W.calcChecksums_length _ _).trans hlen
  set sums := W.calcChecksums stored { p.addr with outbound := outbound } with hdef
  have hcall : queuePacketForSend t.batch sums.1 p.bytes.length.toUInt32 sums.2 =
      s.batch.queue ⟨sums.1, sums.2, hsums.symm ▸ p.short⟩ := by
    rw [PacketSendBatch.queue, hbatch]
    change _ = queuePacketForSend s.batch sums.1 sums.1.length.toUInt32 sums.2
    rw [hsums]
  refine .one ⟨sums.1, sums.2, hsums.symm ▸ p.short⟩ (.rewritten _ stored outbound hstored hdef hsums) ?_ ?_
  · change (queuePacketForSend t.batch sums.1 p.bytes.length.toUInt32 sums.2).2 = _
    rw [hcall]
  · change t.results ++ [(queuePacketForSend t.batch sums.1 p.bytes.length.toUInt32 sums.2).1] = _
    rw [hcall, hresults]

/-- A packet that is passed on goes into the batch as it is. -/
private theorem send_unmodified {t : PacketLoop} (hbatch : t.batch = s.batch) (hresults : t.results = s.results) :
    Queues W p s (t.winDivertSend p.bytes p.bytes.length.toUInt32 p.addr) := by
  refine .one p .unmodified ?_ ?_
  · change (queuePacketForSend t.batch p.bytes p.bytes.length.toUInt32 p.addr).2 = _
    rw [hbatch]
    rfl
  · change t.results ++ [(queuePacketForSend t.batch p.bytes p.bytes.length.toUInt32 p.addr).1] = _
    rw [hbatch, hresults]
    rfl

/-- What a branch is given of a packet that was parsed: its bytes, its address and whole headers. -/
structure CapturedPacket.Of {α : Type} (c : CapturedPacket) (L : HeaderLayout α) (p : QueuedPacket) : Prop where
  packet : c.packet = p.bytes
  packetLen : c.packetLen = p.bytes.length.toUInt32
  addr : c.addr = p.addr
  ip : c.ip + L.size ≤ p.bytes.length
  transport : c.transport + 4 ≤ p.bytes.length

section Branches
variable {α : Type} {L : HeaderLayout α} {c : CapturedPacket} (hc : c.Of L p)
  (hL : ∀ packet ip transport (q : Packet α), HeadersStored packet (L.store packet ip transport q))
include hc

private theorem finish_pass (core : Core) :
    Queues W p s (W.finish p.bytes.length.toUInt32 (c.pass (s.withCore core))) := by
  rw [CapturedPacket.pass, hc.packet, hc.packetLen, hc.addr]
  exact send_unmodified rfl rfl

include hL in
private theorem finish_rewrite (core : Core) (q : Packet α) :
    Queues W p s (W.finish p.bytes.length.toUInt32 (c.rewrite L (s.withCore core) q)) := by
  rw [CapturedPacket.rewrite, hc.packet, hc.addr]
  exact finish_tail q.outbound rfl rfl (hL ..) (L.store_length hc.ip hc.transport q)

private theorem finish_inbound : Queues W p s (W.finish p.bytes.length.toUInt32 (.tail s c.packet c.addr)) := by
  rw [hc.packet, hc.addr]
  exact finish_tail p.addr.outbound rfl rfl .same rfl

include hL in
private theorem finish_udp {F : UdpFamily α}
    (hrespond : ∀ q found, F.respond q found = .drop ∨ ∃ q', F.respond q found = .response q') :
    Queues W p s (W.finish p.bytes.length.toUInt32 (F.exits L c s)) := by
  rw [UdpFamily.exits]
  split
  · rw [F.outboundExits_eq L c s hrespond]
    generalize F.outbound c.settings c.readings s.core (c.view L) = o
    obtain ⟨outcome, core⟩ := o
    cases outcome with
    | drop => exact .nothing rfl rfl
    | pass => exact finish_pass hc core
    | validated q => exact finish_rewrite hc hL core q
    | proxied q => exact finish_rewrite hc hL core q
    | response q => exact finish_rewrite hc hL core q
  split
  · exact finish_pass hc s.core
  · exact finish_inbound hc

include hL in
private theorem finish_tcp {F : TcpFamily α} :
    Queues W p s (W.finish p.bytes.length.toUInt32 (F.exits L c s)) := by
  rw [TcpFamily.exits]
  split
  · rw [F.outboundExits_eq L c s _ rfl]
    generalize F.outbound c.settings c.readings s.core (c.view L) (readTcpFlags c.packet c.transport) = o
    obtain ⟨outcome, core⟩ := o
    cases outcome with
    | drop => exact .nothing rfl rfl
    | pass => exact finish_pass hc core
    | modified q => exact finish_rewrite hc hL core q
  split
  · exact finish_pass hc s.core
  · exact finish_inbound hc

end Branches

private theorem udpV4_respond (q : Packet UInt32) (found : Option (UInt32 × UInt16)) :
    udpV4.respond q found = .drop ∨ ∃ q', udpV4.respond q found = .response q' := by
  cases found with
  | none => exact .inl rfl
  | some e => exact .inr ⟨_, rfl⟩

private theorem udpV6_respond (q : Packet Ip6) (found : Option (Ip6 × UInt16)) :
    udpV6.respond q found = .drop ∨ ∃ q', udpV6.respond q found = .response q' := by
  cases found with
  | none => exact .inr ⟨_, rfl⟩
  | some e => exact .inr ⟨_, rfl⟩

/-- Whichever way a packet takes through the body, at most one call queues it. -/
theorem packetBody_queues {h : ParsedPacket} (hinside : h.Inside p.bytes.length) {t : PacketTurn}
    (haddr : t.addr = p.addr) : Queues W p s (W.packetBody t h p.bytes p.bytes.length.toUInt32 s) := by
  obtain ⟨ipHeader, ipv6Header, tcpHeader, udpHeader, nextPacket, nextLen⟩ := h
  obtain ⟨hip, hip6, htcp, hudp⟩ := hinside
  cases ipHeader with
  | none =>
    cases ipv6Header with
    | none => exact .nothing rfl rfl
    | some ip6 =>
      have hfits : ip6 + ipv6Layout.size ≤ p.bytes.length := hip6 ip6 rfl
      cases tcpHeader with
      | none =>
        cases udpHeader with
        | none =>
          change Queues W p s (s.winDivertSend p.bytes p.bytes.length.toUInt32 t.addr)
          rw [haddr]
          exact send_unmodified rfl rfl
        | some udp =>
          have hports : udp + 4 ≤ p.bytes.length := Nat.le_trans (Nat.add_le_add_left (by decide) udp) (hudp udp rfl)
          exact finish_udp ⟨rfl, rfl, haddr, hfits, hports⟩ (fun _ => .ipv6) udpV6_respond
      | some tcp =>
        have hports : tcp + 4 ≤ p.bytes.length := Nat.le_trans (Nat.add_le_add_left (by decide) tcp) (htcp tcp rfl)
        exact finish_tcp ⟨rfl, rfl, haddr, hfits, hports⟩ (fun _ => .ipv6)
  | some ip =>
    have hfits : ip + ipv4Layout.size ≤ p.bytes.length := hip ip rfl
    cases tcpHeader with
    | none =>
      cases udpHeader with
      | none => exact .nothing rfl rfl
      | some udp =>
        have hports : udp + 4 ≤ p.bytes.length := Nat.le_trans (Nat.add_le_add_left (by decide) udp) (hudp udp rfl)
        exact finish_udp ⟨rfl, rfl, haddr, hfits, hports⟩ (fun _ => .ipv4) udpV4_respond
    | some tcp =>
      have hports : tcp + 4 ≤ p.bytes.length := Nat.le_trans (Nat.add_le_add_left (by decide) tcp) (htcp tcp rfl)
      exact finish_tcp ⟨rfl, rfl, haddr, hfits, hports⟩ (fun _ => .ipv4)

end Turns

/-- What is still to be processed of the receive buffer. -/
structure PacketLoop.Pending (s : PacketLoop) (received : List QueuedPacket) : Prop where
  memory : s.memory.take s.remaining.toNat = packedBytes received
  remaining : s.remaining.toNat = (packedBytes received).length

section Run
variable {W : DivertHelpers} {s : PacketLoop}

theorem DivertHelpers.Splits.tail {p : QueuedPacket} {back : List QueuedPacket} (h : W.Splits (p :: back)) :
    W.Splits back := by
  intro front q rest he
  exact h (p :: front) q rest (by rw [he, List.cons_append])

/-- A turn takes the packet at the front and leaves those behind it. -/
theorem iterate_spec {t : PacketTurn} {p : QueuedPacket} {back : List QueuedPacket} (hsplits : W.Splits (p :: back))
    (haddr : t.addr = p.addr) (hpending : s.Pending (p :: back)) :
    Queues W p s (W.iterate t s) ∧ (W.iterate t s).Pending back := by
  obtain ⟨h, hparse, hinside, hnext, hmore⟩ := hsplits [] p back rfl
  have hcons : packedBytes (p :: back) = p.bytes ++ packedBytes back := List.flatMap_cons
  have htotal : s.remaining.toNat = p.bytes.length + (packedBytes back).length := by
    rw [hpending.remaining, hcons, List.length_append]
  have hle : h.nextLen ≤ s.remaining := by
    rw [UInt32.le_iff_toNat_le]
    omega
  have hlen : (s.remaining - h.nextLen).toNat = p.bytes.length := by
    rw [UInt32.toNat_sub_of_le _ _ hle]
    omega
  have hpacketLen : s.remaining - h.nextLen = p.bytes.length.toUInt32 := by
    apply UInt32.toNat_inj.mp
    rw [hlen]
    exact (Nat.mod_eq_of_lt p.short).symm
  have hpacket : s.memory.take p.bytes.length.toUInt32.toNat = p.bytes := by
    have hfront := congrArg (List.take p.bytes.length) hpending.memory
    rw [List.take_take, hcons, List.take_left, Nat.min_eq_left (by omega)] at hfront
    rw [← hpacketLen, hlen, hfront]
  have hiterate : W.iterate t s =
      { W.packetBody t h p.bytes p.bytes.length.toUInt32 (s.withCore (t.others s.core)) with
        memory := h.nextPacket.elim [] (fun i => s.memory.drop i)
        remaining := h.nextLen } := by
    have hmemory : (s.withCore (t.others s.core)).memory = s.memory := rfl
    have hremaining : (s.withCore (t.others s.core)).remaining = s.remaining := rfl
    simp only [DivertHelpers.iterate, hmemory, hremaining, hpending.memory, hparse, hpacket, hpacketLen]
  rw [hiterate]
  refine ⟨?_, ?_, hnext⟩
  · have hbody := packetBody_queues (W := W) (s := s.withCore (t.others s.core)) hinside haddr
    cases hbody with
    | nothing hbatch hresults => exact .nothing hbatch hresults
    | one sent hsent hbatch hresults => exact .one sent hsent hbatch hresults
  · change (h.nextPacket.elim [] (fun i => s.memory.drop i)).take h.nextLen.toNat = packedBytes back
    by_cases hback : back = []
    · subst hback
      rw [hnext]
      exact List.take_zero
    · have hrest := congrArg (List.drop p.bytes.length) hpending.memory
      rw [hcons, List.drop_left, List.drop_take, htotal, Nat.add_sub_cancel_left] at hrest
      rw [hmore hback, hnext]
      exact hrest

/-- Calls keep the capacity of the batch. -/
private theorem queue_capacity (batch : PacketSendBatch) (p : QueuedPacket) :
    (batch.queue p).2.capacity = batch.capacity := by
  simp only [PacketSendBatch.queue, queuePacketForSend]
  split
  · rfl
  · rfl

/-- Behind packets for which there were slots and room, every call is accepted, and what goes into the
batch is sent for packets of the rest in their order. -/
theorem packetLoop_spec {turns : List PacketTurn} {received queued : List QueuedPacket} (hsplits : W.Splits received)
    (haddr : turns.map (·.addr) = received.map (·.addr)) (hpending : s.Pending received)
    (hqueued : s.batch.Holds queued) (hfew : queued.length + received.length ≤ packetBatchSize)
    (hfits : (packedBytes queued).length + (packedBytes received).length ≤ s.batch.capacity.toNat) :
    ∃ sent, List.SublistForall₂ (fun q p => SentFor W p q) sent received ∧
      (W.packetLoop turns s).batch.Holds (queued ++ sent) ∧
      (W.packetLoop turns s).results = s.results ++ List.replicate sent.length true := by
  induction received generalizing turns s queued with
  | nil =>
    obtain rfl := List.map_eq_nil_iff.mp haddr
    refine ⟨[], .nil, ?_, ?_⟩
    · rwa [List.append_nil]
    · exact (List.append_nil _).symm
  | cons p back ih =>
    obtain ⟨t, rest, rfl, ht, hrest⟩ := List.map_eq_cons_iff.mp haddr
    have hcons : (packedBytes (p :: back)).length = p.bytes.length + (packedBytes back).length := by
      rw [packedBytes, List.flatMap_cons, List.length_append]
      rfl
    rw [hcons] at hfits
    rw [List.length_cons] at hfew
    rw [DivertHelpers.packetLoop]
    by_cases hremaining : s.remaining > 0
    · rw [if_pos hremaining]
      obtain ⟨hqueues, hback⟩ := iterate_spec hsplits ht hpending
      generalize W.iterate t s = after at hqueues hback ⊢
      cases hqueues with
      | nothing hbatch hresults =>
        have hsame : after.batch.Holds queued := by rwa [hbatch]
        obtain ⟨sent, hsub, hholds, hall⟩ := ih hsplits.tail hrest hback hsame (by omega) (by rw [hbatch]; omega)
        rw [hresults] at hall
        exact ⟨sent, .cons_right hsub, hholds, hall⟩
      | one q hq hbatch hresults =>
        have hlen : q.bytes.length = p.bytes.length := hq.length_eq
        have haccepted : (s.batch.queue q).1 = true := (hqueued.queue_iff q).mpr ⟨by omega, by omega⟩
        have hmore : after.batch.Holds (queued ++ [q]) := by
          rw [hbatch]
          exact hqueued.queue haccepted
        have hcapacity : after.batch.capacity = s.batch.capacity := by rw [hbatch, queue_capacity]
        obtain ⟨sent, hsub, hholds, hall⟩ := ih hsplits.tail hrest hback hmore (by simp; omega)
          (by rw [hcapacity, packedBytes_append, List.length_append]; omega)
        refine ⟨q :: sent, .cons hq hsub, ?_, ?_⟩
        · rwa [List.append_cons]
        · rw [hall, hresults, haccepted, List.append_assoc]
          rfl
    · rw [if_neg hremaining]
      refine ⟨[], .nil, ?_, ?_⟩
      · rwa [List.append_nil]
      · exact (List.append_nil _).symm

end Run

/-- What `WinDivertRecvEx` delivered into the receive buffer, with what comes with each packet. -/
structure ReceivedBatch (W : DivertHelpers) (capacity : UInt32) where
  packets : List QueuedPacket
  turns : List PacketTurn
  recvPackets : List UInt8
  recvLen : UInt32
  few : packets.length ≤ packetBatchSize
  fits : (packedBytes packets).length ≤ capacity.toNat
  memory : recvPackets.take recvLen.toNat = packedBytes packets
  length : recvLen.toNat = (packedBytes packets).length
  addresses : turns.map (·.addr) = packets.map (·.addr)
  splits : W.Splits packets

/-- The loop at its start, with anything in the send buffer and in the array of addresses. -/
def ReceivedBatch.start {W : DivertHelpers} {capacity : UInt32} (r : ReceivedBatch W capacity) (core : Core)
    (sendPackets : List UInt8) (addresses : Vector PacketAddress packetBatchSize) : PacketLoop :=
  ⟨r.recvPackets, r.recvLen, core, ⟨sendPackets, capacity, 0, 0, addresses⟩, []⟩

private theorem holds_empty {batch : PacketSendBatch} (hsize : batch.packets.length = batch.capacity.toNat)
    (hlength : batch.length = 0) (hcount : batch.count = 0) : batch.Holds [] where
  size := hsize
  fits := Nat.zero_le _
  slots := Nat.zero_le _
  length := congrArg UInt32.toNat hlength
  count := congrArg UInt32.toNat hcount
  bytes := List.take_zero
  addresses := List.take_zero

private theorem queueAll_capacity (batch : PacketSendBatch) (calls : List QueuedPacket) :
    (batch.queueAll calls).2.capacity = batch.capacity := by
  induction calls generalizing batch with
  | nil => rfl
  | cons p calls ih => exact (ih _).trans (queue_capacity batch p)

/-- A batch holds the accepted packets in the order of the calls and within its bounds, and a call that
is rejected changes nothing. In the loop over a received batch no call is rejected, and what is sent are
some of the received packets in their order, each as it was or rewritten in its length. -/
theorem packet_batches_sent_in_order :
    (∀ (batch : PacketSendBatch) (calls : List QueuedPacket), batch.packets.length = batch.capacity.toNat →
      batch.length = 0 → batch.count = 0 →
      let after := batch.queueAll calls
      let accepted := acceptedPackets calls after.1
      after.2.capacity = batch.capacity ∧ after.2.length ≤ after.2.capacity ∧
      after.2.count.toNat ≤ packetBatchSize ∧
      after.2.packets.take after.2.length.toNat = packedBytes accepted ∧
      after.2.addresses.toList.take after.2.count.toNat = accepted.map (·.addr)) ∧
    (∀ (batch : PacketSendBatch) (p : QueuedPacket), (batch.queue p).1 = false → (batch.queue p).2 = batch) ∧
    (∀ (W : DivertHelpers) (capacity : UInt32) (r : ReceivedBatch W capacity) (core : Core) (sendPackets : List UInt8)
      (addresses : Vector PacketAddress packetBatchSize), sendPackets.length = capacity.toNat →
      let after := W.packetLoop r.turns (r.start core sendPackets addresses)
      (∀ ok ∈ after.results, ok = true) ∧
      ∃ sent, List.SublistForall₂ (fun q p => SentFor W p q) sent r.packets ∧
        (sent = [] → after.batch.sendEx = none) ∧
        (sent ≠ [] → after.batch.sendEx = some (packedBytes sent, sent.map (·.addr)))) := by
  refine ⟨fun batch calls hsize hlength hcount => ?_, fun batch p h => PacketSendBatch.queue_rejected h,
    fun W capacity r core sendPackets addresses hsize => ?_⟩
  · have h := PacketSendBatch.queueAll_holds (holds_empty hsize hlength hcount) calls
    rw [List.nil_append] at h
    refine ⟨queueAll_capacity batch calls, ?_, ?_, ?_, ?_⟩
    · rw [UInt32.le_iff_toNat_le, h.length]
      exact h.fits
    · rw [h.count]
      exact h.slots
    · rw [h.length]
      exact h.bytes
    · rw [h.count]
      exact h.addresses
  · have hempty : (r.start core sendPackets addresses).batch.Holds [] := holds_empty hsize rfl rfl
    have hfew : ([] : List QueuedPacket).length + r.packets.length ≤ packetBatchSize := by
      rw [List.length_nil, Nat.zero_add]
      exact r.few
    have hfits : (packedBytes []).length + (packedBytes r.packets).length ≤ capacity.toNat := by
      have hnone : (packedBytes []).length = 0 := rfl
      rw [hnone, Nat.zero_add]
      exact r.fits
    have hresults : (r.start core sendPackets addresses).results = [] := rfl
    obtain ⟨sent, hsub, hholds, hall⟩ :=
      packetLoop_spec r.splits r.addresses ⟨r.memory, r.length⟩ hempty hfew hfits
    rw [List.nil_append] at hholds
    rw [hresults, List.nil_append] at hall
    refine ⟨fun ok hok => ?_, sent, hsub, hholds.sendEx_eq⟩
    rw [hall] at hok
    exact (List.mem_replicate.mp hok).2

/-- The parser on IPv4 packets without options. No packet below needs new checksums. -/
def plainIpv4 : DivertHelpers where
  parsePacket packet :=
    let total := (packet.getD 2 0).toNat * 256 + (packet.getD 3 0).toNat
    if packet.length < 20 ∨ packet.length < total then none
    else some {
      ipHeader := some 0
      ipv6Header := none
      tcpHeader := if packet.getD 9 0 = 6 then some 20 else none
      udpHeader := if packet.getD 9 0 = 17 then some 20 else none
      nextPacket := if total < packet.length then some total else none
      nextLen := (packet.length - total).toUInt32 }
  calcChecksums packet addr := (packet, addr)
  calcChecksums_length _ _ := rfl

/-- An ICMP packet from 10.0.0.2, which the loop drops. -/
def echoRequest : QueuedPacket where
  bytes := [0x45, 0, 0, 28, 0, 0, 0, 0, 64, 1, 0, 0, 10, 0, 0, 2, 1, 1, 1, 1, 8, 0, 0, 0, 0, 0, 0, 0]
  addr := ⟨true, []⟩
  short := by decide

/-- A datagram from the same host, which is passed on while there are no rules. -/
def shortDatagram : QueuedPacket where
  bytes := [0x45, 0, 0, 29, 0, 0, 0, 0, 64, 17, 0, 0, 10, 0, 0, 2, 8, 8, 8, 8, 0xC0, 0, 0, 53, 0, 9, 0, 0, 7]
  addr := ⟨true, [1]⟩
  short := by decide

private theorem plainIpv4_splits : plainIpv4.Splits [echoRequest, shortDatagram] := by
  intro front p back he
  rcases front with _ | ⟨a, _ | ⟨b, front⟩⟩
  · obtain ⟨rfl, rfl⟩ := List.cons.inj he
    refine ⟨⟨some 0, none, none, none, some 28, 29⟩, by decide +kernel, ⟨?_, ?_, ?_, ?_⟩, rfl, fun _ => rfl⟩
    · simp [echoRequest]
    · simp
    · simp
    · simp
  · obtain ⟨-, hrest⟩ := List.cons.inj he
    obtain ⟨rfl, rfl⟩ := List.cons.inj hrest
    refine ⟨⟨some 0, none, none, some 20, none, 0⟩, by decide +kernel, ⟨?_, ?_, ?_, ?_⟩, rfl,
      fun hback => absurd rfl hback⟩
    · simp [shortDatagram]
    · simp
    · simp
    · simp [shortDatagram]
  · have hlen := congrArg List.length he
    simp at hlen

/-- Two packets of one batch, while there are no rules. -/
def twoPackets : ReceivedBatch plainIpv4 64 where
  packets := [echoRequest, shortDatagram]
  turns :=
    [echoRequest, shortDatagram].map fun p =>
      ⟨p.addr, ⟨34010, false, false, true, []⟩, ⟨1, 0, none, ⟨.direct, 0, 0⟩⟩, id⟩
  recvPackets := packedBytes [echoRequest, shortDatagram]
  recvLen := 57
  few := by decide
  fits := by decide
  memory := by decide
  length := by decide
  addresses := rfl
  splits := plainIpv4_splits

/-- Three calls of which the last finds no room, and the loop over two packets. -/
theorem packet_batches_sent_in_order_two :
    ((PacketSendBatch.mk (List.replicate 60 0) 60 0 0 (Vector.replicate _ ⟨false, []⟩)).queueAll
        [echoRequest, shortDatagram, echoRequest]).2.length ≤ 60 ∧
      (∀ ok ∈ (plainIpv4.packetLoop twoPackets.turns
        (twoPackets.start .init (List.replicate 64 0) (Vector.replicate _ ⟨false, []⟩))).results, ok = true) := by
  obtain ⟨hqueue, -, hloop⟩ := packet_batches_sent_in_order
  obtain ⟨hcapacity, hlength, -⟩ := hqueue
    (PacketSendBatch.mk (List.replicate 60 0) 60 0 0 (Vector.replicate _ ⟨false, []⟩))
    [echoRequest, shortDatagram, echoRequest] (by decide) rfl rfl
  refine ⟨?_, (hloop plainIpv4 64 twoPackets .init (List.replicate 64 0) (Vector.replicate _ ⟨false, []⟩)
    (by decide)).1⟩
  rwa [hcapacity] at hlength

end ProxyBridge.Windows
