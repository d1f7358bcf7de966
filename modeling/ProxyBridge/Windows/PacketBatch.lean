import Mathlib.Data.List.Basic

/-! The batch of packets that `packet_processor` hands to the driver at once: one buffer with the
packets behind each other, and an array with their addresses. -/
namespace ProxyBridge.Windows

/-- `PACKET_BATCH_SIZE`. -/
abbrev packetBatchSize : Nat := 16

/-- `WINDIVERT_ADDRESS` of a packet. The branches read and write its direction; the rest is the driver's. -/
structure PacketAddress where
  outbound : Bool
  other : List UInt8
  deriving DecidableEq

/-- `PACKET_SEND_BATCH`. -/
structure PacketSendBatch where
  packets : List UInt8
  capacity : UInt32
  length : UInt32
  count : UInt32
  addresses : Vector PacketAddress packetBatchSize

/-- `memcpy(buffer + i, bytes, n)` of the bytes that are there. -/
def copyTo (buffer : List UInt8) (i : Nat) (bytes : List UInt8) : List UInt8 :=
  buffer.take i ++ bytes ++ buffer.drop (i + bytes.length)

/-- `packet` is the memory from the pointer on. -/
def queuePacketForSend (batch : PacketSendBatch) (packet : List UInt8) (packetLen : UInt32) (addr : PacketAddress) :
    Bool × PacketSendBatch :=
  if batch.count ≥ packetBatchSize.toUInt32 ∨ packetLen > batch.capacity - batch.length then (false, batch)
  else
    (true, { batch with
      packets := copyTo batch.packets batch.length.toNat (packet.take packetLen.toNat)
      addresses := batch.addresses.setIfInBounds batch.count.toNat addr
      length := batch.length + packetLen
      count := batch.count + 1 })

/-- A packet that a call queues. The caller has all of its bytes, and their number is a `UINT`. -/
structure QueuedPacket where
  bytes : List UInt8
  addr : PacketAddress
  short : bytes.length < 4294967296

namespace PacketSendBatch

def queue (batch : PacketSendBatch) (p : QueuedPacket) : Bool × PacketSendBatch :=
  queuePacketForSend batch p.bytes p.bytes.length.toUInt32 p.addr

/-- The calls in their order, with what each returned. -/
def queueAll (batch : PacketSendBatch) : List QueuedPacket → List Bool × PacketSendBatch
  | [] => ([], batch)
  | p :: calls =>
    let rest := (batch.queue p).2.queueAll calls
    ((batch.queue p).1 :: rest.1, rest.2)

/-- What is sent with one call of `WinDivertSendEx`, if there is anything to send. -/
def sendEx (batch : PacketSendBatch) : Option (List UInt8 × List PacketAddress) :=
  if batch.count > 0 then
    some (batch.packets.take batch.length.toNat, batch.addresses.toList.take batch.count.toNat)
  else none

end PacketSendBatch

/-- The packets whose calls returned TRUE. -/
def acceptedPackets (calls : List QueuedPacket) (results : List Bool) : List QueuedPacket :=
  ((calls.zip results).filter (·.2)).map (·.1)

/-- The bytes of packets behind each other. -/
def packedBytes (items : List QueuedPacket) : List UInt8 := items.flatMap (·.bytes)

/-- These packets and no others are in the batch, in this order. -/
structure PacketSendBatch.Holds (batch : PacketSendBatch) (items : List QueuedPacket) : Prop where
  size : batch.packets.length = batch.capacity.toNat
  fits : (packedBytes items).length ≤ batch.capacity.toNat
  slots : items.length ≤ packetBatchSize
  length : batch.length.toNat = (packedBytes items).length
  count : batch.count.toNat = items.length
  bytes : batch.packets.take (packedBytes items).length = packedBytes items
  addresses : batch.addresses.toList.take items.length = items.map (·.addr)

section Copying

theorem copyTo_length {buffer bytes : List UInt8} {i n : Nat} (hn : buffer.length = n) (h : i + bytes.length ≤ n) :
    (copyTo buffer i bytes).length = n := by
  simp only [copyTo, List.length_append, List.length_take, List.length_drop]
  omega

/-- A copy to the end of a text makes the text longer. -/
theorem copyTo_take {buffer text bytes : List UInt8} (htext : buffer.take text.length = text) :
    (copyTo buffer text.length bytes).take (text ++ bytes).length = text ++ bytes := by
  rw [copyTo, htext, List.take_left]

theorem packedBytes_append (items : List QueuedPacket) (p : QueuedPacket) :
    packedBytes (items ++ [p]) = packedBytes items ++ p.bytes := by
  simp [packedBytes]

/-- Writing the entry behind some first ones. -/
private theorem take_set_succ {α : Type} {l : List α} {i : Nat} (h : i < l.length) (a : α) :
    (l.set i a).take (i + 1) = l.take i ++ [a] := by
  have hlen : (l.take i).length = i := by
    rw [List.length_take]
    omega
  have htake : (l.take i ++ [a]).length = i + 1 := by rw [List.length_append, hlen, List.length_singleton]
  rw [List.set_eq_take_append_cons_drop, if_pos h, List.append_cons (l.take i) a, ← htake, List.take_left]

end Copying

/-- A call that is rejected changes nothing. -/
theorem PacketSendBatch.queue_rejected {batch : PacketSendBatch} {p : QueuedPacket}
    (h : (batch.queue p).1 = false) : (batch.queue p).2 = batch := by
  simp only [queue, queuePacketForSend] at h ⊢
  split at h
  · rename_i hg
    rw [if_pos hg]
  · cases h

namespace PacketSendBatch.Holds
variable {batch : PacketSendBatch} {items : List QueuedPacket}

/-- The subtraction in the guard does not wrap, so it asks whether the packet fits. -/
theorem room (h : batch.Holds items) :
    (batch.capacity - batch.length).toNat = batch.capacity.toNat - (packedBytes items).length := by
  have hfits := h.fits
  rw [← h.length] at hfits
  rw [UInt32.toNat_sub_of_le _ _ (UInt32.le_iff_toNat_le.mpr hfits), h.length]

/-- A call is accepted just when there is a slot and room left. -/
theorem queue_iff (h : batch.Holds items) (p : QueuedPacket) :
    (batch.queue p).1 = true ↔ items.length < packetBatchSize ∧
      (packedBytes items).length + p.bytes.length ≤ batch.capacity.toNat := by
  have hfits := h.fits
  have hlen : p.bytes.length.toUInt32.toNat = p.bytes.length := Nat.mod_eq_of_lt p.short
  have hcount : batch.count ≥ packetBatchSize.toUInt32 ↔ packetBatchSize ≤ items.length := by
    rw [← h.count]
    exact UInt32.le_iff_toNat_le
  have hroom : p.bytes.length.toUInt32 > batch.capacity - batch.length ↔
      batch.capacity.toNat - (packedBytes items).length < p.bytes.length := by
    rw [gt_iff_lt, UInt32.lt_iff_toNat_lt, h.room, hlen]
  have hguard : (batch.queue p).1 = true ↔
      ¬ (batch.count ≥ packetBatchSize.toUInt32 ∨ p.bytes.length.toUInt32 > batch.capacity - batch.length) := by
    simp only [queue, queuePacketForSend]
    split
    · rename_i hg
      simp [hg]
    · rename_i hg
      simp [hg]
  rw [hguard, hcount, hroom]
  omega

/-- An accepted packet is the last one of the batch. -/
theorem queue (h : batch.Holds items) {p : QueuedPacket} (hp : (batch.queue p).1 = true) :
    (batch.queue p).2.Holds (items ++ [p]) := by
  obtain ⟨hslot, hroom⟩ := (h.queue_iff p).mp hp
  have hlen : p.bytes.length.toUInt32.toNat = p.bytes.length := Nat.mod_eq_of_lt p.short
  have hcapacity := batch.capacity.toNat_lt
  have hslots : packetBatchSize = 16 := rfl
  have htake : p.bytes.take p.bytes.length.toUInt32.toNat = p.bytes := by rw [hlen, List.take_length]
  have hqueue : (batch.queue p).2 = { batch with
      packets := copyTo batch.packets (packedBytes items).length p.bytes
      addresses := batch.addresses.setIfInBounds items.length p.addr
      length := batch.length + p.bytes.length.toUInt32
      count := batch.count + 1 } := by
    simp only [PacketSendBatch.queue, queuePacketForSend] at hp ⊢
    split at hp
    · cases hp
    · rename_i hg
      rw [if_neg hg, htake, h.length, h.count]
  rw [hqueue]
  constructor
  · exact copyTo_length h.size hroom
  · rw [packedBytes_append, List.length_append]
    exact hroom
  · rw [List.length_append]
    exact hslot
  · rw [packedBytes_append, List.length_append, UInt32.toNat_add, hlen, h.length]
    exact Nat.mod_eq_of_lt (Nat.lt_of_le_of_lt hroom hcapacity)
  · rw [List.length_append, UInt32.toNat_add, h.count]
    exact Nat.mod_eq_of_lt (by simp; omega)
  · rw [packedBytes_append]
    exact copyTo_take h.bytes
  · have hin : items.length < batch.addresses.toList.length := by
      rw [Vector.length_toList]
      exact hslot
    have hset : (batch.addresses.setIfInBounds items.length p.addr).toList =
        batch.addresses.toList.set items.length p.addr := by simp
    rw [hset, List.length_append, List.map_append, ← h.addresses]
    exact take_set_succ hin p.addr

/-- What is sent is the packets of the batch with their addresses. -/
theorem sendEx_eq (h : batch.Holds items) : (items = [] → batch.sendEx = none) ∧
    (items ≠ [] → batch.sendEx = some (packedBytes items, items.map (·.addr))) := by
  have hsome : batch.count > 0 ↔ 0 < items.length := by
    rw [← h.count]
    exact UInt32.lt_iff_toNat_lt
  refine ⟨fun hnone => ?_, fun hne => ?_⟩
  · rw [sendEx, if_neg]
    rw [hsome, hnone]
    exact Nat.lt_irrefl 0
  · rw [sendEx, if_pos (hsome.mpr (List.length_pos_of_ne_nil hne)), h.length, h.count, h.bytes, h.addresses]

end PacketSendBatch.Holds

/-- What the calls so far have put into a batch that was empty at first. -/
theorem PacketSendBatch.queueAll_holds {batch : PacketSendBatch} {items : List QueuedPacket} (h : batch.Holds items)
    (calls : List QueuedPacket) :
    (batch.queueAll calls).2.Holds (items ++ acceptedPackets calls (batch.queueAll calls).1) := by
  induction calls generalizing batch items with
  | nil => simpa [queueAll, acceptedPackets] using h
  | cons p calls ih =>
    cases hp : (batch.queue p).1 with
    | false =>
      have hsame : (batch.queue p).2 = batch := queue_rejected hp
      have hrest := ih h
      simpa [queueAll, acceptedPackets, hp, hsame] using hrest
    | true =>
      have hrest := ih (h.queue hp)
      simpa [queueAll, acceptedPackets, hp] using hrest

end ProxyBridge.Windows
