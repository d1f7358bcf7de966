import Mathlib.Data.List.Basic

/-! Requests as RFC 1928 lays them out: a command and where it goes, with the port in network order. -/
namespace Rfc1928

/-- A name is as many bytes as the byte in front of it says. -/
inductive Address where
  | ipv4 (octets : Vector UInt8 4)
  | domain (name : List UInt8) (short : name.length < 256)
  | ipv6 (octets : Vector UInt8 16)

/-- VER and RSV are fixed and not kept. -/
structure Request where
  command : UInt8
  address : Address
  port : UInt16

def word (high low : UInt8) : UInt16 := high.toUInt16 <<< 8 ||| low.toUInt16

def networkOrder (port : UInt16) : List UInt8 := [(port >>> 8).toUInt8, port.toUInt8]

/-- ATYP and DST.ADDR. -/
def Address.bytes : Address → List UInt8
  | .ipv4 octets => 1 :: octets.toList
  | .domain name _ => 3 :: name.length.toUInt8 :: name
  | .ipv6 octets => 4 :: octets.toList

def Request.bytes (r : Request) : List UInt8 := [5, r.command, 0] ++ r.address.bytes ++ networkOrder r.port

def decodeOctets (n : Nat) (l : List UInt8) : Option (Vector UInt8 n × List UInt8) :=
  if h : n ≤ l.length then
    some (⟨(l.take n).toArray, by rw [List.size_toArray, List.length_take, Nat.min_eq_left h]⟩, l.drop n)
  else none

def decodeName : List UInt8 → Option (Address × List UInt8)
  | n :: l =>
    if n.toNat ≤ l.length then
      some (.domain (l.take n.toNat) (Nat.lt_of_le_of_lt (List.length_take_le _ _) n.toNat_lt), l.drop n.toNat)
    else none
  | [] => none

/-- An address at the front, and what is behind it. -/
def decodeAddress : List UInt8 → Option (Address × List UInt8)
  | atyp :: l =>
    if atyp = 1 then (decodeOctets 4 l).map (fun x => (.ipv4 x.1, x.2))
    else if atyp = 3 then decodeName l
    else if atyp = 4 then (decodeOctets 16 l).map (fun x => (.ipv6 x.1, x.2))
    else none
  | [] => none

def decodePort : List UInt8 → Option UInt16
  | [high, low] => some (word high low)
  | _ => none

/-- A request and nothing behind it. -/
def decodeRequest : List UInt8 → Option Request
  | ver :: command :: rsv :: l =>
    if ver = 5 ∧ rsv = 0 then do
      let (address, l) ← decodeAddress l
      let port ← decodePort l
      return ⟨command, address, port⟩
    else none
  | _ => none

section Words

theorem word_toNat (high low : UInt8) : (word high low).toNat = 256 * high.toNat + low.toNat := by
  have hhigh := high.toNat_lt
  have hlow := low.toNat_lt
  have height : UInt16.toNat 8 % 16 = 8 := rfl
  have hshift : high.toNat <<< 8 % 2 ^ 16 = 256 * high.toNat := by
    rw [Nat.shiftLeft_eq]
    omega
  have hor : 256 * high.toNat + low.toNat = 256 * high.toNat ||| low.toNat :=
    @Nat.two_pow_add_eq_or_of_lt 8 low.toNat hlow high.toNat
  rw [word, UInt16.toNat_or, UInt16.toNat_shiftLeft, UInt8.toNat_toUInt16, UInt8.toNat_toUInt16, height, hshift, hor]

private theorem networkOrder_toNat (port : UInt16) :
    (port >>> 8).toUInt8.toNat = port.toNat / 256 ∧ port.toUInt8.toNat = port.toNat % 256 := by
  have hlt := port.toNat_lt
  have height : UInt16.toNat 8 % 16 = 8 := rfl
  refine ⟨?_, UInt16.toNat_toUInt8 port⟩
  rw [UInt16.toNat_toUInt8, UInt16.toNat_shiftRight, height, Nat.shiftRight_eq_div_pow]
  omega

/-- The two bytes of a port are read as the port. -/
@[simp] theorem word_networkOrder (port : UInt16) : word (port >>> 8).toUInt8 port.toUInt8 = port := by
  obtain ⟨hhigh, hlow⟩ := networkOrder_toNat port
  apply UInt16.toNat_inj.mp
  rw [word_toNat, hhigh, hlow, Nat.div_add_mod]

theorem networkOrder_word (high low : UInt8) : networkOrder (word high low) = [high, low] := by
  obtain ⟨hhigh, hlow⟩ := networkOrder_toNat (word high low)
  have hvalue := word_toNat high low
  have hlt := low.toNat_lt
  have hfirst : (word high low >>> 8).toUInt8 = high := UInt8.toNat_inj.mp (by omega)
  have hsecond : (word high low).toUInt8 = low := UInt8.toNat_inj.mp (by omega)
  rw [networkOrder, hfirst, hsecond]

end Words

section Decoding

theorem decodeOctets_eq_some_iff {n : Nat} {l rest : List UInt8} {octets : Vector UInt8 n} :
    decodeOctets n l = some (octets, rest) ↔ l = octets.toList ++ rest := by
  constructor
  · intro h
    rw [decodeOctets] at h
    split at h
    · obtain ⟨rfl, rfl⟩ := Prod.mk.inj (Option.some.inj h)
      exact (List.take_append_drop n l).symm
    · cases h
  · rintro rfl
    have hlen : octets.toList.length = n := octets.length_toList
    have hle : n ≤ (octets.toList ++ rest).length := by
      rw [List.length_append, hlen]
      exact Nat.le_add_right _ _
    have htake : (octets.toList ++ rest).take n = octets.toList := List.take_left' hlen
    have hdrop : (octets.toList ++ rest).drop n = rest := List.drop_left' hlen
    rw [decodeOctets, dif_pos hle, hdrop]
    refine congrArg some (Prod.ext ?_ rfl)
    apply Vector.toList_inj.mp
    exact htake

theorem decodeName_eq_some_iff {l rest : List UInt8} {address : Address} :
    decodeName l = some (address, rest) ↔
      ∃ name short, address = .domain name short ∧ l = name.length.toUInt8 :: name ++ rest := by
  constructor
  · intro h
    cases l with
    | nil => cases h
    | cons n l =>
      rw [decodeName] at h
      split at h
      · rename_i hle
        obtain ⟨rfl, rfl⟩ := Prod.mk.inj (Option.some.inj h)
        refine ⟨l.take n.toNat, _, rfl, ?_⟩
        have hlen : (l.take n.toNat).length = n.toNat := by rw [List.length_take, Nat.min_eq_left hle]
        have hn : n.toNat.toUInt8 = n := UInt8.ofNat_toNat
        rw [hlen, hn, List.cons_append, List.take_append_drop]
      · cases h
  · rintro ⟨name, short, rfl, rfl⟩
    have hn : name.length.toUInt8.toNat = name.length := Nat.mod_eq_of_lt short
    simp [decodeName, hn]

theorem decodeAddress_eq_some_iff {l rest : List UInt8} {address : Address} :
    decodeAddress l = some (address, rest) ↔ l = address.bytes ++ rest := by
  constructor
  · intro h
    cases l with
    | nil => cases h
    | cons atyp l =>
      rw [decodeAddress] at h
      split at h
      · rename_i hatyp
        obtain ⟨⟨octets, rest'⟩, hdecode, hx⟩ := Option.map_eq_some_iff.mp h
        obtain ⟨rfl, rfl⟩ := Prod.mk.inj hx
        rw [hatyp, decodeOctets_eq_some_iff.mp hdecode]
        rfl
      split at h
      · rename_i hatyp
        obtain ⟨name, short, rfl, rfl⟩ := decodeName_eq_some_iff.mp h
        rw [hatyp]
        rfl
      split at h
      · rename_i hatyp
        obtain ⟨⟨octets, rest'⟩, hdecode, hx⟩ := Option.map_eq_some_iff.mp h
        obtain ⟨rfl, rfl⟩ := Prod.mk.inj hx
        rw [hatyp, decodeOctets_eq_some_iff.mp hdecode]
        rfl
      · cases h
  · rintro rfl
    cases address with
    | ipv4 octets =>
      change (decodeOctets 4 (octets.toList ++ rest)).map _ = _
      rw [decodeOctets_eq_some_iff.mpr rfl]
      rfl
    | domain name short =>
      change decodeName (name.length.toUInt8 :: name ++ rest) = _
      exact decodeName_eq_some_iff.mpr ⟨name, short, rfl, rfl⟩
    | ipv6 octets =>
      change (decodeOctets 16 (octets.toList ++ rest)).map _ = _
      rw [decodeOctets_eq_some_iff.mpr rfl]
      rfl

theorem decodePort_eq_some_iff {l : List UInt8} {port : UInt16} :
    decodePort l = some port ↔ l = networkOrder port := by
  constructor
  · intro h
    match l, h with
    | [high, low], h =>
      obtain rfl := Option.some.inj h
      exact (networkOrder_word high low).symm
  · rintro rfl
    exact congrArg some (word_networkOrder port)

/-- The bytes of a request are what is decoded to it, and nothing else is. -/
theorem decodeRequest_eq_some_iff {l : List UInt8} {r : Request} : decodeRequest l = some r ↔ l = r.bytes := by
  constructor
  · intro h
    match l, h with
    | ver :: command :: rsv :: l, h =>
      rw [decodeRequest] at h
      split at h
      · rename_i hfixed
        obtain ⟨⟨address, rest⟩, haddress, h⟩ := Option.bind_eq_some_iff.mp h
        obtain ⟨port, hport, h⟩ := Option.bind_eq_some_iff.mp h
        obtain rfl := Option.some.inj h
        rw [decodeAddress_eq_some_iff.mp haddress, decodePort_eq_some_iff.mp hport, hfixed.1, hfixed.2]
        simp [Request.bytes]
      · cases h
  · rintro rfl
    obtain ⟨command, address, port⟩ := r
    have haddress := decodeAddress_eq_some_iff.mpr (rfl : address.bytes ++ networkOrder port = _)
    have hport := decodePort_eq_some_iff.mpr (rfl : networkOrder port = _)
    simp [Request.bytes, decodeRequest, haddress, hport]

end Decoding

end Rfc1928
