import Mathlib.Data.Finset.Basic
import ProxyBridge.Windows.Types

/-! The per-port decision bitmaps of `pb_internal.h`: two bits for each source port, packed into
words of 32. -/
namespace ProxyBridge.Windows

abbrev Words := Fin 2048 → UInt32

structure PortBitmaps where
  decided : Words
  direct : Words

def wordIndex (p : UInt16) : Fin 2048 := ⟨p.toNat >>> 5, by
  have := p.toNat_lt
  rw [Nat.shiftRight_eq_div_pow]
  omega⟩

/-- `p & 31`, the position of a port in its word. -/
def bitIndex (p : UInt16) : UInt32 := p.toUInt32 &&& 31

def bitMask (p : UInt16) : UInt32 := 1 <<< bitIndex p

def testPort (w : Words) (p : UInt16) : Bool := ((w (wordIndex p) >>> bitIndex p) &&& 1) != 0

/-- `InterlockedOr` of one word. -/
def setPort (w : Words) (p : UInt16) : Words :=
  Function.update w (wordIndex p) (w (wordIndex p) ||| bitMask p)

/-- `InterlockedAnd` of one word. -/
def unsetPort (w : Words) (p : UInt16) : Words :=
  Function.update w (wordIndex p) (w (wordIndex p) &&& ~~~bitMask p)

namespace PortBitmaps

def zeroed : PortBitmaps := ⟨fun _ => 0, fun _ => 0⟩

def portIsDecided (b : PortBitmaps) (p : UInt16) : Bool := testPort b.decided p

def portIsDirect (b : PortBitmaps) (p : UInt16) : Bool := testPort b.direct p

def portSetDirect (b : PortBitmaps) (p : UInt16) : PortBitmaps := ⟨setPort b.decided p, setPort b.direct p⟩

def portSetDecided (b : PortBitmaps) (p : UInt16) : PortBitmaps := { b with decided := setPort b.decided p }

def portClear (b : PortBitmaps) (p : UInt16) : PortBitmaps := ⟨unsetPort b.decided p, unsetPort b.direct p⟩

end PortBitmaps

theorem bitIndex_toNat (p : UInt16) : (bitIndex p).toNat = p.toNat % 32 := by
  rw [bitIndex, UInt32.toNat_and]
  exact Nat.and_two_pow_sub_one_eq_mod p.toNat 5

theorem testPort_eq (w : Words) (p : UInt16) :
    testPort w p = (w (wordIndex p)).toBitVec.getLsbD (p.toNat % 32) := by
  have hk : (bitIndex p).toNat < 32 := by rw [bitIndex_toNat]; omega
  rw [testPort, ← bitIndex_toNat, Bool.eq_iff_iff, bne_iff_ne, ne_eq, ← UInt32.toBitVec_inj]
  simp only [UInt32.toBitVec_and, UInt32.toBitVec_shiftRight, BitVec.ofNat_eq_ofNat, BitVec.ushiftRight_eq',
    BitVec.toNat_umod, UInt32.toNat_toBitVec, BitVec.toNat_ofNat, Nat.reducePow, Nat.reduceMod, Nat.mod_eq_of_lt hk,
    UInt32.toBitVec_ofNat, BitVec.and_one_eq_setWidth_ofBool_getLsbD, Nat.zero_lt_succ, BitVec.getLsbD_eq_getElem,
    BitVec.getElem_ushiftRight, Nat.add_zero]
  grind

private theorem bitMask_getLsbD (p : UInt16) {j : Nat} (hj : j < 32) :
    (bitMask p).toBitVec.getLsbD j = decide (j = p.toNat % 32) := by
  have hk : (bitIndex p).toNat < 32 := by rw [bitIndex_toNat]; omega
  rw [← bitIndex_toNat, bitMask]
  simp only [UInt32.toBitVec_shiftLeft, UInt32.toBitVec_ofNat, BitVec.ofNat_eq_ofNat, BitVec.shiftLeft_eq',
    BitVec.toNat_umod, UInt32.toNat_toBitVec, BitVec.toNat_ofNat, Nat.reducePow, Nat.reduceMod, Nat.mod_eq_of_lt hk,
    BitVec.getLsbD_shiftLeft, BitVec.getLsbD_one, Nat.zero_lt_succ, decide_true, Bool.true_and]
  grind

/-- Two ports in one word occupy different bits. -/
private theorem bit_eq_iff {p q : UInt16} (hw : wordIndex p = wordIndex q) :
    p.toNat % 32 = q.toNat % 32 ↔ p = q := by
  constructor
  · intro hb
    have hd : p.toNat >>> 5 = q.toNat >>> 5 := congrArg Fin.val hw
    rw [Nat.shiftRight_eq_div_pow, Nat.shiftRight_eq_div_pow] at hd
    apply UInt16.toNat_inj.mp
    omega
  · intro h
    rw [h]

@[simp] theorem testPort_setPort (w : Words) (p q : UInt16) :
    testPort (setPort w p) q = (decide (q = p) || testPort w q) := by
  rw [testPort_eq, testPort_eq, setPort]
  by_cases hw : wordIndex q = wordIndex p
  · rw [hw, Function.update_self, UInt32.toBitVec_or, BitVec.getLsbD_or, bitMask_getLsbD p (by omega), Bool.or_comm]
    rw [decide_eq_decide.mpr (bit_eq_iff hw)]
  · rw [Function.update_of_ne hw]
    have hne : q ≠ p := fun he => hw (congrArg wordIndex he)
    simp [hne]

@[simp] theorem testPort_unsetPort (w : Words) (p q : UInt16) :
    testPort (unsetPort w p) q = (!decide (q = p) && testPort w q) := by
  rw [testPort_eq, testPort_eq, unsetPort]
  by_cases hw : wordIndex q = wordIndex p
  · have hlt : q.toNat % 32 < 32 := by omega
    rw [hw, Function.update_self, UInt32.toBitVec_and, UInt32.toBitVec_not, BitVec.getLsbD_and,
      BitVec.getLsbD_not, bitMask_getLsbD p hlt, Bool.and_comm, decide_eq_true hlt, Bool.true_and]
    rw [decide_eq_decide.mpr (bit_eq_iff hw)]
  · rw [Function.update_of_ne hw]
    have hne : q ≠ p := fun he => hw (congrArg wordIndex he)
    simp [hne]

namespace PortBitmaps

@[simp] theorem portIsDecided_portSetDirect (b : PortBitmaps) (p q : UInt16) :
    (b.portSetDirect p).portIsDecided q = (decide (q = p) || b.portIsDecided q) := testPort_setPort ..

@[simp] theorem portIsDirect_portSetDirect (b : PortBitmaps) (p q : UInt16) :
    (b.portSetDirect p).portIsDirect q = (decide (q = p) || b.portIsDirect q) := testPort_setPort ..

@[simp] theorem portIsDecided_portSetDecided (b : PortBitmaps) (p q : UInt16) :
    (b.portSetDecided p).portIsDecided q = (decide (q = p) || b.portIsDecided q) := testPort_setPort ..

@[simp] theorem portIsDecided_portClear (b : PortBitmaps) (p q : UInt16) :
    (b.portClear p).portIsDecided q = (!decide (q = p) && b.portIsDecided q) := testPort_unsetPort ..

@[simp] theorem portIsDirect_portClear (b : PortBitmaps) (p q : UInt16) :
    (b.portClear p).portIsDirect q = (!decide (q = p) && b.portIsDirect q) := testPort_unsetPort ..

end PortBitmaps
end ProxyBridge.Windows
