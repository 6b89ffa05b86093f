import ArmMachine.Word

/-! Addition with carry. The low 31 bits are added first and the two sign bits afterwards, so the
carry into the sign and the carry out of it are both at hand, and no partial sum leaves a word. -/
namespace ArmMachine

/-- A sum with its carry out of bit 31 and its signed overflow. -/
structure Sum where
  value : Word
  carry : Bool
  overflow : Bool
  deriving DecidableEq, Repr

namespace Sum

/-- The sum below the sign bit; its bit 31 is the carry into the sign. -/
def low (a b : Word) (carry : Bool) : Word :=
  (a &&& 0x7FFFFFFF#32) + (b &&& 0x7FFFFFFF#32) + (BitVec.ofBool carry).zeroExtend 32

/-- The sum of the sign bits and the carry into them; its bit 1 is the carry out. -/
def high (a b : Word) (carry : Bool) : Word := (a >>> 31) + (b >>> 31) + (low a b carry >>> 31)

end Sum

def addWithCarry (a b : Word) (carry : Bool) : Sum :=
  let low := Sum.low a b carry
  let high := Sum.high a b carry
  { value := (high <<< 31) ||| (low &&& 0x7FFFFFFF#32)
    carry := high.getLsbD 1
    overflow := low.getLsbD 31 != high.getLsbD 1 }

/-- Subtraction adds the complement; its carry says that nothing was borrowed. -/
def subWithCarry (a b : Word) (carry : Bool) : Sum := addWithCarry a (~~~b) carry

theorem toNat_low (a b : Word) (carry : Bool) :
    (Sum.low a b carry).toNat = a.toNat % 0x80000000 + b.toNat % 0x80000000 + carry.toNat := by
  have mask (n : Nat) : n &&& (0x7FFFFFFF#32).toNat = n % 0x80000000 :=
    Nat.and_two_pow_sub_one_eq_mod n 31
  have bound : carry.toNat ≤ 1 := Bool.toNat_le carry
  simp only [Sum.low, BitVec.toNat_add, BitVec.toNat_and, BitVec.truncate_eq_setWidth,
    BitVec.toNat_setWidth, BitVec.toNat_ofBool]
  rw [mask, mask]
  omega

end ArmMachine
