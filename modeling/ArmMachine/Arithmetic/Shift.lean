import ArmMachine.Word

/-! The barrel shifter. An amount comes from a five-bit immediate, from the low byte of a register,
or from the rotation of an eight-bit immediate, and each source has its own reading of zero and of
amounts past the word. -/
namespace ArmMachine

inductive ShiftKind where
  | logicalLeft | logicalRight | arithmeticRight | rotateRight
  deriving DecidableEq, Repr

namespace ShiftKind

def ofCode (c : BitVec 2) : ShiftKind :=
  if c = 0 then logicalLeft
  else if c = 1 then logicalRight
  else if c = 2 then arithmeticRight
  else rotateRight

def name : ShiftKind → String
  | logicalLeft => "Lsl" | logicalRight => "Lsr" | arithmeticRight => "Asr" | rotateRight => "Ror"

end ShiftKind

inductive AmountSource where
  | immediate5 | register8 | rotatedImmediate
  deriving DecidableEq, Repr

/-- A shifted operand and the carry that leaves the shifter. -/
structure Shifted where
  value : Word
  carry : Bool
  deriving DecidableEq, Repr

namespace Shifted

def signFill (operand : Word) : Word := if operand.msb then BitVec.allOnes 32 else 0

/-- The five-bit immediate form. Amount zero stands for 32 in the right shifts, and for a rotation
by one place through the carry in the rotate. -/
def byImmediate (operand : Word) (amount : Nat) (kind : ShiftKind) (carry : Bool) : Shifted :=
  match kind with
  | .logicalLeft =>
    if amount = 0 then ⟨operand, carry⟩ else ⟨operand <<< amount, operand.getLsbD (32 - amount)⟩
  | .logicalRight =>
    if amount = 0 then ⟨0, operand.msb⟩ else ⟨operand >>> amount, operand.getLsbD (amount - 1)⟩
  | .arithmeticRight =>
    if amount = 0 then ⟨signFill operand, operand.msb⟩
    else ⟨operand.sshiftRight amount, operand.getLsbD (amount - 1)⟩
  | .rotateRight =>
    if amount = 0 then
      ⟨((BitVec.ofBool carry).zeroExtend 32 <<< 31) ||| (operand >>> 1), operand.getLsbD 0⟩
    else ⟨operand.rotateRight amount, operand.getLsbD (amount - 1)⟩

/-- The register form. Amount zero changes nothing, and amounts of 32 and more shift everything out.
-/
def byRegister (operand : Word) (amount : Nat) (kind : ShiftKind) (carry : Bool) : Shifted :=
  if amount = 0 then ⟨operand, carry⟩
  else
    match kind with
    | .logicalLeft =>
      if amount < 32 then ⟨operand <<< amount, operand.getLsbD (32 - amount)⟩
      else if amount = 32 then ⟨0, operand.getLsbD 0⟩
      else ⟨0, false⟩
    | .logicalRight =>
      if amount < 32 then ⟨operand >>> amount, operand.getLsbD (amount - 1)⟩
      else if amount = 32 then ⟨0, operand.msb⟩
      else ⟨0, false⟩
    | .arithmeticRight =>
      if amount < 32 then ⟨operand.sshiftRight amount, operand.getLsbD (amount - 1)⟩
      else ⟨signFill operand, operand.msb⟩
    | .rotateRight =>
      if amount % 32 = 0 then ⟨operand, operand.msb⟩
      else ⟨operand.rotateRight (amount % 32), operand.getLsbD (amount % 32 - 1)⟩

/-- The rotated immediate form; a rotation by zero keeps the carry. -/
def byRotation (operand : Word) (amount : Nat) (carry : Bool) : Shifted :=
  if amount = 0 then ⟨operand, carry⟩
  else ⟨operand.rotateRight amount, (operand.rotateRight amount).msb⟩

end Shifted

/-- Amounts are taken modulo 32 from an immediate and modulo 256 from a register. -/
def shift (operand amount : Word) (kind : ShiftKind) (source : AmountSource) (carry : Bool) :
    Shifted :=
  match source with
  | .immediate5 => Shifted.byImmediate operand (amount.toNat % 32) kind carry
  | .register8 => Shifted.byRegister operand (amount.toNat % 256) kind carry
  | .rotatedImmediate => Shifted.byRotation operand (amount.toNat % 32) carry

end ArmMachine
