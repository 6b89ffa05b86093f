import ArmMachine.Word

/-! Data-processing opcodes, bits 24:21 of an instruction. -/
namespace ArmMachine

inductive Opcode where
  | and | eor | sub | rsb | add | adc | sbc | rsc | tst | teq | cmp | cmn | orr | mov | bic | mvn
  deriving DecidableEq, Repr

namespace Opcode

def all : List Opcode :=
  [and, eor, sub, rsb, add, adc, sbc, rsc, tst, teq, cmp, cmn, orr, mov, bic, mvn]

def ofCode (c : BitVec 4) : Opcode :=
  match c.toNat with
  | 0 => and | 1 => eor | 2 => sub | 3 => rsb | 4 => add | 5 => adc | 6 => sbc | 7 => rsc
  | 8 => tst | 9 => teq | 10 => cmp | 11 => cmn | 12 => orr | 13 => mov | 14 => bic | _ => mvn

theorem ofCode_order (c : BitVec 4) : all[c.toNat]? = some (ofCode c) := by
  revert c
  decide

/-- Comparisons write flags only. -/
def isCompare : Opcode → Bool
  | tst | teq | cmp | cmn => true
  | _ => false

/-- Moves take no first operand. -/
def ignoresFirst : Opcode → Bool
  | mov | mvn => true
  | _ => false

/-- Logical opcodes take the carry from the shifter and leave the overflow flag alone. -/
def isLogical : Opcode → Bool
  | and | eor | tst | teq | orr | mov | bic | mvn => true
  | _ => false

def name : Opcode → String
  | and => "And" | eor => "Eor" | sub => "Sub" | rsb => "Rsb" | add => "Add" | adc => "Adc"
  | sbc => "Sbc" | rsc => "Rsc" | tst => "Tst" | teq => "Teq" | cmp => "Cmp" | cmn => "Cmn"
  | orr => "Orr" | mov => "Mov" | bic => "Bic" | mvn => "Mvn"

end Opcode
end ArmMachine
