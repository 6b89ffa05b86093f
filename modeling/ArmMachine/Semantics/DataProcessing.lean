import ArmMachine.Fault
import ArmMachine.Instruction.Fields
import ArmMachine.Semantics.Flags

/-! Data processing. The second operand comes through the shifter, the opcode names the operation,
and a comparison keeps only the flags. Writing register 15 with flags returns from an exception: the
saved status word is restored instead of the computed flags. -/
namespace ArmMachine

/-- Restores the saved status word of the current mode, where it has one. -/
def RegisterFile.restoreStatus (r : RegisterFile) : Except Failure RegisterFile :=
  match r.savedStatus with
  | none => .ok r
  | some s => if s.has .thumb then .error (.thumb r.pc) else .ok (r.setCurrent s)

def RegisterFile.updateFlags (r : RegisterFile) (u : FlagUpdate) : RegisterFile :=
  r.setCurrent (u.apply r.current)

namespace Instruction

/-- A register operand of a data operation. Register 15 reads four bytes further ahead when a
register holds the shift amount. -/
def operand (i : Instruction) (r : RegisterFile) (id : RegisterId) : Word :=
  if id = .pc ∧ i.shape = .dataShiftRegister then r.read id + 4 else r.read id

def secondOperand (i : Instruction) (r : RegisterFile) : Shifted :=
  let carry := r.current.has .carry
  match i.shape with
  | .dataImmediate => shift i.immediate8 i.rotation .rotateRight .rotatedImmediate carry
  | .dataShiftRegister =>
    shift (i.operand r i.rm) (i.operand r i.rs) i.shiftKind .register8 carry
  | _ => shift (r.read i.rm) i.shiftAmount i.shiftKind .immediate5 carry

def firstOperand (i : Instruction) (r : RegisterFile) : Word :=
  if i.opcode.ignoresFirst then 0 else i.operand r i.rn

end Instruction

/-- The result of a data operation and what it does to the flags. -/
structure DataResult where
  value : Word
  flags : FlagUpdate
  deriving DecidableEq, Repr

namespace DataResult

def ofLogical (value : Word) (carry : Bool) : DataResult := ⟨value, .logical value carry⟩

def ofSum (sum : Sum) : DataResult := ⟨sum.value, .arithmetic sum⟩

end DataResult

/-- The operation an opcode names, with `carry` the flag and `shifted` the shifter output. -/
def Opcode.compute (op : Opcode) (first : Word) (shifted : Shifted) (carry : Bool) : DataResult :=
  let second := shifted.value
  match op with
  | and | tst => .ofLogical (first &&& second) shifted.carry
  | eor | teq => .ofLogical (first ^^^ second) shifted.carry
  | orr => .ofLogical (first ||| second) shifted.carry
  | mov => .ofLogical second shifted.carry
  | bic => .ofLogical (first &&& ~~~second) shifted.carry
  | mvn => .ofLogical (~~~second) shifted.carry
  | sub | cmp => .ofSum (subWithCarry first second true)
  | rsb => .ofSum (subWithCarry second first true)
  | add | cmn => .ofSum (addWithCarry first second false)
  | adc => .ofSum (addWithCarry first second carry)
  | sbc => .ofSum (subWithCarry first second carry)
  | rsc => .ofSum (subWithCarry second first carry)

namespace Instruction

def dataResult (i : Instruction) (r : RegisterFile) : DataResult :=
  i.opcode.compute (i.firstOperand r) (i.secondOperand r) (r.current.has .carry)

/-- The registers after a data operation; a failed restore comes after the write. -/
def processData (i : Instruction) (r : RegisterFile) : Except Failure Unit × RegisterFile :=
  let result := i.dataResult r
  if i.opcode.isCompare then (.ok (), r.updateFlags result.flags)
  else
    let r := r.writeResult i.rd result.value
    if !i.setsFlags then (.ok (), r)
    else if i.rd = .pc then
      match r.restoreStatus with
      | .ok r => (.ok (), r)
      | .error cause => (.error cause, r)
    else (.ok (), r.updateFlags result.flags)

end Instruction
end ArmMachine
