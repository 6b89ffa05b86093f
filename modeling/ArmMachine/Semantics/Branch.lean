import ArmMachine.Fault
import ArmMachine.Instruction.Fields

/-! Branches. Offsets count from register 15, and a linking branch keeps the address of the next
instruction. Targets in the short instruction set are refused before anything is written. -/
namespace ArmMachine
namespace Instruction

def branchTarget (i : Instruction) (r : RegisterFile) : Word := r.read .pc + i.branchOffset

def branch (i : Instruction) (r : RegisterFile) : RegisterFile :=
  (if i.preIndexed then r.write .link r.pc else r).setPc (i.branchTarget r)

/-- Whether a branch to a register keeps the return address. -/
def exchangeLinks (i : Instruction) : Bool := i.word.extractLsb' 4 4 = 0b0011

def branchExchange (i : Instruction) (r : RegisterFile) : Except Failure RegisterFile :=
  let target := r.read i.rm
  if target &&& 3 = 0 then .ok ((if i.exchangeLinks then r.write .link r.pc else r).setPc target)
  else .error (.thumb target)

end Instruction
end ArmMachine
