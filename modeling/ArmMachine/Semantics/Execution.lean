import ArmMachine.Semantics.BlockTransfer
import ArmMachine.Semantics.Branch
import ArmMachine.Semantics.Multiply
import ArmMachine.Semantics.StatusTransfer

/-! What each shape of instruction does once its condition has passed. -/
namespace ArmMachine
namespace Instruction

/-- Leaves an exception to be dispatched at the end of the step. -/
def leavePending (p : Pending) : Action Unit :=
  Board.modifyCore fun c => { c with decode := { c.decode with pending := p } }

/-- Data processing on the registers of a board. -/
def processDataOnBoard (i : Instruction) : Action Unit := do
  let r ← Board.getRegisters
  let (result, r) := i.processData r
  Board.modifyRegisters fun _ => r
  Board.ofExcept result

def branchExchangeOnBoard (i : Instruction) : Action Unit := do
  let r ← Board.getRegisters
  let r ← Board.ofExcept (i.branchExchange r)
  Board.modifyRegisters fun _ => r

def execute (i : Instruction) : Action Unit :=
  match i.shape with
  | .dataImmediate | .dataShiftImmediate | .dataShiftRegister => i.processDataOnBoard
  | .transferImmediate | .transferRegister => i.transfer
  | .halfwordRegister | .halfwordImmediate | .signedByteRegister | .signedByteImmediate
  | .signedHalfwordRegister | .signedHalfwordImmediate => i.transferHalfword
  | .blockTransfer => i.transferBlock
  | .swap => i.swap
  | .branch => Board.modifyRegisters i.branch
  | .branchExchange => i.branchExchangeOnBoard
  | .multiply => Board.modifyRegisters i.multiply
  | .multiplyLong => Board.modifyRegisters i.multiplyLong
  | .readStatus => Board.modifyRegisters i.readStatus
  | .writeStatus => Board.modifyRegisters i.writeStatus
  | .coprocessor => Board.modifyCore i.transferCoprocessor
  | .leadingZeros => Board.modifyRegisters i.countLeadingZeros
  | .softwareInterrupt => leavePending .softwareInterrupt
  | .undefined => leavePending .undefined

end Instruction
end ArmMachine
