import ArmMachine.Word

/-! The shape of an instruction: which encoding its word belongs to. Bits 27:25 select the class,
and within a class the tests follow the encoding table from the most particular row to the most
general. -/
namespace ArmMachine

inductive Shape where
  | dataImmediate | dataShiftImmediate | dataShiftRegister
  | transferImmediate | transferRegister
  | halfwordRegister | halfwordImmediate
  | signedByteRegister | signedByteImmediate
  | signedHalfwordRegister | signedHalfwordImmediate
  | blockTransfer | branch | branchExchange
  | multiply | multiplyLong | swap
  | readStatus | writeStatus | coprocessor
  | leadingZeros | softwareInterrupt | undefined
  deriving DecidableEq, Repr

namespace Shape

/-- Class 000 with 1001 in bits 7:4: multiplies and swaps. -/
def ofMultiplyWord (w : Word) : Shape :=
  if w.extractLsb' 22 3 = 0b000 then multiply
  else if w.extractLsb' 23 2 = 0b01 then multiplyLong
  else if w.extractLsb' 23 2 = 0b10 ∧ w.extractLsb' 20 2 = 0b00 then swap
  else undefined

/-- Class 000 with bits 7 and 4 set and bits 6:5 not zero: halfword and signed transfers. -/
def ofHalfwordWord (w : Word) : Shape :=
  let immediate := w.getLsbD 22
  if w.extractLsb' 5 2 = 0b01 then
    if immediate then halfwordImmediate else halfwordRegister
  else if w.extractLsb' 5 2 = 0b10 then
    if immediate then signedByteImmediate else signedByteRegister
  else
    if immediate then signedHalfwordImmediate else signedHalfwordRegister

/-- Class 000 with a comparison opcode that leaves the flags alone: status transfers, register
branches and the count of leading zeros. -/
def ofMiscellaneousWord (w : Word) : Shape :=
  let low := w.extractLsb' 4 4
  let op := w.extractLsb' 21 2
  if low = 0b0000 then
    if w.getLsbD 21 then writeStatus else readStatus
  else if (low = 0b0001 ∨ low = 0b0011) ∧ op = 0b01 then branchExchange
  else if low = 0b0001 ∧ op = 0b11 then leadingZeros
  else undefined

/-- A comparison opcode with the flag bit clear, which names no data operation. -/
def quietCompare (w : Word) : Bool := w.extractLsb' 23 2 = 0b10 ∧ w.getLsbD 20 = false

def ofRegisterWord (w : Word) : Shape :=
  if w.extractLsb' 4 4 = 0b1001 then ofMultiplyWord w
  else if w.getLsbD 7 ∧ w.getLsbD 4 then ofHalfwordWord w
  else if quietCompare w then ofMiscellaneousWord w
  else if w.getLsbD 4 then dataShiftRegister
  else dataShiftImmediate

def ofImmediateWord (w : Word) : Shape :=
  if quietCompare w then
    if w.getLsbD 21 then writeStatus else undefined
  else dataImmediate

def ofWord (w : Word) : Shape :=
  match (w.extractLsb' 25 3).toFin with
  | 0 => ofRegisterWord w
  | 1 => ofImmediateWord w
  | 2 => transferImmediate
  | 3 => if w.getLsbD 4 then undefined else transferRegister
  | 4 => blockTransfer
  | 5 => branch
  | 6 => undefined
  | 7 =>
    if w.getLsbD 24 then softwareInterrupt
    else if w.getLsbD 4 then coprocessor
    else undefined

def isHalfwordTransfer : Shape → Bool
  | halfwordRegister | halfwordImmediate | signedByteRegister | signedByteImmediate
  | signedHalfwordRegister | signedHalfwordImmediate => true
  | _ => false

/-- Every shape with its approximate cost in cycles. The costs serve relative profiling only. -/
def costs : List (Shape × Nat) :=
  [(dataImmediate, 1), (dataShiftImmediate, 1), (dataShiftRegister, 2),
   (transferImmediate, 3), (transferRegister, 3),
   (halfwordRegister, 3), (halfwordImmediate, 3),
   (signedByteRegister, 3), (signedByteImmediate, 3),
   (signedHalfwordRegister, 3), (signedHalfwordImmediate, 3),
   (blockTransfer, 4), (branch, 3), (branchExchange, 3),
   (multiply, 3), (multiplyLong, 4), (swap, 4),
   (readStatus, 1), (writeStatus, 1), (coprocessor, 2),
   (leadingZeros, 1), (softwareInterrupt, 3), (undefined, 3)]

def cost (s : Shape) : Nat := (costs.lookup s).getD 1

theorem mem_costs (s : Shape) : (s, s.cost) ∈ costs := by cases s <;> decide

def name : Shape → String
  | dataImmediate => "DataProcImm"
  | dataShiftImmediate => "DataProcRegShiftImm"
  | dataShiftRegister => "DataProcRegShiftReg"
  | transferImmediate => "LoadStoreImm"
  | transferRegister => "LoadStoreReg"
  | halfwordRegister => "HalfwordReg"
  | halfwordImmediate => "HalfwordImm"
  | signedByteRegister => "SignedByteReg"
  | signedByteImmediate => "SignedByteImm"
  | signedHalfwordRegister => "SignedHalfReg"
  | signedHalfwordImmediate => "SignedHalfImm"
  | blockTransfer => "BlockTransfer"
  | branch => "Branch"
  | branchExchange => "BranchExchange"
  | multiply => "Multiply"
  | multiplyLong => "MultiplyLong"
  | swap => "Swap"
  | readStatus => "Mrs"
  | writeStatus => "Msr"
  | coprocessor => "CoprocessorTransfer"
  | leadingZeros => "Clz"
  | softwareInterrupt => "SoftwareInterrupt"
  | undefined => "Undefined"

end Shape
end ArmMachine
