import ArmMachine.Board
import ArmMachine.Instruction.Fields

/-! Loads and stores of one register, and swaps. Nothing is written to a register before the last
access of an instruction has succeeded; the base is written back before a loaded value arrives, so
the loaded value wins where both name one register. -/
namespace ArmMachine

def moveBase (base offset : Word) (upwards : Bool) : Word :=
  if upwards then base + offset else base - offset

/-- Where a transfer goes, what becomes of its base, and with which privilege it is made. -/
structure TransferPlan where
  address : Word
  newBase : Option Word
  privileged : Bool
  deriving DecidableEq, Repr

namespace Instruction

/-- Post-indexed transfers always write the base back; with the write-back bit they are made as user
mode would make them. -/
def transferPlan (i : Instruction) (r : RegisterFile) (offset : Word) : TransferPlan :=
  let base := r.read i.rn
  let moved := moveBase base offset i.upwards
  { address := if i.preIndexed then moved else base
    newBase := if !i.preIndexed || i.writesBack then some moved else none
    privileged := r.current.privileged && !(!i.preIndexed && i.writesBack) }

/-- The value a store takes from a register; register 15 stores four bytes further ahead. -/
def storedValue (r : RegisterFile) (id : RegisterId) : Word :=
  if id = .pc then r.read id + 4 else r.read id

def writeBase (i : Instruction) (r : RegisterFile) : Option Word → RegisterFile
  | some base => r.write i.rn base
  | none => r

/-- A word loaded from a misaligned address is rotated so that the addressed byte is the lowest. -/
def rotateLoaded (address value : Word) : Word :=
  value.rotateRight (8 * (address.extractLsb' 0 2).toNat)

def transferOffset (i : Instruction) (r : RegisterFile) : Word :=
  if i.shape = .transferImmediate then i.immediate12
  else (shift (r.read i.rm) i.shiftAmount i.shiftKind .immediate5 (r.current.has .carry)).value

def transferWidth (i : Instruction) : Width := if i.variant then .byte else .word

def loadedValue (width : Width) (address raw : Word) : Word :=
  match width with
  | .word => rotateLoaded address raw
  | .byte | .halfword => raw

/-- A load along a plan: access, base, destination. -/
def loadAlong (i : Instruction) (plan : TransferPlan) (width : Width) (convert : Word → Word) :
    Action Unit := do
  let raw ← Board.read plan.privileged plan.address width
  Board.modifyRegisters fun r => (i.writeBase r plan.newBase).writeResult i.rd (convert raw)

/-- A store along a plan: access, base. -/
def storeAlong (i : Instruction) (plan : TransferPlan) (width : Width) : Action Unit := do
  let r ← Board.getRegisters
  Board.write plan.privileged plan.address (storedValue r i.rd &&& width.valueMask) width
  Board.modifyRegisters fun r => i.writeBase r plan.newBase

def transfer (i : Instruction) : Action Unit := do
  let r ← Board.getRegisters
  let plan := i.transferPlan r (i.transferOffset r)
  let width := i.transferWidth
  if i.loads then i.loadAlong plan width (loadedValue width plan.address)
  else i.storeAlong plan width

def halfwordOffset (i : Instruction) (r : RegisterFile) : Word :=
  match i.shape with
  | .halfwordImmediate | .signedByteImmediate | .signedHalfwordImmediate => i.splitImmediate
  | _ => r.read i.rm

def halfwordSigned (i : Instruction) : Bool :=
  match i.shape with
  | .halfwordImmediate | .halfwordRegister => false
  | _ => true

def halfwordWidth (i : Instruction) : Width :=
  match i.shape with
  | .signedByteImmediate | .signedByteRegister => .byte
  | _ => .halfword

def signExtended (width : Width) (raw : Word) : Word :=
  match width with
  | .byte => (raw.extractLsb' 0 8).signExtend 32
  | .halfword | .word => (raw.extractLsb' 0 16).signExtend 32

/-- Halfword and signed transfers. A signed store does not exist. -/
def transferHalfword (i : Instruction) : Action Unit := do
  if i.halfwordSigned && !i.loads then throw (.signedStore i.word)
  let r ← Board.getRegisters
  let plan := i.transferPlan r (i.halfwordOffset r)
  let width := i.halfwordWidth
  if i.loads then
    i.loadAlong plan width (if i.halfwordSigned then signExtended width else id)
  else i.storeAlong plan width

/-- Reads the old value, stores the operand, and only then writes the destination. -/
def swap (i : Instruction) : Action Unit := do
  let r ← Board.getRegisters
  let address := r.read i.rn
  let privileged := r.current.privileged
  let width := i.transferWidth
  let raw ← Board.read privileged address width
  Board.write privileged address (r.read i.rm &&& width.valueMask) width
  Board.modifyRegisters fun r => r.writeResult i.rd (loadedValue width address raw)

end Instruction
end ArmMachine
