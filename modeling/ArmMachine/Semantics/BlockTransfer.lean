import ArmMachine.Semantics.DataProcessing
import ArmMachine.Semantics.Transfer

/-! Block transfers. The listed registers use consecutive words, the lowest register the lowest
word. Loads write registers only after every read has succeeded. -/
namespace ArmMachine
namespace Instruction

/-- How many bytes the listed registers take. -/
def blockSpan (i : Instruction) : Word := BitVec.ofNat 32 (4 * i.registerList.length)

/-- The lowest address of the block. -/
def blockStart (i : Instruction) (base : Word) : Word :=
  match i.preIndexed, i.upwards with
  | false, true => base
  | true, true => base + 4
  | false, false => base - i.blockSpan + 4
  | true, false => base - i.blockSpan

/-- The base once the block is transferred. -/
def blockEnd (i : Instruction) (base : Word) : Word := moveBase base i.blockSpan i.upwards

/-- The user bank is meant, except in a load of register 15, which returns from an exception. -/
def blockUsesUserBank (i : Instruction) : Bool := i.variant && !(i.loads && i.lists .pc)

/-- Reads one word per listed register, upwards from an address. -/
def readBlock (privileged : Bool) : Word → List RegisterId → Action (List (RegisterId × Word))
  | _, [] => return []
  | address, id :: rest => do
    let value ← Board.read privileged address .word
    let values ← readBlock privileged (address + 4) rest
    return (id, value) :: values

/-- The value a block store takes from a register. -/
def blockValue (userBank : Bool) (r : RegisterFile) (id : RegisterId) : Word :=
  if id = .pc then storedValue r id
  else if userBank then r.readUser id
  else r.read id

/-- Writes one word per listed register, upwards from an address. -/
def writeBlock (privileged : Bool) : Word → List Word → Action Unit
  | _, [] => return ()
  | address, value :: rest => do
    Board.write privileged address value .word
    writeBlock privileged (address + 4) rest

/-- Gives the listed registers their loaded values. -/
def commitBlock (userBank : Bool) (r : RegisterFile) (values : List (RegisterId × Word)) :
    RegisterFile :=
  values.foldl
    (fun r (id, value) => if userBank then r.writeUser id value else r.writeResult id value) r

def writeBlockBase (i : Instruction) (r : RegisterFile) (base : Word) : RegisterFile :=
  if i.writesBack then r.write i.rn (i.blockEnd base) else r

def loadBlock (i : Instruction) : Action Unit := do
  let r ← Board.getRegisters
  let base := r.read i.rn
  let values ← readBlock r.current.privileged (i.blockStart base) i.registerList
  Board.modifyRegisters fun r => commitBlock i.blockUsesUserBank (i.writeBlockBase r base) values
  if i.variant && i.lists .pc then
    let r ← Board.getRegisters
    let r ← Board.ofExcept r.restoreStatus
    Board.modifyRegisters fun _ => r

def storeBlock (i : Instruction) : Action Unit := do
  let r ← Board.getRegisters
  let base := r.read i.rn
  let values := i.registerList.map (blockValue i.blockUsesUserBank r)
  writeBlock r.current.privileged (i.blockStart base) values
  Board.modifyRegisters fun r => i.writeBlockBase r base

def transferBlock (i : Instruction) : Action Unit := if i.loads then i.loadBlock else i.storeBlock

end Instruction
end ArmMachine
