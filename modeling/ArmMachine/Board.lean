import ArmMachine.Core
import ArmMachine.Device.Table

/-! A core on its bus. Virtual addresses are translated first; a physical address then belongs to
the instruction counter, to memory, or to the first device that claims it, in this order. -/
namespace ArmMachine

structure Board where
  core : Core
  devices : DeviceTable

/-- A computation on a board that may fail. Whatever it changed before the failure stays changed. -/
abbrev Action := EStateM Failure Board

namespace Board

/-- A descriptor is read from memory only, never from a device. -/
def readDescriptor (ram : Ram) (address : Word) : Except Failure Word :=
  match ram.read? address .word with
  | some value => .ok value
  | none => .error (.unmapped address)

def modifyCore (f : Core → Core) : Action Unit :=
  modify fun b => { b with core := f b.core }

def modifyRegisters (f : RegisterFile → RegisterFile) : Action Unit :=
  modify fun b => { b with core := { b.core with registers := f b.core.registers } }

def getRegisters : Action RegisterFile := do
  return (← get).core.registers

/-- The board after an address was looked up, and the answer. -/
def translateStep (b : Board) (v : Word) (access : Access) : Except Failure Word × Board :=
  let t := b.core.mmu.translate (readDescriptor b.core.ram) v access
  (t.result, { b with core := { b.core with mmu := t.mmu } })

def ofExcept {α : Type} : Except Failure α → Action α
  | .ok a => return a
  | .error cause => throw cause

def translate (v : Word) (access : Access) : Action Word := do
  let result ← modifyGet fun b => b.translateStep v access
  ofExcept result

def physicalReadStep (b : Board) (address : Word) (width : Width) : Except Failure Word × Board :=
  if address = AddressMap.instructionCounter then
    (.ok (b.core.instructionCount &&& width.valueMask), b)
  else
    match b.core.ram.read? address width with
    | some value => (.ok value, b)
    | none =>
      match b.devices.read address width with
      | (some value, devices) => (.ok value, { b with devices })
      | (none, _) => (.error (.unmapped address), b)

/-- One write to physical memory. The instruction counter ignores it. -/
def physicalWriteStep (b : Board) (address value : Word) (width : Width) :
    Except Failure Unit × Board :=
  if address = AddressMap.instructionCounter then (.ok (), b)
  else if b.core.ram.covers address width then
    (.ok (), { b with core := { b.core with ram := b.core.ram.store address value width } })
  else if b.devices.claims address then
    (.ok (), { b with devices := b.devices.write address value width })
  else (.error (.unmapped address), b)

def physicalRead (address : Word) (width : Width) : Action Word := do
  let result ← modifyGet fun b => b.physicalReadStep address width
  ofExcept result

def physicalWrite (address value : Word) (width : Width) : Action Unit := do
  let result ← modifyGet fun b => b.physicalWriteStep address value width
  ofExcept result

def read (privileged : Bool) (v : Word) (width : Width) : Action Word := do
  let address ← translate v (.data false privileged width)
  physicalRead address width

def write (privileged : Bool) (v value : Word) (width : Width) : Action Unit := do
  let address ← translate v (.data true privileged width)
  physicalWrite address value width

/-- Fetches with the privilege of the current mode. -/
def fetch (v : Word) : Action Word := do
  let registers ← getRegisters
  let address ← translate v (.fetch registers.current.privileged)
  physicalRead address .word

end Board
end ArmMachine
