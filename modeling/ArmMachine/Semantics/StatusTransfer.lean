import ArmMachine.Core
import ArmMachine.Instruction.Fields

/-! Transfers between registers and status words, transfers with the coprocessor, and the count of
leading zeros. -/
namespace ArmMachine
namespace Instruction

/-- Reads the current status word, or the saved one where the mode has it. -/
def readStatus (i : Instruction) (r : RegisterFile) : RegisterFile :=
  let s := if i.variant then r.savedStatus.getD r.current else r.current
  r.write i.rd s.raw

/-- The bytes that the four mask bits select, without the bit of the short instruction set, which is
never written. -/
def statusMask (i : Instruction) : Word :=
  let lane (n : Nat) : Word := if i.fieldMask.getLsbD n then 0xFF#32 <<< (8 * n) else 0
  (lane 0 ||| lane 1 ||| lane 2 ||| lane 3) &&& ~~~StatusBit.thumb.mask

/-- The value written to a status word: a rotated immediate or a register. -/
def statusValue (i : Instruction) (r : RegisterFile) : Word :=
  if i.word.getLsbD 25 then
    (shift i.immediate8 i.rotation .rotateRight .rotatedImmediate false).value
  else r.read i.rm

/-- The bits of `mask` from `value`, the others kept. -/
def mergeStatus (s : StatusWord) (mask value : Word) : StatusWord :=
  ⟨(s.raw &&& ~~~mask) ||| (value &&& mask)⟩

/-- User mode writes the flag byte only, and a mode without a saved status word ignores a write to
it. -/
def writeStatus (i : Instruction) (r : RegisterFile) : RegisterFile :=
  let value := i.statusValue r
  if i.variant then
    match r.savedStatus with
    | some s => r.setSavedStatus (mergeStatus s i.statusMask value)
    | none => r
  else
    let mask := if r.current.privileged then i.statusMask else i.statusMask &&& 0xFF000000
    r.setCurrent (mergeStatus r.current mask value)

/-- Only coprocessor 15 exists, and only privileged modes reach it. -/
def reachesCoprocessor (i : Instruction) (c : Core) : Bool :=
  i.coprocessorNumber = 15 && c.registers.current.privileged

/-- A read into register 15 sets the condition flags and nothing else. -/
def readCoprocessor (i : Instruction) (c : Core) : Core :=
  let value := c.mmu.readRegister i.coprocessorRegister.toNat i.coprocessorOpcode2.toNat
  let r := c.registers
  { c with
    registers :=
      if i.rd = .pc then r.setCurrent (mergeStatus r.current StatusWord.flagMask value)
      else r.write i.rd value }

def writeCoprocessor (i : Instruction) (c : Core) : Core :=
  { c with
    mmu := c.mmu.writeRegister i.coprocessorRegister.toNat i.coprocessorOperand.toNat
      i.coprocessorOpcode2.toNat (c.registers.read i.rd) }

def transferCoprocessor (i : Instruction) (c : Core) : Core :=
  if i.reachesCoprocessor c then
    if i.loads then i.readCoprocessor c else i.writeCoprocessor c
  else { c with decode := { c.decode with pending := .undefined } }

end Instruction

def leadingZeros (w : Word) : Nat := 32 - (if w = 0 then 0 else w.toNat.log2 + 1)

def Instruction.countLeadingZeros (i : Instruction) (r : RegisterFile) : RegisterFile :=
  r.writeResult i.rd (BitVec.ofNat 32 (leadingZeros (r.read i.rm)))

end ArmMachine
