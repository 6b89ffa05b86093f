import ArmMachine.Fault
import ArmMachine.Ram

/-! What is asked of the memory management unit, and the answer that permission bits give. -/
namespace ArmMachine

/-- Fetches and data accesses have caches of their own. -/
inductive Side where
  | instruction | data
  deriving DecidableEq, Repr

structure Access where
  side : Side
  write : Bool
  privileged : Bool
  width : Width
  deriving DecidableEq, Repr

namespace Access

def fetch (privileged : Bool) : Access := ⟨.instruction, false, privileged, .word⟩

def data (write privileged : Bool) (width : Width) : Access := ⟨.data, write, privileged, width⟩

end Access

namespace Control

def enableMask : Word := 1

def translates (control : Word) : Bool := control.getLsbD 0

def checksAlignment (control : Word) : Bool := control.getLsbD 1

def systemProtection (control : Word) : Bool := control.getLsbD 8

def romProtection (control : Word) : Bool := control.getLsbD 9

def highVectors (control : Word) : Bool := control.getLsbD 13

end Control

/-- Whether permission bits allow an access. Permission zero reads the protection bits: reads are
allowed to all while system protection is off, and to privileged code while it alone is on. -/
def permits (permission : Byte) (control : Word) (privileged write : Bool) : Except Failure Bool :=
  match (permission.extractLsb' 0 2).toFin with
  | 0 =>
    if Control.systemProtection control then
      if Control.romProtection control then .error (.permissionConfiguration control)
      else .ok (privileged && !write)
    else .ok (!write)
  | 1 => .ok privileged
  | 2 => .ok (privileged || !write)
  | 3 => .ok true

end ArmMachine
