import ArmMachine.Word

/-! The interrupt controller latches the lines that devices raise and asserts its output while a
latched line is enabled. Writing ones to the latch clears them. -/
namespace ArmMachine

structure InterruptController where
  mask : Word
  pending : Word
  deriving DecidableEq, Repr

namespace InterruptController

def initial : InterruptController := ⟨0, 0⟩

/-- The mask at offset 0, the latch at offset 4. -/
def read (c : InterruptController) (offset : Word) : Word :=
  let register := offset &&& ~~~3#32
  if register = 0 then c.mask
  else if register = 4 then c.pending
  else 0

def write (c : InterruptController) (offset value : Word) : InterruptController :=
  let register := offset &&& ~~~3#32
  if register = 0 then { c with mask := value }
  else if register = 4 then { c with pending := c.pending &&& ~~~value }
  else c

def raiseLines (c : InterruptController) (lines : Word) : InterruptController :=
  { c with pending := c.pending ||| lines }

def asserted (c : InterruptController) : Bool := c.pending &&& c.mask != 0

end InterruptController
end ArmMachine
