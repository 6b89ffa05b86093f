import ArmMachine.Ram

/-! What the bus asks of a device, whatever its kind. A device sees offsets within its own window
only. -/
namespace ArmMachine

/-- Why a device cannot operate. -/
structure ResetFailure where
  device : String
  reason : String
  deriving DecidableEq

def ResetFailure.message (f : ResetFailure) : String := f.device ++ ": reset failed: " ++ f.reason

/-- How devices with states in `D` behave. Unless it says otherwise, a device raises no lines, takes
no notice of those of others, and does not interrupt the core. -/
class Peripheral (D : Type) where
  name : D → String
  /-- Back to the initial state. It may fail now and succeed later, and may leave its mark on the
  device either way. -/
  reset : D → Option ResetFailure × D
  read : D → Word → Word × D
  /-- The value is already masked to the width. -/
  write : D → Word → Word → Width → D
  /-- One poll: the lines that the device raises, and the device afterwards. -/
  tick : D → Word × D := fun d => (0, d)
  /-- Takes note of the lines that a poll has raised. -/
  raiseLines : D → Word → D := fun d _ => d
  /-- Whether the device interrupts the core. -/
  assertsIrq : D → Bool := fun _ => false

/-- A window with no device behind it: its reset fails, reads see all ones, writes are lost. -/
@[reducible] def Peripheral.unbacked (name reason : String) : Peripheral (List Byte) where
  name _ := name
  reset state := (some ⟨name, reason⟩, state)
  read state _ := (BitVec.allOnes 32, state)
  write state _ _ _ := state

end ArmMachine
