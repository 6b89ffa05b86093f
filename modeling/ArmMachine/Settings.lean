import ArmMachine.Core

/-! What a machine is built from. -/
namespace ArmMachine

structure Settings where
  core : CoreConfig
  /-- Polls between two expiries of the timer after a reset. -/
  timerInterval : Word
  treeAddress : Word
  kernelAddress : Word
  deriving DecidableEq, Repr

def Settings.standard : Settings where
  core := .standard
  timerInterval := 100000
  treeAddress := 0x01000000
  kernelAddress := 0x8000

end ArmMachine
