import ArmMachine.Arithmetic.Addition
import ArmMachine.Status

/-! How an instruction that sets flags updates the condition flags. -/
namespace ArmMachine

inductive FlagUpdate where
  | unchanged
  /-- Negative and zero from the result, carry from the shifter. -/
  | logical (result : Word) (carry : Bool)
  /-- All four flags from the adder. -/
  | arithmetic (sum : Sum)
  | negativeZero (result : Word)
  deriving DecidableEq, Repr

def FlagUpdate.apply (u : FlagUpdate) (s : StatusWord) : StatusWord :=
  match u with
  | unchanged => s
  | logical result carry => (s.withResult result).assign .carry carry
  | arithmetic sum =>
    ((s.withResult sum.value).assign .carry sum.carry).assign .overflow sum.overflow
  | negativeZero result => s.withResult result

end ArmMachine
