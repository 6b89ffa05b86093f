import ArmMachine.Status

/-! The exceptions a core can enter, in the order of their vectors. -/
namespace ArmMachine

inductive ExceptionKind where
  | reset | undefined | softwareInterrupt | prefetchAbort | dataAbort | irq
  deriving DecidableEq, Repr

namespace ExceptionKind

def all : List ExceptionKind :=
  [reset, undefined, softwareInterrupt, prefetchAbort, dataAbort, irq]

/-- The place of a kind among all of them, which is also the place of its counter. -/
def index : ExceptionKind → Nat
  | reset => 0 | undefined => 1 | softwareInterrupt => 2
  | prefetchAbort => 3 | dataAbort => 4 | irq => 5

theorem index_lt (k : ExceptionKind) : k.index < 6 := by cases k <;> decide

theorem all_index (k : ExceptionKind) : all[k.index]? = some k := by cases k <;> rfl

def vector : ExceptionKind → Word
  | reset => 0x00 | undefined => 0x04 | softwareInterrupt => 0x08
  | prefetchAbort => 0x0C | dataAbort => 0x10 | irq => 0x18

def mode : ExceptionKind → Mode
  | reset | softwareInterrupt => .supervisor
  | undefined => .undefined
  | prefetchAbort | dataAbort => .abort
  | irq => .irq

/-- What the link register gets on top of the stored program counter. -/
def returnOffset : ExceptionKind → Word
  | reset | undefined | softwareInterrupt => 0
  | prefetchAbort | dataAbort | irq => 4

def name : ExceptionKind → String
  | reset => "Reset" | undefined => "Undefined" | softwareInterrupt => "SoftwareInterrupt"
  | prefetchAbort => "PrefetchAbort" | dataAbort => "DataAbort" | irq => "Irq"

def label : ExceptionKind → String
  | reset => "reset" | undefined => "undefined" | softwareInterrupt => "swi"
  | prefetchAbort => "prefetch abort" | dataAbort => "data abort" | irq => "irq"

end ExceptionKind
end ArmMachine
