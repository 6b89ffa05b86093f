import ArmMachine.Ram

/-! The fixed physical address map: memory from zero upwards, then the windows of the standard
devices, with one word in between that shows the instruction counter. -/
namespace ArmMachine

/-- A window of addresses that agree with `base` on the bits of `mask`. -/
structure Region where
  name : String
  mask : Word
  base : Word
  deriving DecidableEq, Repr

namespace Region

def contains (r : Region) (address : Word) : Bool := address &&& r.mask = r.base

def offset (r : Region) (address : Word) : Word := address &&& ~~~r.mask

def size (r : Region) : Word := ~~~r.mask + 1

def interruptController : Region := ⟨"intc", 0xFFFFFFF8, 0x03000000⟩
def timer : Region := ⟨"timer", 0xFFFFFFF8, 0x03000010⟩
def uart : Region := ⟨"uart", 0xFFFFFF00, 0x03010000⟩

/-- The windows of the standard machine in the order in which they are tried. -/
def standard : List Region := [interruptController, timer, uart]

end Region

namespace AddressMap

/-- The largest memory that ends below the first window. -/
def maximumRam : Nat := Region.interruptController.base.toNat

def standardRam : Nat := 32 * 1024 * 1024

def bareMetalRam : Nat := 1024 * 1024

/-- The word that shows how many instructions were executed. -/
def instructionCounter : Word := 0x03000020

end AddressMap
end ArmMachine
