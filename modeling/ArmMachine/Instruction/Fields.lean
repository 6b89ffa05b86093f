import ArmMachine.Registers
import ArmMachine.Arithmetic.Shift
import ArmMachine.Instruction.Condition
import ArmMachine.Instruction.Opcode
import ArmMachine.Instruction.Shape

/-! An instruction is its word. Every field is a view of the word, so no two of them can disagree;
which ones mean something depends on the shape. -/
namespace ArmMachine

structure Instruction where
  word : Word
  deriving DecidableEq, Repr

namespace Instruction

/-- The register named by the four bits from `position` upwards. -/
def register (i : Instruction) (position : Nat) : RegisterId :=
  (i.word.extractLsb' position 4).toFin

/-- The `length` bits from `position` upwards as a word. -/
def number (i : Instruction) (position length : Nat) : Word :=
  (i.word.extractLsb' position length).zeroExtend 32

def shape (i : Instruction) : Shape := Shape.ofWord i.word

def condition (i : Instruction) : Condition := Condition.ofCode (i.word.extractLsb' 28 4)

def opcode (i : Instruction) : Opcode := Opcode.ofCode (i.word.extractLsb' 21 4)

def shiftKind (i : Instruction) : ShiftKind := ShiftKind.ofCode (i.word.extractLsb' 5 2)

/-- Bits 19:16: the first operand, the base, or the destination of a multiply. -/
def rn (i : Instruction) : RegisterId := i.register 16

/-- Bits 15:12: the destination, or the accumulator of a multiply. -/
def rd (i : Instruction) : RegisterId := i.register 12

/-- Bits 11:8: the register that holds a shift amount or a factor. -/
def rs (i : Instruction) : RegisterId := i.register 8

/-- Bits 3:0: the register operand. -/
def rm (i : Instruction) : RegisterId := i.register 0

/-- Bit 24: the offset is applied before the access; in a branch, the link register is written. -/
def preIndexed (i : Instruction) : Bool := i.word.getLsbD 24

/-- Bit 23: the offset is added. -/
def upwards (i : Instruction) : Bool := i.word.getLsbD 23

/-- Bit 22: bytes in transfers, the user bank in block transfers, the saved status in status
transfers, signed factors in long multiplies. -/
def variant (i : Instruction) : Bool := i.word.getLsbD 22

/-- Bit 21: the base is written back; in a multiply, the accumulator is added. -/
def writesBack (i : Instruction) : Bool := i.word.getLsbD 21

/-- Bit 20 of a data operation or multiply. -/
def setsFlags (i : Instruction) : Bool := i.word.getLsbD 20

/-- Bit 20 of a transfer. -/
def loads (i : Instruction) : Bool := i.word.getLsbD 20

def shiftAmount (i : Instruction) : Word := i.number 7 5

/-- Bits 11:8 count the rotation of an immediate in steps of two. -/
def rotation (i : Instruction) : Word := i.number 8 4 * 2

def immediate8 (i : Instruction) : Word := i.number 0 8

def immediate12 (i : Instruction) : Word := i.number 0 12

/-- The offset of a halfword transfer, split over bits 11:8 and 3:0. -/
def splitImmediate (i : Instruction) : Word := (i.number 8 4 <<< 4) ||| i.number 0 4

def lists (i : Instruction) (id : RegisterId) : Bool := i.word.getLsbD id

/-- The listed registers from the lowest to the highest. -/
def registerList (i : Instruction) : List RegisterId := (List.finRange 16).filter i.lists

/-- Bits 23:0, sign-extended and counted in words. -/
def branchOffset (i : Instruction) : Word := (i.word.extractLsb' 0 24).signExtend 32 <<< 2

/-- Bits 19:16 select the bytes of a status word that are written. -/
def fieldMask (i : Instruction) : BitVec 4 := i.word.extractLsb' 16 4

def coprocessorNumber (i : Instruction) : BitVec 4 := i.word.extractLsb' 8 4

def coprocessorOpcode1 (i : Instruction) : BitVec 3 := i.word.extractLsb' 21 3

def coprocessorOpcode2 (i : Instruction) : BitVec 3 := i.word.extractLsb' 5 3

def coprocessorRegister (i : Instruction) : BitVec 4 := i.word.extractLsb' 16 4

def coprocessorOperand (i : Instruction) : BitVec 4 := i.word.extractLsb' 0 4

def comment (i : Instruction) : Word := i.number 0 24

end Instruction
end ArmMachine
