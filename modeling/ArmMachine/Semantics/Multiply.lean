import ArmMachine.Instruction.Fields
import ArmMachine.Semantics.DataProcessing

/-! Multiplies. Bits 19:16 name the destination, or the high half of a long product, and bits 15:12
the accumulator, or the low half. -/
namespace ArmMachine
namespace Instruction

def product (i : Instruction) (r : RegisterFile) : Word :=
  let product := r.read i.rm * r.read i.rs
  if i.writesBack then product + r.read i.rd else product

def multiply (i : Instruction) (r : RegisterFile) : RegisterFile :=
  let value := i.product r
  let r := r.write i.rn value
  if i.setsFlags then r.updateFlags (.negativeZero value) else r

/-- The long product, signed or unsigned, with the old pair of registers added when it accumulates.
-/
def longProduct (i : Instruction) (r : RegisterFile) : BitVec 64 :=
  let rm := r.read i.rm
  let rs := r.read i.rs
  let product :=
    if i.variant then rm.signExtend 64 * rs.signExtend 64
    else rm.zeroExtend 64 * rs.zeroExtend 64
  if i.writesBack then product + (r.read i.rn ++ r.read i.rd) else product

/-- Negative from the top bit of a long product, zero from all of it. -/
def longFlags (value : BitVec 64) (s : StatusWord) : StatusWord :=
  (s.assign .negative value.msb).assign .zero (value == 0)

def multiplyLong (i : Instruction) (r : RegisterFile) : RegisterFile :=
  let value := i.longProduct r
  let r := (r.write i.rd (value.extractLsb' 0 32)).write i.rn (value.extractLsb' 32 32)
  if i.setsFlags then r.setCurrent (longFlags value r.current) else r

end Instruction
end ArmMachine
