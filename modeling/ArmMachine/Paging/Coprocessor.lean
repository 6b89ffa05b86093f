import ArmMachine.Paging.Unit

/-! Register transfers with the system control coprocessor. Writes to the identification and cache
registers are accepted and do nothing; unknown registers read as zero. -/
namespace ArmMachine
namespace Mmu

def mainId : Word := 0x41129200

def cacheType : Word := 0x0D172172

/-- What the cache register answers to a test-and-clean: the cache is clean. -/
def cacheClean : Word := 1#32 <<< 30

def readRegister (m : Mmu) (register opcode : Nat) : Word :=
  match register with
  | 0 => if opcode = 1 then cacheType else mainId
  | 1 => m.control
  | 2 => m.tableBase
  | 3 => m.domains
  | 5 => m.faultStatus
  | 6 => m.faultAddress
  | 7 => cacheClean
  | 13 => m.processId
  | _ => 0

def isRegister (register : Nat) : Bool :=
  match register with
  | 0 | 1 | 2 | 3 | 5 | 6 | 7 | 13 => true
  | _ => false

def operandSides (operand : Nat) : List Side :=
  match operand with
  | 5 => [.instruction]
  | 6 => [.data]
  | 7 => [.instruction, .data]
  | _ => []

/-- One cache operation on one side: opcode 0 drops everything, opcode 1 the block of an address. -/
def invalidate (m : Mmu) (opcode : Nat) (address : Word) (side : Side) : Mmu :=
  match opcode with
  | 0 => m.setCache side .empty
  | 1 => m.setCache side ((m.cache side).invalidate address)
  | _ => m

def writeRegister (m : Mmu) (register operand opcode : Nat) (value : Word) : Mmu :=
  match register with
  | 1 =>
    { m with control := if m.pagingAllowed then value else value &&& ~~~Control.enableMask }
  | 2 => { m with tableBase := value }
  | 3 => { m with domains := value }
  | 5 => { m with faultStatus := value }
  | 6 => { m with faultAddress := value }
  | 8 => (operandSides operand).foldl (fun m side => m.invalidate opcode value side) m
  | 13 => { m with processId := value }
  | _ => m

end Mmu
end ArmMachine
