import ArmMachine.AddressMap
import ArmMachine.ExceptionKind
import ArmMachine.Fault
import ArmMachine.Instruction.Fields
import ArmMachine.Paging.Coprocessor

/-! The state of a core: registers, memory management, memory, what the current step has fetched and
still has to dispatch, and counters for diagnosis. A reset keeps memory and the counters. -/
namespace ArmMachine

inductive Profile where
  | mmu | bareMetal
  deriving DecidableEq, Repr

namespace Profile

def name : Profile → String
  | mmu => "Mmu" | bareMetal => "BareMetal"

/-- Only the full profile can switch paging on. -/
def allowsPaging : Profile → Bool
  | mmu => true | bareMetal => false

end Profile

structure CoreConfig where
  profile : Profile
  ramBytes : Nat
  /-- Log every executed instruction. -/
  trace : Bool
  deriving DecidableEq, Repr

namespace CoreConfig

def standard : CoreConfig := ⟨.mmu, AddressMap.standardRam, false⟩

def bareMetal : CoreConfig := ⟨.bareMetal, AddressMap.bareMetalRam, false⟩

/-- Memory has to end below the first device window. -/
def validate (c : CoreConfig) : Except Failure Unit :=
  if c.ramBytes ≤ AddressMap.maximumRam then .ok ()
  else .error (.ramTooLarge c.ramBytes AddressMap.maximumRam)

end CoreConfig

/-- What the current instruction left to be dispatched at the end of its step. -/
inductive Pending where
  | none | prefetchAbort | dataAbort | undefined | softwareInterrupt
  deriving DecidableEq, Repr

namespace Pending

def exception? : Pending → Option ExceptionKind
  | none => Option.none
  | prefetchAbort => some .prefetchAbort
  | dataAbort => some .dataAbort
  | undefined => some .undefined
  | softwareInterrupt => some .softwareInterrupt

def name : Pending → String
  | none => "None" | prefetchAbort => "PrefetchAbort" | dataAbort => "DataAbort"
  | undefined => "Undefined" | softwareInterrupt => "SoftwareInterrupt"

end Pending

/-- The last fetch, with no shape when it failed. -/
structure DecodeState where
  word : Word
  address : Word
  shape : Option Shape
  pending : Pending
  deriving DecidableEq, Repr

def DecodeState.idle (address : Word) : DecodeState := ⟨0, address, none, .none⟩

inductive RunState where
  | running
  | halted (cause : Failure)
  deriving DecidableEq, Repr

/-- The last abort taken: the instruction and the fault registers. -/
structure AbortRecord where
  pc : Word
  status : Word
  address : Word
  deriving DecidableEq, Repr

structure Diagnostics where
  exceptions : Vector Nat 6
  lastAbort : Option AbortRecord
  deriving DecidableEq

namespace Diagnostics

def initial : Diagnostics := ⟨Vector.replicate 6 0, none⟩

/-- Counters stay at this value once they reach it. -/
def maximumCount : Nat := 0xFFFFFFFFFFFFFFFF

def count (d : Diagnostics) (kind : ExceptionKind) : Nat :=
  d.exceptions.get ⟨kind.index, kind.index_lt⟩

def setCount (d : Diagnostics) (kind : ExceptionKind) (n : Nat) : Diagnostics :=
  { d with exceptions := d.exceptions.set kind.index n kind.index_lt }

def recordException (d : Diagnostics) (kind : ExceptionKind) : Diagnostics :=
  d.setCount kind (min (d.count kind + 1) maximumCount)

def recordAbort (d : Diagnostics) (r : AbortRecord) : Diagnostics := { d with lastAbort := some r }

end Diagnostics

structure Core where
  registers : RegisterFile
  mmu : Mmu
  ram : Ram
  decode : DecodeState
  instructionCount : Word
  runState : RunState
  diagnostics : Diagnostics

namespace Core

def highVectorBase : Word := 0xFFFF0000

def vectorAddress (c : Core) (kind : ExceptionKind) : Word :=
  (if Control.highVectors c.mmu.control then highVectorBase else 0) ||| kind.vector

/-- Interrupt requests are refused while they are masked; every other exception is accepted. -/
def accepts (c : Core) (kind : ExceptionKind) : Bool :=
  !(kind = .irq && c.registers.current.has .irqDisabled)

def enteredStatus (s : StatusWord) (kind : ExceptionKind) : StatusWord :=
  let s := ((s.withMode kind.mode).assign .thumb false).assign .irqDisabled true
  if kind = .reset then s.assign .fiqDisabled true else s

def returnAddress (c : Core) (kind : ExceptionKind) : Word := c.registers.pc + kind.returnOffset

/-- The registers once an exception is entered. The status word is switched first, so the saved
status and the link register are those of the entered mode. -/
def enteredRegisters (c : Core) (kind : ExceptionKind) : RegisterFile :=
  (((c.registers.setCurrent (enteredStatus c.registers.current kind)).setSavedStatus
    c.registers.current).write .link (c.returnAddress kind)).setPc (c.vectorAddress kind)

def enter (c : Core) (kind : ExceptionKind) : Core :=
  { c with
    registers := c.enteredRegisters kind
    diagnostics := c.diagnostics.recordException kind }

def cleared (c : Core) : Core :=
  { c with
    registers := .initial
    mmu := c.mmu.reset
    decode := .idle 0
    instructionCount := 0
    runState := .running }

/-- Paging off, supervisor mode with interrupts masked, the program counter at the reset
vector. Memory and the counters are kept. -/
def reset (c : Core) : Core := c.cleared.enter .reset

/-- A core with zeroed memory, just reset. Memory past the limit is cut off. -/
def ofConfig (config : CoreConfig) : Core :=
  reset {
    registers := .initial
    mmu := .initial config.profile.allowsPaging
    ram := .zeroed (min config.ramBytes AddressMap.maximumRam)
    decode := .idle 0
    instructionCount := 0
    runState := .running
    diagnostics := .initial }

/-- Like `ofConfig`, but memory past the limit is an error. -/
def ofConfig? (config : CoreConfig) : Except Failure Core :=
  match config.validate with
  | .error cause => .error cause
  | .ok () => .ok (ofConfig config)

def isHalted (c : Core) : Bool :=
  match c.runState with
  | .running => false
  | .halted _ => true

/-- Copies an image to memory at a physical address, or leaves memory alone when it does not fit. -/
def loadImage (c : Core) (base : Word) (image : ByteArray) : Except Failure Nat × Core :=
  if base.toNat + image.size ≤ c.ram.size then
    match c.ram.copy base image with
    | (true, ram) => (.ok image.size, { c with ram })
    | (false, ram) => (.error (.imageOutOfRange base image.size), { c with ram })
  else (.error (.imageOutOfRange base image.size), c)

end Core
end ArmMachine
