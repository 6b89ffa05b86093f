import ArmMachine.Device.Table
import ArmMachine.Dump

/-! What is worth a log record. Events are data; a record is made from an event only when it is
written, so running a core builds no text. -/
namespace ArmMachine

/-- Severities from the gravest to the most detailed. -/
inductive Severity where
  | error | warn | info | debug | trace
  deriving DecidableEq, Repr

namespace Severity

def rank : Severity → Nat
  | error => 1 | warn => 2 | info => 3 | debug => 4 | trace => 5

def name : Severity → String
  | error => "ERROR" | warn => "WARN" | info => "INFO" | debug => "DEBUG" | trace => "TRACE"

end Severity

/-- How detailed a log is; `none` writes nothing. -/
abbrev Verbosity := Option Severity

def Verbosity.shows (v : Verbosity) (s : Severity) : Bool :=
  match v with
  | none => false
  | some limit => s.rank ≤ limit.rank

inductive Event where
  | executed (address word : Word)
  | memoryFault (fault : Abort)
  | unknownRegisterRead (register : Nat)
  | unknownRegisterWrite (register : Nat) (value : Word)
  | unknownCacheOperation (operand opcode : Nat)
  | cacheOperation (operand opcode : Nat) (address : Word)
  | exceptionEntered (kind : ExceptionKind) (returnAddress : Word) (status : StatusWord)
  | coreHalted (cause : Failure) (dump : Dump)
  | ramCut (cause : Failure)
  | deviceDisabled (failure : ResetFailure)
  | imageLoaded (bytes : Nat) (base entry : Word)
  | kernelLoaded (base : Word) (bytes : Nat) (treeBase : Word) (treeBytes : Nat)
  | parked (address : Word)
  | finished (steps : Nat) (instructions : Word) (hits lookups : Nat)
  deriving DecidableEq

namespace Event

def severity : Event → Severity
  | executed .. => .trace
  | memoryFault .. => .debug
  | unknownRegisterRead .. | unknownRegisterWrite .. | unknownCacheOperation .. => .warn
  | cacheOperation .. | exceptionEntered .. => .debug
  | coreHalted .. => .error
  | ramCut .. | deviceDisabled .. => .warn
  | imageLoaded .. | kernelLoaded .. | parked .. | finished .. => .info

/-- The part of the system that a record names as its source. -/
def source : Event → String
  | executed .. | coreHalted .. => "armv4_core::execute"
  | memoryFault .. | unknownRegisterRead .. | unknownRegisterWrite .. | unknownCacheOperation ..
  | cacheOperation .. => "armv4_core::mmu"
  | exceptionEntered .. => "armv4_core::execute::exception"
  | ramCut .. => "armv4_core::api"
  | deviceDisabled .. => "armv4_core::peripherals"
  | imageLoaded .. | kernelLoaded .. => "armv4_run::boot"
  | parked .. | finished .. => "armv4_run"

def message : Event → String
  | executed address word =>
    address.hex ++ ": " ++ hexDigits 8 word.toNat ++ " " ++ (Instruction.mk word).condition.name
      ++ " " ++ (Instruction.mk word).shape.name
  | memoryFault fault => "mmu: " ++ fault.message
  | unknownRegisterRead register =>
    "cp15: read of unimplemented register c" ++ toString register
  | unknownRegisterWrite register value =>
    "cp15: write of unimplemented register c" ++ toString register ++ " = " ++ value.hex
  | unknownCacheOperation operand opcode =>
    "cp15: unknown tlb operation c8, c" ++ toString operand ++ ", " ++ toString opcode
  | cacheOperation operand opcode address =>
    "cp15: tlb c8, c" ++ toString operand ++ ", " ++ toString opcode ++ " mva=" ++ address.hex
  | exceptionEntered kind returnAddress status =>
    kind.label ++ " entered from " ++ returnAddress.hex ++ ", cpsr " ++ status.summary
  | coreHalted cause dump => "core halted: " ++ cause.message ++ "\n" ++ dump.text
  | ramCut cause =>
    cause.message ++ "; clamping RAM to " ++ hexNumber AddressMap.maximumRam ++ " bytes"
  | deviceDisabled failure => "peripheral disabled: " ++ failure.message
  | imageLoaded bytes base entry =>
    "loaded " ++ toString bytes ++ " bytes at " ++ base.hex ++ ", entry " ++ entry.hex
  | kernelLoaded base bytes treeBase treeBytes =>
    "kernel at " ++ base.hex ++ " (" ++ toString bytes ++ " bytes), dtb at " ++ treeBase.hex ++ " ("
      ++ toString treeBytes ++ " bytes)"
  | parked address => "parked at " ++ address.hex
  | finished steps instructions hits lookups =>
    toString steps ++ " steps, " ++ toString instructions.toNat ++ " instructions, tlb "
      ++ toString hits ++ "/" ++ toString lookups ++ " hits"

/-- A record: the severity in five columns, the source, and the message. -/
def record (e : Event) : String :=
  "[" ++ String.ofList (padRight 5 ' ' e.severity.name.toList) ++ " " ++ e.source ++ "] "
    ++ e.message

def records (v : Verbosity) (es : List Event) : List String :=
  (es.filter fun e => v.shows e.severity).map record

/-- What a translated access reports: the fault, if it was refused. -/
def ofAccess {α : Type} : Except Failure α → List Event
  | .error (.abort fault) => [memoryFault fault]
  | _ => []

def ofRegisterRead (register : Nat) : List Event :=
  if Mmu.isRegister register then [] else [unknownRegisterRead register]

/-- A cache operation with an unknown operand is reported once, one with an unknown opcode once for
each side it names. -/
def ofCacheOperation (operand opcode : Nat) (address : Word) : List Event :=
  match Mmu.operandSides operand with
  | [] => [unknownCacheOperation operand opcode]
  | sides =>
    (if opcode ≤ 1 then [] else sides.map fun _ => unknownCacheOperation operand opcode)
      ++ [cacheOperation operand opcode address]

def ofRegisterWrite (register operand opcode : Nat) (value : Word) : List Event :=
  if register = 8 then ofCacheOperation operand opcode value
  else if Mmu.isRegister register then []
  else [unknownRegisterWrite register value]

def ofException (c : Core) (kind : ExceptionKind) : List Event :=
  if c.accepts kind then [exceptionEntered kind (c.returnAddress kind) c.registers.current] else []

/-- A reset is the entry of the reset exception from the cleared state. -/
def ofReset (c : Core) : List Event := ofException c.cleared .reset

def ofConfig (config : CoreConfig) : List Event :=
  (match config.validate with
   | .ok () => []
   | .error cause => [ramCut cause])
    ++ ofReset (Core.ofConfig config)

def ofDeviceReset (t : DeviceTable) : List Event := t.resetFailures.map deviceDisabled

end Event
end ArmMachine
