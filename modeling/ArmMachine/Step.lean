import ArmMachine.Journal
import ArmMachine.Semantics.Execution

/-! One step of a core. The instruction is fetched, decoded and, if its condition passes, executed;
whatever it left pending is dispatched as an exception; an interrupt request is taken last. An abort
is part of a step, any other failure halts the core until it is reset. -/
namespace ArmMachine

inductive Outcome where
  | retired (cycles : Nat)
  | skipped
  | exception (kind : ExceptionKind)
  /-- The core was halted before; nothing happened. -/
  | halted (cause : Failure)
  deriving DecidableEq, Repr

/-- A result, the board that goes with it, and what happened on the way, in order. -/
structure Progress (α : Type) where
  result : α
  board : Board
  events : List Event

/-- What a coprocessor transfer reports; other instructions report nothing beforehand. -/
def Instruction.coprocessorEvents (i : Instruction) (c : Core) : List Event :=
  if i.shape = .coprocessor && i.reachesCoprocessor c then
    if i.loads then Event.ofRegisterRead i.coprocessorRegister.toNat
    else Event.ofRegisterWrite i.coprocessorRegister.toNat i.coprocessorOperand.toNat
      i.coprocessorOpcode2.toNat (c.registers.read i.rd)
  else []

namespace Core

def beginStep (c : Core) : Core := { c with decode := .idle c.registers.pc }

/-- The program counter moves past the fetched instruction before it is executed. -/
def acceptFetch (c : Core) (i : Instruction) : Core :=
  { c with
    registers := c.registers.setPc (c.registers.pc + 4)
    decode := { c.decode with word := i.word, shape := some i.shape } }

def setPending (c : Core) (p : Pending) : Core :=
  { c with decode := { c.decode with pending := p } }

def countInstruction (c : Core) : Core := { c with instructionCount := c.instructionCount + 1 }

/-- A fault that execution left behind becomes a data abort, unless something else is pending. -/
def noteFault (c : Core) : Core :=
  if c.mmu.faultPending && c.decode.pending = .none then c.setPending .dataAbort else c

def isAbort : ExceptionKind → Bool
  | .prefetchAbort | .dataAbort => true
  | _ => false

/-- Records the abort about to be entered and takes its fault. -/
def takeAbort (c : Core) (kind : ExceptionKind) : Core :=
  if isAbort kind then
    { c with
      diagnostics := c.diagnostics.recordAbort
        ⟨c.decode.address, c.mmu.faultStatus, c.mmu.faultAddress⟩
      mmu := c.mmu.takeFault }
  else c

def halt (c : Core) (cause : Failure) : Core := { c with runState := .halted cause }

end Core

namespace Board

def mapCore (b : Board) (f : Core → Core) : Board := { b with core := f b.core }

/-- Runs an action and keeps the board whatever comes of it. -/
def run {α : Type} (b : Board) (action : Action α) : Except Failure α × Board :=
  match EStateM.run action b with
  | .ok a b => (.ok a, b)
  | .error cause b => (.error cause, b)

def execute (b : Board) (i : Instruction) : Progress (Except Failure Unit) :=
  let reported := i.coprocessorEvents b.core
  let (result, b) := b.run i.execute
  ⟨result, b, reported ++ Event.ofAccess result⟩

/-- Executes an instruction that was fetched, if its condition passes. It counts as executed even
when it was aborted. -/
def executeFetched (b : Board) (i : Instruction) : Progress (Except Failure Outcome) :=
  if i.condition.passes b.core.registers.current then
    let p := b.execute i
    match p.result with
    | .ok () | .error (.abort _) =>
      ⟨.ok (.retired i.shape.cost), p.board.mapCore .countInstruction, p.events⟩
    | .error cause => ⟨.error cause, p.board, p.events⟩
  else ⟨.ok .skipped, b, []⟩

def fetchAndExecute (b : Board) (trace : Bool) : Progress (Except Failure Outcome) :=
  let pc := b.core.registers.pc
  let (fetched, b) := (b.mapCore .beginStep).run (fetch pc)
  match fetched with
  | .error (.abort fault) =>
    ⟨.ok .skipped, b.mapCore fun c => c.setPending .prefetchAbort, [.memoryFault fault]⟩
  | .error cause => ⟨.error cause, b, []⟩
  | .ok word =>
    let i : Instruction := ⟨word⟩
    let traced := if trace then [Event.executed pc word] else []
    let p := (b.mapCore fun c => c.acceptFetch i).executeFetched i
    { p with events := traced ++ p.events }

def dispatchPending (b : Board) (outcome : Outcome) : Progress Outcome :=
  let b := b.mapCore .noteFault
  match b.core.decode.pending.exception? with
  | none => ⟨outcome, b, []⟩
  | some kind =>
    let b := b.mapCore fun c => c.takeAbort kind
    let entry := Event.ofException b.core kind
    ⟨.exception kind, b.mapCore fun c => (c.enter kind).setPending .none, entry⟩

/-- Takes an interrupt request that a device asserts and the core accepts. -/
def takeInterrupt (b : Board) (outcome : Outcome) : Progress Outcome :=
  if b.devices.irqPending && b.core.accepts .irq then
    let entry := Event.ofException b.core .irq
    ⟨.exception .irq, b.mapCore fun c => c.enter .irq, entry⟩
  else ⟨outcome, b, []⟩

def runningStep (b : Board) (trace : Bool) : Progress (Except Failure Outcome) :=
  let executed := b.fetchAndExecute trace
  match executed.result with
  | .error cause => ⟨.error cause, executed.board, executed.events⟩
  | .ok outcome =>
    let dispatched := executed.board.dispatchPending outcome
    let interrupted := dispatched.board.takeInterrupt dispatched.result
    ⟨.ok interrupted.result, interrupted.board,
      executed.events ++ dispatched.events ++ interrupted.events⟩

/-- One step. The failure that halts a core is the result of the step that met it; later steps do
nothing and say why. -/
def step (b : Board) (trace : Bool) : Progress (Except Failure Outcome) :=
  match b.core.runState with
  | .halted cause => ⟨.ok (.halted cause), b, []⟩
  | .running =>
    let p := b.runningStep trace
    match p.result with
    | .ok outcome => ⟨.ok outcome, p.board, p.events⟩
    | .error cause =>
      let b := p.board.mapCore fun c => c.halt cause
      ⟨.error cause, b, p.events ++ [.coreHalted cause (Dump.ofCore b.core)]⟩

def poll (b : Board) : Board := { b with devices := b.devices.poll }

@[simp] theorem core_poll (b : Board) : b.poll.core = b.core := rfl

end Board

namespace Outcome

def inspect : Outcome → String
  | retired cycles => "Retired \x7b cycles: " ++ toString cycles ++ " \x7d"
  | skipped => "Skipped"
  | exception kind => "Exception \x7b kind: " ++ kind.name ++ " \x7d"
  | halted cause => "Halted(" ++ cause.message ++ ")"

end Outcome
end ArmMachine
