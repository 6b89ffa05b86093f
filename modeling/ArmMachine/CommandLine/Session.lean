import ArmMachine.CommandLine.Help
import ArmMachine.Configuration
import ArmMachine.Machine

/-! What a command line does, over any surroundings that can read files and lines and write text.
The machine is run until it parks, fails, reaches its limit or is told to stop. -/
namespace ArmMachine.CommandLine

inductive FileFailure where
  | missing
  | directory
  | denied
  | other (text : String)
  deriving DecidableEq, Repr

def FileFailure.message : FileFailure → String
  | missing => "No such file or directory (os error 2)"
  | directory => "Is a directory (os error 21)"
  | denied => "Permission denied (os error 13)"
  | other text => text

structure Host (m : Type → Type) where
  contents : String → m (Except FileFailure ByteArray)
  /-- The next line, or nothing at the end of the input. -/
  readLine : m (Option String)
  /-- Writes what the program says about its work. -/
  note : String → m Unit
  /-- Writes what the guest says. -/
  output : ByteArray → m Unit

/-- A failure that ends the program: its messages, from the outermost to the cause. -/
abbrev Trouble := List String

namespace Trouble

/-- Causes are numbered when there are several. -/
def causeLines : List String → List String
  | [] => []
  | [cause] => ["", "Caused by:", "    " ++ cause]
  | causes =>
    ["", "Caused by:"]
      ++ causes.zipIdx.map fun (cause, i) =>
        String.ofList (padLeft 5 ' ' (toString i).toList) ++ ": " ++ cause

def text (t : Trouble) : String :=
  match t with
  | [] => ""
  | outermost :: causes => "\n".intercalate (("Error: " ++ outermost) :: causeLines causes) ++ "\n"

end Trouble

/-! ## Answers to the prompt -/

/-- The characters around an answer that do not count. -/
def isSpace (c : Char) : Bool :=
  let n := c.toNat
  (9 ≤ n && n ≤ 13) || n ∈ [0x20, 0x85, 0xA0, 0x1680, 0x2028, 0x2029, 0x202F, 0x205F, 0x3000]
    || (0x2000 ≤ n && n ≤ 0x200A)

def trimSpace (cs : List Char) : List Char :=
  ((cs.dropWhile isSpace).reverse.dropWhile isSpace).reverse

inductive Reply where
  | step
  /-- Run on without asking. -/
  | goOn
  | quit
  deriving DecidableEq, Repr

def Reply.ofLine (line : String) : Reply :=
  match trimSpace line.toList with
  | ['c'] => .goOn
  | ['q'] => .quit
  | _ => .step

/-! ## Running -/

structure Session where
  machine : Machine
  asks : Bool
  steps : Nat

namespace Session

def prompt (s : Session) : String := s.machine.board.core.registers.pc.hex ++ "> "

/-- The session after an answer, unless it ends there. The end of the input ends it too. -/
def answered (s : Session) : Option String → Option Session
  | none => none
  | some line =>
    match Reply.ofLine line with
    | .step => some s
    | .goOn => some { s with asks := false }
    | .quit => none

def finished (s : Session) : Event :=
  let core := s.machine.board.core
  .finished s.steps core.instructionCount core.mmu.hits core.mmu.lookups

end Session

def bytesOf (bs : List Byte) : ByteArray := ⟨(bs.map fun b => UInt8.ofNat b.toNat).toArray⟩

section
variable {m : Type → Type} [Monad m]

def Host.log (host : Host m) (verbosity : Verbosity) (events : List Event) : m Unit := do
  for record in Event.records verbosity events do
    host.note (record ++ "\n")

inductive Standing where
  | failed (trouble : Trouble)
  | ended (s : Session)
  | runs (s : Session)

/-- One step, and everything that is written about it. -/
@[specialize]
def Session.advance (host : Host m) (verbosity : Verbosity) : Session → m Standing
  | ⟨machine, asks, steps⟩ => do
    let (result, machine, events) := machine.step
    host.log verbosity events
    match result with
    | .error report => return .failed report.messages
    | .ok outcome =>
      if asks then host.note (outcome.inspect ++ "\n")
      let (console, machine) := machine.takeConsole
      if !console.isEmpty then host.output (bytesOf console)
      let s : Session := ⟨machine, asks, steps + 1⟩
      if s.machine.isParked then
        host.log verbosity [.parked s.machine.board.core.decode.address]
        return .ended s
      else return .runs s

@[specialize]
def Session.run (host : Host m) (verbosity : Verbosity) : Nat → Session → m (Except Trouble Session)
  | 0, s => return .ok s
  | n + 1, s => do
    let answered ←
      if s.asks then
        host.note s.prompt
        pure (s.answered (← host.readLine))
      else pure (some s)
    match answered with
    | none => return .ok s
    | some s =>
      match ← s.advance host verbosity with
      | .failed trouble => return .error trouble
      | .ended s => return .ok s
      | .runs s => run host verbosity n s

/-! ## From the arguments to the end -/

def unreadable (path : String) (cause : FileFailure) : Trouble :=
  ["failed to read " ++ path, cause.message]

def notText : String := "stream did not contain valid UTF-8"

def readContents (host : Host m) (path : String) : ExceptT Trouble m ByteArray := do
  match ← host.contents path with
  | .error cause => throw (unreadable path cause)
  | .ok bytes => return bytes

def readSettings (host : Host m) (path : String) : ExceptT Trouble m Settings := do
  match ← host.contents path with
  | .error cause => throw (unreadable ("config " ++ path) cause)
  | .ok bytes =>
    match String.fromUTF8? bytes with
    | none => throw (unreadable ("config " ++ path) (.other notText))
    | some text =>
      match Settings.ofToml text with
      | .error cause => throw (("in " ++ path) :: cause.messages)
      | .ok settings => return settings

namespace Arguments

/-- Logging every instruction takes the most detailed log. -/
def logVerbosity (args : Arguments) : Verbosity :=
  if args.disassemble then some .trace else args.verbosity

/-- More steps than are ever run. -/
def endless : Nat := counterLimit

def stepLimit (args : Arguments) : Nat := args.maxInstructions.getD endless

def settings (host : Host m) (args : Arguments) : ExceptT Trouble m Settings := do
  let settings ← match args.config with
    | some path => readSettings host path
    | none => pure .standard
  if args.disassemble then return { settings with core := { settings.core with trace := true } }
  else return settings

def boot (host : Host m) (args : Arguments) (machine : Machine) :
    ExceptT Trouble m BootProgress := do
  match args.program with
  | .image path base entry => return machine.bootImage (← readContents host path) base entry
  | .kernel path tree =>
    let kernel ← readContents host path
    return machine.bootKernel kernel (← readContents host tree)

/-- Everything from the configuration to the last record. -/
def execute (host : Host m) (args : Arguments) : ExceptT Trouble m Unit := do
  let verbosity := args.logVerbosity
  let settings ← args.settings host
  host.log verbosity (Machine.creationEvents settings)
  let booted ← args.boot host (.ofSettings settings)
  host.log verbosity booted.events
  match booted.result with
  | .error cause => throw cause.messages
  | .ok () =>
    let s ← ExceptT.mk (Session.run host verbosity args.stepLimit ⟨booted.machine, args.step, 0⟩)
    host.log verbosity [s.finished]

end Arguments

def run (host : Host m) (args : List String) : m Nat := do
  match Request.ofArguments? args with
  | none =>
    host.note misuseText
    return 2
  | some .version =>
    host.output versionText.toUTF8
    return 0
  | some (.help topic) =>
    host.output topic.text.toUTF8
    return 0
  | some (.run args) =>
    match ← (args.execute host).run with
    | .ok () => return 0
    | .error trouble =>
      host.note trouble.text
      return 1

end
end ArmMachine.CommandLine
