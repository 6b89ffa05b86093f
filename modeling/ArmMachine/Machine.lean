import ArmMachine.Settings
import ArmMachine.Step

/-! A machine: a board with the standard devices, and the two ways to start a program on it. -/
namespace ArmMachine

structure Machine where
  board : Board
  settings : Settings

inductive BootFailure where
  | image (cause : Failure)
  | kernel (cause : Failure)
  | tree (cause : Failure)
  /-- The two byte ranges share an address; ends are the first address past a range. -/
  | overlap (kernelStart kernelEnd treeStart treeEnd : Nat)
  deriving DecidableEq, Repr

/-- From the outermost message to the cause. -/
def BootFailure.messages : BootFailure → List String
  | image cause => ["failed to load image", cause.message]
  | kernel cause => ["failed to load kernel", cause.message]
  | tree cause => ["failed to load device tree", cause.message]
  | overlap kernelStart kernelEnd treeStart treeEnd =>
    ["kernel " ++ hexNumber kernelStart ++ ".." ++ hexNumber kernelEnd ++ " overlaps device tree "
      ++ hexNumber treeStart ++ ".." ++ hexNumber treeEnd]

/-- The machine after an attempt to start a program, and what the attempt reports. -/
structure BootProgress where
  result : Except BootFailure Unit
  machine : Machine
  events : List Event

namespace Machine

def ofSettings (s : Settings) : Machine where
  board := { core := .ofConfig s.core, devices := (DeviceTable.standard s.timerInterval).reset }
  settings := s

def creationEvents (s : Settings) : List Event :=
  Event.ofConfig s.core ++ Event.ofDeviceReset (DeviceTable.standard s.timerInterval)

def mapCore (m : Machine) (f : Core → Core) : Machine := { m with board := m.board.mapCore f }

def load (m : Machine) (base : Word) (image : ByteArray) : Except Failure Nat × Machine :=
  let (result, core) := m.board.core.loadImage base image
  (result, { m with board := { m.board with core } })

/-- Loads an image and starts at `entry`, or where the image was loaded. -/
def bootImage (m : Machine) (image : ByteArray) (base : Word) (entry : Option Word) :
    BootProgress :=
  match m.load base image with
  | (.error cause, m) => ⟨.error (.image cause), m, []⟩
  | (.ok bytes, m) =>
    let start := entry.getD base
    ⟨.ok (), m.mapCore fun c => { c with registers := c.registers.setPc start },
      [.imageLoaded bytes base start]⟩

/-- The machine number that asks a kernel to read the device tree. -/
def treeMachine : Word := 0xFFFFFFFF

/-- The registers a kernel expects: zero, the machine number, the device tree. -/
def kernelRegisters (s : Settings) (r : RegisterFile) : RegisterFile :=
  (((r.write .r0 0).write .r1 treeMachine).write .r2 s.treeAddress).setPc s.kernelAddress

/-- Loads a kernel and its device tree and sets the registers the kernel expects. -/
def bootKernel (m : Machine) (kernel tree : ByteArray) : BootProgress :=
  let s := m.settings
  let kernelStart := s.kernelAddress.toNat
  let treeStart := s.treeAddress.toNat
  let kernelEnd := kernelStart + kernel.size
  let treeEnd := treeStart + tree.size
  if kernelStart < treeEnd ∧ treeStart < kernelEnd then
    ⟨.error (.overlap kernelStart kernelEnd treeStart treeEnd), m, []⟩
  else
    match m.load s.kernelAddress kernel with
    | (.error cause, m) => ⟨.error (.kernel cause), m, []⟩
    | (.ok _, m) =>
      match m.load s.treeAddress tree with
      | (.error cause, m) => ⟨.error (.tree cause), m, []⟩
      | (.ok _, m) =>
        ⟨.ok (), m.mapCore fun c => { c with registers := kernelRegisters s c.registers },
          [.kernelLoaded s.kernelAddress kernel.size s.treeAddress tree.size]⟩

/-- A step that halted the core, with the registers at that moment. -/
structure HaltReport where
  cause : Failure
  dump : Dump

def HaltReport.messages (h : HaltReport) : List String :=
  ["core halted\n" ++ h.dump.text, h.cause.message]

/-- A step of the core and, unless it failed, a poll of the devices. -/
def step : Machine → Except HaltReport Outcome × Machine × List Event
  | ⟨board, settings⟩ =>
    let p := board.step settings.core.trace
    match p.result with
    | .ok outcome => (.ok outcome, ⟨p.board.poll, settings⟩, p.events)
    | .error cause => (.error ⟨cause, Dump.ofCore p.board.core⟩, ⟨p.board, settings⟩, p.events)

/-- Takes what the guest wrote to the serial line. -/
def takeConsole (m : Machine) : List Byte × Machine :=
  let (bytes, devices) := m.board.devices.takeOutput
  (bytes, { m with board := { m.board with devices } })

def branchToSelf : Word := 0xEAFFFFFE

/-- The last instruction was a branch to itself with interrupts masked. -/
def isParked (m : Machine) : Bool :=
  m.board.core.decode.shape.isSome && m.board.core.decode.word = branchToSelf
    && m.board.core.registers.current.has .irqDisabled

end Machine
end ArmMachine
