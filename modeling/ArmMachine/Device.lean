import ArmMachine.Device.InterruptController
import ArmMachine.Device.Peripheral
import ArmMachine.Device.Timer
import ArmMachine.Device.Uart

/-! The devices that a machine may have: the standard ones, which the host can look into, and any
other. -/
namespace ArmMachine

inductive Device where
  | interruptController (controller : InterruptController)
  | timer (timer : Timer)
  | uart (uart : Uart)
  /-- A device of any other kind, with its state as bytes. -/
  | other (kind : Peripheral (List Byte)) (state : List Byte)

namespace Device

def unbacked (name reason : String) : Device := other (.unbacked name reason) []

def name : Device → String
  | interruptController _ => "intc"
  | timer _ => "timer"
  | uart _ => "uart"
  | other kind state => kind.name state

def reset : Device → Option ResetFailure × Device
  | interruptController _ => (none, interruptController .initial)
  | timer t => (none, timer t.reset)
  | uart u => (none, uart u.reset)
  | other kind state =>
    let (failure, state) := kind.reset state
    (failure, other kind state)

def read (d : Device) (offset : Word) : Word × Device :=
  match d with
  | interruptController c => (c.read offset, d)
  | timer t => (t.read offset, d)
  | uart u =>
    let (value, u) := u.read offset
    (value, uart u)
  | other kind state =>
    let (value, state) := kind.read state offset
    (value, other kind state)

/-- The standard devices do not care for the width. -/
def write (d : Device) (offset value : Word) (width : Width) : Device :=
  match d with
  | interruptController c => interruptController (c.write offset value)
  | timer t => timer (t.write offset value)
  | uart u => uart (u.write offset value)
  | other kind state => other kind (kind.write state offset value width)

def timerLine : Word := 1

def uartLine : Word := 2

/-- One poll: the lines the device raises, and the device afterwards. -/
def tick (d : Device) : Word × Device :=
  match d with
  | interruptController _ => (0, d)
  | timer t =>
    let (fired, t) := t.tick
    (if fired then timerLine else 0, timer t)
  | uart u => (if u.raises then uartLine else 0, d)
  | other kind state =>
    let (lines, state) := kind.tick state
    (lines, other kind state)

def raiseLines (d : Device) (lines : Word) : Device :=
  match d with
  | interruptController c => interruptController (c.raiseLines lines)
  | timer _ | uart _ => d
  | other kind state => other kind (kind.raiseLines state lines)

def assertsIrq : Device → Bool
  | interruptController c => c.asserted
  | timer _ | uart _ => false
  | other kind state => kind.assertsIrq state

instance : Peripheral Device where
  name := name
  reset := reset
  read := read
  write := write
  tick := tick
  raiseLines := raiseLines
  assertsIrq := assertsIrq

@[simp] theorem peripheral_tick (d : Device) : Peripheral.tick d = d.tick := rfl

@[simp] theorem peripheral_assertsIrq (d : Device) : Peripheral.assertsIrq d = d.assertsIrq := rfl

def controller? : Device → Option InterruptController
  | interruptController c => some c
  | _ => none

def timer? : Device → Option Timer
  | timer t => some t
  | _ => none

def uart? : Device → Option Uart
  | uart u => some u
  | _ => none

end Device
end ArmMachine
