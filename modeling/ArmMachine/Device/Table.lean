import ArmMachine.AddressMap
import ArmMachine.Device

/-! The device table of a machine. An access goes to the first enabled entry whose window contains
the address, and the device sees only the offset within its window. An entry whose reset fails is
disabled for good. -/
namespace ArmMachine

/-- A device behind its window. -/
structure DeviceEntry (D : Type := Device) where
  region : Region
  device : D
  enabled : Bool

namespace DeviceEntry

variable {D : Type}

def claims (e : DeviceEntry D) (address : Word) : Bool := e.enabled && e.region.contains address

variable [Peripheral D] (e : DeviceEntry D)

/-- Resets an enabled device and disables the entry when that fails. -/
def reset : DeviceEntry D :=
  if e.enabled then
    let (failure, device) := Peripheral.reset e.device
    { e with device, enabled := failure.isNone }
  else e

def resetFailure? : Option ResetFailure :=
  if e.enabled then (Peripheral.reset e.device).1 else none

def lines : Word := if e.enabled then (Peripheral.tick e.device).1 else 0

def tick : DeviceEntry D :=
  if e.enabled then { e with device := (Peripheral.tick e.device).2 } else e

def raiseLines (lines : Word) : DeviceEntry D :=
  if e.enabled then { e with device := Peripheral.raiseLines e.device lines } else e

def assertsIrq : Bool := e.enabled && Peripheral.assertsIrq e.device

end DeviceEntry

/-- Entries in the order in which they are tried. -/
structure DeviceTable (D : Type := Device) where
  entries : List (DeviceEntry D)

namespace DeviceTable

variable {D : Type}

def empty : DeviceTable D := ⟨[]⟩

/-- Appends a device behind the addresses that agree with `base` on the bits of `mask`. -/
def register [Peripheral D] (t : DeviceTable D) (mask base : Word) (device : D) : DeviceTable D :=
  ⟨t.entries ++ [⟨⟨Peripheral.name device, mask, base⟩, device, true⟩]⟩

/-- Interrupt controller, timer and serial line at their fixed addresses. -/
def standard (interval : Word) : DeviceTable :=
  let place (t : DeviceTable) (r : Region) (d : Device) := t.register r.mask r.base d
  place (place (place empty .interruptController (.interruptController .initial))
    .timer (.timer (.ofInterval interval))) .uart (.uart .initial)

def length (t : DeviceTable D) : Nat := t.entries.length

def enabledCount (t : DeviceTable D) : Nat := t.entries.countP fun e => e.enabled

def claims (t : DeviceTable D) (address : Word) : Bool := t.entries.any fun e => e.claims address

/-- Lets the first entry that claims an address act on its offset. -/
def actFirst {α : Type} (act : D → Word → α × D) (address : Word) :
    List (DeviceEntry D) → Option α × List (DeviceEntry D)
  | [] => (none, [])
  | e :: rest =>
    if e.claims address then
      let (answer, device) := act e.device (e.region.offset address)
      (some answer, { e with device } :: rest)
    else
      let (answer, rest) := actFirst act address rest
      (answer, e :: rest)

section Bus
variable [Peripheral D] (t : DeviceTable D)

def reset : DeviceTable D := ⟨t.entries.map DeviceEntry.reset⟩

/-- The devices that a reset would disable, each with the reason. -/
def resetFailures : List ResetFailure := t.entries.filterMap DeviceEntry.resetFailure?

/-- The value masked to the width, absent when no entry claims the address. -/
def read (address : Word) (width : Width) : Option Word × DeviceTable D :=
  let (value, entries) := actFirst Peripheral.read address t.entries
  (value.map fun v => v &&& width.valueMask, ⟨entries⟩)

/-- Unchanged when no entry claims the address. -/
def write (address value : Word) (width : Width) : DeviceTable D :=
  let store (device : D) (offset : Word) :=
    ((), Peripheral.write device offset (value &&& width.valueMask) width)
  ⟨(actFirst store address t.entries).2⟩

def lines : Word := t.entries.foldl (fun lines e => lines ||| e.lines) 0

/-- Ticks every enabled device and, if that raised any lines, tells every enabled device which. -/
def poll : DeviceTable D :=
  let ticked := t.entries.map DeviceEntry.tick
  ⟨if t.lines = 0 then ticked else ticked.map fun e => e.raiseLines t.lines⟩

def irqPending : Bool := t.entries.any DeviceEntry.assertsIrq

end Bus

def controller? (t : DeviceTable) : Option InterruptController :=
  t.entries.findSome? fun e => e.device.controller?

def timer? (t : DeviceTable) : Option Timer := t.entries.findSome? fun e => e.device.timer?

def uart? (t : DeviceTable) : Option Uart := t.entries.findSome? fun e => e.device.uart?

def setUart (uart : Uart) : List DeviceEntry → List DeviceEntry
  | [] => []
  | e :: rest =>
    match e.device with
    | .uart _ => { e with device := .uart uart } :: rest
    | _ => e :: setUart uart rest

/-- Queues bytes for the guest in the first serial line. -/
def pushInput (t : DeviceTable) (bytes : List Byte) : DeviceTable :=
  match t.uart? with
  | some u => ⟨setUart (u.pushInput bytes) t.entries⟩
  | none => t

/-- Takes what the guest wrote to the first serial line. -/
def takeOutput (t : DeviceTable) : List Byte × DeviceTable :=
  match t.uart? with
  | some u =>
    let (bytes, u) := u.takeOutput
    (bytes, ⟨setUart u t.entries⟩)
  | none => ([], t)

/-- The entries with their windows and whether they are enabled. -/
def inspect (t : DeviceTable D) : String :=
  let shown (e : DeviceEntry D) : String :=
    "(\"" ++ e.region.name ++ "\", " ++ toString e.region.base.toNat ++ ", "
      ++ (if e.enabled then "true" else "false") ++ ")"
  "[" ++ ", ".intercalate (t.entries.map shown) ++ "]"

end DeviceTable
end ArmMachine
