import ArmMachine.Word

/-! A serial line with byte registers four bytes apart. Transmission completes at once: bytes the
guest writes queue up for the host, and bytes the host pushes queue up for the guest. While the
divisor-latch bit is set, registers 0 and 1 show the divisor and reach neither queue. -/
namespace ArmMachine

structure Uart where
  /-- Bytes the guest has yet to read, oldest first. -/
  received : List Byte
  /-- Bytes the host has yet to take, oldest first. -/
  transmitted : Array Byte
  interruptEnable : Byte
  lineControl : Byte
  modemControl : Byte
  fifoControl : Byte
  scratch : Byte
  divisorLow : Byte
  divisorHigh : Byte
  /-- The transmitter became empty and the guest has not been told. -/
  emptyPending : Bool
  deriving DecidableEq

/-- What the serial line asks attention for; received bytes come first. -/
inductive UartInterrupt where
  | none | transmitterEmpty | dataAvailable
  deriving DecidableEq, Repr

def UartInterrupt.code : UartInterrupt → Byte
  | none => 0x01 | transmitterEmpty => 0x02 | dataAvailable => 0x04

namespace Uart

def initial : Uart := ⟨[], #[], 0, 0, 0, 0, 0, 0, 0, false⟩

/-- Everything returns to its initial value but the bytes already received. -/
def reset (u : Uart) : Uart := { initial with received := u.received }

def pushInput (u : Uart) (bytes : List Byte) : Uart := { u with received := u.received ++ bytes }

def takeOutput (u : Uart) : List Byte × Uart :=
  (u.transmitted.toList, { u with transmitted := #[] })

def divisor (u : Uart) : Nat := u.divisorHigh.toNat * 256 + u.divisorLow.toNat

def divisorLatch (u : Uart) : Bool := u.lineControl.getLsbD 7

def interrupt (u : Uart) : UartInterrupt :=
  if u.interruptEnable.getLsbD 0 && !u.received.isEmpty then .dataAvailable
  else if u.interruptEnable.getLsbD 1 && u.emptyPending then .transmitterEmpty
  else .none

/-- The interrupt code, under the two top bits that say the queues are enabled. -/
def identification (u : Uart) : Byte :=
  (if u.fifoControl.getLsbD 0 then 0xC0 else 0) ||| u.interrupt.code

/-- The transmitter is always empty; bit 0 says whether a byte was received. -/
def lineStatus (u : Uart) : Byte := (if u.received.isEmpty then 0 else 0x01) ||| 0x60

/-- Carrier, data set and clear-to-send are always on. -/
def modemStatus : Byte := 0xB0

def register (offset : Word) : Nat := (offset >>> 2).toNat

def readByte (u : Uart) (offset : Word) : Byte × Uart :=
  match register offset with
  | 0 =>
    if u.divisorLatch then (u.divisorLow, u)
    else
      match u.received with
      | [] => (0, u)
      | b :: rest => (b, { u with received := rest })
  | 1 => (if u.divisorLatch then u.divisorHigh else u.interruptEnable, u)
  | 2 =>
    (u.identification,
      if u.interrupt = .transmitterEmpty then { u with emptyPending := false } else u)
  | 3 => (u.lineControl, u)
  | 4 => (u.modemControl, u)
  | 5 => (u.lineStatus, u)
  | 6 => (modemStatus, u)
  | 7 => (u.scratch, u)
  | _ => (0, u)

def read (u : Uart) (offset : Word) : Word × Uart :=
  let (b, u) := u.readByte offset
  (b.zeroExtend 32, u)

def writeFifoControl (u : Uart) (b : Byte) : Uart :=
  { u with
    fifoControl := b
    received := if b.getLsbD 1 then [] else u.received
    transmitted := if b.getLsbD 2 then #[] else u.transmitted }

def writeByte (u : Uart) (offset : Word) (b : Byte) : Uart :=
  match register offset with
  | 0 =>
    if u.divisorLatch then { u with divisorLow := b }
    else { u with transmitted := u.transmitted.push b, emptyPending := true }
  | 1 =>
    if u.divisorLatch then { u with divisorHigh := b }
    else { u with interruptEnable := b &&& 0x0F, emptyPending := u.emptyPending || b.getLsbD 1 }
  | 2 => u.writeFifoControl b
  | 3 => { u with lineControl := b }
  | 4 => { u with modemControl := b &&& 0x1F }
  | 7 => { u with scratch := b }
  | _ => u

/-- Only the low byte of the value counts. -/
def write (u : Uart) (offset value : Word) : Uart := u.writeByte offset (value.lane 0)

def raises (u : Uart) : Bool := u.interrupt ≠ .none

end Uart
end ArmMachine
