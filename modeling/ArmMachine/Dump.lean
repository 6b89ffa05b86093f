import ArmMachine.Core

/-! A snapshot of the visible registers for the reader of a log. -/
namespace ArmMachine

structure Dump where
  /-- Registers as the current mode sees them; the last is the address of the next fetch. -/
  registers : List Word
  current : StatusWord
  saved : Option StatusWord
  fetchAddress : Word
  instructions : Word
  hits : Nat
  lookups : Nat
  deriving DecidableEq

namespace Dump

def ofCore (c : Core) : Dump where
  registers := (List.finRange 15).map (fun i => c.registers.read i.castSucc) ++ [c.registers.pc]
  current := c.registers.current
  saved := c.registers.savedStatus
  fetchAddress := c.decode.address
  instructions := c.instructionCount
  hits := c.mmu.hits
  lookups := c.mmu.lookups

/-- A register with its number in two columns. -/
def entry (id : Nat) (value : Word) : String :=
  "r" ++ String.ofList (padRight 2 ' ' (toString id).toList) ++ " " ++ hexDigits 8 value.toNat

/-- Four registers to a line, numbered from `id`. -/
def rows (id : Nat) : List Word → List String
  | a :: b :: c :: d :: rest =>
    "  ".intercalate [entry id a, entry (id + 1) b, entry (id + 2) c, entry (id + 3) d]
      :: rows (id + 4) rest
  | _ => []

def statusLine (d : Dump) : String :=
  "cpsr " ++ d.current.summary
    ++ (match d.saved with
        | some s => "  spsr " ++ s.summary
        | none => "")

def fetchLine (d : Dump) : String :=
  "last fetch " ++ d.fetchAddress.hex ++ ", " ++ toString d.instructions.toNat
    ++ " instructions, tlb " ++ toString d.hits ++ "/" ++ toString d.lookups ++ " hits"

def text (d : Dump) : String :=
  "\n".intercalate (rows 0 d.registers ++ [d.statusLine, d.fetchLine])

end Dump
end ArmMachine
