import ArmMachine.Word

/-! Program status words. The low five bits name the processor mode; a status word may hold a
reserved encoding there, which selects the same registers as user mode but counts as privileged.
Each mode selects a register bank, and the banks other than the user bank keep a saved status word.
-/
namespace ArmMachine

inductive Mode where
  | user | fiq | irq | supervisor | monitor | abort | undefined | system
  deriving DecidableEq, Repr

namespace Mode

def all : List Mode := [user, fiq, irq, supervisor, monitor, abort, undefined, system]

def code : Mode → BitVec 5
  | user => 0x10 | fiq => 0x11 | irq => 0x12 | supervisor => 0x13
  | monitor => 0x16 | abort => 0x17 | undefined => 0x1B | system => 0x1F

def ofCode? (c : BitVec 5) : Option Mode := all.find? fun m => m.code = c

theorem ofCode?_code (m : Mode) : ofCode? m.code = some m := by cases m <;> rfl

theorem code_ofCode? {c : BitVec 5} {m : Mode} (h : ofCode? c = some m) : m.code = c := by
  simpa [ofCode?] using List.find?_some h

def name : Mode → String
  | user => "User" | fiq => "Fiq" | irq => "Irq" | supervisor => "Svc"
  | monitor => "Mon" | abort => "Abort" | undefined => "Undef" | system => "System"

/-- The three letters shown in register dumps. -/
def shortName : Mode → String
  | user => "usr" | fiq => "fiq" | irq => "irq" | supervisor => "svc"
  | monitor => "mon" | abort => "abt" | undefined => "und" | system => "sys"

end Mode

/-- Register banks. Only some registers of a bank are ever selected. -/
inductive Bank where
  | user | fiq | irq | supervisor | undefined | abort | monitor
  deriving DecidableEq, Repr

namespace Bank

def all : List Bank := [user, fiq, irq, supervisor, undefined, abort, monitor]

def index : Bank → Fin 7
  | user => 0 | fiq => 1 | irq => 2 | supervisor => 3 | undefined => 4 | abort => 5 | monitor => 6

theorem index_inj {a b : Bank} (h : a.index = b.index) : a = b := by
  cases a <;> cases b <;> simp_all [index]

/-- Place of the bank's saved status word; the user bank has none. -/
def savedIndex? : Bank → Option (Fin 6)
  | user => none
  | fiq => some 0 | irq => some 1 | supervisor => some 2
  | undefined => some 3 | abort => some 4 | monitor => some 5

/-- User, system and monitor modes and every reserved encoding share the user bank. Undefined mode
keeps its registers and saved status in the monitor bank. -/
def ofCode (c : BitVec 5) : Bank :=
  if c = 0x11 then fiq
  else if c = 0x12 then irq
  else if c = 0x13 then supervisor
  else if c = 0x17 then abort
  else if c = 0x1B then monitor
  else user

end Bank

/-- The single-bit fields of a status word. -/
inductive StatusBit where
  | negative | zero | carry | overflow | stickyOverflow | irqDisabled | fiqDisabled | thumb
  deriving DecidableEq, Repr

def StatusBit.position : StatusBit → Nat
  | negative => 31 | zero => 30 | carry => 29 | overflow => 28 | stickyOverflow => 27
  | irqDisabled => 7 | fiqDisabled => 6 | thumb => 5

def StatusBit.mask (b : StatusBit) : Word := 1#32 <<< b.position

structure StatusWord where
  raw : Word
  deriving DecidableEq, Repr

namespace StatusWord

/-- The four condition flags, bits 31:28. -/
def flagMask : Word := 0xF0000000

def has (s : StatusWord) (b : StatusBit) : Bool := s.raw.getLsbD b.position

def assign (s : StatusWord) (b : StatusBit) (on : Bool) : StatusWord :=
  ⟨if on then s.raw ||| b.mask else s.raw &&& ~~~b.mask⟩

def modeCode (s : StatusWord) : BitVec 5 := s.raw.extractLsb' 0 5

/-- The decoded mode, absent for a reserved encoding. -/
def mode? (s : StatusWord) : Option Mode := Mode.ofCode? s.modeCode

def withMode (s : StatusWord) (m : Mode) : StatusWord :=
  ⟨(s.raw &&& ~~~0x1F#32) ||| m.code.zeroExtend 32⟩

def bank (s : StatusWord) : Bank := Bank.ofCode s.modeCode

/-- Everything but user mode is privileged. -/
def privileged (s : StatusWord) : Bool := s.modeCode ≠ Mode.user.code

/-- Negative and zero as a result leaves them. -/
def withResult (s : StatusWord) (result : Word) : StatusWord :=
  (s.assign .negative result.msb).assign .zero (result == 0)

/-- One letter per flag that is set, a dash per flag that is clear, then the mode. -/
def summary (s : StatusWord) : String :=
  let letter (b : StatusBit) (c : Char) : Char := if s.has b then c else '-'
  String.ofList [letter .negative 'N', letter .zero 'Z', letter .carry 'C', letter .overflow 'V',
    letter .irqDisabled 'I', letter .fiqDisabled 'F', letter .thumb 'T', ' ']
    ++ (s.mode?.map Mode.shortName).getD "???"

def inspect (s : StatusWord) : String :=
  let shown (label : String) (b : StatusBit) : String :=
    ", " ++ label ++ ": " ++ (if s.has b then "true" else "false")
  "StatusWord \x7b raw: " ++ s.raw.hex ++ shown "n" .negative ++ shown "z" .zero
    ++ shown "c" .carry ++ shown "v" .overflow ++ shown "i" .irqDisabled ++ shown "f" .fiqDisabled
    ++ shown "t" .thumb ++ ", mode: "
    ++ (match s.mode? with
        | some m => "Some(" ++ m.name ++ ")"
        | none => "None")
    ++ " \x7d"

end StatusWord
end ArmMachine
