import ArmMachine.Status

/-! The banked register file. Registers 0 to 7 and 15 live in the user bank, 8 to 12 in the fast
interrupt bank while that mode is current, 13 and 14 in the bank of the current mode. The theorems
say what every update does to every cell, which is all that later arguments need. -/
namespace ArmMachine

abbrev RegisterId := Fin 16

namespace RegisterId

def r0 : RegisterId := 0
def r1 : RegisterId := 1
def r2 : RegisterId := 2
def stack : RegisterId := 13
def link : RegisterId := 14
def pc : RegisterId := 15

end RegisterId

/-- Where a cell is kept: `select` names the bank a register number refers to while `bank` is the
bank of the current mode. -/
def Bank.select (bank : Bank) (id : RegisterId) : Bank :=
  if id = 13 ∨ id = 14 then bank
  else if 8 ≤ id ∧ id ≤ 12 ∧ bank = .fiq then .fiq
  else .user

structure RegisterFile where
  cells : Vector (Vector Word 16) 7
  current : StatusWord
  saved : Vector StatusWord 6
  deriving DecidableEq

namespace RegisterFile

/-- All cells are zero and every status word names supervisor mode with interrupts enabled. -/
def initial : RegisterFile where
  cells := Vector.replicate 7 (Vector.replicate 16 0)
  current := ⟨0x13⟩
  saved := Vector.replicate 6 ⟨0x13⟩

/-- The raw content of a cell. -/
def cell (r : RegisterFile) (bank : Bank) (id : RegisterId) : Word := r.cells[bank.index][id]

def setCell (r : RegisterFile) (bank : Bank) (id : RegisterId) (value : Word) : RegisterFile :=
  { r with cells := r.cells.set bank.index (r.cells[bank.index].set id value) }

/-- The bank of the current mode. -/
def bank (r : RegisterFile) : Bank := r.current.bank

/-- The address of the next fetch. -/
def pc (r : RegisterFile) : Word := r.cell .user .pc

def setPc (r : RegisterFile) (value : Word) : RegisterFile := r.setCell .user .pc value

/-- Operands see register 15 four bytes ahead of the next fetch, that is eight bytes past the
instruction being executed. -/
def operandView (id : RegisterId) (stored : Word) : Word :=
  if id = .pc then stored + 4 else stored

def read (r : RegisterFile) (id : RegisterId) : Word :=
  operandView id (r.cell (r.bank.select id) id)

/-- Register 15 is written as it stands. -/
def write (r : RegisterFile) (id : RegisterId) (value : Word) : RegisterFile :=
  r.setCell (r.bank.select id) id value

/-- Reads from the user bank in every mode. -/
def readUser (r : RegisterFile) (id : RegisterId) : Word := operandView id (r.cell .user id)

/-- Writes to the user bank in every mode. -/
def writeUser (r : RegisterFile) (id : RegisterId) (value : Word) : RegisterFile :=
  r.setCell .user id value

/-- A value that lands in register 15 is a branch target and loses its low two bits. -/
def writeResult (r : RegisterFile) (id : RegisterId) (value : Word) : RegisterFile :=
  if id = .pc then r.setPc (value &&& ~~~3#32) else r.write id value

/-- Bank selection follows the new mode field. -/
def setCurrent (r : RegisterFile) (s : StatusWord) : RegisterFile := { r with current := s }

def savedOf (r : RegisterFile) (bank : Bank) : Option StatusWord :=
  bank.savedIndex?.map fun i => r.saved[i]

/-- Ignored for the user bank. -/
def setSavedOf (r : RegisterFile) (bank : Bank) (s : StatusWord) : RegisterFile :=
  match bank.savedIndex? with
  | none => r
  | some i => { r with saved := r.saved.set i s }

/-- The saved status word of the current mode. -/
def savedStatus (r : RegisterFile) : Option StatusWord := r.savedOf r.bank

def setSavedStatus (r : RegisterFile) (s : StatusWord) : RegisterFile := r.setSavedOf r.bank s

theorem cell_setCell (r : RegisterFile) (b b' : Bank) (i i' : RegisterId) (v : Word) :
    (r.setCell b i v).cell b' i' = if b = b' ∧ i = i' then v else r.cell b' i' := by
  simp only [cell, setCell, Fin.getElem_fin, Vector.getElem_set]
  by_cases hb : b = b'
  · subst hb
    by_cases hi : i = i'
    · simp [hi]
    · simp [hi, Fin.val_inj]
  · have : ¬ b.index.val = b'.index.val := fun h => hb (Bank.index_inj (Fin.ext h))
    simp [this, hb]

@[simp] theorem current_setCell (r : RegisterFile) (b : Bank) (i : RegisterId) (v : Word) :
    (r.setCell b i v).current = r.current := rfl

@[simp] theorem saved_setCell (r : RegisterFile) (b : Bank) (i : RegisterId) (v : Word) :
    (r.setCell b i v).saved = r.saved := rfl

@[simp] theorem cell_setCurrent (r : RegisterFile) (s : StatusWord) (b : Bank) (i : RegisterId) :
    (r.setCurrent s).cell b i = r.cell b i := rfl

@[simp] theorem current_setCurrent (r : RegisterFile) (s : StatusWord) :
    (r.setCurrent s).current = s := rfl

@[simp] theorem saved_setCurrent (r : RegisterFile) (s : StatusWord) :
    (r.setCurrent s).saved = r.saved := rfl

@[simp] theorem current_setSavedOf (r : RegisterFile) (b : Bank) (s : StatusWord) :
    (r.setSavedOf b s).current = r.current := by
  unfold setSavedOf
  split <;> rfl

@[simp] theorem cell_setSavedOf (r : RegisterFile) (b : Bank) (s : StatusWord) (b' : Bank)
    (i : RegisterId) : (r.setSavedOf b s).cell b' i = r.cell b' i := by
  unfold setSavedOf
  split <;> rfl

/-- Two register files are equal when every cell, the current status and the saved status words are.
-/
theorem ext_cells {r t : RegisterFile} (cells : ∀ b i, r.cell b i = t.cell b i)
    (current : r.current = t.current) (saved : r.saved = t.saved) : r = t := by
  have same : r.cells = t.cells := by
    apply Vector.ext
    intro b hb
    apply Vector.ext
    intro i hi
    have covered : ∃ bank : Bank, bank.index.val = b := by
      match b, hb with
      | 0, _ => exact ⟨.user, rfl⟩
      | 1, _ => exact ⟨.fiq, rfl⟩
      | 2, _ => exact ⟨.irq, rfl⟩
      | 3, _ => exact ⟨.supervisor, rfl⟩
      | 4, _ => exact ⟨.undefined, rfl⟩
      | 5, _ => exact ⟨.abort, rfl⟩
      | 6, _ => exact ⟨.monitor, rfl⟩
    obtain ⟨bank, rfl⟩ := covered
    exact cells bank ⟨i, hi⟩
  cases r
  cases t
  simp_all

theorem cell_setPc (r : RegisterFile) (v : Word) (b : Bank) (i : RegisterId) :
    (r.setPc v).cell b i = if b = .user ∧ i = .pc then v else r.cell b i := by
  rw [setPc, cell_setCell]
  simp only [eq_comm]

@[simp] theorem pc_setPc (r : RegisterFile) (v : Word) : (r.setPc v).pc = v := by
  rw [pc, cell_setPc, if_pos ⟨rfl, rfl⟩]

theorem setPc_setPc (r : RegisterFile) (v w : Word) : (r.setPc v).setPc w = r.setPc w := by
  refine ext_cells (fun bank id => ?_) rfl rfl
  simp only [cell_setPc]
  split <;> rfl

theorem setPc_pc (r : RegisterFile) : r.setPc r.pc = r := by
  refine ext_cells (fun bank id => ?_) rfl rfl
  rw [cell_setPc]
  split
  · rename_i here
    obtain ⟨rfl, rfl⟩ := here
    rfl
  · rfl

end RegisterFile
end ArmMachine
