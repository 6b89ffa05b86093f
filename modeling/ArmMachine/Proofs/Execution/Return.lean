import ArmMachine.Proofs.Arithmetic
import ArmMachine.Proofs.Execution.Actions
import ArmMachine.Proofs.Execution.Exceptions

/-! Returning from an exception. The instruction that takes the offset of an entry off the link
register again, into register 15 with flags, undoes the entry: all that is left of it are the link
register and the saved status word of the mode that was entered. -/
namespace ArmMachine

/-- `subs pc, lr, #n`, with `n` what the entry added to the program counter. -/
def Instruction.exceptionReturn (kind : ExceptionKind) : Instruction :=
  ⟨0xE25EF000 + kind.returnOffset⟩

namespace RegisterFile

/-- Selection looks at the bank of the mode only for registers that the mode has to itself. -/
theorem read_congr {r t : RegisterFile} (current : t.current = r.current) {id : RegisterId}
    (cell : t.cell (r.bank.select id) id = r.cell (r.bank.select id) id) :
    t.read id = r.read id := by
  have bank : t.bank = r.bank := congrArg StatusWord.bank current
  rw [read, read, bank, cell]

theorem saved_setSavedOf_congr {r t : RegisterFile} (saved : t.saved = r.saved) (b : Bank)
    (s : StatusWord) : (t.setSavedOf b s).saved = (r.setSavedOf b s).saved := by
  unfold setSavedOf
  split
  · exact saved
  · rw [saved]

end RegisterFile

theorem Bank.select_eq (bank : Bank) (id : RegisterId) :
    bank.select id = .user ∨ bank.select id = bank := by
  unfold select
  split
  · exact .inr rfl
  · split
    · rename_i fast
      exact .inr fast.2.2.symm
    · exact .inl rfl

namespace Instruction

theorem dataResult_exceptionReturn (kind : ExceptionKind) (r : RegisterFile) :
    ((exceptionReturn kind).dataResult r).value = r.read .link - kind.returnOffset := by
  have subtracts : (exceptionReturn kind).opcode = .sub := by cases kind <;> rfl
  have first : (exceptionReturn kind).firstOperand r = r.read .link := by cases kind <;> rfl
  have second : ((exceptionReturn kind).secondOperand r).value = kind.returnOffset := by
    cases kind <;> rfl
  rw [← second, ← first, ← value_subWithCarry, dataResult, subtracts]
  rfl

theorem processData_exceptionReturn (kind : ExceptionKind) {r : RegisterFile} {s : StatusWord}
    (saved : r.savedStatus = some s) (arm : s.has .thumb = false) :
    (exceptionReturn kind).processData r =
      (.ok (), (r.setPc ((r.read .link - kind.returnOffset) &&& ~~~3#32)).setCurrent s) := by
  have keeps : (exceptionReturn kind).opcode.isCompare = false := by cases kind <;> rfl
  have destination : (exceptionReturn kind).rd = .pc := by cases kind <;> rfl
  have flags : (exceptionReturn kind).setsFlags = true := by cases kind <;> rfl
  have restored : ∀ value, (r.setPc value).restoreStatus = .ok ((r.setPc value).setCurrent s) := by
    intro value
    have kept : (r.setPc value).savedStatus = some s := saved
    rw [RegisterFile.restoreStatus, kept]
    simp [arm]
  simp [processData, keeps, destination, flags, RegisterFile.writeResult, restored,
    dataResult_exceptionReturn]

theorem execute_exceptionReturn (kind : ExceptionKind) :
    (exceptionReturn kind).execute = (exceptionReturn kind).processDataOnBoard := by
  have shape : (exceptionReturn kind).shape = .dataImmediate := by cases kind <;> rfl
  rw [execute, shape]

end Instruction

namespace Core

variable (c : Core) (kind : ExceptionKind)

theorem read_link_enteredRegisters :
    (c.enteredRegisters kind).read .link = c.returnAddress kind := by
  have bank : (c.enteredRegisters kind).bank = kind.bank := by
    rw [RegisterFile.bank, current_enteredRegisters, bank_enteredStatus]
  have selected : kind.bank.select .link = kind.bank := rfl
  have plain : ∀ value, RegisterFile.operandView .link value = value := fun _ => rfl
  rw [RegisterFile.read, bank, selected, plain, cell_enteredRegisters, if_neg (by simp [
    kind.bank_ne_user]), if_pos ⟨rfl, rfl⟩]

theorem savedStatus_enteredRegisters :
    (c.enteredRegisters kind).savedStatus = some c.registers.current := by
  have bank : (c.enteredRegisters kind).bank = kind.bank := by
    rw [RegisterFile.bank, current_enteredRegisters, bank_enteredStatus]
  rw [RegisterFile.savedStatus, bank, savedOf_enteredRegisters, if_pos rfl]

theorem saved_enteredRegisters :
    (c.enteredRegisters kind).saved =
      (c.registers.setSavedOf kind.bank c.registers.current).saved := by
  rw [← bank_enteredStatus c.registers.current kind]
  exact RegisterFile.saved_setSavedOf_congr (r := c.registers)
    (t := c.registers.setCurrent (enteredStatus c.registers.current kind)) rfl _ _

/-- What is left of an entry once it has been returned from. -/
def leftRegisters : RegisterFile :=
  (c.registers.setSavedOf kind.bank c.registers.current).setCell kind.bank .link
    (c.returnAddress kind)

/-- The entry leaves its return address in the link register, from which the return finds back. -/
theorem returned_registers (aligned : c.registers.pc &&& 3 = 0) :
    let entered := c.enteredRegisters kind
    (entered.setPc ((entered.read .link - kind.returnOffset) &&& ~~~3#32)).setCurrent
        c.registers.current = c.leftRegisters kind := by
  have whole : c.registers.pc &&& ~~~3#32 = c.registers.pc := by
    generalize c.registers.pc = pc at aligned
    apply BitVec.eq_of_getLsbD_eq
    intro i inside
    have bit := congrArg (fun w => w.getLsbD i) aligned
    simp only [BitVec.getLsbD_and, BitVec.getLsbD_not, inside, decide_true, Bool.true_and] at bit ⊢
    cases set : (3#32).getLsbD i with
    | false => simp
    | true => simpa [set] using bit.symm
  intro entered
  have back : (entered.read .link - kind.returnOffset) &&& ~~~3#32 = c.registers.pc := by
    rw [read_link_enteredRegisters, returnAddress, BitVec.add_sub_cancel, whole]
  rw [back]
  refine RegisterFile.ext_cells (fun bank id => ?_) ?_ (c.saved_enteredRegisters kind)
  · rw [RegisterFile.cell_setCurrent, RegisterFile.cell_setPc, cell_enteredRegisters,
      leftRegisters, RegisterFile.cell_setCell, RegisterFile.cell_setSavedOf]
    by_cases counter : bank = .user ∧ id = .pc
    · obtain ⟨rfl, rfl⟩ := counter
      simp [RegisterId.pc, RegisterId.link]
      rfl
    · simp only [counter, if_false, eq_comm]
  · rw [leftRegisters, RegisterFile.current_setCell, RegisterFile.current_setSavedOf]
    rfl

variable {c kind} {bank : Bank} {id : RegisterId}

@[simp] theorem current_leftRegisters : (c.leftRegisters kind).current = c.registers.current :=
  RegisterFile.current_setSavedOf _ _ _

theorem cell_leftRegisters (other : ¬ (bank = kind.bank ∧ id = .link)) :
    (c.leftRegisters kind).cell bank id = c.registers.cell bank id := by
  rw [leftRegisters, RegisterFile.cell_setCell, RegisterFile.cell_setSavedOf, if_neg]
  rintro ⟨rfl, rfl⟩
  exact other ⟨rfl, rfl⟩

theorem savedOf_leftRegisters (other : bank ≠ kind.bank) :
    (c.leftRegisters kind).savedOf bank = c.registers.savedOf bank := by
  have kept := c.registers.savedOf_setSavedOf kind.bank bank c.registers.current
  rw [if_neg fun same => other same.1.symm] at kept
  exact kept

/-- A mode that keeps its registers elsewhere than the entered mode sees nothing of the entry. -/
theorem read_leftRegisters (apart : c.registers.bank ≠ kind.bank) (id : RegisterId) :
    (c.leftRegisters kind).read id = c.registers.read id := by
  refine RegisterFile.read_congr current_leftRegisters (cell_leftRegisters ?_)
  rintro ⟨selected, -⟩
  obtain shared | own := c.registers.bank.select_eq id
  · exact kind.bank_ne_user (selected.symm.trans shared)
  · exact apart (own.symm.trans selected)

theorem savedStatus_leftRegisters (apart : c.registers.bank ≠ kind.bank) :
    (c.leftRegisters kind).savedStatus = c.registers.savedStatus := by
  have bank : (c.leftRegisters kind).bank = c.registers.bank :=
    congrArg StatusWord.bank current_leftRegisters
  rw [RegisterFile.savedStatus, bank, savedOf_leftRegisters apart]
  rfl

end Core

namespace Board

theorem execute_return (b : Board) (kind : ExceptionKind)
    (arm : b.core.registers.current.has .thumb = false) (aligned : b.core.registers.pc &&& 3 = 0) :
    (b.mapCore fun c => c.enter kind).run (Instruction.exceptionReturn kind).execute =
      (.ok (), b.mapCore fun c => { c.enter kind with registers := c.leftRegisters kind }) := by
  have returned := Instruction.processData_exceptionReturn kind
    (b.core.savedStatus_enteredRegisters kind) arm
  rw [Core.returned_registers b.core kind aligned] at returned
  have run := Instruction.run_processData (b.mapCore fun c => c.enter kind) (.exceptionReturn kind)
  have registers : (b.mapCore fun c => c.enter kind).core.registers =
      b.core.enteredRegisters kind := rfl
  rw [registers, returned] at run
  rw [Instruction.execute_exceptionReturn, run]
  rfl

/-- Entering an exception and returning from it changes only the link register and the saved status
word of the entered mode. The interrupted mode keeps its own, unless the entered mode uses the same
bank; its status word may have any bits but that of the short instruction set. -/
theorem return_undoes_entry (b : Board) (kind : ExceptionKind)
    (arm : b.core.registers.current.has .thumb = false) (aligned : b.core.registers.pc &&& 3 = 0)
    (apart : b.core.registers.bank ≠ kind.bank) :
    let before := b.core.registers
    let returned := (b.mapCore fun c => c.enter kind).execute (.exceptionReturn kind)
    let after := returned.board.core.registers
    returned.result = .ok () ∧ after.current = before.current ∧ after.pc = before.pc ∧
      (∀ id, after.read id = before.read id) ∧ after.savedStatus = before.savedStatus ∧
      (∀ bank id, ¬ (bank = kind.bank ∧ id = .link) →
        after.cell bank id = before.cell bank id) ∧
      (∀ bank, bank ≠ kind.bank → after.savedOf bank = before.savedOf bank) ∧
      returned.board.core.ram = b.core.ram ∧ returned.board.core.mmu = b.core.mmu ∧
      returned.board.devices = b.devices := by
  have run := b.execute_return kind arm aligned
  intro before returned after
  have result : returned.result = .ok () := congrArg Prod.fst run
  have board : returned.board =
      b.mapCore fun c => { c.enter kind with registers := c.leftRegisters kind } :=
    congrArg Prod.snd run
  have registers : after = b.core.leftRegisters kind := by
    change returned.board.core.registers = _
    rw [board]
    rfl
  have counter : ¬ (Bank.user = kind.bank ∧ RegisterId.pc = .link) := by
    rintro ⟨-, same⟩
    cases same
  rw [registers, board]
  exact ⟨result, Core.current_leftRegisters, Core.cell_leftRegisters counter,
    Core.read_leftRegisters apart, Core.savedStatus_leftRegisters apart,
    fun _ _ => Core.cell_leftRegisters, fun _ => Core.savedOf_leftRegisters, rfl, rfl, rfl⟩

/-- A core in monitor mode with all flags set and high vectors. Monitor mode uses the user bank, and
undefined instructions are handled in the bank that is named after it. -/
def monitorCode : Board where
  core :=
    { registers :=
        { (RegisterFile.initial.write .link 7).setPc 0x8000 with current := ⟨0xF8000056⟩ }
      mmu := { Mmu.initial true with control := 0x2000 }
      ram := ⟨⟨#[]⟩⟩
      decode := .idle 0x7FFC
      instructionCount := 0
      runState := .running
      diagnostics := .initial }
  devices := .empty

theorem return_undoes_entry_monitorCode :
    let entered := monitorCode.mapCore fun c => c.enter .undefined
    let returned := (entered.execute (.exceptionReturn .undefined)).board.core.registers
    entered.core.registers.pc = 0xFFFF0004 ∧ entered.core.registers.bank = .monitor ∧
      returned.current = ⟨0xF8000056⟩ ∧ returned.pc = 0x8000 ∧
      returned.read .link = monitorCode.core.registers.read .link := by
  obtain ⟨-, current, pc, read, -⟩ :=
    return_undoes_entry monitorCode .undefined (by rfl) (by rfl) (by decide)
  exact ⟨by rfl, by rfl, current, pc, read .link⟩

end Board
end ArmMachine
