import ArmMachine.Core

/-! Entering an exception. Beside the program counter only the current status, the saved status and
the link register of the entered mode are written. -/
namespace ArmMachine
namespace ExceptionKind

/-- The bank of the mode that handles a kind of exception. -/
def bank (kind : ExceptionKind) : Bank := Bank.ofCode kind.mode.code

theorem bank_ne_user (kind : ExceptionKind) : kind.bank ≠ .user := by cases kind <;> decide

end ExceptionKind

namespace StatusWord

theorem getLsbD_assign (s : StatusWord) (b : StatusBit) (on : Bool) (j : Nat)
    (word : j < 32) :
    (s.assign b on).raw.getLsbD j = if j = b.position then on else s.raw.getLsbD j := by
  have mask : b.mask.getLsbD j = decide (j = b.position) := by
    unfold StatusBit.mask
    rw [BitVec.getLsbD_shiftLeft]
    simp only [word, decide_true, Bool.true_and, BitVec.getLsbD_one]
    rw [Bool.eq_iff_iff]
    simp
    omega
  cases on with
  | false =>
    simp only [assign, Bool.false_eq_true, if_false, BitVec.getLsbD_and, BitVec.getLsbD_not, word,
      decide_true, Bool.true_and, mask]
    by_cases same : j = b.position <;> simp [same]
  | true =>
    simp only [assign, if_true, BitVec.getLsbD_or, mask]
    by_cases same : j = b.position <;> simp [same]

@[simp] theorem modeCode_assign (s : StatusWord) (b : StatusBit) (on : Bool) :
    (s.assign b on).modeCode = s.modeCode := by
  apply BitVec.eq_of_getLsbD_eq
  intro j low
  have above : j ≠ b.position := by cases b <;> simp only [StatusBit.position] <;> omega
  simp only [modeCode, BitVec.getLsbD_extractLsb', Nat.zero_add,
    s.getLsbD_assign b on j (by omega), above, if_false]

@[simp] theorem modeCode_withMode (s : StatusWord) (m : Mode) :
    (s.withMode m).modeCode = m.code := by
  apply BitVec.eq_of_getLsbD_eq
  intro j low
  have cleared : ∀ j < 5, (~~~0x1F#32).getLsbD j = false := by decide
  simp only [modeCode, withMode, BitVec.getLsbD_extractLsb', low, Nat.zero_add, BitVec.getLsbD_or,
    BitVec.getLsbD_and, cleared j low, BitVec.truncate_eq_setWidth, BitVec.getLsbD_setWidth,
    (by omega : j < 32), decide_true, Bool.true_and, Bool.and_false, Bool.false_or]

end StatusWord

theorem Bank.savedIndex?_inj {b b' : Bank} (same : b.savedIndex? = b'.savedIndex?) : b = b' := by
  cases b <;> cases b' <;> first | rfl | cases same

/-- The user bank is the only one without a saved status word. -/
theorem RegisterFile.savedOf_setSavedOf (r : RegisterFile) (b b' : Bank) (s : StatusWord) :
    (r.setSavedOf b s).savedOf b' = if b = b' ∧ b ≠ .user then some s else r.savedOf b' := by
  have user : Bank.user.savedIndex? = none := rfl
  unfold setSavedOf
  cases index : b.savedIndex? with
  | none =>
    obtain rfl := Bank.savedIndex?_inj (index.trans user.symm)
    simp
  | some i =>
    have banked : b ≠ .user := by
      rintro rfl
      cases index
    by_cases same : b = b'
    · subst same
      simp [savedOf, index, banked]
    · simp only [same, false_and, if_false, savedOf]
      cases other : b'.savedIndex? with
      | none => rfl
      | some j =>
        have apart : ¬ (i : Nat) = j := by
          intro equal
          exact same (Bank.savedIndex?_inj (by rw [index, other, Fin.ext equal]))
        simp [Vector.getElem_set, apart]

namespace Core

theorem modeCode_enteredStatus (s : StatusWord) (kind : ExceptionKind) :
    (enteredStatus s kind).modeCode = kind.mode.code := by
  unfold enteredStatus
  dsimp only
  split <;> simp only [StatusWord.modeCode_assign, StatusWord.modeCode_withMode]

theorem bank_enteredStatus (s : StatusWord) (kind : ExceptionKind) :
    (enteredStatus s kind).bank = kind.bank := by
  rw [StatusWord.bank, modeCode_enteredStatus, ExceptionKind.bank]

theorem vectorAddress_congr {c c' : Core} (control : c'.mmu.control = c.mmu.control)
    (kind : ExceptionKind) : c'.vectorAddress kind = c.vectorAddress kind := by
  rw [vectorAddress, vectorAddress, control]

variable (c : Core) (kind : ExceptionKind) (bank : Bank)

@[simp] theorem current_enteredRegisters :
    (c.enteredRegisters kind).current = enteredStatus c.registers.current kind := by
  simp [enteredRegisters, RegisterFile.setPc, RegisterFile.write, RegisterFile.setSavedStatus]

theorem cell_enteredRegisters (id : RegisterId) :
    (c.enteredRegisters kind).cell bank id =
      if bank = .user ∧ id = .pc then c.vectorAddress kind
      else if bank = kind.bank ∧ id = .link then c.returnAddress kind
      else c.registers.cell bank id := by
  have selected : Bank.select kind.bank .link = kind.bank := rfl
  simp only [enteredRegisters, RegisterFile.setPc, RegisterFile.write, RegisterFile.setSavedStatus,
    RegisterFile.cell_setCell, RegisterFile.cell_setSavedOf, RegisterFile.cell_setCurrent,
    RegisterFile.bank, RegisterFile.current_setSavedOf, RegisterFile.current_setCurrent,
    bank_enteredStatus, selected, eq_comm]

theorem savedOf_enteredRegisters :
    (c.enteredRegisters kind).savedOf bank =
      if bank = kind.bank then some c.registers.current else c.registers.savedOf bank := by
  have entered : (c.enteredRegisters kind).savedOf bank =
      ((c.registers.setCurrent (enteredStatus c.registers.current kind)).setSavedOf kind.bank
        c.registers.current).savedOf bank := by
    rw [← bank_enteredStatus c.registers.current kind]
    rfl
  rw [entered, RegisterFile.savedOf_setSavedOf]
  simp only [kind.bank_ne_user, ne_eq, not_false_eq_true, and_true, eq_comm]
  rfl

end Core
end ArmMachine
