import ArmMachine.Proofs.Execution.Exceptions
import ArmMachine.Semantics.Execution

/-! What user mode sees of a register file: the user bank and the current status. An update that is
unprivileged works on these alone, whatever the other banks and the saved status words hold. -/
namespace ArmMachine

namespace StatusWord

/-- Everything below the flag byte. -/
def controlBits (s : StatusWord) : BitVec 24 := s.raw.extractLsb' 0 24

variable {s s' : StatusWord}

theorem controlBits_congr (same : ∀ j < 24, s'.raw.getLsbD j = s.raw.getLsbD j) :
    s'.controlBits = s.controlBits := by
  apply BitVec.eq_of_getLsbD_eq
  intro j low
  simp only [controlBits, BitVec.getLsbD_extractLsb', Nat.zero_add, same j low]

theorem modeCode_of_controlBits (same : s'.controlBits = s.controlBits) :
    s'.modeCode = s.modeCode := by
  have low : ∀ s : StatusWord, s.modeCode = s.controlBits.extractLsb' 0 5 := by
    intro s
    apply BitVec.eq_of_getLsbD_eq
    intro j inside
    simp only [modeCode, controlBits, BitVec.getLsbD_extractLsb', Nat.zero_add,
      (by omega : j < 24), decide_true, Bool.true_and]
  rw [low, low, same]

theorem privileged_of_controlBits (same : s'.controlBits = s.controlBits) :
    s'.privileged = s.privileged := by
  rw [privileged, privileged, modeCode_of_controlBits same]

theorem controlBits_assign (s : StatusWord) {b : StatusBit} (on : Bool)
    (flag : 24 ≤ b.position) : (s.assign b on).controlBits = s.controlBits := by
  refine controlBits_congr fun j low => ?_
  rw [getLsbD_assign _ _ _ _ (by omega), if_neg (by omega)]

@[simp] theorem controlBits_withResult (s : StatusWord) (result : Word) :
    (s.withResult result).controlBits = s.controlBits := by
  rw [withResult, controlBits_assign _ _ (by decide), controlBits_assign _ _ (by decide)]

theorem bank_of_unprivileged (user : s.privileged = false) : s.bank = .user := by
  have code : s.modeCode = Mode.user.code := by simpa [privileged] using user
  rw [bank, code]
  rfl

theorem privileged_of_mode? (user : s.mode? = some .user) : s.privileged = false := by
  simp [privileged, Mode.code_ofCode? user]

end StatusWord

@[simp] theorem FlagUpdate.controlBits_apply (u : FlagUpdate) (s : StatusWord) :
    (u.apply s).controlBits = s.controlBits := by
  have carry : 24 ≤ StatusBit.carry.position := by decide
  have overflow : 24 ≤ StatusBit.overflow.position := by decide
  cases u <;> simp [apply, StatusWord.controlBits_assign, carry, overflow]

namespace RegisterFile

/-- The user bank and the current status of one register file, all the rest of another. -/
def graft (r t : RegisterFile) : RegisterFile :=
  { r with cells := t.cells.set Bank.user.index r.cells[Bank.user.index], saved := t.saved }

section Graft
variable (r t : RegisterFile)

@[simp] theorem current_graft : (r.graft t).current = r.current := rfl

@[simp] theorem saved_graft : (r.graft t).saved = t.saved := rfl

theorem cell_graft (bank : Bank) (id : RegisterId) :
    (r.graft t).cell bank id = if bank = .user then r.cell bank id else t.cell bank id := by
  by_cases user : bank = .user
  · subst user
    simp [cell, graft]
  · have apart : ¬ Bank.user.index.val = bank.index.val :=
      fun same => user (Bank.index_inj (Fin.ext same)).symm
    simp [cell, graft, apart, user]

@[simp] theorem cell_graft_user (id : RegisterId) :
    (r.graft t).cell .user id = r.cell .user id := by rw [cell_graft, if_pos rfl]

theorem cell_graft_other {bank : Bank} (other : bank ≠ .user) (id : RegisterId) :
    (r.graft t).cell bank id = t.cell bank id := by rw [cell_graft, if_neg other]

@[simp] theorem graft_self : r.graft r = r := by
  refine ext_cells (fun bank id => ?_) rfl rfl
  rw [cell_graft, ite_self]

@[simp] theorem pc_graft : (r.graft t).pc = r.pc := r.cell_graft_user t .pc

theorem setCell_graft (id : RegisterId) (value : Word) :
    (r.graft t).setCell .user id value = (r.setCell .user id value).graft t := by
  refine ext_cells (fun bank id' => ?_) rfl rfl
  rw [cell_setCell, cell_graft, cell_graft, cell_setCell]
  by_cases user : bank = .user
  · simp only [user, if_true]
  · simp only [user, Ne.symm user, false_and, if_false]

@[simp] theorem setPc_graft (value : Word) :
    (r.graft t).setPc value = (r.setPc value).graft t := r.setCell_graft t .pc value

@[simp] theorem setCurrent_graft (s : StatusWord) :
    (r.graft t).setCurrent s = (r.setCurrent s).graft t := rfl

@[simp] theorem updateFlags_graft (f : FlagUpdate) :
    (r.graft t).updateFlags f = (r.updateFlags f).graft t := rfl

@[simp] theorem readUser_graft (id : RegisterId) : (r.graft t).readUser id = r.readUser id := by
  rw [readUser, readUser, cell_graft_user]

@[simp] theorem writeUser_graft (id : RegisterId) (value : Word) :
    (r.graft t).writeUser id value = (r.writeUser id value).graft t := r.setCell_graft t id value

end Graft

@[simp] theorem current_write (r : RegisterFile) (id : RegisterId) (value : Word) :
    (r.write id value).current = r.current := rfl

@[simp] theorem current_updateFlags (r : RegisterFile) (f : FlagUpdate) :
    (r.updateFlags f).current = f.apply r.current := rfl

section User
variable {r : RegisterFile} (t : RegisterFile) (user : r.current.privileged = false)
include user

theorem select_user (id : RegisterId) : r.bank.select id = .user := by
  rw [bank, StatusWord.bank_of_unprivileged user]
  simp [Bank.select]

@[simp] theorem read_graft (id : RegisterId) : (r.graft t).read id = r.read id := by
  have grafted : (r.graft t).bank.select id = .user := select_user user id
  rw [read, read, grafted, select_user user, cell_graft_user]

@[simp] theorem write_graft (id : RegisterId) (value : Word) :
    (r.graft t).write id value = (r.write id value).graft t := by
  have grafted : (r.graft t).bank.select id = .user := select_user user id
  rw [write, write, grafted, select_user user, setCell_graft]

@[simp] theorem writeResult_graft (id : RegisterId) (value : Word) :
    (r.graft t).writeResult id value = (r.writeResult id value).graft t := by
  unfold writeResult
  split
  · exact r.setPc_graft t _
  · exact write_graft t user id value

/-- User mode has no saved status word. -/
theorem savedStatus_user : r.savedStatus = none := by
  rw [savedStatus, bank, StatusWord.bank_of_unprivileged user]
  rfl

theorem restoreStatus_user : r.restoreStatus = .ok r := by
  rw [restoreStatus, savedStatus_user user]

end User

/-- In user mode an update keeps all of the current status but its flag byte, and depends on nothing
that user mode does not see, nor changes it. -/
structure Unprivileged (f : RegisterFile → RegisterFile) : Prop where
  control : ∀ r, r.current.privileged = false → (f r).current.controlBits = r.current.controlBits
  graft : ∀ r t, r.current.privileged = false → f (r.graft t) = (f r).graft t

theorem Unprivileged.user {f : RegisterFile → RegisterFile} (unprivileged : Unprivileged f)
    {r : RegisterFile} (user : r.current.privileged = false) :
    (f r).current.privileged = false :=
  (StatusWord.privileged_of_controlBits (unprivileged.control r user)).trans user

theorem Unprivileged.andThen {f g : RegisterFile → RegisterFile} (first : Unprivileged f)
    (next : Unprivileged g) : Unprivileged fun r => g (f r) where
  control r user := (next.control _ (first.user user)).trans (first.control r user)
  graft r t user := by rw [first.graft r t user, next.graft _ t (first.user user)]

/-- Only what user mode may change is changed: its bank, and the flag byte of the current status. -/
structure UserChange (r r' : RegisterFile) : Prop where
  control : r'.current.controlBits = r.current.controlBits
  cells : ∀ bank, bank ≠ .user → ∀ id, r'.cell bank id = r.cell bank id
  saved : r'.saved = r.saved

theorem UserChange.trans {r r' r'' : RegisterFile} (first : r.UserChange r')
    (next : r'.UserChange r'') : r.UserChange r'' where
  control := next.control.trans first.control
  cells bank other id := (next.cells bank other id).trans (first.cells bank other id)
  saved := next.saved.trans first.saved

theorem UserChange.user {r r' : RegisterFile} (change : r.UserChange r')
    (user : r.current.privileged = false) : r'.current.privileged = false :=
  (StatusWord.privileged_of_controlBits change.control).trans user

theorem UserChange.savedOf {r r' : RegisterFile} (change : r.UserChange r') (bank : Bank) :
    r'.savedOf bank = r.savedOf bank := by
  rw [RegisterFile.savedOf, change.saved]
  rfl

theorem userChange_setPc (r : RegisterFile) (value : Word) : r.UserChange (r.setPc value) where
  control := rfl
  cells bank other id := by rw [cell_setPc, if_neg fun here => other here.1]
  saved := rfl

end RegisterFile
end ArmMachine
