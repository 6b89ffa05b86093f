import ArmMachine.Proofs.Execution.Aborts
import ArmMachine.Proofs.Execution.UserView

/-! Instructions in user mode. Whatever they compute comes from what user mode sees, and so does
whatever they change; a status word they name but do not have, or a coprocessor they may not reach,
makes no difference. -/
namespace ArmMachine
namespace Instruction

section Operands
variable (i : Instruction) {r : RegisterFile} (t : RegisterFile)
  (user : r.current.privileged = false)
include user

@[simp] theorem operand_graft (id : RegisterId) : i.operand (r.graft t) id = i.operand r id := by
  simp only [operand, RegisterFile.read_graft t user]

@[simp] theorem secondOperand_graft : i.secondOperand (r.graft t) = i.secondOperand r := by
  simp only [secondOperand, RegisterFile.current_graft, operand_graft i t user,
    RegisterFile.read_graft t user]

@[simp] theorem dataResult_graft : i.dataResult (r.graft t) = i.dataResult r := by
  simp only [dataResult, firstOperand, RegisterFile.current_graft, operand_graft i t user,
    secondOperand_graft i t user]

@[simp] theorem transferPlan_graft (offset : Word) :
    i.transferPlan (r.graft t) offset = i.transferPlan r offset := by
  simp only [transferPlan, RegisterFile.current_graft, RegisterFile.read_graft t user]

@[simp] theorem transferOffset_graft : i.transferOffset (r.graft t) = i.transferOffset r := by
  simp only [transferOffset, RegisterFile.current_graft, RegisterFile.read_graft t user]

@[simp] theorem halfwordOffset_graft : i.halfwordOffset (r.graft t) = i.halfwordOffset r := by
  simp only [halfwordOffset, RegisterFile.read_graft t user]

@[simp] theorem storedValue_graft (id : RegisterId) :
    storedValue (r.graft t) id = storedValue r id := by
  simp only [storedValue, RegisterFile.read_graft t user]

@[simp] theorem blockValue_graft (userBank : Bool) (id : RegisterId) :
    blockValue userBank (r.graft t) id = blockValue userBank r id := by
  simp only [blockValue, storedValue_graft t user, RegisterFile.readUser_graft,
    RegisterFile.read_graft t user]

end Operands

section Updates
variable (i : Instruction)
open RegisterFile

theorem unprivileged_writeBase (base : Option Word) :
    Unprivileged fun r => i.writeBase r base where
  control r user := by cases base <;> rfl
  graft r t user := by
    cases base with
    | none => rfl
    | some base => exact write_graft t user i.rn base

theorem unprivileged_writeResult (id : RegisterId) (value : Word) :
    Unprivileged fun r => r.writeResult id value where
  control r user := by simp
  graft r t user := writeResult_graft t user id value

theorem unprivileged_branch : Unprivileged i.branch where
  control r user := by
    unfold branch
    split <;> rfl
  graft r t user := by
    simp only [branch, branchTarget, read_graft t user, pc_graft, write_graft t user]
    split <;> rw [setPc_graft]

theorem unprivileged_multiply : Unprivileged i.multiply where
  control r user := by
    simp only [multiply]
    split <;> simp
  graft r t user := by
    simp only [multiply, product, read_graft t user, write_graft t user]
    split <;> rfl

theorem unprivileged_multiplyLong : Unprivileged i.multiplyLong where
  control r user := by
    have flags : ∀ value s, (longFlags value s).controlBits = s.controlBits := by
      intro value s
      rw [longFlags, StatusWord.controlBits_assign _ _ (by decide),
        StatusWord.controlBits_assign _ _ (by decide)]
    simp only [multiplyLong]
    split <;> simp [flags]
  graft r t user := by
    have written : ∀ id value, (r.write id value).current.privileged = false := fun _ _ => user
    simp only [multiplyLong, longProduct, read_graft t user, write_graft t user,
      write_graft t (written _ _)]
    split <;> rfl

theorem unprivileged_countLeadingZeros : Unprivileged i.countLeadingZeros where
  control r user := by simp [countLeadingZeros]
  graft r t user := by
    simp only [countLeadingZeros, read_graft t user, writeResult_graft t user]

theorem unprivileged_readStatus : Unprivileged i.readStatus where
  control r user := by simp [readStatus]
  graft r t user := by
    have grafted : (r.graft t).savedStatus = none := savedStatus_user user
    simp only [readStatus, grafted, savedStatus_user user, current_graft, write_graft t user,
      Option.getD_none]

theorem controlBits_mergeStatus (s : StatusWord) (mask value : Word) :
    (mergeStatus s (mask &&& 0xFF000000) value).controlBits = s.controlBits := by
  have flagByte : ∀ j < 24, (0xFF000000 : Word).getLsbD j = false := by decide
  refine StatusWord.controlBits_congr fun j low => ?_
  simp only [mergeStatus, BitVec.getLsbD_or, BitVec.getLsbD_and, BitVec.getLsbD_not,
    flagByte j low, (by omega : j < 32), decide_true, Bool.and_false, Bool.not_false,
    Bool.and_true, Bool.or_false]

theorem unprivileged_writeStatus : Unprivileged i.writeStatus where
  control r user := by
    simp only [writeStatus, savedStatus_user user, user, Bool.false_eq_true, if_false]
    split
    · rfl
    · rw [current_setCurrent, controlBits_mergeStatus]
  graft r t user := by
    have grafted : (r.graft t).savedStatus = none := savedStatus_user user
    simp only [writeStatus, statusValue, grafted, savedStatus_user user, current_graft,
      read_graft t user, setCurrent_graft]
    split <;> rfl

theorem unprivileged_writeBlockBase (base : Word) :
    Unprivileged fun r => i.writeBlockBase r base where
  control r user := by
    unfold writeBlockBase
    split <;> rfl
  graft r t user := by
    simp only [writeBlockBase, write_graft t user]
    split <;> rfl

theorem unprivileged_commitBlock (userBank : Bool) (values : List (RegisterId × Word)) :
    Unprivileged fun r => commitBlock userBank r values := by
  induction values with
  | nil => exact ⟨fun _ _ => rfl, fun _ _ _ => rfl⟩
  | cons first rest ih =>
    obtain ⟨id, value⟩ := first
    cases userBank with
    | false => exact (unprivileged_writeResult id value).andThen ih
    | true =>
      have written : Unprivileged fun r => r.writeUser id value :=
        ⟨fun _ _ => rfl, fun r t _ => r.writeUser_graft t id value⟩
      exact written.andThen ih

/-- User mode has nothing to restore, so a return from an exception is an ordinary write there. -/
theorem processData_user {r : RegisterFile} (user : r.current.privileged = false) :
    i.processData r =
      (.ok (), if i.opcode.isCompare then r.updateFlags (i.dataResult r).flags
        else if i.setsFlags ∧ i.rd ≠ .pc then
          (r.writeResult i.rd (i.dataResult r).value).updateFlags (i.dataResult r).flags
        else r.writeResult i.rd (i.dataResult r).value) := by
  have written : (r.writeResult i.rd (i.dataResult r).value).current.privileged = false := by
    rw [current_writeResult, user]
  simp only [processData, restoreStatus_user written]
  cases i.setsFlags <;> by_cases counter : i.rd = .pc <;> simp [counter] <;> split <;> rfl

theorem unprivileged_processData : Unprivileged fun r => (i.processData r).2 where
  control r user := by
    rw [processData_user i user]
    dsimp only
    split
    · simp
    · split <;> simp
  graft r t user := by
    have grafted : (r.graft t).current.privileged = false := user
    rw [processData_user i user, processData_user i grafted]
    simp only [dataResult_graft i t user, updateFlags_graft, writeResult_graft t user]
    split
    · rfl
    · split <;> rfl

theorem branchExchange_graft {r : RegisterFile} (t : RegisterFile)
    (user : r.current.privileged = false) :
    i.branchExchange (r.graft t) = (i.branchExchange r).map (·.graft t) := by
  simp only [branchExchange, read_graft t user, pc_graft, write_graft t user]
  split
  · split <;> rw [setPc_graft] <;> rfl
  · rfl

end Updates
end Instruction

namespace Board

variable {α β : Type}

/-- A board with the part of another register file that user mode does not see. -/
def graft (b : Board) (t : RegisterFile) : Board := b.mapRegisters (·.graft t)

/-- In user mode an action keeps all of the current status but its flag byte, and depends on nothing
that user mode does not see, nor changes it. -/
structure Unprivileged (x : Action α) : Prop where
  control : ∀ b : Board, b.core.registers.current.privileged = false →
    (b.run x).2.core.registers.current.controlBits = b.core.registers.current.controlBits
  graft : ∀ (b : Board) (t : RegisterFile), b.core.registers.current.privileged = false →
    (b.graft t).run x = ((b.run x).1, (b.run x).2.graft t)

namespace Unprivileged

theorem user {x : Action α} (unprivileged : Unprivileged x) {b : Board}
    (mode : b.core.registers.current.privileged = false) :
    (b.run x).2.core.registers.current.privileged = false :=
  (StatusWord.privileged_of_controlBits (unprivileged.control b mode)).trans mode

theorem pure (a : α) : Unprivileged (pure a : Action α) := ⟨fun _ _ => rfl, fun _ _ _ => rfl⟩

theorem refuse (cause : Failure) (f : α → Action β) : Unprivileged (throw cause >>= f) :=
  ⟨fun _ _ => rfl, fun _ _ _ => rfl⟩

theorem modify {f : RegisterFile → RegisterFile} (unprivileged : RegisterFile.Unprivileged f) :
    Unprivileged (modifyRegisters f) where
  control b mode := unprivileged.control b.core.registers mode
  graft b t mode := by
    rw [run_modifyRegisters, run_modifyRegisters]
    simp only [Board.graft, mapRegisters, mapCore, unprivileged.graft b.core.registers t mode]

theorem bind {x : Action α} {f : α → Action β} (first : Unprivileged x)
    (next : ∀ a, Unprivileged (f a)) : Unprivileged (x >>= f) where
  control b mode := by
    have kept := first.control b mode
    have user := first.user mode
    rw [run_bind]
    generalize b.run x = r at kept user
    obtain ⟨result, b'⟩ := r
    cases result with
    | error cause => exact kept
    | ok a => exact ((next a).control b' user).trans kept
  graft b t mode := by
    have user := first.user mode
    rw [run_bind, run_bind, first.graft b t mode]
    generalize b.run x = r at user
    obtain ⟨result, b'⟩ := r
    cases result with
    | error cause => rfl
    | ok a => exact (next a).graft b' t user

/-- What follows a look at the registers may use only what user mode sees. -/
theorem bindRegisters {f : RegisterFile → Action β}
    (seen : ∀ r t, r.current.privileged = false → f (r.graft t) = f r)
    (next : ∀ r, Unprivileged (f r)) : Unprivileged (getRegisters >>= f) where
  control b mode := by
    rw [run_bind_ok (run_getRegisters b)]
    exact (next _).control b mode
  graft b t mode := by
    have same : f (b.graft t).core.registers = f b.core.registers :=
      seen b.core.registers t mode
    rw [run_bind_ok (run_getRegisters b), run_bind_ok (run_getRegisters (b.graft t)), same]
    exact (next _).graft b t mode

/-- A graft of what was hidden before is what the action leaves hidden. -/
theorem userChange {x : Action α} (unprivileged : Unprivileged x) {b : Board}
    (mode : b.core.registers.current.privileged = false) :
    b.core.registers.UserChange (b.run x).2.core.registers := by
  have own : b.graft b.core.registers = b := by
    rw [Board.graft, mapRegisters, mapCore, RegisterFile.graft_self]
  have grafted := unprivileged.graft b b.core.registers mode
  rw [own] at grafted
  have after : (b.run x).2.core.registers =
      (b.run x).2.core.registers.graft b.core.registers :=
    congrArg (fun r => r.2.core.registers) grafted
  refine ⟨unprivileged.control b mode, fun bank other id => ?_, ?_⟩
  · rw [after, RegisterFile.cell_graft_other _ _ other]
  · rw [after, RegisterFile.saved_graft]

end Unprivileged

section Bus
variable (b : Board) (f : RegisterFile → RegisterFile)

/-- The bus does not look at the registers. -/
theorem physicalReadStep_mapRegisters (address : Word) (width : Width) :
    (b.mapRegisters f).physicalReadStep address width =
      ((b.physicalReadStep address width).1,
        (b.physicalReadStep address width).2.mapRegisters f) := by
  have reads : (b.mapRegisters f).core.ram.read? address width =
      b.core.ram.read? address width := rfl
  have answers : (b.mapRegisters f).devices.read address width = b.devices.read address width := rfl
  unfold physicalReadStep
  rw [reads, answers]
  split
  · rfl
  · split
    · rfl
    · split <;> rfl

theorem physicalWriteStep_mapRegisters (address value : Word) (width : Width) :
    (b.mapRegisters f).physicalWriteStep address value width =
      ((b.physicalWriteStep address value width).1,
        (b.physicalWriteStep address value width).2.mapRegisters f) := by
  have covers : (b.mapRegisters f).core.ram.covers address width =
      b.core.ram.covers address width := rfl
  have claims : (b.mapRegisters f).devices.claims address = b.devices.claims address := rfl
  unfold physicalWriteStep
  rw [covers, claims]
  split
  · rfl
  · split
    · rfl
    · split <;> rfl

end Bus

theorem unprivileged_translate (v : Word) (access : Access) :
    Unprivileged (translate v access) where
  control b mode := by
    rw [run_translate]
    rfl
  graft b t mode := by
    rw [run_translate, run_translate]
    rfl

theorem unprivileged_physicalRead (address : Word) (width : Width) :
    Unprivileged (physicalRead address width) where
  control b mode := by rw [run_physicalRead, core_physicalReadStep]
  graft b t mode := by
    rw [run_physicalRead, run_physicalRead]
    exact b.physicalReadStep_mapRegisters _ address width

theorem unprivileged_physicalWrite (address value : Word) (width : Width) :
    Unprivileged (physicalWrite address value width) where
  control b mode := by rw [run_physicalWrite, core_physicalWriteStep]
  graft b t mode := by
    rw [run_physicalWrite, run_physicalWrite]
    exact b.physicalWriteStep_mapRegisters _ address value width

theorem unprivileged_read (privileged : Bool) (v : Word) (width : Width) :
    Unprivileged (read privileged v width) :=
  (unprivileged_translate v _).bind fun address => unprivileged_physicalRead address width

theorem unprivileged_write (privileged : Bool) (v value : Word) (width : Width) :
    Unprivileged (write privileged v value width) :=
  (unprivileged_translate v _).bind fun address => unprivileged_physicalWrite address value width

theorem unprivileged_fetch (v : Word) : Unprivileged (fetch v) :=
  .bindRegisters (fun _ _ _ => rfl) fun _ =>
    (unprivileged_translate v _).bind fun address => unprivileged_physicalRead address .word

end Board

namespace Instruction

section Handlers
variable (i : Instruction)
open Board (Unprivileged)

theorem unprivileged_loadAlong (plan : TransferPlan) (width : Width) (convert : Word → Word) :
    Unprivileged (i.loadAlong plan width convert) :=
  (Board.unprivileged_read _ _ _).bind fun _ =>
    .modify ((i.unprivileged_writeBase plan.newBase).andThen (unprivileged_writeResult _ _))

theorem unprivileged_storeAlong (plan : TransferPlan) (width : Width) :
    Unprivileged (i.storeAlong plan width) := by
  refine .bindRegisters (fun r t user => ?_) fun r => ?_
  · rw [storedValue_graft t user]
  · exact (Board.unprivileged_write _ _ _ _).bind fun _ => .modify (i.unprivileged_writeBase _)

theorem unprivileged_transfer : Unprivileged i.transfer := by
  refine .bindRegisters (fun r t user => ?_) fun r => ?_
  · rw [transferOffset_graft i t user, transferPlan_graft i t user]
  · dsimp only
    split
    · exact i.unprivileged_loadAlong _ _ _
    · exact i.unprivileged_storeAlong _ _

theorem unprivileged_transferHalfword : Unprivileged i.transferHalfword := by
  unfold transferHalfword
  dsimp only
  split
  · exact .refuse _ _
  · refine .bindRegisters (fun r t user => ?_) fun r => ?_
    · rw [halfwordOffset_graft i t user, transferPlan_graft i t user]
    · split
      · exact i.unprivileged_loadAlong _ _ _
      · exact i.unprivileged_storeAlong _ _

theorem unprivileged_swap : Unprivileged i.swap := by
  refine .bindRegisters (fun r t user => ?_) fun r => ?_
  · simp only [RegisterFile.read_graft t user, RegisterFile.current_graft]
  · exact (Board.unprivileged_read _ _ _).bind fun _ =>
      (Board.unprivileged_write _ _ _ _).bind fun _ => .modify (unprivileged_writeResult _ _)

theorem unprivileged_readBlock (privileged : Bool) (address : Word) (list : List RegisterId) :
    Unprivileged (readBlock privileged address list) := by
  induction list generalizing address with
  | nil => exact .pure []
  | cons id rest ih =>
    exact (Board.unprivileged_read _ _ _).bind fun _ => (ih _).bind fun _ => .pure _

theorem unprivileged_writeBlock (privileged : Bool) (address : Word) (values : List Word) :
    Unprivileged (writeBlock privileged address values) := by
  induction values generalizing address with
  | nil => exact .pure ()
  | cons value rest ih => exact (Board.unprivileged_write _ _ _ _).bind fun _ => ih _

/-- A block load that returns from an exception restores nothing in user mode. -/
theorem unprivileged_restore :
    Unprivileged (do
      let r ← Board.getRegisters
      let r ← Board.ofExcept r.restoreStatus
      Board.modifyRegisters fun _ => r) := by
  have run : ∀ b : Board, b.core.registers.current.privileged = false →
      b.run (do
        let r ← Board.getRegisters
        let r ← Board.ofExcept r.restoreStatus
        Board.modifyRegisters fun _ => r) = (.ok (), b) := by
    intro b user
    rw [Board.run_bind_ok (Board.run_getRegisters b), RegisterFile.restoreStatus_user user,
      Board.run_bind_ok (Board.run_ofExcept b _), Board.run_modifyRegisters]
    rfl
  constructor
  · intro b user
    rw [run b user]
  · intro b t user
    rw [run b user, run (b.graft t) user]

theorem unprivileged_loadBlock : Unprivileged i.loadBlock := by
  refine .bindRegisters (fun r t user => ?_) fun r => ?_
  · simp only [RegisterFile.read_graft t user, RegisterFile.current_graft]
  · refine (unprivileged_readBlock _ _ _).bind fun values => ?_
    refine (Unprivileged.modify ?_).bind fun _ => ?_
    · exact (i.unprivileged_writeBlockBase _).andThen (unprivileged_commitBlock _ _)
    · split
      · exact unprivileged_restore
      · exact .pure ()

theorem unprivileged_storeBlock : Unprivileged i.storeBlock := by
  refine .bindRegisters (fun r t user => ?_) fun r => ?_
  · have values : i.registerList.map (blockValue i.blockUsesUserBank (r.graft t)) =
        i.registerList.map (blockValue i.blockUsesUserBank r) :=
      List.map_congr_left fun id _ => blockValue_graft t user _ id
    simp only [RegisterFile.read_graft t user, RegisterFile.current_graft, values]
  · exact (unprivileged_writeBlock _ _ _).bind fun _ => .modify (i.unprivileged_writeBlockBase _)

theorem unprivileged_processDataOnBoard : Unprivileged i.processDataOnBoard where
  control b user := by
    rw [run_processData]
    exact i.unprivileged_processData.control b.core.registers user
  graft b t user := by
    have grafted := i.unprivileged_processData.graft b.core.registers t user
    have result : ∀ {r : RegisterFile}, r.current.privileged = false →
        (i.processData r).1 = .ok () := fun user => congrArg Prod.fst (i.processData_user user)
    have other : (b.graft t).core.registers = b.core.registers.graft t := rfl
    rw [run_processData, run_processData, other, grafted,
      result (r := b.core.registers.graft t) user, result user]
    rfl

theorem run_branchExchange (b : Board) :
    b.run i.branchExchangeOnBoard =
      match i.branchExchange b.core.registers with
      | .ok r => (.ok (), b.mapRegisters fun _ => r)
      | .error cause => (.error cause, b) := by
  unfold branchExchangeOnBoard
  rw [Board.run_bind_ok (Board.run_getRegisters b), Board.run_bind, Board.run_ofExcept]
  cases i.branchExchange b.core.registers <;> rfl

theorem unprivileged_branchExchange : Unprivileged i.branchExchangeOnBoard where
  control b user := by
    rw [run_branchExchange]
    cases exchanged : i.branchExchange b.core.registers with
    | error cause => rfl
    | ok r =>
      have current : r.current = b.core.registers.current := by
        unfold branchExchange at exchanged
        dsimp only at exchanged
        split at exchanged <;> cases exchanged
        split <;> rfl
      exact congrArg StatusWord.controlBits current
  graft b t user := by
    have other : (b.graft t).core.registers = b.core.registers.graft t := rfl
    rw [run_branchExchange, run_branchExchange, other, i.branchExchange_graft t user]
    cases i.branchExchange b.core.registers <;> rfl

/-- User mode does not reach the coprocessor. -/
theorem run_transferCoprocessor_user {b : Board}
    (user : b.core.registers.current.privileged = false) :
    b.run (Board.modifyCore i.transferCoprocessor) =
      (.ok (), b.mapCore fun c => c.setPending .undefined) := by
  have undefined : i.transferCoprocessor b.core = b.core.setPending .undefined := by
    simp [transferCoprocessor, reachesCoprocessor, user, Core.setPending]
  change ((.ok (), { b with core := i.transferCoprocessor b.core }) :
    Except Failure Unit × Board) = _
  rw [undefined]
  rfl

theorem unprivileged_transferCoprocessor :
    Unprivileged (Board.modifyCore i.transferCoprocessor) where
  control b user := by
    rw [i.run_transferCoprocessor_user user]
    rfl
  graft b t user := by
    rw [i.run_transferCoprocessor_user user, i.run_transferCoprocessor_user (b := b.graft t) user]
    rfl

/-- In user mode an instruction neither sees nor changes what is not user mode's. -/
theorem unprivileged_execute : Unprivileged i.execute := by
  unfold execute
  split
  iterate 3 exact i.unprivileged_processDataOnBoard
  iterate 2 exact i.unprivileged_transfer
  iterate 6 exact i.unprivileged_transferHalfword
  · unfold transferBlock
    split
    · exact i.unprivileged_loadBlock
    · exact i.unprivileged_storeBlock
  · exact i.unprivileged_swap
  · exact .modify i.unprivileged_branch
  · exact i.unprivileged_branchExchange
  · exact .modify i.unprivileged_multiply
  · exact .modify i.unprivileged_multiplyLong
  · exact .modify i.unprivileged_readStatus
  · exact .modify i.unprivileged_writeStatus
  · exact i.unprivileged_transferCoprocessor
  · exact .modify i.unprivileged_countLeadingZeros
  iterate 2 exact ⟨fun _ _ => rfl, fun _ _ _ => rfl⟩

end Handlers
end Instruction
end ArmMachine
