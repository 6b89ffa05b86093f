import ArmMachine.Proofs.Execution.Bus

/-! Instructions that fail. Registers are written after the last access of an instruction, so a
failure leaves them as they were; only a block store can have written memory before it, and then
exactly the words of its lowest registers. -/
namespace ArmMachine

/-- Memory after one word at each of some physical addresses, the first one first. -/
def Ram.storeWords (r : Ram) : List (Word × Word) → Ram
  | [] => r
  | (address, value) :: rest => (r.afterWrite address value .word).storeWords rest

namespace RegisterFile

variable {r t : RegisterFile}

theorem savedStatus_congr (current : t.current = r.current) (saved : t.saved = r.saved) :
    t.savedStatus = r.savedStatus := by
  simp only [savedStatus, savedOf, bank, current, saved]

@[simp] theorem current_writeResult (r : RegisterFile) (id : RegisterId) (value : Word) :
    (r.writeResult id value).current = r.current := by
  unfold writeResult
  split <;> rfl

@[simp] theorem saved_writeResult (r : RegisterFile) (id : RegisterId) (value : Word) :
    (r.writeResult id value).saved = r.saved := by
  unfold writeResult
  split <;> rfl

end RegisterFile

namespace Instruction

theorem commitBlock_status (userBank : Bool) (values : List (RegisterId × Word))
    (r : RegisterFile) : (commitBlock userBank r values).current = r.current ∧
      (commitBlock userBank r values).saved = r.saved := by
  induction values generalizing r with
  | nil => exact ⟨rfl, rfl⟩
  | cons first rest ih =>
    obtain ⟨id, value⟩ := first
    obtain ⟨current, saved⟩ :=
      ih (if userBank then r.writeUser id value else r.writeResult id value)
    refine ⟨current.trans ?_, saved.trans ?_⟩ <;> cases userBank
    · exact r.current_writeResult id value
    · rfl
    · exact r.saved_writeResult id value
    · rfl

@[simp] theorem current_writeBlockBase (i : Instruction) (r : RegisterFile) (base : Word) :
    (i.writeBlockBase r base).current = r.current := by
  unfold writeBlockBase
  split <;> rfl

@[simp] theorem saved_writeBlockBase (i : Instruction) (r : RegisterFile) (base : Word) :
    (i.writeBlockBase r base).saved = r.saved := by
  unfold writeBlockBase
  split <;> rfl

theorem savedStatus_loaded (i : Instruction) (userBank : Bool) (r : RegisterFile) (base : Word)
    (values : List (RegisterId × Word)) :
    (commitBlock userBank (i.writeBlockBase r base) values).savedStatus = r.savedStatus := by
  obtain ⟨current, saved⟩ := commitBlock_status userBank values (i.writeBlockBase r base)
  exact RegisterFile.savedStatus_congr (current.trans (i.current_writeBlockBase r base))
    (saved.trans (i.saved_writeBlockBase r base))

/-- The values of the listed registers as a block store takes them, the lowest register first. -/
def blockValues (i : Instruction) (r : RegisterFile) : List Word :=
  i.registerList.map (blockValue i.blockUsesUserBank r)

@[simp] theorem length_blockValues (i : Instruction) (r : RegisterFile) :
    (i.blockValues r).length = i.registerList.length := List.length_map _

/-- Some but not all words of a block store have been written, namely those of the `k` lowest listed
registers: memory is what storing these alone leaves, a word at each of `k` physical addresses. -/
structure StoredLowest (i : Instruction) (b : Board) (k : Nat) (ram : Ram) : Prop where
  shape : i.shape = .blockTransfer
  stores : i.loads = false
  short : k < i.registerList.length
  stored : ∃ b' : Board,
    b.run (writeBlock b.core.registers.current.privileged
      (i.blockStart (b.core.registers.read i.rn)) ((i.blockValues b.core.registers).take k)) =
        (.ok (), b') ∧ b'.core.ram = ram
  words : ∃ addresses : List Word, addresses.length = k ∧
    ram = b.core.ram.storeWords (addresses.zip ((i.blockValues b.core.registers).take k))

/-- How a failed instruction leaves the board. -/
inductive Undone (i : Instruction) (b : Board) (cause : Failure) (b' : Board) : Prop
  | untouched (change : b.ReadChange b')
  | partly (change : b.BusChange b') (k : Nat) (lowest : i.StoredLowest b k b'.core.ram)
  | unrestored (target : Word) (refused : cause = .thumb target) (s : StatusWord)
      (saved : b.core.registers.savedStatus = some s) (thumb : s.has .thumb = true)

variable {i : Instruction} {b b' : Board} {cause : Failure}

/-- An update of registers that comes last is not reached by a failure. -/
theorem failed_of_modify {α : Type} {x : Action α} {f : α → RegisterFile → RegisterFile}
    (failed : b.run (x >>= fun a => Board.modifyRegisters (f a)) = (.error cause, b')) :
    b.run x = (.error cause, b') := by
  obtain first | ⟨a, middle, _, last⟩ := (b.run_bind_eq_error).mp failed
  · exact first
  · rw [Board.run_modifyRegisters] at last
    cases last

theorem loadAlong_error {plan : TransferPlan} {width : Width} {convert : Word → Word}
    (failed : b.run (i.loadAlong plan width convert) = (.error cause, b')) : b.ReadChange b' := by
  have change := b.read_readChange plan.privileged plan.address width
  rw [failed_of_modify failed] at change
  exact change

theorem storeAlong_error {plan : TransferPlan} {width : Width}
    (failed : b.run (i.storeAlong plan width) = (.error cause, b')) : b.ReadChange b' := by
  unfold storeAlong at failed
  rw [Board.run_bind_ok (Board.run_getRegisters b)] at failed
  exact Board.write_error (failed_of_modify failed)

theorem transfer_error (failed : b.run i.transfer = (.error cause, b')) : b.ReadChange b' := by
  unfold transfer at failed
  rw [Board.run_bind_ok (Board.run_getRegisters b)] at failed
  dsimp only at failed
  split at failed
  · exact loadAlong_error failed
  · exact storeAlong_error failed

theorem transferHalfword_error (failed : b.run i.transferHalfword = (.error cause, b')) :
    b.ReadChange b' := by
  rw [run_transferHalfword] at failed
  split at failed
  · cases failed
    rfl
  · dsimp only at failed
    split at failed
    · exact loadAlong_error failed
    · exact storeAlong_error failed

theorem swap_error (failed : b.run i.swap = (.error cause, b')) : b.ReadChange b' := by
  unfold swap at failed
  rw [Board.run_bind_ok (Board.run_getRegisters b)] at failed
  dsimp only at failed
  have change := b.read_readChange b.core.registers.current.privileged
    (b.core.registers.read i.rn) i.transferWidth
  obtain unread | ⟨old, middle, read, unwritten⟩ := (b.run_bind_eq_error).mp failed
  · rw [unread] at change
    exact change
  · rw [read] at change
    exact change.trans (Board.write_error (failed_of_modify unwritten))

theorem writeBlock_ok {privileged : Bool} {address : Word} {values : List Word}
    (written : b.run (writeBlock privileged address values) = (.ok (), b')) :
    b.BusChange b' ∧ ∃ addresses : List Word, addresses.length = values.length ∧
      b'.core.ram = b.core.ram.storeWords (addresses.zip values) := by
  induction values generalizing b address with
  | nil =>
    cases written
    exact ⟨.refl _, [], rfl, rfl⟩
  | cons value rest ih =>
    obtain ⟨_, middle, first, others⟩ := (b.run_bind_eq_ok).mp written
    obtain ⟨change, physical, stored⟩ := Board.write_ok first
    obtain ⟨changes, addresses, length, ram⟩ := ih others
    refine ⟨change.trans changes, physical :: addresses, ?_, ?_⟩
    · rw [List.length_cons, List.length_cons, length]
    · rw [ram, stored, List.zip_cons_cons]
      rfl

/-- A sequence of writes that fails has made the writes before the one that failed. -/
theorem writeBlock_error {privileged : Bool} {address : Word} {values : List Word}
    (failed : b.run (writeBlock privileged address values) = (.error cause, b')) :
    ∃ k < values.length, ∃ middle : Board,
      b.run (writeBlock privileged address (values.take k)) = (.ok (), middle) ∧
        middle.ReadChange b' := by
  induction values generalizing b address with
  | nil => cases failed
  | cons value rest ih =>
    obtain first | ⟨_, written, first, others⟩ := (b.run_bind_eq_error).mp failed
    · exact ⟨0, Nat.zero_lt_succ _, b, rfl, Board.write_error first⟩
    · obtain ⟨k, short, middle, stored, change⟩ := ih others
      refine ⟨k + 1, Nat.succ_lt_succ short, middle, ?_, change⟩
      rw [List.take_succ_cons]
      exact (Board.run_bind_ok first).trans stored

theorem storeBlock_error (shape : i.shape = .blockTransfer) (stores : i.loads = false)
    (failed : b.run i.storeBlock = (.error cause, b')) : i.Undone b cause b' := by
  unfold storeBlock at failed
  rw [Board.run_bind_ok (Board.run_getRegisters b)] at failed
  dsimp only at failed
  obtain ⟨k, short, middle, stored, change⟩ := writeBlock_error (failed_of_modify failed)
  obtain ⟨changes, addresses, length, ram⟩ := writeBlock_ok stored
  rw [List.length_map] at short
  rw [List.length_take, List.length_map, Nat.min_eq_left (Nat.le_of_lt short)] at length
  refine .partly (changes.trans change.toBusChange) k
    { shape, stores, short, stored := ⟨middle, stored, change.ram.symm⟩, words := ?_ }
  refine ⟨addresses, length, ?_⟩
  rw [change.ram, ram]
  rfl

theorem readBlock_readChange (b : Board) (privileged : Bool) (address : Word)
    (list : List RegisterId) : b.ReadChange (b.run (readBlock privileged address list)).2 :=
  Board.readContract_admits.mp <| admits_readBlock Board.readContract_sequential
    (fun b address => Board.readContract_admits.mpr (b.read_readChange privileged address .word))
    address list

theorem loadBlock_error (failed : b.run i.loadBlock = (.error cause, b')) :
    i.Undone b cause b' := by
  unfold loadBlock at failed
  rw [Board.run_bind_ok (Board.run_getRegisters b)] at failed
  dsimp only at failed
  have change := readBlock_readChange b b.core.registers.current.privileged
    (i.blockStart (b.core.registers.read i.rn)) i.registerList
  obtain unread | ⟨values, middle, read, restore⟩ := (b.run_bind_eq_error).mp failed
  · rw [unread] at change
    exact .untouched change
  · rw [read] at change
    rw [Board.run_bind_ok (Board.run_modifyRegisters middle _)] at restore
    split at restore
    · rw [Board.run_bind_ok (Board.run_getRegisters _)] at restore
      have unrestored := failed_of_modify restore
      rw [Board.run_ofExcept, Prod.mk.injEq] at unrestored
      obtain ⟨s, saved, thumb, refused⟩ := RegisterFile.restoreStatus_error unrestored.1
      refine .unrestored _ refused s ?_ thumb
      rw [← saved, ← change.registers]
      exact (savedStatus_loaded _ _ _ _ _).symm
    · cases restore

theorem processData_error (failed : b.run i.processDataOnBoard = (.error cause, b')) :
    i.Undone b cause b' := by
  rw [run_processData, Prod.mk.injEq] at failed
  have refused := failed.1
  simp only [processData] at refused
  split at refused
  · cases refused
  · split at refused
    · cases refused
    · split at refused
      · split at refused
        · cases refused
        · rename_i unrestored
          cases refused
          obtain ⟨s, saved, thumb, target⟩ := RegisterFile.restoreStatus_error unrestored
          refine .unrestored _ target s ?_ thumb
          rw [← saved]
          exact (RegisterFile.savedStatus_congr (RegisterFile.current_writeResult _ _ _)
            (RegisterFile.saved_writeResult _ _ _)).symm
      · cases refused

theorem branchExchange_error (failed : b.run i.branchExchangeOnBoard = (.error cause, b')) :
    i.Undone b cause b' := by
  unfold branchExchangeOnBoard at failed
  rw [Board.run_bind_ok (Board.run_getRegisters b)] at failed
  have refused := failed_of_modify failed
  rw [Board.run_ofExcept, Prod.mk.injEq] at refused
  obtain ⟨_, rfl⟩ := refused
  exact .untouched (.refl b)

theorem failed_execute (failed : b.run i.execute = (.error cause, b')) :
    i.Undone b cause b' := by
  unfold execute at failed
  split at failed
  iterate 3 exact processData_error failed
  iterate 2 exact .untouched (transfer_error failed)
  iterate 6 exact .untouched (transferHalfword_error failed)
  · rename_i shape
    unfold transferBlock at failed
    split at failed
    · exact loadBlock_error failed
    · rename_i stores
      exact storeBlock_error shape (Bool.eq_false_iff.mpr stores) failed
  · exact .untouched (swap_error failed)
  · cases failed
  · exact branchExchange_error failed
  all_goals cases failed

end Instruction
end ArmMachine
