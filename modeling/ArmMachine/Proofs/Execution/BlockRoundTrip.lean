import ArmMachine.Proofs.Execution.BlockLayout

/-! Block loads that take back what a block store put down. The write-back leaves the base at the
far end of the block, so a load that indexes on the other side and walks the other way meets the
same slots and brings the base home. -/
namespace ArmMachine
namespace Instruction

/-- A block store with write-back whose registers can be loaded again: the base is not among them,
nor is register 15. -/
structure Pushes (store : Instruction) : Prop where
  shape : store.shape = .blockTransfer
  stores : store.loads = false
  writesBack : store.writesBack = true
  baseOrdinary : store.rn ≠ .pc
  baseUnlisted : store.lists store.rn = false
  counterUnlisted : store.lists .pc = false

/-- A block load with write-back for the same base, registers and bank in the complementary mode. -/
structure Pops (load store : Instruction) : Prop where
  shape : load.shape = .blockTransfer
  loads : load.loads = true
  writesBack : load.writesBack = true
  base : load.rn = store.rn
  lists : load.lists = store.lists
  variant : load.variant = store.variant
  preIndexed : load.preIndexed = !store.preIndexed
  upwards : load.upwards = !store.upwards

/-- Overwrites the listed registers in the bank a block transfer finds them in. -/
def overwrite (i : Instruction) (values : RegisterId → Word) (r : RegisterFile) : RegisterFile :=
  r.setCells (i.blockBank r) (i.registerList.map fun id => (id, values id))

section Overwrite
variable {i : Instruction} {values : RegisterId → Word} {r : RegisterFile} {bank : Bank}
  {id : RegisterId}

@[simp] theorem current_overwrite : (i.overwrite values r).current = r.current :=
  RegisterFile.current_setCells _ _ _

@[simp] theorem saved_overwrite : (i.overwrite values r).saved = r.saved :=
  RegisterFile.saved_setCells _ _ _

theorem cell_overwrite (apart : i.lists id = true → i.blockBank r id ≠ bank) :
    (i.overwrite values r).cell bank id = r.cell bank id := by
  refine RegisterFile.cell_setCells_of_apart fun listed => apart ?_
  rw [List.map_map] at listed
  have member : id ∈ i.registerList := by simpa using listed
  exact mem_registerList.mp member

theorem blockBank_congr {t : RegisterFile} (current : t.current = r.current) (id : RegisterId) :
    i.blockBank t id = i.blockBank r id := by
  rw [blockBank, blockBank, RegisterFile.bank, RegisterFile.bank, current]

end Overwrite

namespace Pops

variable {load store : Instruction} (pops : load.Pops store)
include pops

theorem registerList : load.registerList = store.registerList := by
  rw [Instruction.registerList, Instruction.registerList, pops.lists]

theorem blockSpan : load.blockSpan = store.blockSpan := by
  rw [Instruction.blockSpan, Instruction.blockSpan, pops.registerList]

theorem blockBank (r : RegisterFile) (id : RegisterId) :
    load.blockBank r id = store.blockBank r id := by
  rw [Instruction.blockBank, Instruction.blockBank, pops.variant]

/-- The load moves the base back to where the store found it. -/
theorem blockEnd_blockEnd (base : Word) : load.blockEnd (store.blockEnd base) = base := by
  rw [blockEnd, blockEnd, moveBase, moveBase, pops.blockSpan, pops.upwards]
  cases store.upwards with
  | false => exact BitVec.sub_add_cancel base _
  | true => exact BitVec.add_sub_cancel base _

theorem blockStart_blockEnd (base : Word) :
    load.blockStart (store.blockEnd base) = store.blockStart base := by
  rw [blockStart, blockStart, blockEnd, moveBase, pops.blockSpan, pops.preIndexed, pops.upwards]
  cases store.preIndexed <;> cases store.upwards
  case false.false => rfl
  case false.true => exact BitVec.add_sub_cancel base _
  case true.false => rfl
  case true.true => exact congrArg (· + 4) (BitVec.add_sub_cancel base _)

/-- Each register finds the slot it was stored in. -/
theorem slotAddress_blockEnd (base : Word) (k : Nat) :
    load.slotAddress (store.blockEnd base) k = store.slotAddress base k := by
  rw [slotAddress_eq, slotAddress_eq, pops.blockStart_blockEnd]

end Pops

variable {load store : Instruction} {b stored restored : Board} {values : RegisterId → Word}

theorem current_spoiled (put : store.BlockStored b stored) (values : RegisterId → Word) :
    (store.overwrite values stored.core.registers).current = b.core.registers.current :=
  current_overwrite.trans put.current

theorem bank_spoiled (put : store.BlockStored b stored) (values : RegisterId → Word) :
    (store.overwrite values stored.core.registers).bank = b.core.registers.bank :=
  congrArg StatusWord.bank (current_spoiled put values)

/-- Overwriting the listed registers leaves the base that the store moved. -/
theorem read_spoiled_base (pushes : store.Pushes) (put : store.BlockStored b stored)
    (values : RegisterId → Word) :
    (store.overwrite values stored.core.registers).read store.rn =
      store.blockEnd (b.core.registers.read store.rn) := by
  have apart : store.lists store.rn = true →
      store.blockBank stored.core.registers store.rn ≠ b.core.registers.bank.select store.rn := by
    intro listed
    rw [pushes.baseUnlisted] at listed
    contradiction
  rw [RegisterFile.read, bank_spoiled put values, RegisterFile.operandView,
    if_neg pushes.baseOrdinary, cell_overwrite apart]
  exact put.base pushes.writesBack (not_fills_of_stores pushes.stores _ _)

section Restored
variable (pushes : store.Pushes) (pops : load.Pops store) (put : store.BlockStored b stored)
  (taken : load.BlockLoaded (stored.mapRegisters (store.overwrite values)) restored)
include pushes pops put taken

/-- A listed register gets the word that the store took from it. -/
theorem cell_popped {id : RegisterId} (listed : store.lists id = true) :
    restored.core.registers.cell (store.blockBank b.core.registers id) id =
      b.core.registers.cell (store.blockBank b.core.registers id) id := by
  have ordinary : id ≠ .pc := by
    rintro rfl
    rw [pushes.counterUnlisted] at listed
    contradiction
  have current := current_spoiled put values
  have base := read_spoiled_base pushes put values
  obtain ⟨k, named⟩ := List.mem_iff_getElem?.mp (mem_registerList.mpr listed)
  have kept := put.words k id named
  have found := taken.words k id (by rw [pops.registerList, named])
  rw [Board.registers_mapRegisters, Board.ram_mapRegisters, pops.base, base,
    pops.slotAddress_blockEnd, pops.blockBank, blockBank_congr current, kept, arriving,
    if_neg ordinary, blockWord, if_neg ordinary] at found
  exact found

/-- The base returns to where it was. -/
theorem cell_base :
    restored.core.registers.cell (b.core.registers.bank.select store.rn) store.rn =
      b.core.registers.cell (b.core.registers.bank.select store.rn) store.rn := by
  have base := read_spoiled_base pushes put values
  have bank := bank_spoiled put values
  have back := taken.base pops.writesBack (by
    rintro ⟨-, listed, -⟩
    rw [pops.lists, pops.base, pushes.baseUnlisted] at listed
    contradiction)
  have home : load.blockEnd (store.blockEnd (b.core.registers.read store.rn)) =
      b.core.registers.read store.rn := pops.blockEnd_blockEnd _
  rw [Board.registers_mapRegisters, pops.base, base, bank] at back
  have plain : b.core.registers.read store.rn =
      b.core.registers.cell (b.core.registers.bank.select store.rn) store.rn :=
    if_neg pushes.baseOrdinary
  rw [← plain, ← home]
  exact back

/-- No other cell was ever changed. -/
theorem cell_other {bank : Bank} {id : RegisterId}
    (unlisted : ¬ (store.lists id = true ∧ bank = store.blockBank b.core.registers id))
    (unmoved : ¬ (bank = b.core.registers.bank.select store.rn ∧ id = store.rn)) :
    restored.core.registers.cell bank id = b.core.registers.cell bank id := by
  have unchanged := put.others bank id (not_fills_of_stores pushes.stores _ _)
    fun moved => unmoved moved.2
  have spared : (store.overwrite values stored.core.registers).cell bank id =
      stored.core.registers.cell bank id := by
    refine cell_overwrite fun listed here => unlisted ⟨listed, ?_⟩
    rw [← here, blockBank_congr put.current]
  have current := current_spoiled put values
  have untouched := taken.others bank id
    (by
      rintro ⟨-, listed, here⟩
      rw [pops.lists] at listed
      refine unlisted ⟨listed, ?_⟩
      rw [here, pops.blockBank, Board.registers_mapRegisters, blockBank_congr current])
    (by
      rintro ⟨-, here, rfl⟩
      refine unmoved ⟨?_, pops.base⟩
      rw [here, pops.base, Board.registers_mapRegisters, bank_spoiled put values])
  exact untouched.trans (spared.trans unchanged)

theorem registers_restored : restored.core.registers = b.core.registers := by
  refine RegisterFile.ext_cells (fun bank id => ?_) ?_ ?_
  · by_cases listed : store.lists id = true ∧ bank = store.blockBank b.core.registers id
    · obtain ⟨listed, rfl⟩ := listed
      exact cell_popped pushes pops put taken listed
    by_cases moved : bank = b.core.registers.bank.select store.rn ∧ id = store.rn
    · obtain ⟨rfl, rfl⟩ := moved
      exact cell_base pushes pops put taken
    · exact cell_other pushes pops put taken listed moved
  · exact taken.current.trans (current_overwrite.trans put.current)
  · exact taken.saved.trans (saved_overwrite.trans put.saved)

end Restored

end Instruction

namespace Board

variable {b b' : Board} {load store : Instruction}

theorem Flat.blockMoved {i : Instruction} (flat : b.Flat) (moved : i.BlockMoved b b')
    (size : b'.core.ram.size = b.core.ram.size) : b'.Flat := by
  refine ⟨?_, ?_⟩
  · rw [moved.rest]
    exact flat.unpaged
  · rw [size]
    exact flat.bounded

/-- A block store and the load in the complementary mode are a round trip: whatever was written to
the listed registers in between, both succeed and every register is as it was before the store. -/
theorem block_transfer_round_trip (b : Board) (store load : Instruction) (pushes : store.Pushes)
    (pops : load.Pops store) (flat : b.Flat) (inside : store.SlotsInside b)
    (values : RegisterId → Word) :
    let stored := b.execute store
    let spoiled := stored.board.mapRegisters (store.overwrite values)
    let restored := spoiled.execute load
    stored.result = .ok () ∧ restored.result = .ok () ∧
      restored.board.core.registers = b.core.registers ∧
      restored.board.core.ram = stored.board.core.ram := by
  intro stored spoiled restored
  obtain ⟨storeDone, put⟩ := execute_storeBlock flat pushes.shape inside pushes.stores
  have flat' : spoiled.Flat := (flat.blockMoved put.toBlockMoved put.size).mapRegisters _
  have inside' : load.SlotsInside spoiled := by
    intro k within
    rw [pops.registerList] at within
    have slot := inside k within
    rw [registers_mapRegisters, ram_mapRegisters, pops.base,
      Instruction.read_spoiled_base pushes put values, pops.slotAddress_blockEnd, put.size]
    exact slot
  have plain : load.variant = true → load.lists .pc = false := by
    intro _
    rw [pops.lists]
    exact pushes.counterUnlisted
  obtain ⟨loadDone, taken⟩ := execute_loadBlock flat' pops.shape inside' pops.loads plain
  exact ⟨storeDone, loadDone, Instruction.registers_restored pushes pops put taken, taken.ram⟩

/-- `stmdb sp!, {r0, r4, lr}^` and `ldmia sp!, {r0, r4, lr}^`, with a stack pointer that is not
aligned and a link register that the mode does not see. -/
theorem block_transfer_round_trip_stackUser :
    let store : Instruction := ⟨0xE96D4011⟩
    let stored := stackUser.execute store
    let spoiled := stored.board.mapRegisters (store.overwrite fun _ => 7)
    let restored := spoiled.execute ⟨0xE8FD4011⟩
    stored.result = .ok () ∧ spoiled.core.registers.cell .user .link = 7 ∧
      restored.result = .ok () ∧ restored.board.core.registers = stackUser.core.registers := by
  have pushes : Instruction.Pushes ⟨0xE96D4011⟩ :=
    ⟨by decide, by decide, by decide, by decide, by decide, by decide⟩
  have pops : Instruction.Pops ⟨0xE8FD4011⟩ ⟨0xE96D4011⟩ :=
    ⟨by decide, by decide, by decide, by decide, funext (by decide), by decide, by decide,
      by decide⟩
  obtain ⟨stored, restored, registers, -⟩ := block_transfer_round_trip stackUser _ _ pushes pops
    stackUser_flat (by decide +kernel) fun _ => 7
  exact ⟨stored, by rfl, restored, registers⟩

end Board
end ArmMachine
