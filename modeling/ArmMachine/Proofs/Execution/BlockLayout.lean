import Mathlib.Algebra.Group.Int.Defs
import Mathlib.Algebra.Group.Nat.Defs
import ArmMachine.Proofs.Execution.Aborts
import ArmMachine.Proofs.Execution.Unpaged

/-! Where a block transfer puts which register. The listed registers go through consecutive words,
the slots, of which the addressing mode only chooses the first. With paging off and every slot in
memory a transfer does nothing but move these words and, if asked, the base. -/
namespace ArmMachine

namespace RegisterFile

/-- The address of the instruction being executed, which the program counter has already passed. -/
def executing (r : RegisterFile) : Word := r.pc - 4

/-- Where register 15 is seen by a store. -/
theorem pc_ahead (r : RegisterFile) : r.pc + 4 + 4 = r.executing + 12 := by
  rw [executing, BitVec.sub_eq_add_neg, BitVec.add_assoc, BitVec.add_assoc]
  exact congrArg (r.pc + ·) (by decide)

/-- Cells written one after another, every register in a bank of its own. -/
def setCells (r : RegisterFile) (bank : RegisterId → Bank) (values : List (RegisterId × Word)) :
    RegisterFile :=
  values.foldl (fun r (id, value) => r.setCell (bank id) id value) r

section SetCells
variable (r : RegisterFile) (bank : RegisterId → Bank) (values : List (RegisterId × Word))

@[simp] theorem current_setCells : (r.setCells bank values).current = r.current := by
  induction values generalizing r with
  | nil => rfl
  | cons first rest ih => exact ih _

@[simp] theorem saved_setCells : (r.setCells bank values).saved = r.saved := by
  induction values generalizing r with
  | nil => rfl
  | cons first rest ih => exact ih _

variable {r bank values}

theorem cell_setCells_of_apart {b : Bank} {id : RegisterId}
    (apart : id ∈ values.map Prod.fst → bank id ≠ b) :
    (r.setCells bank values).cell b id = r.cell b id := by
  induction values generalizing r with
  | nil => rfl
  | cons first rest ih =>
    obtain ⟨other, value⟩ := first
    have kept := ih (r := r.setCell (bank other) other value) fun listed =>
      apart (List.mem_cons_of_mem _ listed)
    refine kept.trans ?_
    rw [cell_setCell, if_neg]
    rintro ⟨here, rfl⟩
    exact apart List.mem_cons_self here

/-- A register that is written once keeps what was written. -/
theorem cell_setCells_of_mem {id : RegisterId} {value : Word}
    (distinct : (values.map Prod.fst).Nodup) (listed : (id, value) ∈ values) :
    (r.setCells bank values).cell (bank id) id = value := by
  induction values generalizing r with
  | nil => contradiction
  | cons first rest ih =>
    rw [List.map_cons, List.nodup_cons] at distinct
    obtain rfl | later := List.mem_cons.mp listed
    · have kept : ((r.setCell (bank id) id value).setCells bank rest).cell (bank id) id =
          (r.setCell (bank id) id value).cell (bank id) id :=
        cell_setCells_of_apart fun again => absurd again distinct.1
      refine kept.trans ?_
      rw [cell_setCell, if_pos ⟨rfl, rfl⟩]
    · exact ih distinct.2 later

end SetCells
end RegisterFile

namespace Instruction

/-- Where a block transfer finds a register: in the user bank with the variant bit, otherwise in the
bank of the mode. -/
def blockBank (i : Instruction) (r : RegisterFile) (id : RegisterId) : Bank :=
  if i.variant then .user else r.bank.select id

/-- How many bytes the first slot is past the base. -/
def blockOffset (i : Instruction) : Int :=
  let span : Int := 4 * i.registerList.length
  match i.preIndexed, i.upwards with
  | false, true => 0
  | true, true => 4
  | false, false => 4 - span
  | true, false => -span

/-- The address of a slot. Addresses wrap around, and their low two bits are ignored. -/
def slotAddress (i : Instruction) (base : Word) (k : Nat) : Nat :=
  ((base.toNat + i.blockOffset + 4 * k) % 2 ^ 32 / 4 * 4).toNat

/-- Every slot lies in memory. -/
def SlotsInside (i : Instruction) (b : Board) : Prop :=
  ∀ k < i.registerList.length,
    i.slotAddress (b.core.registers.read i.rn) k + 4 ≤ b.core.ram.size

instance (i : Instruction) (b : Board) : Decidable (i.SlotsInside b) :=
  inferInstanceAs (Decidable (∀ k < _, _))

/-- What a block store keeps of a register. -/
def blockWord (i : Instruction) (r : RegisterFile) (id : RegisterId) : Word :=
  if id = .pc then r.executing + 12 else r.cell (i.blockBank r id) id

/-- What a loaded word becomes in its register: register 15 takes it as a branch target. -/
def arriving (id : RegisterId) (word : Word) : Word :=
  if id = .pc then word &&& ~~~3#32 else word

/-- The cells a block load writes. -/
def Fills (i : Instruction) (r : RegisterFile) (bank : Bank) (id : RegisterId) : Prop :=
  i.loads = true ∧ i.lists id = true ∧ bank = i.blockBank r id

instance (i : Instruction) (r : RegisterFile) (bank : Bank) (id : RegisterId) :
    Decidable (i.Fills r bank id) :=
  inferInstanceAs (Decidable (_ ∧ _ ∧ _))

/-- The cell that the write-back goes to. -/
def MovesBase (i : Instruction) (r : RegisterFile) (bank : Bank) (id : RegisterId) : Prop :=
  i.writesBack = true ∧ bank = r.bank.select i.rn ∧ id = i.rn

/-- What every block transfer does to a board: it moves the base, unless a loaded word goes there,
and touches nothing but memory and the registers it fills. -/
structure BlockMoved (i : Instruction) (b b' : Board) : Prop where
  base : i.writesBack = true →
    ¬ i.Fills b.core.registers (b.core.registers.bank.select i.rn) i.rn →
    b'.core.registers.cell (b.core.registers.bank.select i.rn) i.rn =
      if i.upwards then b.core.registers.read i.rn + BitVec.ofNat 32 (4 * i.registerList.length)
      else b.core.registers.read i.rn - BitVec.ofNat 32 (4 * i.registerList.length)
  others : ∀ bank id, ¬ i.Fills b.core.registers bank id → ¬ i.MovesBase b.core.registers bank id →
    b'.core.registers.cell bank id = b.core.registers.cell bank id
  current : b'.core.registers.current = b.core.registers.current
  saved : b'.core.registers.saved = b.core.registers.saved
  rest : b' = { b with core := { b.core with
    ram := b'.core.ram, registers := b'.core.registers } }

/-- Every slot holds what its register held before, and no other byte differs. -/
structure BlockStored (i : Instruction) (b b' : Board) : Prop extends i.BlockMoved b b' where
  words : ∀ k id, i.registerList[k]? = some id →
    b'.core.ram.number (i.slotAddress (b.core.registers.read i.rn) k) 4 =
      i.blockWord b.core.registers id
  bytes : ∀ address, (∀ k < i.registerList.length,
      address < i.slotAddress (b.core.registers.read i.rn) k ∨
        i.slotAddress (b.core.registers.read i.rn) k + 4 ≤ address) →
    b'.core.ram.byte address = b.core.ram.byte address
  size : b'.core.ram.size = b.core.ram.size

/-- Every listed register holds the word of its slot, and memory is as it was. -/
structure BlockLoaded (i : Instruction) (b b' : Board) : Prop extends i.BlockMoved b b' where
  words : ∀ k id, i.registerList[k]? = some id →
    b'.core.registers.cell (i.blockBank b.core.registers id) id =
      arriving id (b.core.ram.number (i.slotAddress (b.core.registers.read i.rn) k) 4)
  ram : b'.core.ram = b.core.ram

section Slots
variable {i : Instruction} {base : Word}

theorem registerList_length_le (i : Instruction) : i.registerList.length ≤ 16 := by
  have short := List.length_filter_le i.lists (List.finRange 16)
  rwa [List.length_finRange] at short

theorem registerList_nodup (i : Instruction) : i.registerList.Nodup :=
  (List.nodup_finRange 16).filter _

theorem mem_registerList {id : RegisterId} : id ∈ i.registerList ↔ i.lists id = true := by
  simp [registerList]

theorem toNat_blockSpan (i : Instruction) : i.blockSpan.toNat = 4 * i.registerList.length := by
  have short := i.registerList_length_le
  rw [blockSpan, BitVec.toNat_ofNat, Nat.mod_eq_of_lt (by omega)]

/-- The model's first address is the first slot before its low bits are dropped. -/
theorem toNat_blockStart (i : Instruction) (base : Word) :
    ((i.blockStart base).toNat : Int) = (base.toNat + i.blockOffset) % 2 ^ 32 := by
  have short := i.registerList_length_le
  have bound := base.isLt
  have past : ∀ w : Word, (w + 4).toNat = (w.toNat + 4) % 2 ^ 32 := fun w => BitVec.toNat_add w 4
  have below : (base - i.blockSpan).toNat =
      (2 ^ 32 - 4 * i.registerList.length + base.toNat) % 2 ^ 32 := by
    rw [BitVec.toNat_sub, toNat_blockSpan]
  rw [blockStart, blockOffset]
  cases i.preIndexed <;> cases i.upwards <;> dsimp only
  case false.true => omega
  case true.true =>
    rw [past]
    omega
  case false.false =>
    rw [past, below]
    omega
  case true.false =>
    rw [below]
    omega

theorem slotAddress_eq (i : Instruction) (base : Word) (k : Nat) :
    i.slotAddress base k = ((i.blockStart base).toNat + 4 * k) % 2 ^ 32 / 4 * 4 := by
  have start := i.toNat_blockStart base
  rw [slotAddress]
  omega

/-- Where the first slot starts. -/
def firstSlot (i : Instruction) (base : Word) : Nat :=
  (Width.word.alignDown (i.blockStart base)).toNat

/-- Slots that all lie in memory do not wrap around. -/
theorem slotAddress_of_inside {limit : Nat} (bounded : limit ≤ AddressMap.maximumRam)
    (inside : ∀ k < i.registerList.length, i.slotAddress base k + 4 ≤ limit) {k : Nat}
    (within : k < i.registerList.length) :
    i.slotAddress base k = i.firstSlot base + 4 * k := by
  have limited : AddressMap.maximumRam = 0x03000000 := rfl
  induction k with
  | zero =>
    have bound := (i.blockStart base).isLt
    rw [slotAddress_eq, firstSlot, Width.toNat_alignDown, Width.bytes]
    omega
  | succ k ih =>
    have last := ih (by omega)
    have below := inside k (by omega)
    rw [last] at below
    rw [slotAddress_eq] at last ⊢
    rw [firstSlot, Width.toNat_alignDown, Width.bytes] at last below ⊢
    omega

end Slots

/-- The words from an address upwards, one for each listed register. -/
def wordsFor (ram : Ram) (start : Nat) (list : List RegisterId) : List (RegisterId × Word) :=
  list.mapIdx fun k id => (id, ram.number (start + 4 * k) 4)

section Words
variable {ram : Ram} {start k : Nat} {list : List RegisterId}

theorem wordsFor_cons (id : RegisterId) :
    wordsFor ram start (id :: list) =
      (id, ram.number start 4) :: wordsFor ram (start + 4) list := by
  have shifted : ∀ k, start + 4 * (k + 1) = start + 4 + 4 * k := by
    intro k
    omega
  simp only [wordsFor, List.mapIdx_cons, shifted, Nat.mul_zero, Nat.add_zero]

theorem length_wordsFor : (wordsFor ram start list).length = list.length := List.length_mapIdx

theorem getElem_wordsFor (listed : k < list.length)
    (short : k < (wordsFor ram start list).length) :
    (wordsFor ram start list)[k] = (list[k], ram.number (start + 4 * k) 4) :=
  List.getElem_mapIdx ..

theorem map_fst_wordsFor : (wordsFor ram start list).map Prod.fst = list := by
  apply List.ext_getElem
  · rw [List.length_map, length_wordsFor]
  · intro k _ listed
    rw [List.getElem_map, getElem_wordsFor listed]

theorem mem_wordsFor (listed : k < list.length) :
    (list[k], ram.number (start + 4 * k) 4) ∈ wordsFor ram start list := by
  have short : k < (wordsFor ram start list).length := length_wordsFor.symm ▸ listed
  rw [← getElem_wordsFor listed short]
  exact List.getElem_mem short

end Words

section Runs
variable {b : Board}

theorem alignDown_next (address : Word)
    (room : (Width.word.alignDown address).toNat + 4 < 2 ^ 32) :
    (Width.word.alignDown (address + 4)).toNat = (Width.word.alignDown address).toNat + 4 := by
  have bound := address.isLt
  have next : (address + 4).toNat = (address.toNat + 4) % 2 ^ 32 := BitVec.toNat_add address 4
  rw [Width.toNat_alignDown, Width.bytes] at room ⊢
  rw [Width.toNat_alignDown, Width.bytes, next]
  omega

theorem run_writeBlock (flat : b.Flat) (privileged : Bool) (address : Word) (values : List Word)
    (inside : ∀ k < values.length,
      (Width.word.alignDown address).toNat + 4 * k + 4 ≤ b.core.ram.size) :
    b.run (writeBlock privileged address values) =
      (.ok (), b.withRam (b.core.ram.storeRun (Width.word.alignDown address).toNat values)) := by
  induction values generalizing b address with
  | nil => rfl
  | cons value rest ih =>
    have limit : b.core.ram.size ≤ 0x03000000 := flat.bounded
    have first := inside 0 (Nat.zero_lt_succ _)
    have next := alignDown_next address (by omega)
    have written := flat.run_write privileged value (decide_eq_true first)
    have size : (b.core.ram.store address value .word).size = b.core.ram.size :=
      Ram.size_storeBytes _ _ _ _
    rw [writeBlock, Board.run_bind_ok written, ih (flat.withRam size) (address + 4), next,
      Board.withRam_withRam, Board.ram_withRam, Ram.storeRun]
    · rfl
    · intro k within
      have later := inside (k + 1) (Nat.succ_lt_succ within)
      refine Nat.le_trans ?_ (Nat.le_of_eq size.symm)
      omega

theorem run_readBlock (flat : b.Flat) (privileged : Bool) (address : Word) (list : List RegisterId)
    (inside : ∀ k < list.length,
      (Width.word.alignDown address).toNat + 4 * k + 4 ≤ b.core.ram.size) :
    b.run (readBlock privileged address list) =
      (.ok (wordsFor b.core.ram (Width.word.alignDown address).toNat list), b) := by
  induction list generalizing address with
  | nil => rfl
  | cons id rest ih =>
    have limit : b.core.ram.size ≤ 0x03000000 := flat.bounded
    have first := inside 0 (Nat.zero_lt_succ _)
    have next := alignDown_next address (by omega)
    have read := flat.run_read privileged (decide_eq_true first)
    have others := ih (address + 4) fun k within => by
      have later := inside (k + 1) (Nat.succ_lt_succ within)
      omega
    rw [readBlock, Board.run_bind_ok read, Board.run_bind_ok others, wordsFor_cons, next]
    rfl

end Runs

section Registers
variable {i : Instruction} {r : RegisterFile} {base : Word}

/-- Loaded words on their way to the registers. -/
def arrivals (words : List (RegisterId × Word)) : List (RegisterId × Word) :=
  words.map fun (id, word) => (id, arriving id word)

theorem writeResult_eq (r : RegisterFile) (id : RegisterId) (value : Word) :
    r.writeResult id value = r.setCell (r.bank.select id) id (arriving id value) := by
  by_cases counter : id = .pc
  · subst counter
    rfl
  · rw [RegisterFile.writeResult, arriving, if_neg counter, if_neg counter]
    rfl

theorem commitBlock_eq {userBank : Bool} {values : List (RegisterId × Word)}
    (plain : userBank = true → ∀ p ∈ values, p.1 ≠ .pc) :
    commitBlock userBank r values =
      r.setCells (fun id => if userBank then .user else r.bank.select id) (arrivals values) := by
  induction values generalizing r with
  | nil => rfl
  | cons first rest ih =>
    obtain ⟨id, word⟩ := first
    have written : (if userBank then r.writeUser id word else r.writeResult id word) =
        r.setCell (if userBank then .user else r.bank.select id) id (arriving id word) := by
      cases userBank with
      | true =>
        have ordinary := plain rfl _ List.mem_cons_self
        rw [arriving, if_neg ordinary]
        rfl
      | false => exact writeResult_eq r id word
    have others := ih (r := r.setCell (if userBank then .user else r.bank.select id) id
      (arriving id word)) fun user p listed => plain user p (List.mem_cons_of_mem _ listed)
    refine (congrArg (commitBlock userBank · rest) written).trans ?_
    exact others

theorem cell_writeBlockBase (bank : Bank) (id : RegisterId) :
    (i.writeBlockBase r base).cell bank id =
      if i.writesBack = true ∧ r.bank.select i.rn = bank ∧ i.rn = id then i.blockEnd base
      else r.cell bank id := by
  unfold writeBlockBase
  split
  · rename_i moved
    rw [RegisterFile.write, RegisterFile.cell_setCell]
    simp only [moved, true_and]
  · rename_i kept
    rw [if_neg fun all => kept all.1]

theorem commitBlock_writeBlockBase {words : List (RegisterId × Word)}
    (plain : i.variant = true → ∀ p ∈ words, p.1 ≠ .pc) :
    commitBlock i.variant (i.writeBlockBase r base) words =
      (i.writeBlockBase r base).setCells (i.blockBank r) (arrivals words) := by
  have bank : (i.writeBlockBase r base).bank = r.bank :=
    congrArg StatusWord.bank (i.current_writeBlockBase r base)
  rw [commitBlock_eq plain, bank]
  rfl

/-- The variant bit alone decides, but in an exception return. -/
theorem blockUsesUserBank_eq (plain : i.loads = true → i.variant = true → i.lists .pc = false) :
    i.blockUsesUserBank = i.variant := by
  rw [blockUsesUserBank]
  cases loads : i.loads with
  | false => exact Bool.and_true _
  | true =>
    cases variant : i.variant with
    | false => rfl
    | true => rw [plain loads variant, Bool.and_false, Bool.not_false, Bool.and_true]

theorem not_fills_of_stores (stores : i.loads = false) (bank : Bank) (id : RegisterId) :
    ¬ i.Fills r bank id := by
  rintro ⟨loads, -⟩
  rw [stores] at loads
  contradiction

/-- A block store takes what is laid down in `blockWord`. -/
theorem blockValue_eq (stores : i.loads = false) (id : RegisterId) :
    blockValue i.blockUsesUserBank r id = i.blockWord r id := by
  have user : i.blockUsesUserBank = i.variant := blockUsesUserBank_eq fun loads => by
    rw [stores] at loads
    contradiction
  have viewed : id ≠ .pc → ∀ word, RegisterFile.operandView id word = word :=
    fun ordinary _ => if_neg ordinary
  rw [blockValue, blockWord, user]
  by_cases counter : id = .pc
  · subst counter
    rw [if_pos rfl, if_pos rfl]
    exact r.pc_ahead
  · rw [if_neg counter, if_neg counter, blockBank, RegisterFile.readUser, RegisterFile.read,
      viewed counter, viewed counter]
    split <;> rfl

end Registers

section Layout
variable {i : Instruction} {b : Board}

theorem inside_of_slotsInside (flat : b.Flat) (inside : i.SlotsInside b) {k : Nat}
    (within : k < i.registerList.length) :
    i.firstSlot (b.core.registers.read i.rn) + 4 * k + 4 ≤ b.core.ram.size := by
  rw [← slotAddress_of_inside flat.bounded inside within]
  exact inside k within

theorem run_storeBlock (flat : b.Flat) (inside : i.SlotsInside b) :
    b.run i.storeBlock =
      (.ok (), (b.withRam (b.core.ram.storeRun (i.firstSlot (b.core.registers.read i.rn))
        (i.blockValues b.core.registers))).mapRegisters
          fun r => i.writeBlockBase r (b.core.registers.read i.rn)) := by
  have written := run_writeBlock flat b.core.registers.current.privileged
    (i.blockStart (b.core.registers.read i.rn)) (i.blockValues b.core.registers) fun k within => by
      rw [length_blockValues] at within
      exact inside_of_slotsInside flat inside within
  rw [storeBlock, Board.run_bind_ok (Board.run_getRegisters b)]
  exact Board.run_bind_ok written

/-- A block load that is no exception return fills the listed registers after it moved the base. -/
theorem run_loadBlock (flat : b.Flat) (inside : i.SlotsInside b)
    (plain : i.variant = true → i.lists .pc = false) :
    b.run i.loadBlock =
      (.ok (), b.mapRegisters fun r =>
        (i.writeBlockBase r (b.core.registers.read i.rn)).setCells (i.blockBank r)
          (arrivals (wordsFor b.core.ram (i.firstSlot (b.core.registers.read i.rn))
            i.registerList))) := by
  have read := run_readBlock flat b.core.registers.current.privileged
    (i.blockStart (b.core.registers.read i.rn)) i.registerList
    fun k within => inside_of_slotsInside flat inside within
  have returns : (i.variant && i.lists .pc) = false := by
    cases variant : i.variant with
    | false => rfl
    | true => exact plain variant
  have ordinary : ∀ start, i.variant = true →
      ∀ p ∈ wordsFor b.core.ram start i.registerList, p.1 ≠ .pc := by
    intro start variant p member counter
    have listed := List.mem_map_of_mem (f := Prod.fst) member
    rw [map_fst_wordsFor, mem_registerList, counter, plain variant] at listed
    contradiction
  rw [loadBlock, Board.run_bind_ok (Board.run_getRegisters b)]
  dsimp only
  rw [Board.run_bind_ok read, Board.run_bind_ok (Board.run_modifyRegisters b _), returns,
    blockUsesUserBank_eq fun _ => plain]
  simp only [commitBlock_writeBlockBase (ordinary _)]
  rfl

/-- A board whose base is moved and whose listed registers are then filled, in whatever way. -/
theorem blockMoved_setCells (ram : Ram) (values : List (RegisterId × Word))
    (filled : ∀ id ∈ values.map Prod.fst, i.loads = true ∧ i.lists id = true) :
    i.BlockMoved b ((b.withRam ram).mapRegisters fun r =>
      (i.writeBlockBase r (b.core.registers.read i.rn)).setCells (i.blockBank r) values) where
  base moves unfilled := by
    have apart : i.rn ∈ values.map Prod.fst →
        i.blockBank b.core.registers i.rn ≠ b.core.registers.bank.select i.rn :=
      fun listed same => unfilled ⟨(filled _ listed).1, (filled _ listed).2, same.symm⟩
    refine (RegisterFile.cell_setCells_of_apart apart).trans ?_
    exact (cell_writeBlockBase _ _).trans (if_pos ⟨moves, rfl, rfl⟩)
  others bank id unfilled kept := by
    have apart : id ∈ values.map Prod.fst → i.blockBank b.core.registers id ≠ bank :=
      fun listed same => unfilled ⟨(filled _ listed).1, (filled _ listed).2, same.symm⟩
    refine (RegisterFile.cell_setCells_of_apart apart).trans ?_
    refine (cell_writeBlockBase _ _).trans (if_neg ?_)
    rintro ⟨moves, rfl, rfl⟩
    exact kept ⟨moves, rfl, rfl⟩
  current := (RegisterFile.current_setCells _ _ _).trans (i.current_writeBlockBase _ _)
  saved := (RegisterFile.saved_setCells _ _ _).trans (i.saved_writeBlockBase _ _)
  rest := rfl

theorem storeBlock_layout (flat : b.Flat) (inside : i.SlotsInside b) (stores : i.loads = false) :
    ∃ b', b.run i.storeBlock = (.ok (), b') ∧ i.BlockStored b b' := by
  have slot := fun {k} (within : k < i.registerList.length) =>
    slotAddress_of_inside flat.bounded inside within
  have last := fun {k} (within : k < i.registerList.length) =>
    inside_of_slotsInside flat inside within
  refine ⟨_, run_storeBlock flat inside, ?_⟩
  exact {
    toBlockMoved := blockMoved_setCells _ [] fun _ none => nomatch none
    words := by
      intro k id named
      obtain ⟨listed, rfl⟩ := List.getElem?_eq_some_iff.mp named
      have final := last (k := i.registerList.length - 1) (by omega)
      rw [slot listed]
      refine (Ram.number_storeRun ?_ ?_).trans ?_
      · rw [length_blockValues]
        omega
      · rwa [length_blockValues]
      · exact (List.getElem_map ..).trans (blockValue_eq stores _)
    bytes := by
      intro address apart
      refine Ram.byte_storeRun ?_
      rw [length_blockValues]
      refine Decidable.byContradiction fun within => ?_
      -- The distance from the first slot tells in which slot the address would be.
      have clear := apart ((address - i.firstSlot (b.core.registers.read i.rn)) / 4) (by omega)
      rw [slot (by omega)] at clear
      omega
    size := Ram.size_storeRun _ _ _ }

theorem loadBlock_layout (flat : b.Flat) (inside : i.SlotsInside b) (loads : i.loads = true)
    (plain : i.variant = true → i.lists .pc = false) :
    ∃ b', b.run i.loadBlock = (.ok (), b') ∧ i.BlockLoaded b b' := by
  have names : ∀ start,
      (arrivals (wordsFor b.core.ram start i.registerList)).map Prod.fst = i.registerList := by
    intro start
    rw [arrivals, List.map_map]
    exact map_fst_wordsFor
  refine ⟨_, run_loadBlock flat inside plain, ?_⟩
  exact {
    toBlockMoved := by
      refine blockMoved_setCells b.core.ram _ fun id listed => ?_
      rw [names, mem_registerList] at listed
      exact ⟨loads, listed⟩
    words := by
      intro k id named
      obtain ⟨listed, rfl⟩ := List.getElem?_eq_some_iff.mp named
      rw [slotAddress_of_inside flat.bounded inside listed]
      refine RegisterFile.cell_setCells_of_mem ?_ ?_
      · rw [names]
        exact i.registerList_nodup
      · exact List.mem_map_of_mem (mem_wordsFor listed)
    ram := rfl }

theorem execute_blockTransfer (shape : i.shape = .blockTransfer) : i.execute = i.transferBlock := by
  rw [execute, shape]

end Layout
end Instruction

namespace Board

variable {b : Board} {i : Instruction}

theorem execute_storeBlock (flat : b.Flat) (shape : i.shape = .blockTransfer)
    (inside : i.SlotsInside b) (stores : i.loads = false) :
    (b.execute i).result = .ok () ∧ i.BlockStored b (b.execute i).board := by
  obtain ⟨b', run, stored⟩ := Instruction.storeBlock_layout flat inside stores
  have executed : b.run i.execute = (.ok (), b') := by
    rw [Instruction.execute_blockTransfer shape, Instruction.transferBlock, stores]
    exact run
  have board : (b.execute i).board = b' := congrArg Prod.snd executed
  exact ⟨congrArg Prod.fst executed, board ▸ stored⟩

theorem execute_loadBlock (flat : b.Flat) (shape : i.shape = .blockTransfer)
    (inside : i.SlotsInside b) (loads : i.loads = true)
    (plain : i.variant = true → i.lists .pc = false) :
    (b.execute i).result = .ok () ∧ i.BlockLoaded b (b.execute i).board := by
  obtain ⟨b', run, loaded⟩ := Instruction.loadBlock_layout flat inside loads plain
  have executed : b.run i.execute = (.ok (), b') := by
    rw [Instruction.execute_blockTransfer shape, Instruction.transferBlock, loads]
    exact run
  have board : (b.execute i).board = b' := congrArg Prod.snd executed
  exact ⟨congrArg Prod.fst executed, board ▸ loaded⟩

/-- With paging off and all slots in memory a block transfer succeeds and moves each listed register
to or from its slot, whatever the addressing mode and the alignment of the base. The only loads left
out return from an exception: they list register 15 and have the variant bit. -/
theorem block_transfer_layout (b : Board) (i : Instruction) (flat : b.Flat)
    (shape : i.shape = .blockTransfer) (inside : i.SlotsInside b) :
    let p := b.execute i
    (i.loads = false → p.result = .ok () ∧ i.BlockStored b p.board) ∧
      (i.loads = true → (i.variant = true → i.lists .pc = false) →
        p.result = .ok () ∧ i.BlockLoaded b p.board) :=
  ⟨execute_storeBlock flat shape inside, execute_loadBlock flat shape inside⟩

/-- Supervisor code at `0x100` whose stack pointer lies inside a word. -/
def stackUser : Board where
  core :=
    { registers := ((RegisterFile.initial.write .r0 5).write .stack 18).setPc 0x104
      mmu := Mmu.initial true
      ram := ⟨⟨#[0, 0, 0, 0, 0, 0, 0, 0, 0, 0, 0, 0, 0, 0, 0, 0, 42, 0, 0, 0, 3, 16, 0, 0]⟩⟩
      decode := .idle 0x100
      instructionCount := 0
      runState := .running
      diagnostics := .initial }
  devices := .empty

theorem stackUser_flat : stackUser.Flat := ⟨rfl, by decide⟩

/-- `stmdb sp!, {r0, sp, pc}` and `ldmia sp!, {r0, pc}`. -/
theorem block_transfer_layout_stackUser :
    let pushed := stackUser.execute ⟨0xE92DA001⟩
    let popped := stackUser.execute ⟨0xE8BD8001⟩
    pushed.result = .ok () ∧ pushed.board.core.ram.number 4 4 = 5 ∧
      pushed.board.core.ram.number 8 4 = 18 ∧ pushed.board.core.ram.number 12 4 = 0x10C ∧
      pushed.board.core.registers.cell .supervisor 13 = 6 ∧
      popped.result = .ok () ∧ popped.board.core.registers.cell .user .r0 = 42 ∧
      popped.board.core.registers.pc = 0x1000 ∧
      popped.board.core.registers.cell .supervisor 13 = 26 := by
  obtain ⟨pushes, -⟩ := block_transfer_layout stackUser ⟨0xE92DA001⟩ stackUser_flat (by decide)
    (by decide +kernel)
  obtain ⟨-, pops⟩ := block_transfer_layout stackUser ⟨0xE8BD8001⟩ stackUser_flat (by decide)
    (by decide +kernel)
  obtain ⟨stored, push⟩ := pushes (by decide)
  obtain ⟨loaded, pop⟩ := pops (by decide) (by decide)
  exact ⟨stored, push.words 0 0 (by decide), push.words 1 13 (by decide),
    push.words 2 15 (by decide), push.base (by decide) (by decide), loaded,
    pop.words 0 0 (by decide), pop.words 1 15 (by decide), pop.base (by decide) (by decide)⟩

end Board
end ArmMachine
