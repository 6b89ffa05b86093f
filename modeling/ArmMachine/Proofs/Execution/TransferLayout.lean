import Mathlib.Algebra.Group.Int.Defs
import Mathlib.Algebra.Group.Nat.Defs
import ArmMachine.Proofs.Execution.BlockLayout

/-! What a load, a store or a swap of one register does, in numbers: which bytes it goes to, what it
takes from them or puts there, and what becomes of its base. One description fits all of them, in
every addressing mode, at every alignment and for every choice of registers; whatever it does not
name stays as it was. -/
namespace ArmMachine

/-- Loads and stores of one register, and swaps. -/
def Shape.movesOne : Shape → Bool
  | transferImmediate | transferRegister | swap => true
  | s => s.isHalfwordTransfer

theorem Shape.movesOne_cases {s : Shape} (moves : s.movesOne = true) :
    s = .transferImmediate ∨ s = .transferRegister ∨ s = .swap ∨ s.isHalfwordTransfer = true := by
  cases s <;> simp [movesOne, isHalfwordTransfer] at moves ⊢

namespace Instruction

/-- How much is moved. -/
def dataWidth (i : Instruction) : Width :=
  match i.shape with
  | .halfwordRegister | .halfwordImmediate | .signedHalfwordRegister | .signedHalfwordImmediate =>
    .halfword
  | .signedByteRegister | .signedByteImmediate => .byte
  | _ => if i.variant then .byte else .word

/-- Loaded bytes and halfwords are extended by their sign. -/
def dataSigned (i : Instruction) : Bool :=
  match i.shape with
  | .signedByteRegister | .signedByteImmediate | .signedHalfwordRegister
  | .signedHalfwordImmediate => true
  | _ => false

/-- How far the base moves. -/
def displacement (i : Instruction) (r : RegisterFile) : Nat :=
  match i.shape with
  | .transferImmediate => i.word.toNat % 0x1000
  | .transferRegister =>
    (Shifted.byImmediate (r.read i.rm) (i.word.toNat / 0x80 % 0x20) i.shiftKind
      (r.current.has .carry)).value.toNat
  | .halfwordImmediate | .signedByteImmediate | .signedHalfwordImmediate =>
    i.word.toNat / 0x100 % 0x10 * 0x10 + i.word.toNat % 0x10
  | .halfwordRegister | .signedByteRegister | .signedHalfwordRegister => (r.read i.rm).toNat
  | _ => 0

/-- The base once moved. Addresses wrap around. -/
def movedBase (i : Instruction) (r : RegisterFile) : Word :=
  let base : Int := (r.read i.rn).toNat
  BitVec.ofInt 32 (if i.upwards then base + i.displacement r else base - i.displacement r)

/-- Swaps and post-indexed transfers go to the base itself. -/
def dataAddress (i : Instruction) (r : RegisterFile) : Word :=
  if i.shape = .swap ∨ i.preIndexed = false then r.read i.rn else i.movedBase r

/-- The first byte that is moved. Low address bits within the width are ignored. -/
def dataStart (i : Instruction) (r : RegisterFile) : Nat :=
  (i.dataAddress r).toNat / i.dataWidth.bytes * i.dataWidth.bytes

/-- All bytes that are moved lie in memory. -/
def DataInside (i : Instruction) (b : Board) : Prop :=
  i.dataStart b.core.registers + i.dataWidth.bytes ≤ b.core.ram.size

instance (i : Instruction) (b : Board) : Decidable (i.DataInside b) :=
  inferInstanceAs (Decidable (_ ≤ _))

/-- The destination register takes a value from memory. -/
def Takes (i : Instruction) : Prop := i.shape = .swap ∨ i.loads = true

/-- Memory is given a value. -/
def Gives (i : Instruction) : Prop := i.shape = .swap ∨ i.loads = false

/-- The base register is moved. -/
def ChangesBase (i : Instruction) : Prop :=
  i.shape ≠ .swap ∧ (i.preIndexed = false ∨ i.writesBack = true)

instance (i : Instruction) : Decidable i.Takes := inferInstanceAs (Decidable (_ ∨ _))

instance (i : Instruction) : Decidable i.Gives := inferInstanceAs (Decidable (_ ∨ _))

instance (i : Instruction) : Decidable i.ChangesBase := inferInstanceAs (Decidable (_ ∧ _))

/-- What is taken: a word is turned so that the addressed byte is its lowest, anything shorter is
extended. -/
def takenValue (i : Instruction) (b : Board) : Word :=
  let raw := b.core.ram.number (i.dataStart b.core.registers) i.dataWidth.bytes
  match i.dataWidth, i.dataSigned with
  | .word, _ => raw.rotateRight (8 * ((i.dataAddress b.core.registers).toNat % 4))
  | .byte, true => (raw.extractLsb' 0 8).signExtend 32
  | .halfword, true => (raw.extractLsb' 0 16).signExtend 32
  | _, false => raw

/-- What is given: a swap gives its operand, a store its destination field. Register 15 is stored as
the address of the instruction plus 12. -/
def givenValue (i : Instruction) (r : RegisterFile) : Word :=
  if i.shape = .swap then r.read i.rm
  else if i.rd = .pc then r.executing + 12
  else r.read i.rd

/-- What a transfer of one register does to a board. A value that is taken into the base register
stands, whatever the base would have become. -/
structure Transferred (i : Instruction) (b b' : Board) : Prop where
  taken : i.Takes →
    b'.core.registers.cell (b.core.registers.bank.select i.rd) i.rd = arriving i.rd (i.takenValue b)
  lowest : i.Takes → i.dataWidth = .word →
    (i.takenValue b).lane 0 = b.core.ram.byte (i.dataAddress b.core.registers).toNat
  base : i.ChangesBase → ¬ (i.Takes ∧ i.rd = i.rn) →
    b'.core.registers.cell (b.core.registers.bank.select i.rn) i.rn = i.movedBase b.core.registers
  others : ∀ bank id,
    ¬ (i.Takes ∧ bank = b.core.registers.bank.select i.rd ∧ id = i.rd) →
    ¬ (i.ChangesBase ∧ bank = b.core.registers.bank.select i.rn ∧ id = i.rn) →
    b'.core.registers.cell bank id = b.core.registers.cell bank id
  current : b'.core.registers.current = b.core.registers.current
  saved : b'.core.registers.saved = b.core.registers.saved
  given : i.Gives → ∀ k < i.dataWidth.bytes,
    b'.core.ram.byte (i.dataStart b.core.registers + k) =
      (i.givenValue b.core.registers).lane k
  bytes : ∀ address,
    ¬ (i.Gives ∧ i.dataStart b.core.registers ≤ address ∧
      address < i.dataStart b.core.registers + i.dataWidth.bytes) →
    b'.core.ram.byte address = b.core.ram.byte address
  size : b'.core.ram.size = b.core.ram.size
  rest : b' = { b with core := { b.core with
    ram := b'.core.ram, registers := b'.core.registers } }

section Fields
variable {i : Instruction} {r : RegisterFile}

theorem toNat_number (i : Instruction) (position : Nat) {length : Nat} (short : length ≤ 32) :
    (i.number position length).toNat = i.word.toNat / 2 ^ position % 2 ^ length :=
  toNat_field i.word position short

theorem toNat_splitImmediate (i : Instruction) :
    i.splitImmediate.toNat = i.word.toNat / 0x100 % 0x10 * 0x10 + i.word.toNat % 0x10 := by
  have high := i.toNat_number 8 (by decide : 4 ≤ 32)
  have low := i.toNat_number 0 (by decide : 4 ≤ 32)
  have below : (i.number 0 4).toNat < 2 ^ 4 := by
    rw [low]
    exact Nat.mod_lt _ (by decide)
  rw [splitImmediate, BitVec.toNat_or, BitVec.toNat_shiftLeft,
    Nat.mod_eq_of_lt (by rw [high, Nat.shiftLeft_eq]; omega),
    ← Nat.shiftLeft_add_eq_or_of_lt below, high, low, Nat.shiftLeft_eq]
  omega

theorem toNat_transferOffset (shape : i.shape = .transferImmediate ∨ i.shape = .transferRegister) :
    (i.transferOffset r).toNat = i.displacement r := by
  rcases shape with shape | shape
  · have field := i.toNat_number 0 (by decide : 12 ≤ 32)
    simp only [transferOffset, displacement, shape, if_true]
    rw [immediate12, field]
    omega
  · have amount : i.shiftAmount.toNat % 32 = i.word.toNat / 0x80 % 0x20 := by
      rw [shiftAmount, i.toNat_number 7 (by decide : 5 ≤ 32)]
      omega
    simp only [transferOffset, displacement, shape, reduceCtorEq, if_false, shift, amount]

theorem toNat_halfwordOffset (shape : i.shape.isHalfwordTransfer = true) :
    (i.halfwordOffset r).toNat = i.displacement r := by
  unfold halfwordOffset displacement
  cases named : i.shape <;> simp [named, Shape.isHalfwordTransfer] at shape <;>
    first | exact i.toNat_splitImmediate | rfl

theorem moveBase_eq_ofInt (base offset : Word) (upwards : Bool) :
    moveBase base offset upwards =
      BitVec.ofInt 32 (if upwards then (base.toNat : Int) + offset.toNat
        else base.toNat - offset.toNat) := by
  have boundBase := base.isLt
  have boundOffset := offset.isLt
  apply BitVec.eq_of_toNat_eq
  cases upwards with
  | true =>
    simp only [moveBase, if_true, BitVec.toNat_ofInt, BitVec.toNat_add]
    omega
  | false =>
    simp only [moveBase, Bool.false_eq_true, if_false, BitVec.toNat_ofInt, BitVec.toNat_sub]
    omega

/-- The plan of a transfer, once its offset is known. -/
theorem transferPlan_eq (notSwap : i.shape ≠ .swap) {offset : Word}
    (distance : offset.toNat = i.displacement r) :
    (i.transferPlan r offset).address = i.dataAddress r ∧
      (i.transferPlan r offset).newBase =
        if i.ChangesBase then some (i.movedBase r) else none := by
  have moved : moveBase (r.read i.rn) offset i.upwards = i.movedBase r := by
    rw [moveBase_eq_ofInt, distance]
    rfl
  have changes : i.ChangesBase ↔ (!i.preIndexed || i.writesBack) = true := by
    simp only [ChangesBase, ne_eq, notSwap, not_false_eq_true, true_and, Bool.or_eq_true,
      Bool.not_eq_true']
  constructor
  · cases pre : i.preIndexed with
    | true => simp only [transferPlan, dataAddress, moved, pre, notSwap, if_true, or_self,
        reduceCtorEq, if_false]
    | false => simp only [transferPlan, dataAddress, pre, Bool.false_eq_true, if_false, or_true,
        if_true]
  · by_cases moves : (!i.preIndexed || i.writesBack) = true
    · rw [if_pos (changes.mpr moves)]
      exact (if_pos moves).trans (congrArg some moved)
    · rw [if_neg fun all => moves (changes.mp all)]
      exact if_neg moves

theorem dataStart_eq (i : Instruction) (r : RegisterFile) :
    (i.dataWidth.alignDown (i.dataAddress r)).toNat = i.dataStart r :=
  Width.toNat_alignDown _ _

end Fields

section Values
variable {i : Instruction} {b : Board}

/-- Turning a word by whole bytes brings the byte at that place to the low end. -/
theorem lane_rotateRight (value : Word) {k : Nat} (small : k < 4) :
    Word.lane (value.rotateRight (8 * k)) 0 = value.lane k := by
  apply BitVec.eq_of_getLsbD_eq
  intro j inside
  have turned : 8 * k % 32 = 8 * k := Nat.mod_eq_of_lt (by omega)
  simp only [Word.lane, BitVec.getLsbD_extractLsb', inside, decide_true, Bool.true_and,
    Nat.mul_zero, Nat.zero_add, BitVec.getLsbD_rotateRight, turned]
  have unturned : j < 32 - 8 * k := by omega
  rw [decide_eq_true unturned, cond_true]

theorem lane_takenValue (word : i.dataWidth = .word) :
    (i.takenValue b).lane 0 = b.core.ram.byte (i.dataAddress b.core.registers).toNat := by
  have low : (i.dataAddress b.core.registers).toNat % 4 < 4 := Nat.mod_lt _ (by decide)
  have place : i.dataStart b.core.registers + (i.dataAddress b.core.registers).toNat % 4 =
      (i.dataAddress b.core.registers).toNat := by
    rw [dataStart, word, Width.bytes]
    omega
  simp only [takenValue, word, Width.bytes]
  rw [lane_rotateRight _ low, Ram.lane_number _ _ _ _ low, if_pos low, place]

theorem load_eq (i : Instruction) (b : Board) :
    b.core.ram.load (i.dataAddress b.core.registers) i.dataWidth =
      b.core.ram.number (i.dataStart b.core.registers) i.dataWidth.bytes :=
  congrArg (b.core.ram.number · _) (dataStart_eq _ _)

theorem loadedValue_eq (plain : i.dataSigned = false) :
    loadedValue i.dataWidth (i.dataAddress b.core.registers)
      (b.core.ram.load (i.dataAddress b.core.registers) i.dataWidth) = i.takenValue b := by
  have low : ((i.dataAddress b.core.registers).extractLsb' 0 2).toNat =
      (i.dataAddress b.core.registers).toNat % 4 := BitVec.extractLsb'_toNat ..
  rw [load_eq, takenValue, plain]
  cases i.dataWidth with
  | word =>
    simp only [loadedValue, rotateLoaded, low]
  | byte => rfl
  | halfword => rfl

theorem signExtended_eq (signed : i.dataSigned = true) (short : i.dataWidth ≠ .word) :
    signExtended i.dataWidth (b.core.ram.load (i.dataAddress b.core.registers) i.dataWidth) =
      i.takenValue b := by
  rw [load_eq, takenValue, signed]
  cases width : i.dataWidth with
  | word => contradiction
  | byte => rfl
  | halfword => rfl

theorem storedValue_eq (notSwap : i.shape ≠ .swap) (r : RegisterFile) :
    storedValue r i.rd = i.givenValue r := by
  rw [storedValue, givenValue, if_neg notSwap]
  by_cases counter : i.rd = .pc
  · rw [if_pos counter, if_pos counter, counter]
    exact r.pc_ahead
  · rw [if_neg counter, if_neg counter]

end Values

section Runs
variable {i : Instruction} {b : Board}

/-- Memory once a transfer has given its value. -/
def givenRam (i : Instruction) (b : Board) : Ram :=
  if i.Gives then
    b.core.ram.store (i.dataAddress b.core.registers)
      (i.givenValue b.core.registers &&& i.dataWidth.valueMask) i.dataWidth
  else b.core.ram

/-- The registers once the base has moved and the value taken has arrived. -/
def takenRegisters (i : Instruction) (b : Board) : RegisterFile :=
  let r := b.core.registers
  let moved := if i.ChangesBase then r.write i.rn (i.movedBase r) else r
  if i.Takes then moved.writeResult i.rd (i.takenValue b) else moved

/-- The board after a transfer of one register. -/
def transferredBoard (i : Instruction) (b : Board) : Board :=
  (b.withRam (i.givenRam b)).mapRegisters fun _ => i.takenRegisters b

theorem covers_of_inside (inside : i.DataInside b) :
    b.core.ram.covers (i.dataAddress b.core.registers) i.dataWidth = true := by
  refine decide_eq_true ?_
  rw [dataStart_eq]
  exact inside

theorem writeBase_ite (r : RegisterFile) (base : Word) :
    i.writeBase r (if i.ChangesBase then some base else none) =
      if i.ChangesBase then r.write i.rn base else r := by
  split <;> rfl

/-- A load along a plan that moves the base as laid down. -/
theorem run_loadAlong (flat : b.Flat) (inside : i.DataInside b) (loads : i.loads = true)
    (notSwap : i.shape ≠ .swap) {plan : TransferPlan}
    (address : plan.address = i.dataAddress b.core.registers)
    (newBase : plan.newBase =
      if i.ChangesBase then some (i.movedBase b.core.registers) else none)
    {convert : Word → Word}
    (value : convert (b.core.ram.load (i.dataAddress b.core.registers) i.dataWidth) =
      i.takenValue b) :
    b.run (i.loadAlong plan i.dataWidth convert) = (.ok (), i.transferredBoard b) := by
  have takes : i.Takes := .inr loads
  have gives : ¬ i.Gives := by
    rintro (swap | stores)
    · exact notSwap swap
    · rw [loads] at stores
      contradiction
  have read := flat.run_read plan.privileged (covers_of_inside inside)
  rw [loadAlong, address, Board.run_bind_ok read, Board.run_modifyRegisters, value, newBase,
    transferredBoard, givenRam, if_neg gives]
  simp only [writeBase_ite, takenRegisters, if_pos takes]
  rfl

theorem run_storeAlong (flat : b.Flat) (inside : i.DataInside b) (stores : i.loads = false)
    (notSwap : i.shape ≠ .swap) {plan : TransferPlan}
    (address : plan.address = i.dataAddress b.core.registers)
    (newBase : plan.newBase =
      if i.ChangesBase then some (i.movedBase b.core.registers) else none) :
    b.run (i.storeAlong plan i.dataWidth) = (.ok (), i.transferredBoard b) := by
  have gives : i.Gives := .inr stores
  have takes : ¬ i.Takes := by
    rintro (swap | loads)
    · exact notSwap swap
    · rw [stores] at loads
      contradiction
  have written := flat.run_write plan.privileged
    (i.givenValue b.core.registers &&& i.dataWidth.valueMask) (covers_of_inside inside)
  rw [storeAlong, Board.run_bind_ok (Board.run_getRegisters b), storedValue_eq notSwap, address,
    Board.run_bind_ok written, Board.run_modifyRegisters,
    newBase, transferredBoard, givenRam, if_pos gives]
  simp only [writeBase_ite, takenRegisters, if_neg takes]
  rfl

theorem run_transfer (flat : b.Flat) (inside : i.DataInside b)
    (shape : i.shape = .transferImmediate ∨ i.shape = .transferRegister) :
    b.run i.transfer = (.ok (), i.transferredBoard b) := by
  have notSwap : i.shape ≠ .swap := by
    rintro swap
    rw [swap] at shape
    simp at shape
  have width : i.transferWidth = i.dataWidth := by
    rcases shape with shape | shape <;> simp only [dataWidth, shape, transferWidth]
  have plain : i.dataSigned = false := by
    rcases shape with shape | shape <;> simp only [dataSigned, shape]
  obtain ⟨address, newBase⟩ :=
    transferPlan_eq notSwap (toNat_transferOffset (r := b.core.registers) shape)
  rw [transfer, Board.run_bind_ok (Board.run_getRegisters b), width]
  cases loads : i.loads with
  | true =>
    rw [if_pos rfl]
    refine run_loadAlong flat inside loads notSwap address newBase ?_
    rw [address]
    exact loadedValue_eq plain
  | false =>
    rw [if_neg Bool.false_ne_true]
    exact run_storeAlong flat inside loads notSwap address newBase

/-- A signed store is refused before anything happens. -/
theorem run_transferHalfword_eq (flat : b.Flat) (inside : i.DataInside b)
    (shape : i.shape.isHalfwordTransfer = true) :
    b.run i.transferHalfword =
      if i.dataSigned = true ∧ i.loads = false then (.error (.signedStore i.word), b)
      else (.ok (), i.transferredBoard b) := by
  have notSwap : i.shape ≠ .swap := by
    intro swap
    rw [swap] at shape
    contradiction
  have fields : i.halfwordWidth = i.dataWidth ∧ i.halfwordSigned = i.dataSigned ∧
      i.dataWidth ≠ .word := by
    unfold halfwordWidth dataWidth halfwordSigned dataSigned
    cases named : i.shape <;> simp [named, Shape.isHalfwordTransfer] at shape ⊢
  obtain ⟨width, signed, short⟩ := fields
  obtain ⟨address, newBase⟩ :=
    transferPlan_eq notSwap (toNat_halfwordOffset (r := b.core.registers) shape)
  rw [run_transferHalfword, width, signed]
  cases loads : i.loads with
  | false =>
    cases sign : i.dataSigned with
    | true => rfl
    | false => exact run_storeAlong flat inside loads notSwap address newBase
  | true =>
    simp only [Bool.not_true, Bool.and_false, Bool.false_eq_true, if_false, if_true, and_false,
      reduceCtorEq]
    refine run_loadAlong flat inside loads notSwap address newBase ?_
    cases sign : i.dataSigned with
    | true => exact signExtended_eq sign short
    | false =>
      refine Eq.trans ?_ (loadedValue_eq sign)
      cases width : i.dataWidth with
      | word => contradiction
      | byte => rfl
      | halfword => rfl

theorem run_swap (flat : b.Flat) (inside : i.DataInside b) (shape : i.shape = .swap) :
    b.run i.swap = (.ok (), i.transferredBoard b) := by
  have takes : i.Takes := .inl shape
  have gives : i.Gives := .inl shape
  have stays : ¬ i.ChangesBase := fun changes => changes.1 shape
  have width : i.transferWidth = i.dataWidth := by simp only [dataWidth, shape, transferWidth]
  have plain : i.dataSigned = false := by simp only [dataSigned, shape]
  have address : i.dataAddress b.core.registers = b.core.registers.read i.rn :=
    if_pos (.inl shape)
  have operand : i.givenValue b.core.registers = b.core.registers.read i.rm := if_pos shape
  have covered := covers_of_inside inside
  have value := loadedValue_eq (b := b) plain
  rw [address] at covered value
  have read := flat.run_read b.core.registers.current.privileged covered
  have written := flat.run_write b.core.registers.current.privileged
    (b.core.registers.read i.rm &&& i.dataWidth.valueMask) covered
  rw [swap, Board.run_bind_ok (Board.run_getRegisters b)]
  dsimp only
  rw [width, Board.run_bind_ok read, Board.run_bind_ok written, Board.run_modifyRegisters, value,
    transferredBoard, givenRam, if_pos gives, operand, address]
  refine congrArg (Except.ok (), ·) ?_
  simp only [takenRegisters, if_pos takes, if_neg stays]
  rfl

/-- A value that was taken wins over the base, and every other cell is as it was. -/
theorem cell_takenRegisters (bank : Bank) (id : RegisterId) :
    (i.takenRegisters b).cell bank id =
      if i.Takes ∧ bank = b.core.registers.bank.select i.rd ∧ id = i.rd then
        arriving i.rd (i.takenValue b)
      else if i.ChangesBase ∧ bank = b.core.registers.bank.select i.rn ∧ id = i.rn then
        i.movedBase b.core.registers
      else b.core.registers.cell bank id := by
  have base : ∀ value, (b.core.registers.write i.rn value).cell bank id =
      if bank = b.core.registers.bank.select i.rn ∧ id = i.rn then value
      else b.core.registers.cell bank id := by
    intro value
    rw [RegisterFile.write, RegisterFile.cell_setCell]
    simp only [eq_comm]
  have result : ∀ (r : RegisterFile) value, r.bank = b.core.registers.bank →
      (r.writeResult i.rd value).cell bank id =
        if bank = b.core.registers.bank.select i.rd ∧ id = i.rd then arriving i.rd value
        else r.cell bank id := by
    intro r value same
    rw [writeResult_eq, RegisterFile.cell_setCell, same]
    simp only [eq_comm]
  unfold takenRegisters
  by_cases takes : i.Takes <;> by_cases changes : i.ChangesBase <;>
    simp only [takes, changes, if_true, if_false, true_and, false_and]
  · rw [result (b.core.registers.write i.rn _) _ rfl, base]
  · exact result _ _ rfl
  · exact base _

theorem current_takenRegisters (i : Instruction) (b : Board) :
    (i.takenRegisters b).current = b.core.registers.current := by
  unfold takenRegisters
  by_cases takes : i.Takes <;> by_cases changes : i.ChangesBase <;>
    simp only [takes, changes, if_true, if_false, writeResult_eq] <;> rfl

theorem saved_takenRegisters (i : Instruction) (b : Board) :
    (i.takenRegisters b).saved = b.core.registers.saved := by
  unfold takenRegisters
  by_cases takes : i.Takes <;> by_cases changes : i.ChangesBase <;>
    simp only [takes, changes, if_true, if_false, writeResult_eq] <;> rfl

/-- Which bytes of memory a transfer leaves, and what the others become. -/
theorem byte_givenRam (inside : i.DataInside b) (address : Nat) :
    (i.givenRam b).byte address =
      if i.Gives ∧ i.dataStart b.core.registers ≤ address ∧
          address < i.dataStart b.core.registers + i.dataWidth.bytes then
        (i.givenValue b.core.registers).lane (address - i.dataStart b.core.registers)
      else b.core.ram.byte address := by
  unfold givenRam
  by_cases gives : i.Gives
  · rw [if_pos gives, Ram.store, Ram.byte_storeBytes, dataStart_eq]
    by_cases within : i.dataStart b.core.registers ≤ address ∧
        address < i.dataStart b.core.registers + i.dataWidth.bytes
    · have limit : address < b.core.ram.size := Nat.lt_of_lt_of_le within.2 inside
      rw [if_pos ⟨within.1, within.2, limit⟩, if_pos ⟨gives, within⟩,
        Word.lane_and_valueMask _ (by omega)]
    · rw [if_neg fun all => within ⟨all.1, all.2.1⟩, if_neg fun all => within all.2]
  · rw [if_neg gives, if_neg fun all => gives all.1]

theorem size_givenRam (i : Instruction) (b : Board) : (i.givenRam b).size = b.core.ram.size := by
  unfold givenRam
  split
  · exact Ram.size_storeBytes _ _ _ _
  · rfl

theorem transferred_transferredBoard (inside : i.DataInside b) :
    i.Transferred b (i.transferredBoard b) where
  taken takes := (cell_takenRegisters _ _).trans (if_pos ⟨takes, rfl, rfl⟩)
  lowest _ word := lane_takenValue word
  base changes untaken := by
    have other : ¬ (i.Takes ∧ b.core.registers.bank.select i.rn =
        b.core.registers.bank.select i.rd ∧ i.rn = i.rd) :=
      fun all => untaken ⟨all.1, all.2.2.symm⟩
    exact (cell_takenRegisters _ _).trans ((if_neg other).trans (if_pos ⟨changes, rfl, rfl⟩))
  others bank id untaken unmoved :=
    (cell_takenRegisters _ _).trans ((if_neg untaken).trans (if_neg unmoved))
  current := current_takenRegisters i b
  saved := saved_takenRegisters i b
  given gives k within := by
    have place : i.dataStart b.core.registers + k - i.dataStart b.core.registers = k := by omega
    refine (byte_givenRam inside _).trans ((if_pos ⟨gives, by omega, by omega⟩).trans ?_)
    rw [place]
  bytes address outside := (byte_givenRam inside _).trans (if_neg outside)
  size := size_givenRam i b
  rest := rfl

/-- The three handlers agree on what a transfer of one register is. -/
theorem run_execute_movesOne (flat : b.Flat) (inside : i.DataInside b)
    (shape : i.shape.movesOne = true) :
    b.run i.execute =
      if i.dataSigned = true ∧ i.loads = false then (.error (.signedStore i.word), b)
      else (.ok (), i.transferredBoard b) := by
  have plain : i.dataSigned = false → ¬ (i.dataSigned = true ∧ i.loads = false) := by
    rintro unsigned ⟨signed, -⟩
    rw [unsigned] at signed
    contradiction
  rcases Shape.movesOne_cases shape with named | named | named | halfword
  · rw [execute, named, if_neg (plain (by simp only [dataSigned, named]))]
    exact run_transfer flat inside (.inl named)
  · rw [execute, named, if_neg (plain (by simp only [dataSigned, named]))]
    exact run_transfer flat inside (.inr named)
  · rw [execute, named, if_neg (plain (by simp only [dataSigned, named]))]
    exact run_swap flat inside named
  · have handler : i.execute = i.transferHalfword := by
      unfold execute
      cases named : i.shape <;> simp [named, Shape.isHalfwordTransfer] at halfword <;> rfl
    rw [handler]
    exact run_transferHalfword_eq flat inside halfword

end Runs
end Instruction

namespace Board

/-- With paging off and the data in memory, every transfer of one register succeeds and does what is
laid down: it goes to the base or to the moved base, takes or gives the bytes there, moves the base
where that is asked for, and leaves everything else alone. Signed stores do not exist; they are
refused and do nothing. -/
theorem transfer_layout (b : Board) (i : Instruction) (flat : b.Flat)
    (shape : i.shape.movesOne = true) (inside : i.DataInside b) :
    let p := b.execute i
    ((i.dataSigned = true → i.loads = true) → p.result = .ok () ∧ i.Transferred b p.board) ∧
      (i.dataSigned = true → i.loads = false →
        p.result = .error (.signedStore i.word) ∧ p.board = b) := by
  intro p
  have executed := Instruction.run_execute_movesOne flat inside shape
  constructor
  · intro legal
    have plain : ¬ (i.dataSigned = true ∧ i.loads = false) := by
      rintro ⟨signed, stores⟩
      rw [legal signed] at stores
      contradiction
    rw [if_neg plain] at executed
    have board : p.board = i.transferredBoard b := congrArg Prod.snd executed
    exact ⟨congrArg Prod.fst executed, board ▸ Instruction.transferred_transferredBoard inside⟩
  · intro signed stores
    rw [if_pos ⟨signed, stores⟩] at executed
    exact ⟨congrArg Prod.fst executed, congrArg Prod.snd executed⟩

/-- `ldr r1, [sp], #-4`, `strh pc, [sp, -r0]!` and `swpb r1, r0, [sp]`. -/
theorem transfer_layout_stackUser :
    let popped := stackUser.execute ⟨0xE41D1004⟩
    let pushed := stackUser.execute ⟨0xE12DF0B0⟩
    let swapped := stackUser.execute ⟨0xE14D1090⟩
    popped.result = .ok () ∧ popped.board.core.registers.cell .user .r1 = 0x2A0000 ∧
      popped.board.core.registers.cell .supervisor .stack = 14 ∧
      pushed.result = .ok () ∧ pushed.board.core.ram.byte 12 = 0x0C ∧
      pushed.board.core.ram.byte 13 = 0x01 ∧
      pushed.board.core.registers.cell .supervisor .stack = 13 ∧
      swapped.result = .ok () ∧ swapped.board.core.registers.cell .user .r1 = 0 ∧
      swapped.board.core.ram.byte 18 = 5 := by
  obtain ⟨pops, -⟩ := transfer_layout stackUser ⟨0xE41D1004⟩ stackUser_flat (by decide)
    (by decide +kernel)
  obtain ⟨pushes, -⟩ := transfer_layout stackUser ⟨0xE12DF0B0⟩ stackUser_flat (by decide)
    (by decide +kernel)
  obtain ⟨swaps, -⟩ := transfer_layout stackUser ⟨0xE14D1090⟩ stackUser_flat (by decide)
    (by decide +kernel)
  obtain ⟨popped, pop⟩ := pops (by decide)
  obtain ⟨pushed, push⟩ := pushes (by decide)
  obtain ⟨swapped, swap⟩ := swaps (by decide)
  exact ⟨popped, pop.taken (by decide), pop.base (by decide) (by decide),
    pushed, push.given (by decide) 0 (by decide), push.given (by decide) 1 (by decide),
    push.base (by decide) (by decide),
    swapped, swap.taken (by decide), swap.given (by decide) 0 (by decide)⟩

end Board
end ArmMachine
