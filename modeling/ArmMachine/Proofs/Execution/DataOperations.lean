import ArmMachine.Proofs.Arithmetic
import ArmMachine.Proofs.Encoding
import ArmMachine.Proofs.Execution.BlockLayout
import ArmMachine.Proofs.Execution.Exceptions

/-! What a data operation does, in numbers: the integer or the function of bits that its opcode
names, where the operands come from, which flags follow from the result, and which register takes
it. Nothing else on the board changes. -/
namespace ArmMachine

/-- What an opcode computes from the first operand and the second: a function of bits, or one of
integers whose third argument is the carry flag. -/
inductive Operation where
  | bitwise (f : Bool → Bool → Bool)
  | sum (f : Int → Int → Int → Int)
  | difference (f : Int → Int → Int → Int)

def Opcode.operation : Opcode → Operation
  | and | tst => .bitwise fun a b => a && b
  | eor | teq => .bitwise fun a b => a ^^ b
  | orr => .bitwise fun a b => a || b
  | mov => .bitwise fun _ b => b
  | bic => .bitwise fun a b => a && !b
  | mvn => .bitwise fun _ b => !b
  | add | cmn => .sum fun a b _ => a + b
  | adc => .sum fun a b c => a + b + c
  | sub | cmp => .difference fun a b _ => a - b
  | sbc => .difference fun a b c => a - b - (1 - c)
  | rsb => .difference fun a b _ => b - a
  | rsc => .difference fun a b c => b - a - (1 - c)

/-- A result with the carry and the overflow that go with it. -/
structure Computed where
  value : Word
  carry : Bool
  overflow : Bool

/-- The result is an integer modulo the size of a word, and there is overflow when the integer that
the operands make up as signed numbers needs more than a word. -/
structure Computed.IsExact (o : Computed) (unsigned signed : Int) (carries : Prop) : Prop where
  value : (o.value.toNat : Int) = unsigned % 0x100000000
  carry : o.carry = true ↔ carries
  overflow : o.overflow = true ↔ ¬ (-0x80000000 ≤ signed ∧ signed < 0x80000000)

/-- A sum carries when it does not fit a word, a difference when nothing is borrowed. A function of
bits takes the carry from the shifter and keeps the overflow flag. -/
def Operation.Computes (operation : Operation) (first : Word) (second : Shifted) (s : StatusWord)
    (o : Computed) : Prop :=
  let c : Int := (s.has .carry).toNat
  match operation with
  | bitwise f =>
    (∀ k < 32, o.value.getLsbD k = f (first.getLsbD k) (second.value.getLsbD k)) ∧
      o.carry = second.carry ∧ o.overflow = s.has .overflow
  | sum f =>
    let unsigned := f first.toNat second.value.toNat c
    o.IsExact unsigned (f first.toInt second.value.toInt c) (0x100000000 ≤ unsigned)
  | difference f =>
    let unsigned := f first.toNat second.value.toNat c
    o.IsExact unsigned (f first.toInt second.value.toInt c) (0 ≤ unsigned)

/-- The flags of a result, over the other bits of a status word. -/
def StatusWord.withFlags (s : StatusWord) (o : Computed) : StatusWord :=
  ⟨BitVec.ofBool o.value.msb ++ BitVec.ofBool (o.value == 0) ++ BitVec.ofBool o.carry ++
    BitVec.ofBool o.overflow ++ s.raw.extractLsb' 0 28⟩

/-- A return to an address restores the saved status word of the mode, if it has one, and refuses
one of Thumb state. -/
def RegisterFile.returning (r : RegisterFile) (target : Word) :
    Except Failure Unit × StatusWord :=
  match r.savedStatus with
  | some s => if s.has .thumb then (.error (.thumb target), r.current) else (.ok (), s)
  | none => (.ok (), r.current)

namespace Instruction

/-- What a data operation finds in a register. Register 15 is the address of the instruction plus 8,
or plus 12 when a register holds the shift amount. -/
def operandAt (i : Instruction) (r : RegisterFile) (id : RegisterId) : Word :=
  if id = .pc then r.executing + (if i.shape = .dataShiftRegister then 12 else 8)
  else r.cell (r.bank.select id) id

/-- What the shifter makes of the second operand. -/
def shiftedOperand (i : Instruction) (r : RegisterFile) : Shifted :=
  let carry := r.current.has .carry
  match i.shape with
  | .dataImmediate => shift i.immediate8 i.rotation .rotateRight .rotatedImmediate carry
  | .dataShiftRegister =>
    shift (i.operandAt r i.rm) (i.operandAt r i.rs) i.shiftKind .register8 carry
  | _ => shift (i.operandAt r i.rm) i.shiftAmount i.shiftKind .immediate5 carry

/-- The cell that takes the result. Comparisons have none. -/
def Stores (i : Instruction) (r : RegisterFile) (bank : Bank) (id : RegisterId) : Prop :=
  i.opcode.isCompare = false ∧ bank = r.bank.select i.rd ∧ id = i.rd

/-- Setting flags while writing register 15 returns from an exception instead. -/
def Returns (i : Instruction) : Prop :=
  i.opcode.isCompare = false ∧ i.setsFlags = true ∧ i.rd = .pc

instance (i : Instruction) (r : RegisterFile) (bank : Bank) (id : RegisterId) :
    Decidable (i.Stores r bank id) :=
  inferInstanceAs (Decidable (_ ∧ _ ∧ _))

instance (i : Instruction) : Decidable i.Returns := inferInstanceAs (Decidable (_ ∧ _ ∧ _))

/-- What a data operation leaves of the registers, and how it ends. Register 15 takes the result
without its low two bits, and before the status word is restored. -/
structure DataProcessed (i : Instruction) (r : RegisterFile) (o : Computed)
    (result : Except Failure Unit) (r' : RegisterFile) : Prop where
  computed :
    i.opcode.operation.Computes (i.operandAt r i.rn) (i.shiftedOperand r) r.current o
  stored : ∀ bank id, i.Stores r bank id →
    r'.cell bank id = if id = .pc then o.value &&& ~~~3#32 else o.value
  others : ∀ bank id, ¬ i.Stores r bank id → r'.cell bank id = r.cell bank id
  saved : r'.saved = r.saved
  flagged : i.opcode.isCompare = true ∨ i.setsFlags = true ∧ i.rd ≠ .pc →
    r'.current = r.current.withFlags o
  quiet : i.setsFlags = false → r'.current = r.current
  returned : i.Returns → (result, r'.current) = r.returning (o.value &&& ~~~3#32)
  completed : ¬ i.Returns → result = .ok ()

end Instruction

def Sum.computed (sum : Sum) : Computed := ⟨sum.value, sum.carry, sum.overflow⟩

section Results
variable (a b : Word) (carry : Bool)

theorem isExact_addWithCarry :
    (addWithCarry a b carry).computed.IsExact (a.toNat + b.toNat + carry.toNat)
      (a.toInt + b.toInt + carry.toNat)
      (0x100000000 ≤ (a.toNat + b.toNat + carry.toNat : Int)) where
  value := by
    rw [Sum.computed, toNat_addWithCarry]
    omega
  carry := by
    rw [Sum.computed, carry_addWithCarry_iff, wordLimit]
    omega
  overflow := overflow_addWithCarry_iff a b carry

/-- Adding the complement subtracts, and one more when the carry is clear. -/
theorem isExact_subWithCarry :
    (subWithCarry a b carry).computed.IsExact (a.toNat - b.toNat - (1 - carry.toNat))
      (a.toInt - b.toInt - (1 - carry.toNat))
      (0 ≤ (a.toNat - b.toNat - (1 - carry.toNat) : Int)) := by
  have boundB := b.isLt
  have complement : (~~~b).toNat = 0xFFFFFFFF - b.toNat := BitVec.toNat_not
  have signed : (~~~b).toInt = -1 - b.toInt := by
    rw [BitVec.toInt_eq_toNat_cond, BitVec.toInt_eq_toNat_cond, complement]
    omega
  have sum := isExact_addWithCarry a (~~~b) carry
  rw [complement, signed] at sum
  refine ⟨?_, ?_, ?_⟩
  · rw [subWithCarry, sum.value]
    omega
  · rw [subWithCarry, sum.carry]
    omega
  · rw [subWithCarry, sum.overflow]
    omega

theorem isExact_add :
    (addWithCarry a b false).computed.IsExact (a.toNat + b.toNat) (a.toInt + b.toInt)
      (0x100000000 ≤ (a.toNat + b.toNat : Int)) := by
  simpa using isExact_addWithCarry a b false

theorem isExact_sub :
    (subWithCarry a b true).computed.IsExact (a.toNat - b.toNat) (a.toInt - b.toInt)
      (0 ≤ (a.toNat - b.toNat : Int)) := by
  simpa using isExact_subWithCarry a b true

end Results

namespace StatusWord

variable (s : StatusWord) (o : Computed)

theorem getLsbD_withFlags {j : Nat} (word : j < 32) :
    (s.withFlags o).raw.getLsbD j =
      if j = 28 then o.overflow
      else if j = 29 then o.carry
      else if j = 30 then o.value == 0
      else if j = 31 then o.value.msb
      else s.raw.getLsbD j := by
  simp only [withFlags, BitVec.getLsbD_append, BitVec.getLsbD_extractLsb', BitVec.getLsbD_ofBool]
  by_cases kept : j < 28
  · simp [kept, show j ≠ 28 ∧ j ≠ 29 ∧ j ≠ 30 ∧ j ≠ 31 by omega]
  · obtain rfl | rfl | rfl | rfl : j = 28 ∨ j = 29 ∨ j = 30 ∨ j = 31 := by omega
    all_goals rfl

/-- The flags may be assigned one after another. -/
theorem withFlags_eq :
    s.withFlags o =
      ((s.withResult o.value).assign .carry o.carry).assign .overflow o.overflow := by
  rw [StatusWord.mk.injEq]
  apply BitVec.eq_of_getLsbD_eq
  intro j word
  rw [getLsbD_withFlags s o word]
  simp only [withResult, getLsbD_assign _ _ _ j word, StatusBit.position]
  rfl

/-- A flag that is assigned the value it has stays. -/
theorem assign_of_has {b : StatusBit} {on : Bool} (held : s.has b = on) : s.assign b on = s := by
  rw [StatusWord.mk.injEq]
  apply BitVec.eq_of_getLsbD_eq
  intro j word
  rw [getLsbD_assign s b on j word]
  split
  · rename_i place
    rw [place, ← held, has]
  · rfl

theorem apply_arithmetic (sum : Sum) :
    (FlagUpdate.arithmetic sum).apply s = s.withFlags sum.computed :=
  (s.withFlags_eq sum.computed).symm

theorem apply_logical (value : Word) (carry : Bool) :
    (FlagUpdate.logical value carry).apply s = s.withFlags ⟨value, carry, s.has .overflow⟩ := by
  have held : ((s.withResult value).assign .carry carry).has .overflow = s.has .overflow := by
    simp only [has, withResult, getLsbD_assign _ _ _ 28 (by decide), StatusBit.position]
    rfl
  rw [withFlags_eq, assign_of_has _ held]
  rfl

end StatusWord

/-- A result is one that an operation computes, and its flags are those of that result. -/
def DataResult.Follows (d : DataResult) (operation : Operation) (first : Word) (second : Shifted)
    (s : StatusWord) : Prop :=
  ∃ o, operation.Computes first second s o ∧ d.value = o.value ∧ d.flags.apply s = s.withFlags o

section Compute
variable {first : Word} {second : Shifted} {s : StatusWord}

theorem follows_ofLogical {value : Word} {f : Bool → Bool → Bool}
    (bits : ∀ k < 32, value.getLsbD k = f (first.getLsbD k) (second.value.getLsbD k)) :
    (DataResult.ofLogical value second.carry).Follows (.bitwise f) first second s :=
  ⟨⟨value, second.carry, s.has .overflow⟩, ⟨bits, rfl, rfl⟩, rfl, s.apply_logical value _⟩

theorem follows_ofSum {operation : Operation} {sum : Sum}
    (exact : operation.Computes first second s sum.computed) :
    (DataResult.ofSum sum).Follows operation first second s :=
  ⟨sum.computed, exact, rfl, s.apply_arithmetic sum⟩

theorem Opcode.follows_compute (op : Opcode) :
    (op.compute first second (s.has .carry)).Follows op.operation first second s := by
  cases op with
  | and | tst => exact follows_ofLogical fun k _ => BitVec.getLsbD_and
  | eor | teq => exact follows_ofLogical fun k _ => BitVec.getLsbD_xor
  | orr => exact follows_ofLogical fun k _ => BitVec.getLsbD_or
  | mov => exact follows_ofLogical fun k _ => rfl
  | bic =>
    refine follows_ofLogical fun k inside => ?_
    rw [BitVec.getLsbD_and, BitVec.getLsbD_not, decide_eq_true inside, Bool.true_and]
  | mvn =>
    refine follows_ofLogical fun k inside => ?_
    rw [BitVec.getLsbD_not, decide_eq_true inside, Bool.true_and]
  | add | cmn => exact follows_ofSum (isExact_add first second.value)
  | adc => exact follows_ofSum (isExact_addWithCarry first second.value (s.has .carry))
  | sub | cmp => exact follows_ofSum (isExact_sub first second.value)
  | sbc => exact follows_ofSum (isExact_subWithCarry first second.value (s.has .carry))
  | rsb => exact follows_ofSum (isExact_sub second.value first)
  | rsc => exact follows_ofSum (isExact_subWithCarry second.value first (s.has .carry))

end Compute

namespace RegisterFile

theorem setCurrent_writeResult (r : RegisterFile) (id : RegisterId) (value : Word) :
    (r.writeResult id value).setCurrent r.current = r.writeResult id value := by
  rw [← r.current_writeResult id value]
  rfl

theorem read_eq (r : RegisterFile) (id : RegisterId) :
    r.read id = if id = .pc then r.executing + 8 else r.cell (r.bank.select id) id := by
  have ahead : r.executing + 8 = r.pc + 4 := by
    rw [executing, BitVec.sub_eq_add_neg, BitVec.add_assoc]
    exact congrArg (r.pc + ·) (by decide)
  rw [ahead, read, operandView]
  split
  · rename_i counter
    rw [counter]
    rfl
  · rfl

end RegisterFile

namespace Instruction

variable (i : Instruction) (r : RegisterFile)

theorem operand_eq (id : RegisterId) : i.operand r id = i.operandAt r id := by
  rw [operand, operandAt, RegisterFile.read_eq]
  by_cases counter : id = .pc
  · simp only [counter, true_and, if_true]
    split
    · rw [BitVec.add_assoc]
      rfl
    · rfl
  · simp only [counter, false_and, if_false]

theorem read_eq_operandAt (plain : i.shape ≠ .dataShiftRegister) (id : RegisterId) :
    r.read id = i.operandAt r id := by
  rw [← operand_eq, operand, if_neg fun both => plain both.2]

theorem secondOperand_eq : i.secondOperand r = i.shiftedOperand r := by
  unfold secondOperand shiftedOperand
  dsimp only
  by_cases register : i.shape = .dataShiftRegister
  · simp only [register, operand_eq]
  · rw [read_eq_operandAt i r register]
    cases named : i.shape <;> first | rfl | exact absurd named register

/-- The moves ignore the first operand, so it does not matter what they take for it. -/
theorem dataResult_eq :
    i.dataResult r =
      i.opcode.compute (i.operandAt r i.rn) (i.shiftedOperand r) (r.current.has .carry) := by
  rw [dataResult, secondOperand_eq, firstOperand, operand_eq]
  cases i.opcode <;> rfl

/-- Restoring comes after the write, which changes neither status word. -/
theorem restoreStatus_writeResult (value : Word) (counter : i.rd = .pc) :
    (∃ s, r.returning (value &&& ~~~3#32) = (.ok (), s) ∧
        (r.writeResult i.rd value).restoreStatus =
          .ok ((r.writeResult i.rd value).setCurrent s)) ∨
      ∃ cause, r.returning (value &&& ~~~3#32) = (.error cause, r.current) ∧
        (r.writeResult i.rd value).restoreStatus = .error cause := by
  have target : (r.writeResult i.rd value).pc = value &&& ~~~3#32 := by
    rw [RegisterFile.writeResult, if_pos counter, RegisterFile.pc_setPc]
  have saved : (r.writeResult i.rd value).savedStatus = r.savedStatus :=
    RegisterFile.savedStatus_congr (r.current_writeResult _ _) (r.saved_writeResult _ _)
  rw [RegisterFile.restoreStatus, RegisterFile.returning, saved, target]
  cases r.savedStatus with
  | none => exact .inl ⟨r.current, rfl, by rw [RegisterFile.setCurrent_writeResult]⟩
  | some s =>
    dsimp only
    split
    · exact .inr ⟨_, rfl, rfl⟩
    · exact .inl ⟨s, rfl, rfl⟩

variable {i r} {o : Computed}

/-- Storing the result settles the cells; what becomes of the status word is left open. -/
theorem DataProcessed.of_stores {s : StatusWord} {result : Except Failure Unit}
    (computed :
      i.opcode.operation.Computes (i.operandAt r i.rn) (i.shiftedOperand r) r.current o)
    (stores : i.opcode.isCompare = false)
    (flagged : i.setsFlags = true → i.rd ≠ .pc → s = r.current.withFlags o)
    (quiet : i.setsFlags = false → s = r.current)
    (returned : i.Returns → (result, s) = r.returning (o.value &&& ~~~3#32))
    (completed : ¬ i.Returns → result = .ok ()) :
    i.DataProcessed r o result ((r.writeResult i.rd o.value).setCurrent s) where
  computed := computed
  stored bank id here := by
    obtain ⟨-, rfl, rfl⟩ := here
    rw [RegisterFile.cell_setCurrent, writeResult_eq, RegisterFile.cell_setCell,
      if_pos ⟨rfl, rfl⟩, arriving]
  others bank id elsewhere := by
    rw [RegisterFile.cell_setCurrent, writeResult_eq, RegisterFile.cell_setCell, if_neg]
    rintro ⟨rfl, rfl⟩
    exact elsewhere ⟨stores, rfl, rfl⟩
  saved := r.saved_writeResult i.rd o.value
  flagged := by
    rintro (compares | ⟨sets, destination⟩)
    · rw [stores] at compares
      contradiction
    · exact flagged sets destination
  quiet := quiet
  returned := returned
  completed := completed

theorem DataProcessed.of_compares
    (computed :
      i.opcode.operation.Computes (i.operandAt r i.rn) (i.shiftedOperand r) r.current o)
    (compares : i.opcode.isCompare = true) (sets : i.setsFlags = true) :
    i.DataProcessed r o (.ok ()) (r.setCurrent (r.current.withFlags o)) where
  computed := computed
  stored _ _ here := absurd (compares.symm.trans here.1) (by decide)
  others _ _ _ := rfl
  saved := rfl
  flagged _ := rfl
  quiet unset := absurd (sets.symm.trans unset) (by decide)
  returned returns := absurd (compares.symm.trans returns.1) (by decide)
  completed _ := rfl

theorem dataProcessed_processData (data : i.shape.processesData = true) :
    ∃ o, i.DataProcessed r o (i.processData r).1 (i.processData r).2 := by
  have follows : (i.dataResult r).Follows i.opcode.operation (i.operandAt r i.rn)
      (i.shiftedOperand r) r.current := by
    rw [dataResult_eq]
    exact i.opcode.follows_compute
  obtain ⟨o, computed, value, flags⟩ := follows
  refine ⟨o, ?_⟩
  unfold processData
  dsimp only
  rw [value]
  by_cases compares : i.opcode.isCompare = true
  · rw [if_pos compares, RegisterFile.updateFlags, flags]
    exact .of_compares computed compares (setsFlags_of_isCompare data compares)
  have stores : i.opcode.isCompare = false := eq_false_of_ne_true compares
  rw [if_neg compares]
  cases sets : i.setsFlags with
  | false =>
    have unset {p : Prop} (set : i.setsFlags = true) : p :=
      (Bool.false_ne_true (sets.symm.trans set)).elim
    rw [Bool.not_false, if_pos rfl, ← RegisterFile.setCurrent_writeResult]
    exact .of_stores computed stores unset (fun _ => rfl) (fun returns => unset returns.2.1)
      fun _ => rfl
  | true =>
    have set {p : Prop} (unset : i.setsFlags = false) : p :=
      (Bool.false_ne_true (unset.symm.trans sets)).elim
    rw [Bool.not_true, if_neg Bool.false_ne_true]
    by_cases counter : i.rd = .pc
    · have returns : i.Returns := ⟨stores, sets, counter⟩
      rw [if_pos counter]
      obtain ⟨s, returning, restored⟩ | ⟨cause, returning, restored⟩ :=
        restoreStatus_writeResult i r o.value counter
      · rw [restored]
        exact .of_stores computed stores (fun _ other => absurd counter other) set
          (fun _ => returning.symm) fun goes => absurd returns goes
      · rw [restored, ← RegisterFile.setCurrent_writeResult]
        exact .of_stores computed stores (fun _ other => absurd counter other) set
          (fun _ => returning.symm) fun goes => absurd returns goes
    · rw [if_neg counter, RegisterFile.updateFlags, RegisterFile.current_writeResult, flags]
      exact .of_stores computed stores (fun _ _ => rfl) set
        (fun returns => absurd returns.2.2 counter) fun _ => rfl

end Instruction

namespace Board

variable {i : Instruction}

theorem run_execute_processesData (b : Board) (data : i.shape.processesData = true) :
    b.run i.execute =
      ((i.processData b.core.registers).1,
        b.mapRegisters fun _ => (i.processData b.core.registers).2) := by
  have run : i.execute = i.processDataOnBoard := by
    rcases Shape.processesData_cases data with shape | shape | shape <;>
      rw [Instruction.execute, shape]
  rw [run, Instruction.run_processData]

/-- A data operation computes what its opcode names and changes nothing but the destination and the
current status, whatever the operands, the destination and the mode. -/
theorem data_operation_computes (b : Board) (i : Instruction)
    (data : i.shape.processesData = true) :
    let p := b.execute i
    (∃ o, i.DataProcessed b.core.registers o p.result p.board.core.registers) ∧
      p.board = { b with core := { b.core with registers := p.board.core.registers } } := by
  dsimp only [execute]
  rw [b.run_execute_processesData data]
  exact ⟨Instruction.dataProcessed_processData data, rfl⟩

/-- `subs r1, r0, sp` borrows and leaves a negative number. -/
theorem data_operation_computes_stackUser :
    let p := stackUser.execute ⟨0xE050100D⟩
    p.result = .ok () ∧ p.board.core.registers.cell .user 1 = 0xFFFFFFF3 ∧
      p.board.core.registers.cell .supervisor 13 = 18 ∧
      p.board.core.registers.current = ⟨0x80000013⟩ ∧ p.board.core.ram = stackUser.core.ram := by
  obtain ⟨⟨o, processed⟩, rest⟩ := data_operation_computes stackUser ⟨0xE050100D⟩ (by decide)
  have exact : o.IsExact (5 - 18) (5 - 18) (0 ≤ (5 - 18 : Int)) := processed.computed
  have value : o.value = 0xFFFFFFF3 := by
    have difference := exact.value
    apply BitVec.eq_of_toNat_eq
    change o.value.toNat = 0xFFFFFFF3
    omega
  have carry : o.carry = false :=
    eq_false_of_ne_true fun set => absurd (exact.carry.mp set) (by decide)
  have overflow : o.overflow = false :=
    eq_false_of_ne_true fun set => exact.overflow.mp set (by decide)
  refine ⟨processed.completed (by decide), ?_, ?_, ?_, congrArg (·.core.ram) rest⟩
  · exact (processed.stored .user 1 ⟨rfl, rfl, rfl⟩).trans value
  · exact processed.others .supervisor 13 (by decide)
  · refine (processed.flagged (.inr (by decide))).trans ?_
    rw [StatusWord.withFlags, value, carry, overflow]
    rfl

end Board
end ArmMachine
