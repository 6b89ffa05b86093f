import ArmMachine.Proofs.Execution.DataOperations

/-! Conditions after a comparison. The flags of a difference decide every condition, and what a
condition field asks of them is an order, an equation or a bound on the two operands themselves. -/
namespace ArmMachine

/-- The difference of two signed numbers is itself one. -/
def Word.DiffersWithin (a b : Word) : Prop :=
  -0x80000000 ≤ a.toInt - b.toInt ∧ a.toInt - b.toInt < 0x80000000

/-- What a condition field asks of the operands of a comparison: equality, order and the sign and
overflow of their difference, each followed by its negation, then always and never. -/
def Word.Satisfies (a b : Word) (field : BitVec 4) : Prop :=
  match field.toNat with
  | 0x0 => a = b
  | 0x1 => a ≠ b
  | 0x2 => b.toNat ≤ a.toNat
  | 0x3 => a.toNat < b.toNat
  | 0x4 => (a - b).getLsbD 31 = true
  | 0x5 => (a - b).getLsbD 31 = false
  | 0x6 => ¬ a.DiffersWithin b
  | 0x7 => a.DiffersWithin b
  | 0x8 => b.toNat < a.toNat
  | 0x9 => a.toNat ≤ b.toNat
  | 0xA => b.toInt ≤ a.toInt
  | 0xB => a.toInt < b.toInt
  | 0xC => b.toInt < a.toInt
  | 0xD => a.toInt ≤ b.toInt
  | 0xE => True
  | _ => False

/-- The outcome of a subtraction. -/
def Computed.Compares (o : Computed) (a b : Word) : Prop :=
  o.IsExact (a.toNat - b.toNat) (a.toInt - b.toInt) (0 ≤ (a.toNat - b.toNat : Int))

namespace Computed.Compares

variable {o : Computed} {a b : Word} (compares : o.Compares a b)
include compares

theorem value_eq : o.value = a - b := by
  have value := compares.value
  have boundB := b.isLt
  apply BitVec.eq_of_toNat_eq
  rw [BitVec.toNat_sub]
  omega

theorem zero_iff : (o.value == 0) = true ↔ a = b := by
  rw [compares.value_eq, beq_iff_eq, BitVec.sub_eq_iff_eq_add, BitVec.ofNat_eq_ofNat,
    BitVec.zero_add]

theorem carry_iff : o.carry = true ↔ b.toNat ≤ a.toNat := by
  rw [compares.carry]
  omega

theorem overflow_iff : o.overflow = true ↔ ¬ a.DiffersWithin b := compares.overflow

/-- The sign of the difference is wrong exactly when there is overflow. -/
theorem signed_iff : o.value.msb = o.overflow ↔ b.toInt ≤ a.toInt := by
  have negative : o.value.msb = true ↔ 0x80000000 ≤ o.value.toNat := by
    rw [BitVec.msb_eq_decide, decide_eq_true_iff]
  have value := compares.value
  have overflow := compares.overflow
  rw [Bool.eq_iff_iff, negative, overflow, BitVec.toInt_eq_toNat_cond,
    BitVec.toInt_eq_toNat_cond]
  have boundA := a.isLt
  have boundB := b.isLt
  omega

end Computed.Compares

namespace StatusWord

variable (s : StatusWord) (o : Computed)

@[simp] theorem negative_withFlags : (s.withFlags o).has .negative = o.value.msb :=
  s.getLsbD_withFlags o (by decide)

@[simp] theorem zero_withFlags : (s.withFlags o).has .zero = (o.value == 0) :=
  s.getLsbD_withFlags o (by decide)

@[simp] theorem carry_withFlags : (s.withFlags o).has .carry = o.carry :=
  s.getLsbD_withFlags o (by decide)

@[simp] theorem overflow_withFlags : (s.withFlags o).has .overflow = o.overflow :=
  s.getLsbD_withFlags o (by decide)

end StatusWord

/-- Every condition is decided by the flags of a difference. -/
theorem Condition.passes_iff_satisfies {o : Computed} {a b : Word} (compares : o.Compares a b)
    (s : StatusWord) (field : BitVec 4) :
    (ofCode field).passes (s.withFlags o) = true ↔ a.Satisfies b field := by
  have zero := compares.zero_iff
  have carry := compares.carry_iff
  have signed := compares.signed_iff
  have equal : a = b ↔ a.toNat = b.toNat := BitVec.toNat_inj.symm
  have equalSigned : a = b ↔ a.toInt = b.toInt := BitVec.toInt_inj.symm
  have negative : o.value.msb = (a - b).getLsbD 31 := by
    rw [compares.value_eq, BitVec.msb_eq_getLsbD_last]
  have positive : ¬ o.value.msb = true ↔ (a - b).getLsbD 31 = false := by
    rw [negative, Bool.not_eq_true]
  have unset (flag : Bool) : (!flag) = true ↔ ¬ flag = true := by cases flag <;> decide
  simp only [passes, StatusWord.negative_withFlags, StatusWord.zero_withFlags,
    StatusWord.carry_withFlags, StatusWord.overflow_withFlags]
  unfold ofCode Word.Satisfies
  generalize field.toNat = code
  match code with
  | 0x0 => exact zero
  | 0x1 => exact (unset _).trans (not_congr zero)
  | 0x2 => exact carry
  | 0x3 => exact (unset _).trans ((not_congr carry).trans Nat.not_le)
  | 0x4 => exact iff_of_eq (congrArg (· = true) negative)
  | 0x5 => exact (unset _).trans positive
  | 0x6 => exact compares.overflow_iff
  | 0x7 => exact (unset _).trans ((not_congr compares.overflow_iff).trans Classical.not_not)
  | 0x8 =>
    simp only [Bool.and_eq_true, unset, carry, zero, equal]
    omega
  | 0x9 =>
    simp only [Bool.or_eq_true, unset, carry, zero, equal]
    omega
  | 0xA => exact beq_iff_eq.trans signed
  | 0xB => exact bne_iff_ne.trans ((not_congr signed).trans Int.not_le)
  | 0xC =>
    simp only [Bool.and_eq_true, beq_iff_eq, unset, signed, zero, equalSigned]
    omega
  | 0xD =>
    simp only [Bool.or_eq_true, bne_iff_ne, ne_eq, signed, zero, equalSigned]
    omega
  | 0xE => exact iff_of_true rfl trivial
  | _ + 0xF => exact iff_of_false Bool.false_ne_true id

/-- After a comparison, or a subtraction that sets the flags, the condition field of an instruction
passes exactly when the operands are as it asks. -/
theorem Board.conditions_follow_comparison (b : Board) (i : Instruction)
    (data : i.shape.processesData = true)
    (compares : i.opcode = .cmp ∨ i.opcode = .sub ∧ i.setsFlags = true ∧ i.rd ≠ .pc) :
    let p := b.execute i
    let first := i.operandAt b.core.registers i.rn
    let second := (i.shiftedOperand b.core.registers).value
    p.result = .ok () ∧
      ∀ next : Instruction, next.condition.passes p.board.core.registers.current = true ↔
        first.Satisfies second (next.word.extractLsb 31 28) := by
  dsimp only [execute]
  rw [b.run_execute_processesData data]
  obtain ⟨o, processed⟩ := Instruction.dataProcessed_processData (r := b.core.registers) data
  have difference : o.Compares (i.operandAt b.core.registers i.rn)
      (i.shiftedOperand b.core.registers).value := by
    have computed := processed.computed
    obtain named | ⟨named, -⟩ := compares <;> rw [named] at computed <;> exact computed
  have flagged : i.opcode.isCompare = true ∨ i.setsFlags = true ∧ i.rd ≠ .pc :=
    compares.imp (fun named => by rw [named]; rfl) And.right
  have stays : ¬ i.Returns := by
    rintro ⟨stores, -, counter⟩
    obtain compare | ⟨-, other⟩ := flagged
    · exact Bool.false_ne_true (stores.symm.trans compare)
    · exact other counter
  refine ⟨processed.completed stays, fun next => ?_⟩
  have current : (i.processData b.core.registers).2.current =
      b.core.registers.current.withFlags o := processed.flagged flagged
  change next.condition.passes (i.processData b.core.registers).2.current = true ↔ _
  rw [current]
  exact Condition.passes_iff_satisfies difference _ _

/-- After `cmp r0, sp` of 5 and 18 a `blt` is executed and a `bcs` is not. -/
theorem Board.conditions_follow_comparison_stackUser :
    let p := stackUser.execute ⟨0xE150000D⟩
    p.result = .ok () ∧
      (Instruction.mk 0xBA000000).condition.passes p.board.core.registers.current = true ∧
      (Instruction.mk 0x2A000000).condition.passes p.board.core.registers.current = false := by
  obtain ⟨completed, follows⟩ :=
    conditions_follow_comparison stackUser ⟨0xE150000D⟩ (by decide) (.inl (by decide))
  refine ⟨completed, (follows _).mpr ?_, eq_false_of_ne_true fun passed => ?_⟩
  · change (5#32).toInt < (18#32).toInt
    decide
  · have reached : (18#32).toNat ≤ (5#32).toNat := (follows _).mp passed
    contradiction

end ArmMachine
