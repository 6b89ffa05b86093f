import ArmMachine.Proofs.Execution.DataOperations

/-! What a long multiply does, in numbers. The two destinations take the product of the factors,
with signs or without, and what they held before is added when the multiply accumulates. The result
is an integer that is cut off once, at the 64 bits of the pair. The low word does not see the signs,
and is what a short multiply makes of the same operands. -/
namespace ArmMachine

/-- What a register holds in the current mode. -/
def RegisterFile.content (r : RegisterFile) (id : RegisterId) : Word :=
  r.cell (r.bank.select id) id

theorem StatusWord.bank_assign (s : StatusWord) (b : StatusBit) (on : Bool) :
    (s.assign b on).bank = s.bank := by
  rw [bank, modeCode_assign, bank]

namespace Instruction

/-- A factor of a long multiply as a number, in two's complement when the multiply is signed. -/
def factor (i : Instruction) (r : RegisterFile) (id : RegisterId) : Int :=
  let operand := i.operandAt r id
  if i.variant then operand.toInt else operand.toNat

/-- The number of 64 bits that the two destinations of a long multiply hold. -/
def pair (i : Instruction) (r : RegisterFile) : Nat :=
  0x100000000 * (r.content i.rn).toNat + (r.content i.rd).toNat

/-- What a long multiply adds to the product. -/
def addend (i : Instruction) (r : RegisterFile) : Nat := if i.writesBack then i.pair r else 0

/-- The cells that take the halves of a long product. -/
def TakesHalf (i : Instruction) (r : RegisterFile) (bank : Bank) (id : RegisterId) : Prop :=
  bank = r.bank.select id ∧ (id = i.rn ∨ id = i.rd)

instance (i : Instruction) (r : RegisterFile) (bank : Bank) (id : RegisterId) :
    Decidable (i.TakesHalf r bank id) :=
  inferInstanceAs (Decidable (_ ∧ (_ ∨ _)))

/-- A multiply, long or short, of the same factors that adds the same register to the low word, if
any. -/
structure SharesOperands (other i : Instruction) : Prop where
  rm : other.rm = i.rm
  rs : other.rs = i.rs
  accumulates : other.writesBack = i.writesBack
  rd : i.writesBack = true → other.rd = i.rd

/-- What a long multiply leaves of the registers. The flags are those of the 64 bits, and all other
bits of the status word stay. -/
structure LongMultiplied (i : Instruction) (r r' : RegisterFile) : Prop where
  exact : (i.pair r' : Int) = (i.factor r i.rm * i.factor r i.rs + i.addend r) % 2 ^ 64
  others : ∀ bank id, ¬ i.TakesHalf r bank id → r'.cell bank id = r.cell bank id
  saved : r'.saved = r.saved
  negative : i.setsFlags = true → r'.current.has .negative = (i.pair r').testBit 63
  zero : i.setsFlags = true → (r'.current.has .zero = true ↔ i.pair r' = 0)
  status : ∀ j < 32,
    i.setsFlags = false ∨ j ≠ StatusBit.negative.position ∧ j ≠ StatusBit.zero.position →
      r'.current.raw.getLsbD j = r.current.raw.getLsbD j

end Instruction

namespace Word

theorem setWidth_signExtend (w : Word) : (w.signExtend 64).setWidth 32 = w := by
  apply BitVec.eq_of_getLsbD_eq
  intro k inside
  simp only [BitVec.getLsbD_setWidth, BitVec.getLsbD_signExtend, inside,
    (by omega : k < 64), decide_true, Bool.true_and, if_true]

/-- The halves are the digits to the base of a word. -/
theorem toNat_halves (value : BitVec 64) :
    0x100000000 * (value.extractLsb' 32 32).toNat + (value.extractLsb' 0 32).toNat =
      value.toNat := by
  have bound := value.isLt
  simp only [BitVec.extractLsb'_toNat, Nat.shiftRight_eq_div_pow]
  omega

theorem ofInt_toNat_append (high low : Word) :
    BitVec.ofInt 64 (0x100000000 * high.toNat + low.toNat : Nat) = high ++ low := by
  have boundHigh := high.isLt
  have boundLow := low.isLt
  apply BitVec.eq_of_toNat_eq
  rw [BitVec.ofInt_natCast, BitVec.toNat_ofNat, BitVec.toNat_append,
    ← Nat.shiftLeft_add_eq_or_of_lt boundLow, Nat.shiftLeft_eq]
  omega

end Word

namespace Instruction

section Product

variable (i : Instruction) (r : RegisterFile)

/-- Neither the signs nor the high half of what is added reach the low word. -/
theorem low_longProduct : (i.longProduct r).extractLsb' 0 32 = i.product r := by
  -- A factor keeps its low word whichever way it is extended.
  have factors : (if i.variant then (r.read i.rm).signExtend 64 * (r.read i.rs).signExtend 64
      else (r.read i.rm).zeroExtend 64 * (r.read i.rs).zeroExtend 64).setWidth 32 =
        r.read i.rm * r.read i.rs := by
    split
    · rw [BitVec.setWidth_mul _ _ (by decide), Word.setWidth_signExtend, Word.setWidth_signExtend]
    · rw [BitVec.setWidth_mul _ _ (by decide), BitVec.setWidth_setWidth_of_le _ (by decide),
        BitVec.setWidth_setWidth_of_le _ (by decide), BitVec.setWidth_eq, BitVec.setWidth_eq]
  rw [← BitVec.setWidth_eq_extractLsb' (by decide), longProduct, product]
  split
  · rw [BitVec.setWidth_add _ _ (by decide), factors, BitVec.setWidth_append_eq_right]
  · exact factors

variable {i r}

theorem product_congr {other : Instruction} (shares : other.SharesOperands i) :
    other.product r = i.product r := by
  rw [product, product, shares.rm, shares.rs, shares.accumulates]
  split
  · rw [shares.rd ‹_›]
  · rfl

/-- A factor is extended with its sign exactly when its number has one. -/
theorem ofInt_factor (plain : i.shape ≠ .dataShiftRegister) (id : RegisterId) :
    BitVec.ofInt 64 (i.factor r id) =
      if i.variant then (r.read id).signExtend 64 else (r.read id).zeroExtend 64 := by
  rw [factor, read_eq_operandAt i r plain]
  split
  · rfl
  · rw [BitVec.ofInt_natCast, BitVec.ofNat_toNat]

theorem ofInt_addend (high : i.rn ≠ .pc) (low : i.rd ≠ .pc) :
    BitVec.ofInt 64 (i.addend r) = if i.writesBack then r.read i.rn ++ r.read i.rd else 0#64 := by
  rw [addend, RegisterFile.read_eq, RegisterFile.read_eq, if_neg high, if_neg low]
  split
  · exact Word.ofInt_toNat_append _ _
  · rfl

/-- Operands may be cut off at 64 bits before they are multiplied and added, signed or not. -/
theorem longProduct_eq_ofInt (long : i.shape = .multiplyLong) (high : i.rn ≠ .pc)
    (low : i.rd ≠ .pc) :
    i.longProduct r = BitVec.ofInt 64 (i.factor r i.rm * i.factor r i.rs + i.addend r) := by
  have plain : i.shape ≠ .dataShiftRegister := by
    rw [long]
    decide
  rw [BitVec.ofInt_add, BitVec.ofInt_mul, ofInt_factor plain, ofInt_factor plain,
    ofInt_addend high low, longProduct]
  cases i.variant <;> cases i.writesBack <;>
    simp only [if_true, Bool.false_eq_true, if_false, BitVec.add_zero]

theorem toNat_longProduct (long : i.shape = .multiplyLong) (high : i.rn ≠ .pc)
    (low : i.rd ≠ .pc) :
    ((i.longProduct r).toNat : Int) =
      (i.factor r i.rm * i.factor r i.rs + i.addend r) % 2 ^ 64 := by
  rw [longProduct_eq_ofInt long high low, BitVec.toNat_ofInt,
    Int.toNat_of_nonneg (Int.emod_nonneg _ (by decide))]
  rfl

end Product

section Effects

theorem getLsbD_longFlags (value : BitVec 64) (s : StatusWord) {j : Nat} (word : j < 32) :
    (longFlags value s).raw.getLsbD j =
      if j = StatusBit.zero.position then value == 0
      else if j = StatusBit.negative.position then value.msb
      else s.raw.getLsbD j := by
  rw [longFlags, StatusWord.getLsbD_assign _ _ _ _ word, StatusWord.getLsbD_assign _ _ _ _ word]

variable (i : Instruction) (r : RegisterFile)

theorem current_multiplyLong :
    (i.multiplyLong r).current =
      if i.setsFlags then longFlags (i.longProduct r) r.current else r.current := by
  rw [multiplyLong]
  split <;> rfl

theorem bank_multiplyLong : (i.multiplyLong r).bank = r.bank := by
  rw [RegisterFile.bank, current_multiplyLong]
  split
  · rw [longFlags, StatusWord.bank_assign, StatusWord.bank_assign, RegisterFile.bank]
  · rfl

/-- The low half is written first, and nothing is read after it. -/
theorem cell_multiplyLong (bank : Bank) (id : RegisterId) :
    (i.multiplyLong r).cell bank id =
      if r.bank.select i.rn = bank ∧ i.rn = id then (i.longProduct r).extractLsb' 32 32
      else if r.bank.select i.rd = bank ∧ i.rd = id then (i.longProduct r).extractLsb' 0 32
      else r.cell bank id := by
  have written : (i.multiplyLong r).cell bank id =
      ((r.write i.rd ((i.longProduct r).extractLsb' 0 32)).write i.rn
        ((i.longProduct r).extractLsb' 32 32)).cell bank id := by
    rw [multiplyLong]
    split <;> rfl
  rw [written, RegisterFile.write, RegisterFile.cell_setCell, RegisterFile.write,
    RegisterFile.cell_setCell]
  rfl

theorem saved_multiplyLong : (i.multiplyLong r).saved = r.saved := by
  rw [multiplyLong]
  split <;> rfl

theorem content_multiplyLong_high :
    (i.multiplyLong r).content i.rn = (i.longProduct r).extractLsb' 32 32 := by
  rw [RegisterFile.content, bank_multiplyLong, cell_multiplyLong, if_pos ⟨rfl, rfl⟩]

variable {i}

theorem content_multiplyLong_low (apart : i.rn ≠ i.rd) :
    (i.multiplyLong r).content i.rd = (i.longProduct r).extractLsb' 0 32 := by
  rw [RegisterFile.content, bank_multiplyLong, cell_multiplyLong, if_neg fun same => apart same.2,
    if_pos ⟨rfl, rfl⟩]

theorem pair_multiplyLong (apart : i.rn ≠ i.rd) :
    i.pair (i.multiplyLong r) = (i.longProduct r).toNat := by
  rw [pair, content_multiplyLong_high, content_multiplyLong_low r apart, Word.toNat_halves]

theorem bank_multiply : (i.multiply r).bank = r.bank := by
  rw [multiply]
  split
  · exact (StatusWord.bank_assign _ _ _).trans (StatusWord.bank_assign _ _ _)
  · rfl

/-- A short multiply leaves its product, whether it sets flags or not. -/
theorem content_multiply : (i.multiply r).content i.rn = i.product r := by
  have written : (i.multiply r).cell (r.bank.select i.rn) i.rn =
      (r.write i.rn (i.product r)).cell (r.bank.select i.rn) i.rn := by
    rw [multiply]
    split <;> rfl
  rw [RegisterFile.content, bank_multiply, written, RegisterFile.write, RegisterFile.cell_setCell,
    if_pos ⟨rfl, rfl⟩]

theorem longMultiplied_multiplyLong (long : i.shape = .multiplyLong) (apart : i.rn ≠ i.rd)
    (high : i.rn ≠ .pc) (low : i.rd ≠ .pc) : i.LongMultiplied r (i.multiplyLong r) where
  exact := by rw [pair_multiplyLong r apart, toNat_longProduct long high low]
  others bank id elsewhere := by
    rw [cell_multiplyLong, if_neg, if_neg]
    · rintro ⟨rfl, rfl⟩
      exact elsewhere ⟨rfl, .inr rfl⟩
    · rintro ⟨rfl, rfl⟩
      exact elsewhere ⟨rfl, .inl rfl⟩
  saved := i.saved_multiplyLong r
  negative sets := by
    rw [StatusWord.has, current_multiplyLong, if_pos sets, getLsbD_longFlags _ _ (by decide),
      if_neg (by decide), if_pos rfl, pair_multiplyLong r apart, BitVec.msb_eq_getLsbD_last]
    rfl
  zero sets := by
    rw [StatusWord.has, current_multiplyLong, if_pos sets, getLsbD_longFlags _ _ (by decide),
      if_pos rfl, pair_multiplyLong r apart, beq_iff_eq, ← BitVec.toNat_inj]
    rfl
  status j word kept := by
    rw [current_multiplyLong]
    split
    · rename_i sets
      obtain unset | ⟨negative, zero⟩ := kept
      · exact absurd (unset.symm.trans sets) Bool.false_ne_true
      · rw [getLsbD_longFlags _ _ word, if_neg zero, if_neg negative]
    · rfl

end Effects
end Instruction

namespace Board

variable {i : Instruction} (b : Board)

theorem run_execute_multiplyLong (long : i.shape = .multiplyLong) :
    b.run i.execute = (.ok (), b.mapRegisters i.multiplyLong) := by
  rw [Instruction.execute, long]
  exact run_modifyRegisters b _

theorem run_execute_multiply (short : i.shape = .multiply) :
    b.run i.execute = (.ok (), b.mapRegisters i.multiply) := by
  rw [Instruction.execute, short]
  exact run_modifyRegisters b _

/-- Long multiplication is exact. The pair of destinations takes the product and what is added to it
modulo 2 ^ 64, from the operands as they were, and nothing else changes but two flags. The low word
is the same with and without signs, and is the result of a short multiply of the same operands. -/
theorem long_multiply_exact (b : Board) (i : Instruction) (long : i.shape = .multiplyLong)
    (apart : i.rn ≠ i.rd) (high : i.rn ≠ .pc) (low : i.rd ≠ .pc) :
    let p := b.execute i
    let after := p.board.core.registers
    p.result = .ok () ∧
      p.board = { b with core := { b.core with registers := after } } ∧
      i.LongMultiplied b.core.registers after ∧
      (∀ other : Instruction, other.shape = .multiplyLong → other.rn ≠ other.rd →
        other.SharesOperands i →
          (b.execute other).board.core.registers.content other.rd = after.content i.rd) ∧
      ∀ short : Instruction, short.shape = .multiply → short.SharesOperands i →
        (b.execute short).board.core.registers.content short.rn = after.content i.rd := by
  -- Both comparisons meet in the short product, which depends on the shared operands alone.
  have lowWord : (i.multiplyLong b.core.registers).content i.rd = i.product b.core.registers :=
    (Instruction.content_multiplyLong_low _ apart).trans (i.low_longProduct _)
  dsimp only [execute]
  rw [b.run_execute_multiplyLong long]
  refine ⟨rfl, rfl, Instruction.longMultiplied_multiplyLong _ long apart high low, ?_, ?_⟩
  · intro other otherLong otherApart shares
    rw [b.run_execute_multiplyLong otherLong, registers_mapRegisters, registers_mapRegisters,
      lowWord, Instruction.content_multiplyLong_low _ otherApart, Instruction.low_longProduct,
      Instruction.product_congr shares]
  · intro short isShort shares
    rw [b.run_execute_multiply isShort, registers_mapRegisters, registers_mapRegisters, lowWord,
      Instruction.content_multiply, Instruction.product_congr shares]

/-- Registers 0 and 1 hold -3 and 5. -/
def signedFactors : Board :=
  stackUser.mapRegisters fun r => (r.write .r0 (-3)).write .r1 5

/-- `smlals r1, r0, r0, r1` adds -15 to the pair that its own factors make up, and
`umlal r1, r0, r0, r1` and `mla r2, r0, r1, r1` come to the same low word. -/
theorem long_multiply_exact_signedFactors :
    let smlals : Instruction := ⟨0xE0F01190⟩
    let umlal : Instruction := ⟨0xE0A01190⟩
    let mla : Instruction := ⟨0xE0221190⟩
    let after (i : Instruction) := (signedFactors.execute i).board.core.registers
    (signedFactors.execute smlals).result = .ok () ∧
      smlals.pair (after smlals) = 0xFFFFFFFCFFFFFFF6 ∧
      (after smlals).current.has .negative = true ∧ (after smlals).current.has .zero = false ∧
      (after smlals).cell .supervisor 13 = 18 ∧
      (after umlal).content umlal.rd = (after smlals).content smlals.rd ∧
      (after mla).content mla.rn = (after smlals).content smlals.rd := by
  intro smlals umlal mla after
  obtain ⟨completed, -, multiplied, long, short⟩ := long_multiply_exact signedFactors smlals
    (by decide) (by decide) (by decide) (by decide)
  have pair : smlals.pair (after smlals) = 0xFFFFFFFCFFFFFFF6 := by
    have first : smlals.factor signedFactors.core.registers smlals.rm = -3 := by decide
    have second : smlals.factor signedFactors.core.registers smlals.rs = 5 := by decide
    have added : smlals.addend signedFactors.core.registers = 0xFFFFFFFD00000005 := by decide
    have exact : (smlals.pair (after smlals) : Int) = _ := multiplied.exact
    rw [first, second, added] at exact
    omega
  refine ⟨completed, pair, ?_, ?_, multiplied.others .supervisor 13 (by decide), ?_, ?_⟩
  · rw [multiplied.negative (by decide), pair]
    decide
  · refine eq_false_of_ne_true fun set => ?_
    have none := (multiplied.zero (by decide)).mp set
    rw [pair] at none
    contradiction
  · exact long umlal (by decide) (by decide) ⟨by decide, by decide, by decide, by decide⟩
  · exact short mla (by decide) ⟨by decide, by decide, by decide, by decide⟩

end Board
end ArmMachine
