import ArmMachine.Arithmetic.Addition

/-! The adder in terms of numbers. It never leaves a word on the way, its value is the sum modulo
the size of a word, and its flags say whether the sum has outgrown the word, without and with a
sign. -/
namespace ArmMachine

theorem toNat_high (a b : Word) (carry : Bool) :
    (Sum.high a b carry).toNat =
      a.toNat / 0x80000000 + b.toNat / 0x80000000 + (Sum.low a b carry).toNat / 0x80000000 := by
  have boundA := a.isLt
  have boundB := b.isLt
  have boundLow := (Sum.low a b carry).isLt
  simp only [Sum.high, BitVec.toNat_add, BitVec.toNat_ushiftRight, Nat.shiftRight_eq_div_pow]
  omega

/-- The sign bit comes from the high half and the rest from the low half. -/
theorem toNat_addWithCarry (a b : Word) (carry : Bool) :
    (addWithCarry a b carry).value.toNat =
      (a.toNat + b.toNat + carry.toNat) % 0x100000000 := by
  have low := toNat_low a b carry
  have high := toNat_high a b carry
  have mask (n : Nat) : n &&& (0x7FFFFFFF#32).toNat = n % 0x80000000 :=
    Nat.and_two_pow_sub_one_eq_mod n 31
  have parity : ∀ n, n <<< 31 % 0x100000000 = (n % 2) <<< 31 := by
    intro n
    rw [Nat.shiftLeft_eq, Nat.shiftLeft_eq]
    omega
  have below : (Sum.low a b carry).toNat % 0x80000000 < 2 ^ 31 := Nat.mod_lt _ (by decide)
  simp only [addWithCarry, BitVec.toNat_or, BitVec.toNat_and, BitVec.toNat_shiftLeft]
  rw [mask, parity, ← Nat.shiftLeft_add_eq_or_of_lt below, Nat.shiftLeft_eq, high]
  omega

theorem carry_addWithCarry_iff (a b : Word) (carry : Bool) :
    (addWithCarry a b carry).carry = true ↔ wordLimit ≤ a.toNat + b.toNat + carry.toNat := by
  have low := toNat_low a b carry
  have high := toNat_high a b carry
  have boundA := a.isLt
  have boundB := b.isLt
  have boundCarry : carry.toNat ≤ 1 := Bool.toNat_le carry
  have bit : (addWithCarry a b carry).carry = true ↔ (Sum.high a b carry).toNat / 2 % 2 = 1 := by
    simp only [addWithCarry, BitVec.getLsbD, Nat.testBit_eq_decide_div_mod_eq, decide_eq_true_eq]
  rw [bit, high, low, wordLimit]
  omega

/-- One pass loses nothing: the value and the carry together are the sum. -/
theorem addWithCarry_total (a b : Word) (carry : Bool) :
    (addWithCarry a b carry).value.toNat + wordLimit * (addWithCarry a b carry).carry.toNat =
      a.toNat + b.toNat + carry.toNat := by
  have value := toNat_addWithCarry a b carry
  have out := carry_addWithCarry_iff a b carry
  have boundA := a.isLt
  have boundB := b.isLt
  have boundCarry : carry.toNat ≤ 1 := Bool.toNat_le carry
  rw [wordLimit] at out ⊢
  cases set : (addWithCarry a b carry).carry with
  | true =>
    rw [set] at out
    have reached := out.mp rfl
    rw [Bool.toNat_true]
    omega
  | false =>
    rw [set] at out
    have short : ¬ _ := fun reached => Bool.false_ne_true (out.mpr reached)
    rw [Bool.toNat_false]
    omega

/-- The carries into and out of the sign differ exactly when the sum has no sign bit to spare. -/
theorem overflow_addWithCarry_iff (a b : Word) (carry : Bool) :
    (addWithCarry a b carry).overflow = true ↔
      ¬ (-0x80000000 ≤ a.toInt + b.toInt + carry.toNat ∧
        a.toInt + b.toInt + carry.toNat < 0x80000000) := by
  have low := toNat_low a b carry
  have boundA := a.isLt
  have boundB := b.isLt
  have boundCarry : carry.toNat ≤ 1 := Bool.toNat_le carry
  have out := carry_addWithCarry_iff a b carry
  have into : (Sum.low a b carry).getLsbD 31 = true ↔ 0x80000000 ≤ (Sum.low a b carry).toNat := by
    simp only [BitVec.getLsbD, Nat.testBit_eq_decide_div_mod_eq, decide_eq_true_eq]
    omega
  have differ : (addWithCarry a b carry).overflow = true ↔
      ¬ ((Sum.low a b carry).getLsbD 31 = true ↔ (addWithCarry a b carry).carry = true) := by
    simp only [addWithCarry, bne_iff_ne]
    rw [ne_eq, Bool.eq_iff_iff]
  rw [differ, into, out, low, wordLimit, BitVec.toInt_eq_toNat_cond, BitVec.toInt_eq_toNat_cond]
  omega

theorem value_subWithCarry (a b : Word) : (subWithCarry a b true).value = a - b := by
  have boundB := b.isLt
  apply BitVec.eq_of_toNat_eq
  rw [subWithCarry, toNat_addWithCarry, BitVec.toNat_not, BitVec.toNat_sub, Bool.toNat_true]
  omega

end ArmMachine
