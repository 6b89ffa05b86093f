import Mathlib.Logic.Function.Iterate
import ArmMachine.Arithmetic.Shift

/-! The barrel shifter, place by place. A shift by one place moves every bit and pushes one out into
the carry. The register form does this as often as the amount says, past the word as well; the
immediate form and the rotated immediate are the register form, but for the readings of an immediate
amount of zero. -/
namespace ArmMachine

namespace ShiftKind

/-- A shift by one place; the bit that leaves the word is the carry. -/
def step : ShiftKind → Shifted → Shifted
  | logicalLeft, s => ⟨2#32 * s.value, s.value.getLsbD 31⟩
  | logicalRight, s => ⟨s.value / 2#32, s.value.getLsbD 0⟩
  | arithmeticRight, s => ⟨BitVec.ofInt 32 (s.value.toInt / 2), s.value.getLsbD 0⟩
  | rotateRight, s => ⟨s.value.rotateRight 1, s.value.getLsbD 0⟩

/-- The operand after `n` places. -/
def moved : ShiftKind → Word → Nat → Word
  | logicalLeft, x, n => x <<< n
  | logicalRight, x, n => x >>> n
  | arithmeticRight, x, n => x.sshiftRight n
  | rotateRight, x, n => x.rotateRight n

/-- The bit that the next place pushes out. -/
def exit : ShiftKind → Nat
  | logicalLeft => 31
  | logicalRight | arithmeticRight | rotateRight => 0

end ShiftKind

theorem getLsbD_rotateRight_word (x : Word) (n : Nat) {i : Nat} (inside : i < 32) :
    (x.rotateRight n).getLsbD i = x.getLsbD ((i + n) % 32) := by
  rw [BitVec.getLsbD_rotateRight]
  by_cases low : i < 32 - n % 32
  · have position : (i + n) % 32 = n % 32 + i := by omega
    simp only [low, decide_true, cond_true, position]
  · have position : (i + n) % 32 = i - (32 - n % 32) := by omega
    simp only [low, inside, decide_true, decide_false, cond_false, Bool.true_and, position]

namespace ShiftKind

theorem step_eq (kind : ShiftKind) (s : Shifted) :
    kind.step s = ⟨kind.moved s.value 1, s.value.getLsbD kind.exit⟩ := by
  cases kind with
  | logicalLeft =>
    have double : 2#32 * s.value = s.value <<< 1 := by
      rw [BitVec.shiftLeft_eq_mul_twoPow, BitVec.mul_comm]
      rfl
    simp only [step, moved, exit, double]
  | logicalRight =>
    have half : s.value / 2#32 = s.value >>> 1 := by
      apply BitVec.eq_of_toNat_eq
      rw [BitVec.toNat_udiv, BitVec.toNat_ushiftRight, Nat.shiftRight_eq_div_pow]
      rfl
    simp only [step, moved, exit, half]
  | arithmeticRight =>
    have half : BitVec.ofInt 32 (s.value.toInt / 2) = s.value.sshiftRight 1 := by
      rw [BitVec.sshiftRight, Int.shiftRight_eq_div_pow]
      rfl
    simp only [step, moved, exit, half]
  | rotateRight => rfl

theorem moved_succ (kind : ShiftKind) (x : Word) (n : Nat) :
    kind.moved (kind.moved x n) 1 = kind.moved x (n + 1) := by
  cases kind with
  | logicalLeft => exact (BitVec.shiftLeft_add x n 1).symm
  | logicalRight => exact (BitVec.shiftRight_add x n 1).symm
  | arithmeticRight => exact BitVec.sshiftRight_add.symm
  | rotateRight =>
    apply BitVec.eq_of_getLsbD_eq
    intro i inside
    have position : ((i + 1) % 32 + n) % 32 = (i + (n + 1)) % 32 := by omega
    simp only [moved]
    rw [getLsbD_rotateRight_word _ _ inside,
      getLsbD_rotateRight_word _ _ (Nat.mod_lt _ (by decide)),
      getLsbD_rotateRight_word _ _ inside, position]

theorem moved_zero (kind : ShiftKind) (x : Word) : kind.moved x 0 = x := by
  cases kind with
  | logicalLeft => exact BitVec.shiftLeft_zero x
  | logicalRight => exact BitVec.ushiftRight_zero x
  | arithmeticRight => exact BitVec.sshiftRight_zero
  | rotateRight =>
    apply BitVec.eq_of_getLsbD_eq
    intro i inside
    simp only [moved]
    rw [getLsbD_rotateRight_word _ _ inside, Nat.add_zero, Nat.mod_eq_of_lt inside]

/-- After at least one place the carry is the bit that the last place pushed out. -/
theorem iterate_step_succ (kind : ShiftKind) (x : Word) (carry : Bool) (n : Nat) :
    kind.step^[n + 1] ⟨x, carry⟩ = ⟨kind.moved x (n + 1), (kind.moved x n).getLsbD kind.exit⟩ := by
  induction n with
  | zero => rw [Function.iterate_one, step_eq, moved_zero]
  | succ n ih => rw [Function.iterate_succ_apply', ih, step_eq, moved_succ]

end ShiftKind

namespace Shifted

open ShiftKind

theorem signFill_eq_sshiftRight (x : Word) {n : Nat} (past : 32 ≤ n) :
    signFill x = x.sshiftRight n := by
  apply BitVec.eq_of_getLsbD_eq
  intro i inside
  have beyond : ¬ n + i < 32 := by omega
  have within : ¬ 32 ≤ i := Nat.not_le.mpr inside
  rw [BitVec.getLsbD_sshiftRight, if_neg beyond, signFill, decide_eq_false within, Bool.not_false,
    Bool.true_and]
  cases x.msb with
  | true => rw [if_pos rfl, BitVec.getLsbD_allOnes, decide_eq_true inside]
  | false => exact BitVec.getLsbD_zero

variable (x : Word) (n : Nat) (carry : Bool)

theorem byRegister_left :
    byRegister x (n + 1) .logicalLeft carry = ⟨x <<< (n + 1), (x <<< n).getLsbD 31⟩ := by
  unfold byRegister
  rw [if_neg (Nat.succ_ne_zero n), BitVec.getLsbD_shiftLeft]
  by_cases less : n + 1 < 32
  · have position : 32 - (n + 1) = 31 - n := by omega
    have small : ¬ 31 < n := by omega
    simp [less, small, position]
  · rw [BitVec.shiftLeft_eq_zero (Nat.le_of_not_lt less)]
    by_cases whole : n + 1 = 32
    · obtain rfl : n = 31 := by omega
      simp
    · have large : 31 < n := by omega
      simp [less, whole, large]

theorem byRegister_logical :
    byRegister x (n + 1) .logicalRight carry = ⟨x >>> (n + 1), (x >>> n).getLsbD 0⟩ := by
  unfold byRegister
  rw [if_neg (Nat.succ_ne_zero n), BitVec.getLsbD_ushiftRight, Nat.add_zero]
  by_cases less : n + 1 < 32
  · simp only [less, if_true, Nat.add_sub_cancel, Nat.add_zero]
  · rw [BitVec.ushiftRight_eq_zero (Nat.le_of_not_lt less)]
    by_cases whole : n + 1 = 32
    · obtain rfl : n = 31 := by omega
      simp [BitVec.msb_eq_getLsbD_last]
    · have large : 32 ≤ n := by omega
      simp [less, whole, BitVec.getLsbD_of_ge x n large]

theorem byRegister_arithmetic :
    byRegister x (n + 1) .arithmeticRight carry =
      ⟨x.sshiftRight (n + 1), (x.sshiftRight n).getLsbD 0⟩ := by
  unfold byRegister
  rw [if_neg (Nat.succ_ne_zero n), BitVec.getLsbD_sshiftRight, Nat.add_zero]
  by_cases less : n + 1 < 32
  · have small : n < 32 := by omega
    simp [less, small]
  · simp only [less, if_false, signFill_eq_sshiftRight x (Nat.le_of_not_lt less)]
    by_cases last : n < 32
    · obtain rfl : n = 31 := by omega
      simp [BitVec.msb_eq_getLsbD_last]
    · simp [last]

theorem byRegister_rotate :
    byRegister x (n + 1) .rotateRight carry =
      ⟨x.rotateRight (n + 1), (x.rotateRight n).getLsbD 0⟩ := by
  unfold byRegister
  rw [if_neg (Nat.succ_ne_zero n), getLsbD_rotateRight_word x n (by decide), Nat.zero_add]
  by_cases whole : (n + 1) % 32 = 0
  · have last : n % 32 = 31 := by omega
    have around : x.rotateRight (n + 1) = x := by
      rw [← BitVec.rotateRight_mod_eq_rotateRight, whole]
      exact moved_zero .rotateRight x
    simp only [whole, last, around, if_true, BitVec.msb_eq_getLsbD_last]
  · have position : (n + 1) % 32 - 1 = n % 32 := by omega
    simp only [whole, position, if_false, BitVec.rotateRight_mod_eq_rotateRight]

/-- The register form is the shift by one place, as often as the amount says. -/
theorem byRegister_eq_iterate (kind : ShiftKind) :
    byRegister x n kind carry = kind.step^[n] ⟨x, carry⟩ := by
  cases n with
  | zero => rfl
  | succ n =>
    rw [iterate_step_succ]
    cases kind with
    | logicalLeft => exact byRegister_left x n carry
    | logicalRight => exact byRegister_logical x n carry
    | arithmeticRight => exact byRegister_arithmetic x n carry
    | rotateRight => exact byRegister_rotate x n carry

/-- Inside a word the immediate form is the register form. -/
theorem byImmediate_eq_byRegister {n : Nat} (some : n ≠ 0) (less : n < 32)
    (kind : ShiftKind) : byImmediate x n kind carry = byRegister x n kind carry := by
  unfold byImmediate byRegister
  cases kind <;> simp only [some, less, if_false, if_true, Nat.mod_eq_of_lt less]

/-- The rotated immediate is the register form of a rotation: the bit pushed out last is the sign of
the result. -/
theorem byRotation_eq_byRegister {n : Nat} (less : n < 32) :
    byRotation x n carry = byRegister x n .rotateRight carry := by
  unfold byRotation byRegister
  by_cases none : n = 0
  · rw [if_pos none, if_pos none]
  · have position : (31 + n) % 32 = n - 1 := by omega
    rw [if_neg none, if_neg none]
    dsimp only
    rw [Nat.mod_eq_of_lt less, if_neg none, BitVec.msb_eq_getLsbD_last,
      getLsbD_rotateRight_word x n (by decide), position]

/-- One place to the right in the word of 33 bits that the carry and the value make up. -/
def throughCarry (s : Shifted) : Shifted :=
  ⟨((BitVec.cons s.carry s.value).rotateRight 1).setWidth 32,
    ((BitVec.cons s.carry s.value).rotateRight 1).msb⟩

theorem byImmediate_rotate_zero :
    byImmediate x 0 .rotateRight carry = throughCarry ⟨x, carry⟩ := by
  unfold byImmediate throughCarry
  rw [if_pos rfl, Shifted.mk.injEq]
  constructor
  · apply BitVec.eq_of_getLsbD_eq
    intro i inside
    rw [BitVec.getLsbD_setWidth, BitVec.getLsbD_rotateRight, BitVec.getLsbD_cons]
    by_cases top : i = 31
    · subst top
      simp
    · have other : ¬ 1 + i = 32 := by omega
      have below : i < 31 := by omega
      simp [inside, below, other]
  · simp only [BitVec.msb_eq_getLsbD_last, BitVec.getLsbD_rotateRight, BitVec.getLsbD_cons]
    simp

end Shifted

/-- What an immediate amount of zero stands for. -/
def ShiftKind.atZero : ShiftKind → Shifted → Shifted
  | logicalLeft, s => s
  | logicalRight, s => logicalRight.step^[32] s
  | arithmeticRight, s => arithmeticRight.step^[32] s
  | rotateRight, s => s.throughCarry

theorem Shifted.byImmediate_zero (x : Word) (kind : ShiftKind) (carry : Bool) :
    byImmediate x 0 kind carry = kind.atZero ⟨x, carry⟩ := by
  cases kind with
  | logicalLeft => rfl
  | logicalRight => exact byRegister_eq_iterate x 32 carry .logicalRight
  | arithmeticRight => exact byRegister_eq_iterate x 32 carry .arithmeticRight
  | rotateRight => exact byImmediate_rotate_zero x carry

/-- The barrel shifter is the shift by one place, done over: as often as the low byte of a register
says, as often as an immediate says unless it is zero, and as a rotation for a rotated immediate,
whatever kind of shift is named. -/
theorem shift_eq_iterate (operand amount : Word) (kind : ShiftKind) (carry : Bool) :
    shift operand amount kind .register8 carry =
        kind.step^[amount.toNat % 256] ⟨operand, carry⟩ ∧
      shift operand amount kind .immediate5 carry =
        (if amount.toNat % 32 = 0 then kind.atZero ⟨operand, carry⟩
          else kind.step^[amount.toNat % 32] ⟨operand, carry⟩) ∧
      shift operand amount kind .rotatedImmediate carry =
        ShiftKind.rotateRight.step^[amount.toNat % 32] ⟨operand, carry⟩ := by
  have less : amount.toNat % 32 < 32 := Nat.mod_lt _ (by decide)
  refine ⟨Shifted.byRegister_eq_iterate _ _ _ _, ?_, ?_⟩
  · by_cases none : amount.toNat % 32 = 0
    · rw [if_pos none, shift, none, Shifted.byImmediate_zero]
    · rw [if_neg none, shift, Shifted.byImmediate_eq_byRegister operand carry none less,
        Shifted.byRegister_eq_iterate]
  · rw [shift, Shifted.byRotation_eq_byRegister operand carry less, Shifted.byRegister_eq_iterate]

end ArmMachine
