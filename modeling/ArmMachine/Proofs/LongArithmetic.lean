import Mathlib.Algebra.Group.Nat.Defs
import ArmMachine.Proofs.Arithmetic

/-! Numbers of several words. The adder works on one word at a time; run over the columns of two
long numbers, each pass taking the carry of the one before, it adds and subtracts them exactly, and
the flags of the last pass are those of the long result. The induction is on the columns: what is
left of the sum after the first pass is the sum of the other columns and of the carry. -/
namespace ArmMachine

/-- Adder passes over the columns of two long numbers, from the least significant one up: the carry
of each pass goes into the next. -/
def chain (pass : Word → Word → Bool → Sum) : List (Word × Word) → Bool → List Sum
  | [], _ => []
  | (a, b) :: rest, carry => pass a b carry :: chain pass rest (pass a b carry).carry

namespace Limbs

/-- The number that limbs stand for, the least significant first. -/
def number : List Word → Nat
  | [] => 0
  | limb :: rest => limb.toNat + wordLimit * number rest

/-- The numbers of `k` limbs are those below this one. -/
def limit (k : Nat) : Nat := wordLimit ^ k

/-- The number that limbs stand for in two's complement. -/
def signed (limbs : List Word) : Int :=
  if 2 * number limbs < limit limbs.length then number limbs
  else number limbs - limit limbs.length

/-- Two's complement of `k` limbs has room for a number. -/
def Fits (k : Nat) (n : Int) : Prop := -(limit k : Int) ≤ 2 * n ∧ 2 * n < limit k

theorem limit_succ (k : Nat) : limit (k + 1) = wordLimit * limit k := Nat.pow_succ'

theorem even_limit {k : Nat} (some : 0 < k) : ∃ half, limit k = 2 * half := by
  obtain ⟨k, rfl⟩ := Nat.exists_eq_succ_of_ne_zero (Nat.ne_of_gt some)
  refine ⟨0x80000000 * limit k, ?_⟩
  rw [limit_succ, wordLimit]
  omega

theorem number_lt (limbs : List Word) : number limbs < limit limbs.length := by
  induction limbs with
  | nil => exact Nat.one_pos
  | cons limb rest ih =>
    have bound := limb.isLt
    rw [number, List.length_cons, limit_succ, wordLimit]
    omega

theorem signed_singleton (limb : Word) : signed [limb] = limb.toInt := by
  rw [BitVec.toInt_eq_toNat_cond]
  rfl

/-- Only the most significant limb carries the sign. -/
theorem signed_cons (limb : Word) {rest : List Word} (nonempty : rest ≠ []) :
    signed (limb :: rest) = limb.toNat + wordLimit * signed rest := by
  obtain ⟨half, even⟩ := even_limit (List.length_pos_iff.mpr nonempty)
  have bound := limb.isLt
  simp only [signed, number, List.length_cons, limit_succ, even, wordLimit]
  split <;> split <;> omega

theorem fits_one (n : Int) : Fits 1 n ↔ -0x80000000 ≤ n ∧ n < 0x80000000 := by
  have single : limit 1 = 0x100000000 := rfl
  rw [Fits, single]
  omega

theorem fits_succ {k : Nat} (some : 0 < k) {low : Nat} (below : low < wordLimit) (high : Int) :
    Fits (k + 1) (low + wordLimit * high) ↔ Fits k high := by
  obtain ⟨half, even⟩ := even_limit some
  simp only [Fits, limit_succ, even, wordLimit] at below ⊢
  omega

/-- The complement of every limb is what is missing to one less than the limit. -/
theorem number_complement (limbs : List Word) :
    number (limbs.map (~~~·)) + number limbs + 1 = limit limbs.length := by
  induction limbs with
  | nil => rfl
  | cons limb rest ih =>
    have bound := limb.isLt
    simp only [List.map_cons, number, List.length_cons, limit_succ, BitVec.toNat_not, wordLimit]
    omega

theorem signed_complement {limbs : List Word} (nonempty : limbs ≠ []) :
    signed (limbs.map (~~~·)) = -1 - signed limbs := by
  have missing := number_complement limbs
  obtain ⟨half, even⟩ := even_limit (List.length_pos_iff.mpr nonempty)
  simp only [signed, List.length_map, even] at missing ⊢
  split <;> split <;> omega

end Limbs

open Limbs

/-- What the passes of an addition leave: the limbs of the sum, and flags in the last pass. -/
structure Adds (columns : List (Word × Word)) (carry : Bool) (sums : List Sum) (last : Sum) :
    Prop where
  length : sums.length = columns.length
  ends : sums.getLast? = some last
  total : number (sums.map Sum.value) + limit columns.length * last.carry.toNat =
    number (columns.map Prod.fst) + number (columns.map Prod.snd) + carry.toNat
  overflow : last.overflow = true ↔ ¬ Fits columns.length
    (signed (columns.map Prod.fst) + signed (columns.map Prod.snd) + carry.toNat)

theorem adds_singleton (a b : Word) (carry : Bool) :
    Adds [(a, b)] carry [addWithCarry a b carry] (addWithCarry a b carry) where
  length := rfl
  ends := rfl
  total := by
    have total := addWithCarry_total a b carry
    simp only [List.map_cons, List.map_nil, number, List.length_singleton]
    have single : limit 1 = wordLimit := rfl
    rw [single]
    omega
  overflow := by
    rw [overflow_addWithCarry_iff, List.length_singleton, fits_one, List.map_singleton,
      List.map_singleton, signed_singleton, signed_singleton]

/-- The carry of the first column takes the place of the carry into the others. -/
theorem Adds.cons {a b : Word} {carry : Bool} {columns : List (Word × Word)} {sums : List Sum}
    {last : Sum} (nonempty : columns ≠ [])
    (rest : Adds columns (addWithCarry a b carry).carry sums last) :
    Adds ((a, b) :: columns) carry (addWithCarry a b carry :: sums) last := by
  have first := addWithCarry_total a b carry
  have below : (addWithCarry a b carry).value.toNat < wordLimit :=
    (addWithCarry a b carry).value.isLt
  have some : 0 < columns.length := List.length_pos_iff.mpr nonempty
  constructor
  · rw [List.length_cons, rest.length, List.length_cons]
  · rw [List.getLast?_cons, rest.ends]
    rfl
  · have total := rest.total
    simp only [List.map_cons, number, List.length_cons, limit_succ, wordLimit, Nat.mul_assoc]
      at first total ⊢
    omega
  · have sum : signed (a :: columns.map Prod.fst) + signed (b :: columns.map Prod.snd) +
        carry.toNat = (addWithCarry a b carry).value.toNat + wordLimit *
          (signed (columns.map Prod.fst) + signed (columns.map Prod.snd) +
            (addWithCarry a b carry).carry.toNat) := by
      rw [signed_cons a (mt List.map_eq_nil_iff.mp nonempty),
        signed_cons b (mt List.map_eq_nil_iff.mp nonempty)]
      rw [wordLimit] at first ⊢
      omega
    rw [List.map_cons, List.map_cons, sum, List.length_cons, fits_succ some below]
    exact rest.overflow

theorem adds_chain {columns : List (Word × Word)} (nonempty : columns ≠ []) (carry : Bool) :
    ∃ last, Adds columns carry (chain addWithCarry columns carry) last := by
  induction columns generalizing carry with
  | nil => contradiction
  | cons column rest ih =>
    obtain ⟨a, b⟩ := column
    cases rest with
    | nil => exact ⟨_, adds_singleton a b carry⟩
    | cons next rest =>
      obtain ⟨last, adds⟩ := ih (List.cons_ne_nil _ _) (addWithCarry a b carry).carry
      exact ⟨last, adds.cons (List.cons_ne_nil _ _)⟩

/-- Subtraction is the addition of the complement in every column. -/
theorem chain_subWithCarry (columns : List (Word × Word)) (carry : Bool) :
    chain subWithCarry columns carry =
      chain addWithCarry (columns.map fun column => (column.1, ~~~column.2)) carry := by
  induction columns generalizing carry with
  | nil => simp only [chain, List.map_nil]
  | cons column rest ih =>
    obtain ⟨a, b⟩ := column
    simp only [chain, List.map_cons, subWithCarry, ih]

/-- Every sum that the adder forms in a word is the sum of the numbers, so none outgrows the word.
-/
structure Sum.StaysInWord (a b : Word) (carry : Bool) : Prop where
  parts : ((a &&& 0x7FFFFFFF#32) + (b &&& 0x7FFFFFFF#32)).toNat =
    (a &&& 0x7FFFFFFF#32).toNat + (b &&& 0x7FFFFFFF#32).toNat
  low : (Sum.low a b carry).toNat =
    (a &&& 0x7FFFFFFF#32).toNat + (b &&& 0x7FFFFFFF#32).toNat + carry.toNat
  signs : ((a >>> 31) + (b >>> 31)).toNat = (a >>> 31).toNat + (b >>> 31).toNat
  high : (Sum.high a b carry).toNat =
    (a >>> 31).toNat + (b >>> 31).toNat + (Sum.low a b carry >>> 31).toNat

theorem Sum.staysInWord (a b : Word) (carry : Bool) : Sum.StaysInWord a b carry := by
  have mask (w : Word) : (w &&& 0x7FFFFFFF#32).toNat = w.toNat % 0x80000000 :=
    (BitVec.toNat_and ..).trans (Nat.and_two_pow_sub_one_eq_mod w.toNat 31)
  have sign (w : Word) : (w >>> 31).toNat = w.toNat / 0x80000000 := by
    rw [BitVec.toNat_ushiftRight, Nat.shiftRight_eq_div_pow]
  have boundA := a.isLt
  have boundB := b.isLt
  constructor
  · rw [BitVec.toNat_add, mask, mask]
    omega
  · rw [toNat_low, mask, mask]
  · rw [BitVec.toNat_add, sign, sign]
    omega
  · rw [toNat_high, sign, sign, sign]

/-- The passes leave the `k` limbs of a result, and the last of them its flags: the carry says what
`carried` says, and the overflow that two's complement of `k` limbs has no room for the signed
result. -/
structure LongResult (sums : List Sum) (k : Nat) (result signedResult : Int) (carried : Prop) :
    Prop where
  length : sums.length = k
  value : (number (sums.map Sum.value) : Int) = result % limit k
  flags : ∃ last, sums.getLast? = some last ∧ (last.carry = true ↔ carried) ∧
    (last.overflow = true ↔ ¬ Fits k signedResult)

variable {a b : List Word}

theorem longResult_addWithCarry (same : a.length = b.length) (nonempty : a ≠ []) (carry : Bool) :
    LongResult (chain addWithCarry (a.zip b) carry) a.length (number a + number b + carry.toNat)
      (signed a + signed b + carry.toNat)
      (limit a.length ≤ number a + number b + carry.toNat) := by
  have columns : a.zip b ≠ [] := by
    intro empty
    have none := congrArg List.length empty
    rw [List.length_zip, ← same, Nat.min_self, List.length_nil] at none
    exact nonempty (List.length_eq_zero_iff.mp none)
  have length : (a.zip b).length = a.length := by rw [List.length_zip, ← same, Nat.min_self]
  obtain ⟨last, adds⟩ := adds_chain columns carry
  have values := number_lt ((chain addWithCarry (a.zip b) carry).map Sum.value)
  have total := adds.total
  have overflow := adds.overflow
  rw [List.length_map, adds.length, length] at values
  rw [length, List.map_fst_zip (Nat.le_of_eq same), List.map_snd_zip (Nat.le_of_eq same.symm)]
    at total overflow
  have bound : last.carry.toNat ≤ 1 := Bool.toNat_le _
  refine ⟨adds.length.trans length, ?_, last, adds.ends, ?_, overflow⟩
  · have exact : ((number a + number b + carry.toNat : Nat) : Int) =
        number ((chain addWithCarry (a.zip b) carry).map Sum.value) +
          limit a.length * last.carry.toNat := by
      rw [← total, Int.natCast_add, Int.natCast_mul]
    rw [← Int.natCast_add, ← Int.natCast_add, exact, Int.add_mul_emod_self_left,
      Int.emod_eq_of_lt (Int.natCast_nonneg _) (Int.ofNat_lt.mpr values)]
  · cases set : last.carry with
    | true =>
      rw [set, Bool.toNat_true] at total
      exact iff_of_true rfl (by omega)
    | false =>
      rw [set, Bool.toNat_false] at total
      exact iff_of_false Bool.false_ne_true (by omega)

theorem longResult_subWithCarry (same : a.length = b.length) (nonempty : a ≠ []) (carry : Bool) :
    LongResult (chain subWithCarry (a.zip b) carry) a.length
      (number a - number b - (!carry).toNat) (signed a - signed b - (!carry).toNat)
      (number b + (!carry).toNat ≤ number a) := by
  have complemented : a.length = (b.map (~~~·)).length := by rw [List.length_map, same]
  have sum := longResult_addWithCarry complemented nonempty carry
  have some : b ≠ [] := by
    rintro rfl
    exact nonempty (List.length_eq_zero_iff.mp same)
  have missing := number_complement b
  have borrow : (!carry).toNat + carry.toNat = 1 := by cases carry <;> rfl
  rw [← same] at missing
  rw [signed_complement some, List.zip_map_right] at sum
  have columns : (a.zip b).map (Prod.map id (~~~·)) =
      (a.zip b).map fun column => (column.1, ~~~column.2) := rfl
  rw [columns, ← chain_subWithCarry] at sum
  obtain ⟨last, ends, carried, overflow⟩ := sum.flags
  refine ⟨sum.length, ?_, last, ends, carried.trans ?_, overflow.trans ?_⟩
  · have shifted : (number a + number (b.map (~~~·)) + carry.toNat : Int) =
        number a - number b - (!carry).toNat + limit a.length := by omega
    rw [sum.value, shifted, Int.add_emod_right]
  · constructor <;> intro <;> omega
  · have signs : signed a + (-1 - signed b) + carry.toNat =
        signed a - signed b - (!carry).toNat := by omega
    rw [signs]

/-- Long addition and subtraction are exact. The limbs are those of the sum or difference; the carry
says that the sum has outgrown the limbs, or that the difference was not borrowed for; the overflow
says that the signed result has no place in them. No sum inside the adder leaves a word. -/
theorem chained_passes_exact (a b : List Word) (same : a.length = b.length) (nonempty : a ≠ [])
    (carry : Bool) :
    LongResult (chain addWithCarry (a.zip b) carry) a.length (number a + number b + carry.toNat)
        (signed a + signed b + carry.toNat)
        (limit a.length ≤ number a + number b + carry.toNat) ∧
      LongResult (chain subWithCarry (a.zip b) carry) a.length
        (number a - number b - (!carry).toNat) (signed a - signed b - (!carry).toNat)
        (number b + (!carry).toNat ≤ number a) ∧
      ∀ x y c, Sum.StaysInWord x y c :=
  ⟨longResult_addWithCarry same nonempty carry, longResult_subWithCarry same nonempty carry,
    Sum.staysInWord⟩

/-- The largest signed number of two limbs and one: the first pass carries, the second overflows. -/
theorem chained_passes_exact_largestAndOne :
    let a : List Word := [0xFFFFFFFF, 0x7FFFFFFF]
    let b : List Word := [1, 0]
    a.length = b.length ∧ a ≠ [] ∧
      chain addWithCarry (a.zip b) false = [⟨0, true, false⟩, ⟨0x80000000, false, true⟩] ∧
      LongResult (chain addWithCarry (a.zip b) false) a.length (number a + number b + 0)
        (signed a + signed b + 0) (limit a.length ≤ number a + number b + 0) ∧
      LongResult (chain subWithCarry (a.zip b) false) a.length (number a - number b - 1)
        (signed a - signed b - 1) (number b + 1 ≤ number a) := by
  intro a b
  have exact := chained_passes_exact a b rfl (by decide) false
  exact ⟨rfl, by decide, by decide, exact.1, exact.2.1⟩

end ArmMachine
