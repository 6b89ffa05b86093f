import Mathlib.Algebra.Group.Nat.Defs
import ArmMachine.Board

/-! Which bytes an access can touch: those of its aligned range, all in the block of its address. -/
namespace ArmMachine

theorem toNat_blockNumber (w : Word) : (blockNumber w).toNat = w.toNat / 1024 := by
  have bound := w.isLt
  rw [blockNumber, BitVec.extractLsb'_toNat, Nat.shiftRight_eq_div_pow]
  omega

theorem blockNumber_eq_iff {p q : Word} :
    blockNumber p = blockNumber q ↔ p.toNat / 1024 = q.toNat / 1024 := by
  rw [← toNat_blockNumber, ← toNat_blockNumber]
  exact BitVec.toNat_inj.symm

/-- A field of a word as a number. -/
theorem toNat_field {n : Nat} (w : BitVec n) (start : Nat) {length width : Nat}
    (fits : length ≤ width) :
    ((w.extractLsb' start length).zeroExtend width).toNat =
      w.toNat / 2 ^ start % 2 ^ length := by
  rw [BitVec.zeroExtend, BitVec.toNat_setWidth_of_le fits, BitVec.extractLsb'_toNat,
    Nat.shiftRight_eq_div_pow]

theorem Word.aligned_iff (w : Word) : w &&& 3 = 0 ↔ w.toNat % 4 = 0 := by
  have low : (w &&& 3#32).toNat = w.toNat % 4 := by
    rw [BitVec.toNat_and]
    exact Nat.and_two_pow_sub_one_eq_mod w.toNat 2
  rw [← low]
  exact BitVec.toNat_inj.symm

theorem toNat_and_not_of_clears {mask : Word} {k : Nat}
    (clears : ∀ i < 32, (~~~mask).getLsbD i = decide (k ≤ i)) (address : Word) :
    (address &&& ~~~mask).toNat = (address.toNat >>> k) <<< k := by
  have shifted : address &&& ~~~mask = (address >>> k) <<< k := by
    apply BitVec.eq_of_getLsbD_eq
    intro i inside
    rw [BitVec.getLsbD_and, clears i inside, BitVec.getLsbD_shiftLeft, BitVec.getLsbD_ushiftRight]
    by_cases above : k ≤ i
    · simp [above, inside]
    · simp [above, (by omega : i < k)]
  have bound := address.isLt
  have under : (address.toNat >>> k) <<< k ≤ address.toNat := by
    rw [Nat.shiftRight_eq_div_pow, Nat.shiftLeft_eq]
    exact Nat.div_mul_le_self _ _
  rw [shifted, BitVec.toNat_shiftLeft, BitVec.toNat_ushiftRight, Nat.mod_eq_of_lt (by omega)]

/-- The aligned range of an access starts at a multiple of its width. -/
theorem Width.toNat_alignDown (w : Width) (address : Word) :
    (w.alignDown address).toNat = address.toNat / w.bytes * w.bytes := by
  have clears : ∀ i < 32,
      (~~~w.alignmentMask).getLsbD i = decide (w.bytes.log2 ≤ i) := by
    cases w <;> decide
  have aligned := toNat_and_not_of_clears clears address
  rw [Nat.shiftRight_eq_div_pow, Nat.shiftLeft_eq] at aligned
  cases w <;> exact aligned

namespace Ram

variable {r r' : Ram}

theorem number_congr {start n : Nat} (same : ∀ j < n, r'.byte (start + j) = r.byte (start + j)) :
    r'.number start n = r.number start n := by
  induction n generalizing start with
  | zero => rfl
  | succ n ih =>
    have first : r'.byte start = r.byte start := same 0 (Nat.zero_lt_succ n)
    have rest : r'.number (start + 1) n = r.number (start + 1) n := by
      apply ih
      intro j inside
      have next := same (j + 1) (Nat.succ_lt_succ inside)
      rwa [Nat.add_comm j 1, ← Nat.add_assoc] at next
    rw [number, number, rest, first]

/-- Memory after a write to a physical address, whoever claims it. -/
def afterWrite (r : Ram) (address value : Word) (width : Width) : Ram :=
  if address ≠ AddressMap.instructionCounter ∧ r.covers address width then
    r.store address value width
  else r

@[simp] theorem size_afterWrite (r : Ram) (address value : Word) (width : Width) :
    (r.afterWrite address value width).size = r.size := by
  unfold afterWrite
  split
  · exact size_storeBytes _ _ _ _
  · rfl

/-- A write changes only bytes that share the block of its address. -/
theorem byte_afterWrite {address value : Word} {width : Width} {i : Nat}
    (apart : ∀ q : Word, q.toNat = i → blockNumber q ≠ blockNumber address) :
    (r.afterWrite address value width).byte i = r.byte i := by
  unfold afterWrite
  split
  · unfold store
    rw [byte_storeBytes]
    split
    · rename_i inside
      rw [width.toNat_alignDown] at inside
      have bound := address.isLt
      have small : i < 2 ^ 32 := by cases width <;> simp only [Width.bytes] at inside <;> omega
      refine absurd (blockNumber_eq_iff.mpr ?_) (apart (BitVec.ofNat 32 i) ?_)
      · rw [BitVec.toNat_ofNat, Nat.mod_eq_of_lt small]
        cases width <;> simp only [Width.bytes] at inside <;> omega
      · rw [BitVec.toNat_ofNat, Nat.mod_eq_of_lt small]
    · rfl
  · rfl

end Ram

/-- A core is built with memory that ends at or below the first device window. -/
theorem Core.size_ofConfig (config : CoreConfig) :
    (Core.ofConfig config).ram.size = min config.ramBytes AddressMap.maximumRam :=
  Ram.size_zeroed _

/-- A descriptor is decided by the size of memory and the four bytes that hold it. -/
theorem Board.readDescriptor_congr {ram ram' : Ram} {address : Word} (size : ram'.size = ram.size)
    (same : ∀ j < 4, ram'.byte ((Width.word.alignDown address).toNat + j) =
      ram.byte ((Width.word.alignDown address).toNat + j)) :
    readDescriptor ram' address = readDescriptor ram address := by
  have value : ram'.load address .word = ram.load address .word := Ram.number_congr same
  have covered : ram'.covers address .word = ram.covers address .word := by
    simp only [Ram.covers, size]
  rw [readDescriptor, readDescriptor, Ram.read?, Ram.read?, covered, value]

end ArmMachine
