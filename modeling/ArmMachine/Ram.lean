import ArmMachine.Word

/-! Memory as one sequence of bytes. Every access of every width is a run of bytes, lowest first,
that starts at the address rounded down to the width; `byte_storeBytes` says what a store does to
each byte and `lane_number` what a load takes from each. -/
namespace ArmMachine

/-- How many bytes one access moves. -/
inductive Width where
  | byte | halfword | word
  deriving DecidableEq, Repr

namespace Width

def bytes : Width → Nat
  | byte => 1 | halfword => 2 | word => 4

/-- Address bits that are clear in a naturally aligned access. -/
def alignmentMask : Width → Word
  | byte => 0 | halfword => 1 | word => 3

/-- Value bits that an access of this width moves. -/
def valueMask : Width → Word
  | byte => 0xFF | halfword => 0xFFFF | word => 0xFFFFFFFF

def isAligned (w : Width) (address : Word) : Bool := address &&& w.alignmentMask = 0

def alignDown (w : Width) (address : Word) : Word := address &&& ~~~w.alignmentMask

end Width

/-- `n` zero bytes, made by doubling. -/
def zeroBytes (n : Nat) : ByteArray :=
  if _ : n = 0 then .empty
  else
    let half := zeroBytes (n / 2)
    if n % 2 = 0 then half ++ half else (half ++ half).push 0
  termination_by n

theorem data_zeroBytes (n : Nat) : (zeroBytes n).data = Array.replicate n 0 := by
  induction n using Nat.strongRecOn with
  | ind n ih =>
    rw [zeroBytes]
    by_cases h : n = 0
    · simp [h]
    · have half := ih (n / 2) (by omega)
      rw [dif_neg h]
      by_cases even : n % 2 = 0
      · simp only [even, if_true, ByteArray.data_append, half, Array.replicate_append_replicate]
        congr 1
        omega
      · simp only [even, if_false, ByteArray.data_push, ByteArray.data_append, half,
          Array.replicate_append_replicate, ← Array.replicate_succ]
        congr 1
        omega

structure Ram where
  bytes : ByteArray

namespace Ram

def zeroed (n : Nat) : Ram := ⟨zeroBytes n⟩

def size (r : Ram) : Nat := r.bytes.size

/-- The byte at an address, zero past the end. -/
def byte (r : Ram) (i : Nat) : Byte := (r.bytes.get! i).toBitVec

/-- Ignored past the end. -/
def setByte (r : Ram) (i : Nat) (b : Byte) : Ram := ⟨r.bytes.set! i ⟨b⟩⟩

/-- The number spelled by `n` bytes, the first being the lowest. -/
def number (r : Ram) (start : Nat) : Nat → Word
  | 0 => 0
  | n + 1 => (number r (start + 1) n <<< 8) ||| (r.byte start).zeroExtend 32

/-- Writes the low `n` bytes of a value, the lowest first. -/
def storeBytes (r : Ram) (start : Nat) (value : Word) : Nat → Ram
  | 0 => r
  | n + 1 => storeBytes (r.setByte start (value.lane 0)) (start + 1) (value >>> 8) n

/-- Whether the aligned range of an access lies inside. -/
def covers (r : Ram) (address : Word) (w : Width) : Bool :=
  (w.alignDown address).toNat + w.bytes ≤ r.size

/-- Low address bits within the width are ignored. -/
def load (r : Ram) (address : Word) (w : Width) : Word :=
  r.number (w.alignDown address).toNat w.bytes

/-- Low address bits within the width are ignored. -/
def store (r : Ram) (address value : Word) (w : Width) : Ram :=
  r.storeBytes (w.alignDown address).toNat value w.bytes

def read? (r : Ram) (address : Word) (w : Width) : Option Word :=
  if r.covers address w then some (r.load address w) else none

/-- Whether the write fits, and memory afterwards. -/
def write (r : Ram) (address value : Word) (w : Width) : Bool × Ram :=
  if r.covers address w then (true, r.store address value w) else (false, r)

/-- Writes `n` bytes of an image, from its byte `i` on, one by one until one does not fit. -/
def writeBytes (r : Ram) (address : Word) (image : Ram) (i : Nat) : Nat → Bool × Ram
  | 0 => (true, r)
  | n + 1 =>
    match r.write address ((image.byte i).zeroExtend 32) .byte with
    | (true, r) => r.writeBytes (address + 1) image (i + 1) n
    | (false, r) => (false, r)

/-- Writes the piece of an image that starts at its byte `i`: four bytes, fewer at the end of the
image. A whole piece at an aligned address is written as one word. -/
def writePiece (r : Ram) (address : Word) (image : Ram) (i : Nat) : Bool × Ram :=
  if i + 4 ≤ image.size ∧ Width.word.isAligned address then
    r.write address (image.number i 4) .word
  else r.writeBytes address image i (min 4 (image.size - i))

/-- Writes `n` pieces of an image until one does not fit. The address wraps around. -/
def writePieces (r : Ram) (address : Word) (image : Ram) (i : Nat) : Nat → Bool × Ram
  | 0 => (true, r)
  | n + 1 =>
    match r.writePiece address image i with
    | (true, r) => r.writePieces (address + 4) image (i + 4) n
    | (false, r) => (false, r)

/-- Copies an image to the bytes from `base` upwards. What was written before a piece that does not
fit stays written. -/
def copy (r : Ram) (base : Word) (image : ByteArray) : Bool × Ram :=
  r.writePieces base ⟨image⟩ 0 ((image.size + 3) / 4)

theorem zeroed_eq (n : Nat) : zeroed n = ⟨⟨Array.replicate n 0⟩⟩ :=
  congrArg Ram.mk (ByteArray.ext (data_zeroBytes n))

@[simp] theorem size_zeroed (n : Nat) : (zeroed n).size = n := by
  show (zeroBytes n).size = n
  rw [← ByteArray.size_data, data_zeroBytes, Array.size_replicate]

@[simp] theorem byte_zeroed (n i : Nat) : (zeroed n).byte i = 0 := by
  rw [zeroed_eq]
  show ((Array.replicate n (0 : UInt8))[i]!).toBitVec = 0
  rw [Array.getElem!_eq_getD, Array.getD_eq_getD_getElem?, Array.getElem?_replicate]
  split <;> rfl

@[simp] theorem size_setByte (r : Ram) (i : Nat) (b : Byte) : (r.setByte i b).size = r.size :=
  Array.size_setIfInBounds

theorem byte_setByte (r : Ram) (i j : Nat) (b : Byte) :
    (r.setByte i b).byte j = if i = j ∧ i < r.size then b else r.byte j := by
  show ((r.bytes.data.setIfInBounds i ⟨b⟩)[j]!).toBitVec
    = if i = j ∧ i < r.bytes.data.size then b else (r.bytes.data[j]!).toBitVec
  simp only [getElem!_def, Array.getElem?_setIfInBounds]
  by_cases same : i = j
  · subst same
    by_cases inside : i < r.bytes.size <;> simp [inside]
  · simp [same]

@[simp] theorem size_storeBytes (r : Ram) (start : Nat) (value : Word) (n : Nat) :
    (r.storeBytes start value n).size = r.size := by
  induction n generalizing r start value with
  | zero => rfl
  | succ n ih => rw [storeBytes, ih, size_setByte]

/-- A store puts the lanes of the value into its range and leaves every other byte alone. -/
theorem byte_storeBytes (r : Ram) (start : Nat) (value : Word) (n j : Nat) :
    (r.storeBytes start value n).byte j =
      if start ≤ j ∧ j < start + n ∧ j < r.size then value.lane (j - start) else r.byte j := by
  induction n generalizing r start value with
  | zero =>
    rw [storeBytes, if_neg (by omega)]
  | succ n ih =>
    rw [storeBytes, ih, size_setByte, byte_setByte]
    by_cases first : start = j
    · subst first
      simp only [Nat.not_succ_le_self, false_and, if_false, true_and, Nat.le_refl, Nat.sub_self]
      simp
    · by_cases inside : start + 1 ≤ j ∧ j < start + 1 + n ∧ j < r.size
      · rw [if_pos inside, if_pos (by omega)]
        apply BitVec.eq_of_getLsbD_eq
        intro k hk
        simp only [Word.lane, BitVec.getLsbD_extractLsb', BitVec.getLsbD_ushiftRight]
        congr 2
        omega
      · rw [if_neg inside, if_neg (by simp [first]), if_neg (by omega)]

/-- Lane `k` of a load is byte `k` of its range, and zero past the range. -/
theorem lane_number (r : Ram) (start n k : Nat) (small : k < 4) :
    (r.number start n).lane k = if k < n then r.byte (start + k) else 0 := by
  induction n generalizing start k with
  | zero => simp [number, Word.lane]
  | succ n ih =>
    apply BitVec.eq_of_getLsbD_eq
    intro i hi
    cases k with
    | zero =>
      simp [number, Word.lane, hi, show i < 32 by omega]
    | succ k =>
      have rest := congrArg (fun b => b.getLsbD i) (ih (start + 1) k (by omega))
      have past : (r.byte start).getLsbD (8 * (k + 1) + i) = false :=
        BitVec.getLsbD_of_ge _ _ (by omega)
      simp only [Word.lane, BitVec.getLsbD_extractLsb', hi, decide_true, Bool.true_and] at rest
      simp only [number, Word.lane, BitVec.getLsbD_extractLsb', hi, decide_true, Bool.true_and,
        BitVec.getLsbD_or, BitVec.getLsbD_shiftLeft, BitVec.truncate_eq_setWidth,
        BitVec.getLsbD_setWidth, past, Bool.and_false, Bool.or_false,
        show 8 * (k + 1) + i < 32 by omega, show ¬ 8 * (k + 1) + i < 8 by omega, decide_false,
        Bool.not_false, show 8 * (k + 1) + i - 8 = 8 * k + i by omega, rest,
        Nat.add_lt_add_iff_right]
      rw [show start + 1 + k = start + (k + 1) by omega]

end Ram
end ArmMachine
