import ArmMachine.Proofs.LittleEndian

/-! Loading an image is copying it byte by byte, or nothing at all. The copy goes piece by piece, by
words where the address is aligned and by bytes elsewhere; after every piece, memory is what the
bytes before it make it. No piece fails once the whole image fits. -/
namespace ArmMachine

theorem Word.lane_shiftRight (value : Word) (k : Nat) :
    Word.lane (value >>> 8) k = value.lane (k + 1) := by
  apply BitVec.eq_of_getLsbD_eq
  intro j inside
  simp only [lane, BitVec.getLsbD_extractLsb', BitVec.getLsbD_ushiftRight, inside, decide_true,
    Bool.true_and]
  congr 1
  omega

theorem Word.lane_zeroExtend (b : Byte) : Word.lane (b.zeroExtend 32) 0 = b := by
  apply BitVec.eq_of_getLsbD_eq
  intro j inside
  simp [lane, inside, (by omega : j < 32)]

theorem Word.add_ofNat_add_ofNat (base : Word) (i k : Nat) :
    base + BitVec.ofNat 32 i + BitVec.ofNat 32 k = base + BitVec.ofNat 32 (i + k) := by
  rw [BitVec.add_assoc, BitVec.ofNat_add]

theorem Width.isAligned_word_iff (address : Word) :
    Width.word.isAligned address = true ↔ address.toNat % 4 = 0 :=
  decide_eq_true_iff.trans (Word.aligned_iff address)

namespace Ram

/-- Memory once the first `n` bytes of an image were put at consecutive addresses, one by one.
Addresses wrap around. -/
def laid (r : Ram) (base : Word) (image : Ram) : Nat → Ram
  | 0 => r
  | n + 1 => (r.laid base image n).setByte (base + BitVec.ofNat 32 n).toNat (image.byte n)

@[simp] theorem size_laid (r : Ram) (base : Word) (image : Ram) (n : Nat) :
    (r.laid base image n).size = r.size := by
  induction n with
  | zero => rfl
  | succ n ih => rw [laid, size_setByte, ih]

/-- Below the end of the address space nothing wraps, so each byte of an image stays where it was
put. -/
theorem byte_laid {r image : Ram} {base : Word} {n : Nat} (below : base.toNat + n ≤ wordLimit)
    (fits : base.toNat + n ≤ r.size) (j : Nat) :
    (r.laid base image n).byte j =
      if base.toNat ≤ j ∧ j < base.toNat + n then image.byte (j - base.toNat) else r.byte j := by
  rw [wordLimit] at below
  induction n with
  | zero => rw [laid, if_neg (by omega)]
  | succ n ih =>
    have place : (base + BitVec.ofNat 32 n).toNat = base.toNat + n := by
      rw [BitVec.toNat_add, BitVec.toNat_ofNat, Nat.mod_eq_of_lt (by omega : n < 2 ^ 32),
        Nat.mod_eq_of_lt (by omega)]
    rw [laid, byte_setByte, place, size_laid, ih (by omega) (by omega)]
    by_cases last : base.toNat + n = j
    · subst last
      rw [if_pos ⟨rfl, by omega⟩, if_pos (by omega), Nat.add_sub_cancel_left]
    · rw [if_neg fun both => last both.1]
      by_cases earlier : base.toNat ≤ j ∧ j < base.toNat + n
      · rw [if_pos earlier, if_pos (by omega)]
      · rw [if_neg earlier, if_neg (by omega)]

/-- No address reaches past the end of the address space, whatever memory there is. -/
theorem byte_laid_of_past (r image : Ram) (base : Word) (n : Nat) {j : Nat}
    (past : wordLimit ≤ j) : (r.laid base image n).byte j = r.byte j := by
  induction n with
  | zero => rfl
  | succ n ih =>
    have reach : (base + BitVec.ofNat 32 n).toNat < wordLimit := BitVec.isLt _
    rw [laid, byte_setByte, if_neg (by omega), ih]

section Copy
variable {r image : Ram} {base : Word}

/-- A value whose lanes are the next bytes of an image, stored at the addresses they belong to. -/
theorem storeBytes_laid {start i n : Nat} {value : Word}
    (places : ∀ k < n, (base + BitVec.ofNat 32 (i + k)).toNat = start + k)
    (lanes : ∀ k < n, value.lane k = image.byte (i + k)) :
    (r.laid base image i).storeBytes start value n = r.laid base image (i + n) := by
  induction n generalizing start i value with
  | zero => rfl
  | succ n ih =>
    have place : (base + BitVec.ofNat 32 i).toNat = start := places 0 (Nat.zero_lt_succ n)
    have lane : value.lane 0 = image.byte i := lanes 0 (Nat.zero_lt_succ n)
    have first :
        (r.laid base image i).setByte start (value.lane 0) = r.laid base image (i + 1) := by
      rw [laid, place, lane]
    rw [storeBytes, first, ih, Nat.add_assoc, Nat.add_comm 1 n]
    · intro k within
      rw [Nat.add_assoc, Nat.add_comm 1 k, places (k + 1) (Nat.succ_lt_succ within)]
      omega
    · intro k within
      rw [Word.lane_shiftRight, lanes (k + 1) (Nat.succ_lt_succ within), Nat.add_assoc,
        Nat.add_comm 1 k]

/-- One aligned write that carries the next bytes of an image. -/
theorem write_laid (fits : base.toNat + image.size ≤ r.size) {i : Nat} {w : Width} {value : Word}
    (within : i + w.bytes ≤ image.size)
    (aligned : (base + BitVec.ofNat 32 i).toNat % w.bytes = 0)
    (lanes : ∀ k < w.bytes, value.lane k = image.byte (i + k)) :
    (r.laid base image i).write (base + BitVec.ofNat 32 i) value w =
      (true, r.laid base image (i + w.bytes)) := by
  have bound := (base + BitVec.ofNat 32 i).isLt
  have start : w.start (base + BitVec.ofNat 32 i) = (base + BitVec.ofNat 32 i).toNat :=
    Nat.div_mul_cancel (Nat.dvd_of_mod_eq_zero aligned)
  have place (k : Nat) :
      (base + BitVec.ofNat 32 (i + k)).toNat = (base.toNat + i + k) % 2 ^ 32 := by
    rw [BitVec.toNat_add, BitVec.toNat_ofNat, Nat.add_mod_mod, Nat.add_assoc]
  have inside : (r.laid base image i).Inside (base + BitVec.ofNat 32 i) w := by
    have first := place 0
    have low : (base.toNat + i + 0) % 2 ^ 32 ≤ base.toNat + i := Nat.mod_le _ _
    rw [Inside, start, size_laid]
    rw [Nat.add_zero] at first
    omega
  have stored : (r.laid base image i).store (base + BitVec.ofNat 32 i) value w =
      r.laid base image (i + w.bytes) := by
    rw [store, w.toNat_alignDown]
    refine storeBytes_laid (fun k small => ?_) lanes
    have first := place 0
    have next := place k
    rw [Nat.add_zero] at first
    change _ = w.start _ + k
    rw [start]
    cases w <;> simp only [Width.bytes] at aligned small <;> omega
  rw [write_eq, if_pos inside, stored]

theorem writeBytes_laid (fits : base.toNat + image.size ≤ r.size) {i n : Nat}
    (within : i + n ≤ image.size) :
    (r.laid base image i).writeBytes (base + BitVec.ofNat 32 i) image i n =
      (true, r.laid base image (i + n)) := by
  induction n generalizing i with
  | zero => rfl
  | succ n ih =>
    have wrote : (r.laid base image i).write (base + BitVec.ofNat 32 i)
        ((image.byte i).zeroExtend 32) .byte = (true, r.laid base image (i + 1)) := by
      refine write_laid (w := .byte) fits ?_ (Nat.mod_one _) fun k single => ?_
      · change i + 1 ≤ image.size
        omega
      · obtain rfl := Nat.lt_one_iff.mp single
        exact Word.lane_zeroExtend _
    have next : base + BitVec.ofNat 32 i + 1 = base + BitVec.ofNat 32 (i + 1) :=
      Word.add_ofNat_add_ofNat base i 1
    rw [writeBytes, wrote]
    dsimp only
    rw [next, ih (by omega), Nat.add_assoc, Nat.add_comm 1 n]

theorem writePiece_laid (fits : base.toNat + image.size ≤ r.size) (i : Nat) :
    (r.laid base image (min i image.size)).writePiece (base + BitVec.ofNat 32 i) image i =
      (true, r.laid base image (min (i + 4) image.size)) := by
  rw [writePiece]
  by_cases word : i + 4 ≤ image.size ∧ Width.word.isAligned (base + BitVec.ofNat 32 i) = true
  · rw [if_pos word, Nat.min_eq_left (by omega), Nat.min_eq_left word.1]
    refine write_laid (w := .word) fits word.1 ((Width.isAligned_word_iff _).mp word.2) ?_
    intro k small
    rw [lane_number _ _ _ _ small]
    exact if_pos small
  · rw [if_neg word]
    by_cases past : image.size ≤ i
    · rw [Nat.sub_eq_zero_of_le past, Nat.min_eq_right past,
        Nat.min_eq_right (by omega : image.size ≤ i + 4)]
      rfl
    · rw [Nat.min_eq_left (by omega : i ≤ image.size), writeBytes_laid fits (by omega)]
      congr 2
      omega

theorem writePieces_laid (fits : base.toNat + image.size ≤ r.size) (i n : Nat) :
    (r.laid base image (min i image.size)).writePieces (base + BitVec.ofNat 32 i) image i n =
      (true, r.laid base image (min (i + 4 * n) image.size)) := by
  induction n generalizing i with
  | zero => rfl
  | succ n ih =>
    have next : base + BitVec.ofNat 32 i + 4 = base + BitVec.ofNat 32 (i + 4) :=
      Word.add_ofNat_add_ofNat base i 4
    rw [writePieces, writePiece_laid fits]
    dsimp only
    rw [next, ih, (by omega : i + 4 + 4 * n = i + 4 * (n + 1))]

/-- Copying in pieces is copying byte by byte, and no piece fails. -/
theorem copy_eq {image : ByteArray} (fits : base.toNat + image.size ≤ r.size) :
    r.copy base image = (true, r.laid base ⟨image⟩ image.size) := by
  have fits : base.toNat + (Ram.mk image).size ≤ r.size := fits
  have pieces := writePieces_laid fits 0 ((image.size + 3) / 4)
  have all : min (0 + 4 * ((image.size + 3) / 4)) image.size = image.size := by omega
  rw [BitVec.add_zero, Nat.zero_min] at pieces
  exact pieces.trans (congrArg (fun n => (true, r.laid base ⟨image⟩ n)) all)

end Copy

/-- A byte of the image belongs at this place in memory. -/
def Occupies (image : ByteArray) (base : Word) (j : Nat) : Prop :=
  base.toNat ≤ j ∧ j < base.toNat + image.size

instance (image : ByteArray) (base : Word) (j : Nat) : Decidable (Occupies image base j) :=
  inferInstanceAs (Decidable (_ ∧ _))

/-- An image lies at an address, and everything beside it is as it was. -/
structure Placed (r : Ram) (image : ByteArray) (base : Word) (r' : Ram) : Prop where
  size : r'.size = r.size
  bytes : ∀ j, r'.byte j =
    if Occupies image base j then (image.get! (j - base.toNat)).toBitVec else r.byte j

theorem placed_laid {r : Ram} {base : Word} {image : ByteArray}
    (below : base.toNat + image.size ≤ wordLimit) (fits : base.toNat + image.size ≤ r.size) :
    r.Placed image base (r.laid base ⟨image⟩ image.size) :=
  ⟨size_laid _ _ _ _, byte_laid below fits⟩

end Ram

namespace Core

theorem loadImage_eq (c : Core) (base : Word) (image : ByteArray) :
    c.loadImage base image =
      if base.toNat + image.size ≤ c.ram.size then
        (.ok image.size, { c with ram := c.ram.laid base ⟨image⟩ image.size })
      else (.error (.imageOutOfRange base image.size), c) := by
  unfold loadImage
  split
  · rename_i fits
    rw [Ram.copy_eq fits]
  · rfl

/-- An image that fits is copied whole, one that does not changes nothing. Memory that a core was
built with ends far below the end of the address space; if it went past that, the bytes past it
would wrap around. -/
theorem loadImage_copies_or_refuses (c : Core) (base : Word) (image : ByteArray) :
    let loaded := c.loadImage base image
    if base.toNat + image.size ≤ c.ram.size then
      loaded.1 = .ok image.size ∧ (c.ram.copy base image).1 = true ∧
        loaded.2 = { c with ram := c.ram.laid base ⟨image⟩ image.size } ∧
        (base.toNat + image.size ≤ wordLimit → c.ram.Placed image base loaded.2.ram)
    else loaded = (.error (.imageOutOfRange base image.size), c) := by
  intro loaded
  have result : loaded = _ := c.loadImage_eq base image
  split
  · rename_i fits
    rw [if_pos fits] at result
    rw [result, Ram.copy_eq fits]
    exact ⟨rfl, rfl, rfl, fun below => Ram.placed_laid below fits⟩
  · rename_i outside
    rw [result, if_neg outside]

/-- A core whose memory goes four bytes past the end of the address space. -/
def overlong : Core := { ofConfig .bareMetal with ram := .zeroed (wordLimit + 4) }

def straddling : ByteArray := ⟨#[1, 2, 3, 4, 5, 6, 7, 8]⟩

/-- The image fits and is said to be loaded, but its second half lies at address zero. -/
theorem loadImage_wraps_around :
    let loaded := overlong.loadImage 0xFFFFFFFC straddling
    0xFFFFFFFC + straddling.size ≤ overlong.ram.size ∧ loaded.1 = .ok 8 ∧
      loaded.2.ram.byte wordLimit ≠ (straddling.get! 4).toBitVec ∧
      loaded.2.ram.byte 0 ≠ overlong.ram.byte 0 := by
  intro loaded
  have size : overlong.ram.size = wordLimit + 4 := Ram.size_zeroed _
  have blank (j : Nat) : overlong.ram.byte j = 0 := Ram.byte_zeroed _ _
  have fits : 0xFFFFFFFC + straddling.size ≤ overlong.ram.size := by
    rw [size]
    exact Nat.le_refl _
  have result : loaded =
      (.ok 8, { overlong with ram := overlong.ram.laid 0xFFFFFFFC ⟨straddling⟩ 8 }) :=
    (overlong.loadImage_eq 0xFFFFFFFC straddling).trans (if_pos fits)
  have past : loaded.2.ram.byte wordLimit = 0 := by
    rw [result]
    exact (Ram.byte_laid_of_past _ _ _ _ (Nat.le_refl _)).trans (blank _)
  have low : loaded.2.ram.byte 0 = 5 := by
    rw [result]
    simp only [Ram.laid, Ram.byte_setByte, Ram.size_setByte, size]
    rfl
  refine ⟨fits, congrArg Prod.fst result, ?_, ?_⟩
  · rw [past]
    decide
  · rw [low, blank]
    decide

end Core
end ArmMachine
