import ArmMachine.Instruction.Fields

/-! The encoding table. Classification asks one question after another; the table gives every shape
a row of its own, by fields of the word alone. No word is in two rows, a word in a row has the shape
of that row, and the words in no row are the undefined ones. Both directions go class by class, with
the fields that a test or a row looks at taken apart into bits. -/
namespace ArmMachine
namespace Word

/-- A run of bits of a word, from the lowest up. -/
def Shows (w : Word) (start : Nat) (bits : Nat → Bool) : Nat → Prop
  | 0 => True
  | 1 => w.getLsbD start = bits 0
  | n + 2 => w.getLsbD start = bits 0 ∧ w.Shows (start + 1) (fun k => bits (k + 1)) (n + 1)

theorem shows_iff (w : Word) (start : Nat) (bits : Nat → Bool) (length : Nat) :
    w.Shows start bits length ↔ ∀ k < length, w.getLsbD (start + k) = bits k := by
  fun_induction Shows w start bits length with
  | case1 => simp
  | case2 start bits => simp
  | case3 start bits n ih =>
    rw [ih]
    constructor
    · rintro ⟨first, rest⟩ k inside
      cases k with
      | zero => exact first
      | succ k =>
        have next := rest k (by omega)
        rwa [Nat.add_right_comm] at next
    · intro all
      refine ⟨all 0 (by omega), fun k inside => ?_⟩
      rw [Nat.add_right_comm]
      exact all (k + 1) (by omega)

theorem extractLsb'_eq_iff (w : Word) (start length : Nat) (v : BitVec length) :
    w.extractLsb' start length = v ↔ w.Shows start v.getLsbD length := by
  rw [shows_iff]
  constructor
  · rintro rfl k inside
    rw [BitVec.getLsbD_extractLsb', decide_eq_true inside, Bool.true_and]
  · intro bits
    apply BitVec.eq_of_getLsbD_eq
    intro k inside
    rw [BitVec.getLsbD_extractLsb', decide_eq_true inside, Bool.true_and, bits k inside]

theorem extractLsb_eq_iff (w : Word) (high low : Nat) (v : BitVec (high - low + 1)) :
    w.extractLsb high low = v ↔ w.Shows low v.getLsbD (high - low + 1) :=
  w.extractLsb'_eq_iff low (high - low + 1) v

end Word

namespace Shape

/-- Halfword and signed transfers have two bits that name the kind and one for an immediate offset.
-/
def HalfwordRow (w : Word) (kind : BitVec 2) (immediate : Bool) : Prop :=
  w.extractLsb 27 25 = 0b000 ∧ w.getLsbD 7 = true ∧ w.getLsbD 4 = true ∧
    w.extractLsb 6 5 = kind ∧ w.getLsbD 22 = immediate

/-- The words in the row of a shape. `extractLsb` takes the highest and the lowest bit of a field.
-/
def Row (w : Word) : Shape → Prop
  | multiply => w.extractLsb 27 22 = 0b000000 ∧ w.extractLsb 7 4 = 0b1001
  | multiplyLong => w.extractLsb 27 23 = 0b00001 ∧ w.extractLsb 7 4 = 0b1001
  | swap => w.extractLsb 27 23 = 0b00010 ∧ w.extractLsb 21 20 = 0b00 ∧ w.extractLsb 7 4 = 0b1001
  | halfwordRegister => HalfwordRow w 0b01 false
  | halfwordImmediate => HalfwordRow w 0b01 true
  | signedByteRegister => HalfwordRow w 0b10 false
  | signedByteImmediate => HalfwordRow w 0b10 true
  | signedHalfwordRegister => HalfwordRow w 0b11 false
  | signedHalfwordImmediate => HalfwordRow w 0b11 true
  | readStatus =>
    w.extractLsb 27 23 = 0b00010 ∧ w.extractLsb 21 20 = 0b00 ∧ w.extractLsb 7 4 = 0b0000
  | writeStatus =>
    w.extractLsb 27 23 = 0b00010 ∧ w.extractLsb 21 20 = 0b10 ∧ w.extractLsb 7 4 = 0b0000 ∨
      w.extractLsb 27 23 = 0b00110 ∧ w.extractLsb 21 20 = 0b10
  | branchExchange =>
    w.extractLsb 27 20 = 0b00010010 ∧ (w.extractLsb 7 4 = 0b0001 ∨ w.extractLsb 7 4 = 0b0011)
  | leadingZeros => w.extractLsb 27 20 = 0b00010110 ∧ w.extractLsb 7 4 = 0b0001
  | dataImmediate =>
    w.extractLsb 27 25 = 0b001 ∧ ¬ (w.extractLsb 24 23 = 0b10 ∧ w.getLsbD 20 = false)
  | dataShiftImmediate =>
    w.extractLsb 27 25 = 0b000 ∧ w.getLsbD 4 = false ∧
      ¬ (w.extractLsb 24 23 = 0b10 ∧ w.getLsbD 20 = false)
  | dataShiftRegister =>
    w.extractLsb 27 25 = 0b000 ∧ w.getLsbD 7 = false ∧ w.getLsbD 4 = true ∧
      ¬ (w.extractLsb 24 23 = 0b10 ∧ w.getLsbD 20 = false)
  | transferImmediate => w.extractLsb 27 25 = 0b010
  | transferRegister => w.extractLsb 27 25 = 0b011 ∧ w.getLsbD 4 = false
  | blockTransfer => w.extractLsb 27 25 = 0b100
  | branch => w.extractLsb 27 25 = 0b101
  | softwareInterrupt => w.extractLsb 27 24 = 0b1111
  | coprocessor => w.extractLsb 27 24 = 0b1110 ∧ w.getLsbD 4 = true
  | undefined => False

/-- What the table makes of a word: the shape of its row, and `undefined` when it is in none. -/
def Encodes (w : Word) (s : Shape) : Prop := s.Row w ∨ s = undefined ∧ ∀ t : Shape, ¬ t.Row w

/-- Data operations, by where their second operand comes from. -/
def processesData : Shape → Bool
  | dataImmediate | dataShiftImmediate | dataShiftRegister => true
  | _ => false

theorem processesData_cases {s : Shape} (data : s.processesData = true) :
    s = .dataImmediate ∨ s = .dataShiftImmediate ∨ s = .dataShiftRegister := by
  cases s <;> simp [processesData] at data ⊢

variable {w : Word} {s : Shape}

theorem quietCompare_iff :
    quietCompare w = true ↔ w.extractLsb 24 23 = 0b10 ∧ w.getLsbD 20 = false :=
  decide_eq_true_iff

section Sound

theorem row_ofMultiplyWord (register : w.extractLsb 27 25 = 0b000)
    (low : w.extractLsb 7 4 = 0b1001) :
    ofMultiplyWord w = undefined ∨ (ofMultiplyWord w).Row w := by
  simp only [Word.extractLsb_eq_iff, Word.Shows] at register
  simp only [ofMultiplyWord, Word.extractLsb'_eq_iff, Word.Shows]
  repeat' split
  all_goals
    simp only [Row, low, Word.extractLsb_eq_iff, Word.Shows]
    grind

theorem row_ofHalfwordWord (register : w.extractLsb 27 25 = 0b000)
    (low : w.extractLsb 7 4 ≠ 0b1001) (transfer : w.getLsbD 7 = true ∧ w.getLsbD 4 = true) :
    (ofHalfwordWord w).Row w := by
  have row {immediate kind} (form : w.getLsbD 22 = immediate) (named : w.extractLsb' 5 2 = kind) :
      HalfwordRow w kind immediate := ⟨register, transfer.1, transfer.2, named, form⟩
  -- Bits 6:5 are not zero, or bits 7:4 would be 1001.
  have last (first : w.extractLsb' 5 2 ≠ 0b01) (second : w.extractLsb' 5 2 ≠ 0b10) :
      w.extractLsb' 5 2 = 0b11 := by
    simp only [Word.extractLsb_eq_iff, Word.extractLsb'_eq_iff, Word.Shows, ne_eq]
      at low first second ⊢
    grind
  unfold ofHalfwordWord
  dsimp only
  split
  · split
    · exact row ‹_› ‹_›
    · exact row (eq_false_of_ne_true ‹_›) ‹_›
  split
  · split
    · exact row ‹_› ‹_›
    · exact row (eq_false_of_ne_true ‹_›) ‹_›
  split
  · exact row ‹_› (last ‹_› ‹_›)
  · exact row (eq_false_of_ne_true ‹_›) (last ‹_› ‹_›)

theorem row_ofMiscellaneousWord (register : w.extractLsb 27 25 = 0b000)
    (quiet : quietCompare w = true) :
    ofMiscellaneousWord w = undefined ∨ (ofMiscellaneousWord w).Row w := by
  simp only [quietCompare_iff, Word.extractLsb_eq_iff, Word.Shows] at register quiet
  simp only [ofMiscellaneousWord, Word.extractLsb'_eq_iff, Word.Shows]
  repeat' split
  all_goals
    simp only [Row, Word.extractLsb_eq_iff, Word.Shows]
    grind

theorem row_ofRegisterWord (register : w.extractLsb 27 25 = 0b000) :
    ofRegisterWord w = undefined ∨ (ofRegisterWord w).Row w := by
  unfold ofRegisterWord
  split
  · exact row_ofMultiplyWord register ‹_›
  split
  · exact .inr (row_ofHalfwordWord register ‹_› ‹_›)
  split
  · exact row_ofMiscellaneousWord register ‹_›
  rename_i plain loud
  rw [quietCompare_iff] at loud
  split
  · rename_i shifted
    have unset : w.getLsbD 7 = false := eq_false_of_ne_true fun set => plain ⟨set, shifted⟩
    exact .inr ⟨register, unset, shifted, loud⟩
  · exact .inr ⟨register, eq_false_of_ne_true ‹_›, loud⟩

theorem row_ofImmediateWord (immediate : w.extractLsb 27 25 = 0b001) :
    ofImmediateWord w = undefined ∨ (ofImmediateWord w).Row w := by
  unfold ofImmediateWord
  split
  · rename_i quiet
    split
    · right
      simp only [quietCompare_iff, Word.extractLsb_eq_iff, Word.Shows] at immediate quiet
      simp only [Row, Word.extractLsb_eq_iff, Word.Shows]
      grind
    · exact .inl rfl
  · rename_i loud
    rw [quietCompare_iff] at loud
    exact .inr ⟨immediate, loud⟩

/-- A shape other than `undefined` is only given to words in its row. -/
theorem row_ofWord (w : Word) : ofWord w = undefined ∨ (ofWord w).Row w := by
  unfold ofWord
  split <;> rename_i code <;> replace code : w.extractLsb 27 25 = _ := congrArg BitVec.ofFin code
  · exact row_ofRegisterWord code
  · exact row_ofImmediateWord code
  · exact .inr code
  · split
    · exact .inl rfl
    · exact .inr ⟨code, eq_false_of_ne_true ‹_›⟩
  · exact .inr code
  · exact .inr code
  · exact .inl rfl
  · simp only [Word.extractLsb_eq_iff, Word.Shows] at code
    repeat' split
    all_goals
      simp only [Row, Word.extractLsb_eq_iff, Word.Shows]
      grind

end Sound

section Complete

theorem ofRegisterWord_of_row (register : w.extractLsb 27 25 = 0b000) (row : s.Row w) :
    ofRegisterWord w = s := by
  simp only [Word.extractLsb_eq_iff, Word.Shows] at register
  simp only [ofRegisterWord, ofMultiplyWord, ofHalfwordWord, ofMiscellaneousWord, quietCompare,
    Word.extractLsb'_eq_iff, Word.Shows]
  cases s <;> simp only [Row, HalfwordRow, Word.extractLsb_eq_iff, Word.Shows] at row <;> grind

theorem ofImmediateWord_of_row (immediate : w.extractLsb 27 25 = 0b001) (row : s.Row w) :
    ofImmediateWord w = s := by
  simp only [Word.extractLsb_eq_iff, Word.Shows] at immediate
  simp only [ofImmediateWord, quietCompare, Word.extractLsb'_eq_iff, Word.Shows]
  cases s <;> simp only [Row, HalfwordRow, Word.extractLsb_eq_iff, Word.Shows] at row <;> grind

/-- Every word in a row has its shape, so no word is in two rows. -/
theorem ofWord_of_row (row : s.Row w) : ofWord w = s := by
  unfold ofWord
  split <;> rename_i code <;> replace code : w.extractLsb 27 25 = _ := congrArg BitVec.ofFin code
  · exact ofRegisterWord_of_row code row
  · exact ofImmediateWord_of_row code row
  all_goals
    simp only [Word.extractLsb_eq_iff, Word.Shows] at code
    cases s <;> simp only [Row, HalfwordRow, Word.extractLsb_eq_iff, Word.Shows] at row <;> grind

end Complete

theorem ofWord_eq_iff : ofWord w = s ↔ s.Encodes w := by
  constructor
  · rintro rfl
    refine (row_ofWord w).symm.imp id fun unknown => ⟨unknown, fun t row => ?_⟩
    have same := ofWord_of_row row
    rw [unknown] at same
    subst same
    exact row
  · rintro (row | ⟨rfl, unlisted⟩)
    · exact ofWord_of_row row
    · exact (row_ofWord w).resolve_right (unlisted _)

end Shape

/-- The comparisons are the opcodes that begin with 10. -/
theorem Opcode.isCompare_ofCode (c : BitVec 4) :
    (Opcode.ofCode c).isCompare = true ↔ c.extractLsb' 2 2 = 0b10 := by
  revert c
  decide

theorem Instruction.isCompare_iff (i : Instruction) :
    i.opcode.isCompare = true ↔ i.word.extractLsb 24 23 = 0b10 := by
  have top : (i.word.extractLsb' 21 4).extractLsb' 2 2 = i.word.extractLsb 24 23 := by
    apply BitVec.eq_of_getLsbD_eq
    intro k inside
    have within : 2 + k < 4 := by omega
    rw [BitVec.extractLsb, BitVec.getLsbD_extractLsb', BitVec.getLsbD_extractLsb',
      BitVec.getLsbD_extractLsb', decide_eq_true within, Bool.true_and, ← Nat.add_assoc]
  rw [opcode, Opcode.isCompare_ofCode, top]

/-- The encoding of a comparison that leaves the flags alone is used for other instructions. -/
theorem Instruction.setsFlags_of_isCompare {i : Instruction} (data : i.shape.processesData = true)
    (compares : i.opcode.isCompare = true) : i.setsFlags = true := by
  rw [isCompare_iff] at compares
  have row := (Shape.row_ofWord i.word).resolve_left (by
    intro unknown
    rw [shape, unknown] at data
    cases data)
  refine eq_true_of_ne_false fun unset => ?_
  have quiet : i.word.extractLsb 24 23 = 0b10 ∧ i.word.getLsbD 20 = false := ⟨compares, unset⟩
  rcases Shape.processesData_cases data with named | named | named
  all_goals
    rw [show Shape.ofWord i.word = _ from named] at row
    simp only [Shape.Row, quiet, and_self, not_true_eq_false, and_false] at row

/-- A word has a shape exactly when the encoding table says so, and a comparison among the data
operations always sets the flags. -/
theorem Shape.ofWord_follows_table (w : Word) :
    (∀ s : Shape, ofWord w = s ↔ s.Encodes w) ∧
      ¬ ∃ s : Shape, s.Encodes w ∧ s.processesData = true ∧
        (Instruction.mk w).opcode.isCompare = true ∧ (Instruction.mk w).setsFlags = false := by
  refine ⟨fun _ => ofWord_eq_iff, ?_⟩
  rintro ⟨s, encoded, data, compares, unset⟩
  obtain rfl := ofWord_eq_iff.mpr encoded
  have sets := Instruction.setsFlags_of_isCompare (i := ⟨w⟩) data compares
  rw [unset] at sets
  contradiction

end ArmMachine
