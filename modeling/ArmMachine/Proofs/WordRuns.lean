import ArmMachine.Proofs.Memory

/-! Runs of consecutive words in memory. A word that is stored is found again, and everything beside
the run stays as it was. -/
namespace ArmMachine

/-- A word is decided by its four lanes. -/
theorem Word.ext_lanes {v w : Word} (same : ∀ k < 4, v.lane k = w.lane k) : v = w := by
  apply BitVec.eq_of_getLsbD_eq
  intro i inside
  have lane := congrArg (fun l => l.getLsbD (i % 8)) (same (i / 8) (by omega))
  have whole : 8 * (i / 8) + i % 8 = i := Nat.div_add_mod i 8
  simpa [Word.lane, whole, Nat.mod_lt] using lane

/-- A byte of the part of a value that an access moves. -/
theorem Word.lane_and_valueMask (value : Word) {width : Width} {k : Nat}
    (within : k < width.bytes) :
    (value &&& width.valueMask).lane k = value.lane k := by
  apply BitVec.eq_of_getLsbD_eq
  intro j small
  have kept : width.valueMask.getLsbD (8 * k + j) = true := by
    have all : ∀ bit < 8 * width.bytes, width.valueMask.getLsbD bit = true := by
      cases width <;> decide
    exact all _ (by omega)
  simp only [lane, BitVec.getLsbD_extractLsb', BitVec.getLsbD_and, kept, Bool.and_true]

namespace Ram

variable {r : Ram} {start : Nat}

theorem number_storeBytes (value : Word) (inside : start + 4 ≤ r.size) :
    (r.storeBytes start value 4).number start 4 = value := by
  apply Word.ext_lanes
  intro k small
  rw [lane_number _ _ _ _ small, if_pos small, byte_storeBytes, if_pos (by omega),
    Nat.add_sub_cancel_left]

/-- Memory after consecutive words were stored from an address upwards. -/
def storeRun (r : Ram) (start : Nat) : List Word → Ram
  | [] => r
  | value :: rest => (r.storeBytes start value 4).storeRun (start + 4) rest

@[simp] theorem size_storeRun (r : Ram) (start : Nat) (values : List Word) :
    (r.storeRun start values).size = r.size := by
  induction values generalizing r start with
  | nil => rfl
  | cons value rest ih => rw [storeRun, ih, size_storeBytes]

theorem byte_storeRun {values : List Word} {j : Nat}
    (apart : j < start ∨ start + 4 * values.length ≤ j) :
    (r.storeRun start values).byte j = r.byte j := by
  induction values generalizing r start with
  | nil => rfl
  | cons value rest ih =>
    rw [List.length_cons] at apart
    rw [storeRun, ih (by omega), byte_storeBytes, if_neg (by omega)]

/-- The words of a run do not overlap, so each of them is found where it was stored. -/
theorem number_storeRun {values : List Word} (inside : start + 4 * values.length ≤ r.size) {k : Nat}
    (within : k < values.length) :
    (r.storeRun start values).number (start + 4 * k) 4 = values[k] := by
  induction values generalizing r start k with
  | nil => contradiction
  | cons value rest ih =>
    rw [List.length_cons] at inside within
    rw [storeRun]
    cases k with
    | zero =>
      have kept : ((r.storeBytes start value 4).storeRun (start + 4) rest).number start 4 =
          (r.storeBytes start value 4).number start 4 :=
        number_congr fun j small => byte_storeRun (by omega)
      exact kept.trans (number_storeBytes value (by omega))
    | succ k =>
      have short : k < rest.length := by omega
      have later : ((r.storeBytes start value 4).storeRun (start + 4) rest).number
          (start + 4 + 4 * k) 4 = rest[k] := by
        refine ih ?_ short
        rw [size_storeBytes]
        omega
      rw [Nat.mul_succ, Nat.add_comm (4 * k), ← Nat.add_assoc, later]
      rfl

end Ram
end ArmMachine
