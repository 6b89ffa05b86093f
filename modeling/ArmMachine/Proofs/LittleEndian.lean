import Mathlib.Algebra.Group.Nat.Defs
import ArmMachine.Proofs.WordRuns
import ArmMachine.Proofs.Execution.Bus

/-! Memory is one sequence of bytes at every width. A write lays the bytes of its value over the
aligned range of its address, the lowest first, and a read spells the number that it finds there,
whatever width it was written with. Both succeed exactly when the range lies in memory. -/
namespace ArmMachine

/-- Where the aligned range starts that an address falls into. -/
def Width.start (w : Width) (address : Word) : Nat := address.toNat / w.bytes * w.bytes

/-- The number that `n` consecutive bytes spell, the lowest first. -/
def spelled (bytes : Nat → Nat) (start : Nat) : Nat → Nat
  | 0 => 0
  | n + 1 => bytes start + 256 * spelled bytes (start + 1) n

/-- The bytes once the part of a value that an access moves is laid over its range, the lowest
first. -/
def laidOver (bytes : Nat → Nat) (address value : Word) (w : Width) (j : Nat) : Nat :=
  if w.start address ≤ j ∧ j < w.start address + w.bytes then
    value.toNat % 2 ^ (8 * w.bytes) / 256 ^ (j - w.start address) % 256
  else bytes j

theorem spelled_lt {bytes : Nat → Nat} (small : ∀ j, bytes j < 256) (start n : Nat) :
    spelled bytes start n < 256 ^ n := by
  induction n generalizing start with
  | zero => exact Nat.zero_lt_one
  | succ n ih =>
    have first := small start
    have rest := ih (start + 1)
    rw [spelled, Nat.pow_succ]
    omega

theorem spelled_congr {bytes bytes' : Nat → Nat} {start n : Nat}
    (same : ∀ k < n, bytes' (start + k) = bytes (start + k)) :
    spelled bytes' start n = spelled bytes start n := by
  induction n generalizing start with
  | zero => rfl
  | succ n ih =>
    have first : bytes' start = bytes start := same 0 (Nat.zero_lt_succ n)
    have rest : spelled bytes' (start + 1) n = spelled bytes (start + 1) n := by
      apply ih
      intro k inside
      have next := same (k + 1) (Nat.succ_lt_succ inside)
      rwa [Nat.add_comm k 1, ← Nat.add_assoc] at next
    rw [spelled, spelled, first, rest]

/-- A lane of a word is a digit to the base 256. -/
theorem Word.toNat_lane (value : Word) (k : Nat) :
    (value.lane k).toNat = value.toNat / 256 ^ k % 256 := by
  rw [lane, BitVec.extractLsb'_toNat, Nat.shiftRight_eq_div_pow, Nat.pow_mul]

/-- Cutting a value off at the width leaves its lower digits as they are. -/
theorem Width.digit_mod (w : Width) (n : Nat) {k : Nat} (within : k < w.bytes) :
    n % 2 ^ (8 * w.bytes) / 256 ^ k % 256 = n / 256 ^ k % 256 := by
  have split : 2 ^ (8 * w.bytes) = 256 ^ k * 256 ^ (w.bytes - k) := by
    rw [Nat.pow_mul, ← Nat.pow_add, Nat.add_sub_of_le (Nat.le_of_lt within)]
  have divides : 256 ∣ 256 ^ (w.bytes - k) :=
    Nat.pow_one 256 ▸ Nat.pow_dvd_pow 256 (by omega : 1 ≤ w.bytes - k)
  rw [split, Nat.mod_mul_right_div_self, Nat.mod_mod_of_dvd _ divides]

namespace Ram

/-- The bytes as numbers. -/
def view (r : Ram) (j : Nat) : Nat := (r.byte j).toNat

/-- The aligned range of an access lies in memory. -/
def Inside (r : Ram) (address : Word) (w : Width) : Prop := w.start address + w.bytes ≤ r.size

instance (r : Ram) (address : Word) (w : Width) : Decidable (r.Inside address w) :=
  inferInstanceAs (Decidable (_ ≤ _))

/-- A value was laid over its range, and nothing else has changed. -/
structure Stored (r : Ram) (address value : Word) (w : Width) (r' : Ram) : Prop where
  size : r'.size = r.size
  view : r'.view = laidOver r.view address value w

section Access
variable {r r' : Ram} {address value : Word} {w : Width}

theorem covers_iff : r.covers address w = true ↔ r.Inside address w := by
  rw [covers, decide_eq_true_iff, w.toNat_alignDown]
  rfl

theorem Stored.inside (stored : r.Stored address value w r') {a : Word} {v : Width} :
    r'.Inside a v ↔ r.Inside a v := by
  rw [Inside, Inside, stored.size]

theorem stored_store (inside : r.Inside address w) (value : Word) :
    r.Stored address value w (r.store address value w) := by
  refine ⟨size_storeBytes _ _ _ _, ?_⟩
  funext j
  rw [view, store, w.toNat_alignDown, byte_storeBytes]
  by_cases within : w.start address ≤ j ∧ j < w.start address + w.bytes
  · have limit : j < r.size := Nat.lt_of_lt_of_le within.2 inside
    have digit : j - w.start address < w.bytes := by omega
    rw [laidOver, if_pos within, w.digit_mod _ digit]
    exact (congrArg BitVec.toNat (if_pos ⟨within.1, within.2, limit⟩)).trans
      (value.toNat_lane (j - w.start address))
  · rw [laidOver, if_neg within]
    exact congrArg BitVec.toNat (if_neg fun both => within ⟨both.1, both.2.1⟩)

/-- Shifting in byte after byte from the top makes the number that the bytes spell. -/
theorem toNat_number (r : Ram) (start : Nat) {n : Nat} (short : n ≤ 4) :
    (r.number start n).toNat = spelled r.view start n := by
  induction n generalizing start with
  | zero => rfl
  | succ n ih =>
    have first : ((r.byte start).zeroExtend 32).toNat = r.view start :=
      BitVec.toNat_setWidth_of_le (by decide)
    have low : r.view start < 2 ^ 8 := (r.byte start).isLt
    have rest := ih (start + 1) (by omega)
    have high : spelled r.view (start + 1) n < 256 ^ 3 :=
      Nat.lt_of_lt_of_le (spelled_lt (fun j => (r.byte j).isLt) _ _)
        (Nat.pow_le_pow_right (by decide) (by omega))
    rw [number, BitVec.toNat_or, BitVec.toNat_shiftLeft, first, rest,
      Nat.mod_eq_of_lt (by rw [Nat.shiftLeft_eq]; omega),
      ← Nat.shiftLeft_add_eq_or_of_lt low, Nat.shiftLeft_eq, spelled]
    omega

theorem toNat_load (r : Ram) (address : Word) (w : Width) :
    (r.load address w).toNat = spelled r.view (w.start address) w.bytes := by
  have short : w.bytes ≤ 4 := by cases w <;> decide
  rw [load, w.toNat_alignDown, r.toNat_number _ short]
  rfl

theorem map_read? (r : Ram) (address : Word) (w : Width) :
    (r.read? address w).map BitVec.toNat =
      if r.Inside address w then some (spelled r.view (w.start address) w.bytes) else none := by
  simp only [read?, covers_iff]
  split
  · exact congrArg some (r.toNat_load address w)
  · rfl

theorem write_eq (r : Ram) (address value : Word) (w : Width) :
    r.write address value w =
      if r.Inside address w then (true, r.store address value w) else (false, r) := by
  simp only [write, covers_iff]

theorem isSome_read?_iff (r : Ram) (address : Word) (w : Width) :
    (r.read? address w).isSome = true ↔ r.Inside address w := by
  rw [← Option.isSome_map, map_read?, Option.isSome_ite]

theorem write_fits_iff (r : Ram) (address value : Word) (w : Width) :
    (r.write address value w).1 = true ↔ r.Inside address w := by
  rw [write_eq]
  split <;> simp [*]

/-- A read that shares no byte with a store finds what it found before. -/
theorem Stored.read?_of_apart (stored : r.Stored address value w r') {a : Word} {v : Width}
    (apart : v.start a + v.bytes ≤ w.start address ∨ w.start address + w.bytes ≤ v.start a) :
    r'.read? a v = r.read? a v := by
  have same : spelled r'.view (v.start a) v.bytes = spelled r.view (v.start a) v.bytes := by
    apply spelled_congr
    intro k within
    rw [stored.view, laidOver, if_neg (by omega)]
  have injective : Function.Injective (BitVec.toNat (w := 32)) := fun _ _ => BitVec.eq_of_toNat_eq
  apply Option.map_injective injective
  simp only [map_read?, stored.inside, same]

end Access
end Ram

namespace Board

/-- An access goes to memory: its range lies there, and it does not name the instruction counter. -/
def ReachesMemory (b : Board) (address : Word) (w : Width) : Prop :=
  address ≠ AddressMap.instructionCounter ∧ b.core.ram.Inside address w

instance (b : Board) (address : Word) (w : Width) : Decidable (b.ReachesMemory address w) :=
  inferInstanceAs (Decidable (_ ∧ _))

section Bus
variable {b b' : Board} {address : Word} {w : Width}

/-- Which accesses go to memory depends on its size only. -/
theorem ReachesMemory.of_size (reaches : b.ReachesMemory address w)
    (size : b'.core.ram.size = b.core.ram.size) : b'.ReachesMemory address w := by
  refine ⟨reaches.1, ?_⟩
  rw [Ram.Inside, size]
  exact reaches.2

theorem physicalWriteStep_of_reachesMemory (reaches : b.ReachesMemory address w) (value : Word) :
    b.physicalWriteStep address value w =
      (.ok (), b.mapCore fun c => { c with ram := c.ram.store address value w }) :=
  physicalWriteStep_memory reaches.1 (Ram.covers_iff.mpr reaches.2)

theorem physicalReadStep_of_reachesMemory (reaches : b.ReachesMemory address w) :
    b.physicalReadStep address w = (.ok (b.core.ram.load address w), b) :=
  physicalReadStep_memory reaches.1 (if_pos (Ram.covers_iff.mpr reaches.2))

theorem ram_of_not_reachesMemory (elsewhere : ¬ b.ReachesMemory address w) (value : Word) :
    (b.physicalWriteStep address value w).2.core.ram = b.core.ram := by
  rw [core_physicalWriteStep]
  exact if_neg fun both => elsewhere ⟨both.1, Ram.covers_iff.mp both.2⟩

end Bus

/-- A write and a later read, in memory itself and through the bus. -/
theorem memory_is_one_byte_sequence (r : Ram) (b : Board) (a₁ a₂ value : Word) (w₁ w₂ : Width) :
    let written := r.write a₁ value w₁
    let stored := b.physicalWriteStep a₁ value w₁
    ((written.1 = true ↔ r.Inside a₁ w₁) ∧
      (if r.Inside a₁ w₁ then r.Stored a₁ value w₁ written.2 else written.2 = r) ∧
      (written.2.read? a₂ w₂).map BitVec.toNat =
        (if r.Inside a₂ w₂ then some (spelled written.2.view (w₂.start a₂) w₂.bytes) else none) ∧
      (w₂.start a₂ + w₂.bytes ≤ w₁.start a₁ ∨ w₁.start a₁ + w₁.bytes ≤ w₂.start a₂ →
        written.2.read? a₂ w₂ = r.read? a₂ w₂)) ∧
    (if b.ReachesMemory a₁ w₁ then
        stored.1 = .ok () ∧ b.core.ram.Stored a₁ value w₁ stored.2.core.ram ∧
          stored.2 = b.mapCore fun c => { c with ram := stored.2.core.ram }
      else stored.2.core.ram = b.core.ram) ∧
    (∀ cause, stored.1 = .error cause → stored.2 = b) ∧
    (if b.ReachesMemory a₂ w₂ then
        ∃ answer, stored.2.physicalReadStep a₂ w₂ = (.ok answer, stored.2) ∧
          answer.toNat = spelled stored.2.core.ram.view (w₂.start a₂) w₂.bytes
      else (stored.2.physicalReadStep a₂ w₂).2.core.ram = stored.2.core.ram) := by
  intro written stored
  have size : stored.2.core.ram.size = b.core.ram.size := by
    rw [core_physicalWriteStep]
    exact Ram.size_afterWrite _ _ _ _
  refine ⟨?_, ?_, fun cause failed => ?_, ?_⟩
  · have wrote : written = _ := r.write_eq a₁ value w₁
    by_cases inside : r.Inside a₁ w₁
    · have memory := Ram.stored_store inside value
      rw [if_pos inside] at wrote
      have answer := (r.store a₁ value w₁).map_read? a₂ w₂
      simp only [memory.inside] at answer
      rw [wrote, if_pos inside]
      exact ⟨iff_of_true rfl inside, memory, answer, memory.read?_of_apart⟩
    · rw [if_neg inside] at wrote
      rw [wrote, if_neg inside]
      exact ⟨iff_of_false Bool.false_ne_true inside, rfl, r.map_read? a₂ w₂, fun _ => rfl⟩
  · by_cases reaches : b.ReachesMemory a₁ w₁
    · have step : stored = _ := physicalWriteStep_of_reachesMemory reaches value
      rw [if_pos reaches, step]
      exact ⟨rfl, Ram.stored_store reaches.2 value, rfl⟩
    · rw [if_neg reaches]
      exact ram_of_not_reachesMemory reaches value
  · exact b.physicalWriteStep_error (Prod.ext failed rfl)
  · by_cases reaches : b.ReachesMemory a₂ w₂
    · rw [if_pos reaches]
      exact ⟨_, physicalReadStep_of_reachesMemory (reaches.of_size size), Ram.toNat_load _ _ _⟩
    · rw [if_neg reaches, core_physicalReadStep]

end Board
end ArmMachine
