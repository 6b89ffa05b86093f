import ArmMachine.Proofs.Execution.Actions
import ArmMachine.Proofs.WordRuns

/-! Accesses to memory while paging is off. Memory ends below the instruction counter and the device
windows, so whatever it covers it also answers. -/
namespace ArmMachine
namespace Board

/-- Every address stands for itself, and memory ends below everything else on the bus. -/
structure Flat (b : Board) : Prop where
  unpaged : b.core.mmu.enabled = false
  bounded : b.core.ram.size ≤ AddressMap.maximumRam

/-- A board with other memory. -/
def withRam (b : Board) (ram : Ram) : Board := b.mapCore fun c => { c with ram }

@[simp] theorem ram_withRam (b : Board) (ram : Ram) : (b.withRam ram).core.ram = ram := rfl

@[simp] theorem withRam_withRam (b : Board) (ram ram' : Ram) :
    (b.withRam ram).withRam ram' = b.withRam ram' := rfl

@[simp] theorem registers_mapRegisters (b : Board) (f : RegisterFile → RegisterFile) :
    (b.mapRegisters f).core.registers = f b.core.registers := rfl

@[simp] theorem ram_mapRegisters (b : Board) (f : RegisterFile → RegisterFile) :
    (b.mapRegisters f).core.ram = b.core.ram := rfl

variable {b : Board} {v : Word} {width : Width}

theorem Flat.withRam (flat : b.Flat) {ram : Ram} (size : ram.size = b.core.ram.size) :
    (b.withRam ram).Flat := ⟨flat.unpaged, Nat.le_trans (Nat.le_of_eq size) flat.bounded⟩

theorem Flat.mapRegisters (flat : b.Flat) (f : RegisterFile → RegisterFile) :
    (b.mapRegisters f).Flat := ⟨flat.unpaged, flat.bounded⟩

theorem Flat.translateStep (flat : b.Flat) (v : Word) (access : Access) :
    b.translateStep v access = (.ok v, b) := by
  have itself : b.core.mmu.translate (readDescriptor b.core.ram) v access =
      ⟨.ok v, b.core.mmu, []⟩ := by
    rw [Mmu.translate, flat.unpaged]
    rfl
  rw [Board.translateStep, itself]

theorem Flat.ne_counter (flat : b.Flat) (covered : b.core.ram.covers v width = true) :
    v ≠ AddressMap.instructionCounter := by
  rintro rfl
  have inside := of_decide_eq_true covered
  have bounded := flat.bounded
  have limit : AddressMap.maximumRam = 0x03000000 := rfl
  have counter : AddressMap.instructionCounter.toNat = 0x03000020 := rfl
  rw [width.toNat_alignDown, counter] at inside
  cases width <;> simp only [Width.bytes] at inside <;> omega

theorem Flat.run_read (flat : b.Flat) (privileged : Bool)
    (covered : b.core.ram.covers v width = true) :
    b.run (read privileged v width) = (.ok (b.core.ram.load v width), b) := by
  have translated := (b.run_translate v _).trans
    (flat.translateStep v (.data false privileged width))
  rw [read, run_bind_ok translated, run_physicalRead, physicalReadStep,
    if_neg (flat.ne_counter covered), Ram.read?, if_pos covered]

theorem Flat.run_write (flat : b.Flat) (privileged : Bool) (value : Word)
    (covered : b.core.ram.covers v width = true) :
    b.run (write privileged v value width) =
      (.ok (), b.withRam (b.core.ram.store v value width)) := by
  have translated := (b.run_translate v _).trans
    (flat.translateStep v (.data true privileged width))
  rw [write, run_bind_ok translated, run_physicalWrite, physicalWriteStep,
    if_neg (flat.ne_counter covered), if_pos covered]
  rfl

end Board
end ArmMachine
