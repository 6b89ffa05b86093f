import ArmMachine.Machine
import ArmMachine.Proofs.Execution.Exceptions
import ArmMachine.Proofs.ImageLoading

/-! Starting a kernel. Both images lie whole in memory afterwards and the kernel finds what it
expects in its registers, or the machine is refused and keeps its registers. Two ranges that share
no byte do not disturb each other, whichever is loaded first. -/
namespace ArmMachine

/-- A core starts in supervisor mode with both interrupts masked. -/
theorem Core.current_ofConfig (config : CoreConfig) :
    (Core.ofConfig config).registers.current = ⟨0xD3⟩ := by
  have entered : Core.enteredStatus ⟨0x13⟩ .reset = ⟨0xD3⟩ := by decide
  rw [Core.ofConfig, Core.reset, Core.enter, Core.current_enteredRegisters]
  exact entered

namespace Ram

variable {kernel tree : ByteArray} {k t : Word}

/-- Two images have a byte of memory in common. -/
def Meet (kernel : ByteArray) (k : Word) (tree : ByteArray) (t : Word) : Prop :=
  ∃ j, Occupies kernel k j ∧ Occupies tree t j

/-- Of two ranges that are not empty, neither ends before the other starts exactly when they share a
byte, for instance the later start. -/
theorem meet_iff (someKernel : 0 < kernel.size) (someTree : 0 < tree.size) :
    Meet kernel k tree t ↔
      k.toNat < t.toNat + tree.size ∧ t.toNat < k.toNat + kernel.size := by
  constructor
  · rintro ⟨j, inKernel, inTree⟩
    exact ⟨Nat.lt_of_le_of_lt inKernel.1 inTree.2, Nat.lt_of_le_of_lt inTree.1 inKernel.2⟩
  · rintro ⟨kernelFirst, treeFirst⟩
    refine ⟨max k.toNat t.toNat, ⟨Nat.le_max_left _ _, ?_⟩, ⟨Nat.le_max_right _ _, ?_⟩⟩ <;> omega

/-- Two images lie whole in memory, and everything beside them is as it was. -/
structure PlacedBoth (r : Ram) (kernel : ByteArray) (k : Word) (tree : ByteArray) (t : Word)
    (r' : Ram) : Prop where
  size : r'.size = r.size
  first : ∀ i < kernel.size, r'.byte (k.toNat + i) = (kernel.get! i).toBitVec
  second : ∀ i < tree.size, r'.byte (t.toNat + i) = (tree.get! i).toBitVec
  others : ∀ j, ¬ Occupies kernel k j → ¬ Occupies tree t j → r'.byte j = r.byte j

/-- The second image is put beside the first, which stays whole. -/
theorem Placed.placedBoth {r r' r'' : Ram} (first : r.Placed kernel k r')
    (second : r'.Placed tree t r'') (apart : ¬ Meet kernel k tree t) :
    r.PlacedBoth kernel k tree t r'' := by
  refine ⟨second.size.trans first.size, fun i inside => ?_, fun i inside => ?_, ?_⟩
  · have here : Occupies kernel k (k.toNat + i) := ⟨Nat.le_add_right _ _, by omega⟩
    have alone : ¬ Occupies tree t (k.toNat + i) := fun there => apart ⟨_, here, there⟩
    rw [second.bytes, if_neg alone, first.bytes, if_pos here, Nat.add_sub_cancel_left]
  · have here : Occupies tree t (t.toNat + i) := ⟨Nat.le_add_right _ _, by omega⟩
    rw [second.bytes, if_pos here, Nat.add_sub_cancel_left]
  · intro j outKernel outTree
    rw [second.bytes, if_neg outTree, first.bytes, if_neg outKernel]

/-- Two images that fit and do not meet, loaded one after the other. -/
theorem placedBoth_laid {r : Ram} (bounded : r.size ≤ wordLimit)
    (kernelFits : k.toNat + kernel.size ≤ r.size) (treeFits : t.toNat + tree.size ≤ r.size)
    (apart : ¬ Meet kernel k tree t) :
    r.PlacedBoth kernel k tree t
      ((r.laid k ⟨kernel⟩ kernel.size).laid t ⟨tree⟩ tree.size) := by
  have first := placed_laid (Nat.le_trans kernelFits bounded) kernelFits
  have second := placed_laid (r := r.laid k ⟨kernel⟩ kernel.size)
    (Nat.le_trans treeFits bounded) (by rw [size_laid]; exact treeFits)
  exact first.placedBoth second apart

end Ram

namespace Machine

/-- The cells in which a kernel is handed something. -/
def Handed (bank : Bank) (id : RegisterId) : Prop :=
  bank = .user ∧ (id = .r0 ∨ id = .r1 ∨ id = .r2 ∨ id = .pc)

/-- What a kernel finds when it starts: zero, the machine number, the device tree in its first
registers, its own start in the program counter, and everything else as it was. -/
structure HandedOver (s : Settings) (r r' : RegisterFile) : Prop where
  zero : r'.cell .user .r0 = 0
  number : r'.cell .user .r1 = 0xFFFFFFFF
  tree : r'.cell .user .r2 = s.treeAddress
  pc : r'.pc = s.kernelAddress
  cells : ∀ bank id, ¬ Handed bank id → r'.cell bank id = r.cell bank id
  current : r'.current = r.current
  saved : r'.saved = r.saved

/-- The low registers are the same in every mode. -/
theorem kernelRegisters_eq (s : Settings) (r : RegisterFile) :
    kernelRegisters s r = (((r.setCell .user .r0 0).setCell .user .r1 treeMachine).setCell
      .user .r2 s.treeAddress).setPc s.kernelAddress := rfl

theorem handedOver_kernelRegisters (s : Settings) (r : RegisterFile) :
    HandedOver s r (kernelRegisters s r) := by
  rw [kernelRegisters_eq]
  refine ⟨?_, ?_, ?_, RegisterFile.pc_setPc _ _, fun bank id other => ?_, rfl, rfl⟩
  · simp [RegisterFile.cell_setPc, RegisterFile.cell_setCell, RegisterId.r0, RegisterId.r1,
      RegisterId.r2, RegisterId.pc]
  · simp [RegisterFile.cell_setPc, RegisterFile.cell_setCell, RegisterId.r0, RegisterId.r1,
      RegisterId.r2, RegisterId.pc, treeMachine]
  · simp [RegisterFile.cell_setPc, RegisterFile.cell_setCell, RegisterId.r2, RegisterId.pc]
  · rw [RegisterFile.cell_setPc, if_neg fun h => other ⟨h.1, .inr (.inr (.inr h.2))⟩,
      RegisterFile.cell_setCell, if_neg fun h => other ⟨h.1.symm, .inr (.inr (.inl h.2.symm))⟩,
      RegisterFile.cell_setCell, if_neg fun h => other ⟨h.1.symm, .inr (.inl h.2.symm)⟩,
      RegisterFile.cell_setCell, if_neg fun h => other ⟨h.1.symm, .inl h.2.symm⟩]

/-- A machine with other memory. -/
def withRam (m : Machine) (ram : Ram) : Machine := m.mapCore fun c => { c with ram }

@[simp] theorem ram_withRam (m : Machine) (ram : Ram) : (m.withRam ram).board.core.ram = ram := rfl

theorem load_of_fits {m : Machine} {base : Word} {image : ByteArray}
    (fits : base.toNat + image.size ≤ m.board.core.ram.size) :
    m.load base image =
      (.ok image.size, m.withRam (m.board.core.ram.laid base ⟨image⟩ image.size)) := by
  have loaded := m.board.core.loadImage_eq base image
  rw [if_pos fits] at loaded
  rw [load, loaded]
  rfl

theorem load_of_outside {m : Machine} {base : Word} {image : ByteArray}
    (outside : ¬ base.toNat + image.size ≤ m.board.core.ram.size) :
    m.load base image = (.error (.imageOutOfRange base image.size), m) := by
  have loaded := m.board.core.loadImage_eq base image
  rw [if_neg outside] at loaded
  rw [load, loaded]

/-- A machine with both images in memory and the registers set. -/
def started (m : Machine) (kernel tree : ByteArray) : Machine :=
  let s := m.settings
  let first := m.board.core.ram.laid s.kernelAddress ⟨kernel⟩ kernel.size
  (m.withRam (first.laid s.treeAddress ⟨tree⟩ tree.size)).mapCore fun c =>
    { c with registers := kernelRegisters s c.registers }

section Boot
variable {m : Machine} {kernel tree : ByteArray}

/-- The four courses of starting a kernel: what is reported, and the machine afterwards. -/
inductive BootCourse (m : Machine) (kernel tree : ByteArray) :
    Except BootFailure Unit → Machine → Prop
  | overlapping (kernelEnd treeEnd : Nat)
      (meet : Ram.Meet kernel m.settings.kernelAddress tree m.settings.treeAddress) :
      BootCourse m kernel tree (.error (.overlap m.settings.kernelAddress.toNat kernelEnd
        m.settings.treeAddress.toNat treeEnd)) m
  | kernelOutside
      (outside : ¬ m.settings.kernelAddress.toNat + kernel.size ≤ m.board.core.ram.size) :
      BootCourse m kernel tree
        (.error (.kernel (.imageOutOfRange m.settings.kernelAddress kernel.size))) m
  | treeOutside
      (apart : ¬ Ram.Meet kernel m.settings.kernelAddress tree m.settings.treeAddress)
      (kernelFits : m.settings.kernelAddress.toNat + kernel.size ≤ m.board.core.ram.size)
      (outside : ¬ m.settings.treeAddress.toNat + tree.size ≤ m.board.core.ram.size) :
      BootCourse m kernel tree
        (.error (.tree (.imageOutOfRange m.settings.treeAddress tree.size)))
        (m.withRam (m.board.core.ram.laid m.settings.kernelAddress ⟨kernel⟩ kernel.size))
  | succeeded
      (apart : ¬ Ram.Meet kernel m.settings.kernelAddress tree m.settings.treeAddress)
      (kernelFits : m.settings.kernelAddress.toNat + kernel.size ≤ m.board.core.ram.size)
      (treeFits : m.settings.treeAddress.toNat + tree.size ≤ m.board.core.ram.size) :
      BootCourse m kernel tree (.ok ()) (m.started kernel tree)

theorem bootKernel_course (m : Machine) (someKernel : 0 < kernel.size) (someTree : 0 < tree.size) :
    BootCourse m kernel tree (m.bootKernel kernel tree).result
      (m.bootKernel kernel tree).machine := by
  have meet := Ram.meet_iff (k := m.settings.kernelAddress) (t := m.settings.treeAddress)
    someKernel someTree
  unfold bootKernel
  dsimp only
  split
  · rename_i overlap
    exact .overlapping _ _ (meet.mpr overlap)
  · rename_i disjoint
    by_cases kernelFits : m.settings.kernelAddress.toNat + kernel.size ≤ m.board.core.ram.size
    · have size := Ram.size_laid m.board.core.ram m.settings.kernelAddress ⟨kernel⟩ kernel.size
      rw [load_of_fits kernelFits]
      dsimp only
      by_cases treeFits : m.settings.treeAddress.toNat + tree.size ≤ m.board.core.ram.size
      · rw [load_of_fits (by rw [ram_withRam, size]; exact treeFits)]
        exact .succeeded (fun both => disjoint (meet.mp both)) kernelFits treeFits
      · rw [load_of_outside (by rw [ram_withRam, size]; exact treeFits)]
        exact .treeOutside (fun both => disjoint (meet.mp both)) kernelFits treeFits
    · rw [load_of_outside kernelFits]
      exact .kernelOutside kernelFits

namespace BootCourse
variable {result : Except BootFailure Unit} {m' : Machine}

theorem succeeds_iff (course : BootCourse m kernel tree result m') :
    result = .ok () ↔
      m.settings.kernelAddress.toNat + kernel.size ≤ m.board.core.ram.size ∧
        m.settings.treeAddress.toNat + tree.size ≤ m.board.core.ram.size ∧
        ¬ Ram.Meet kernel m.settings.kernelAddress tree m.settings.treeAddress := by
  cases course with
  | overlapping kernelEnd treeEnd meet => exact ⟨nofun, fun fits => absurd meet fits.2.2⟩
  | kernelOutside outside => exact ⟨nofun, fun fits => absurd fits.1 outside⟩
  | treeOutside apart kernelFits outside => exact ⟨nofun, fun fits => absurd fits.2.1 outside⟩
  | succeeded apart kernelFits treeFits =>
    exact ⟨fun _ => ⟨kernelFits, treeFits, apart⟩, fun _ => rfl⟩

theorem machine_of_ok (course : BootCourse m kernel tree (.ok ()) m') :
    m' = m.started kernel tree := by
  cases course
  rfl

theorem machine_of_failed (course : BootCourse m kernel tree result m') (failed : result ≠ .ok ()) :
    m' = m ∨
      ¬ Ram.Meet kernel m.settings.kernelAddress tree m.settings.treeAddress ∧
        m.settings.kernelAddress.toNat + kernel.size ≤ m.board.core.ram.size ∧
        m' = m.withRam (m.board.core.ram.laid m.settings.kernelAddress ⟨kernel⟩ kernel.size) := by
  cases course with
  | overlapping => exact .inl rfl
  | kernelOutside => exact .inl rfl
  | treeOutside apart kernelFits _ => exact .inr ⟨apart, kernelFits, rfl⟩
  | succeeded => exact absurd rfl failed

end BootCourse
end Boot

/-- A fresh machine starts a kernel exactly when both ranges lie in memory and share no byte. Then
both images are whole; otherwise only memory in the range of the kernel may have changed. -/
theorem bootKernel_places_both_or_refuses (s : Settings) (kernel tree : ByteArray)
    (someKernel : 0 < kernel.size) (someTree : 0 < tree.size) :
    let fresh := ofSettings s
    let booted := fresh.bootKernel kernel tree
    let before := fresh.board.core
    let after := booted.machine.board.core
    (booted.result = .ok () ↔
      s.kernelAddress.toNat + kernel.size ≤ before.ram.size ∧
        s.treeAddress.toNat + tree.size ≤ before.ram.size ∧
        ¬ Ram.Meet kernel s.kernelAddress tree s.treeAddress) ∧
    (booted.result = .ok () →
      before.ram.PlacedBoth kernel s.kernelAddress tree s.treeAddress after.ram ∧
        HandedOver s before.registers after.registers ∧
        after.registers.current.mode? = some .supervisor ∧
        after.registers.current.has .irqDisabled = true ∧
        after.registers.current.has .fiqDisabled = true ∧
        booted.machine = fresh.mapCore fun c =>
          { c with ram := after.ram, registers := after.registers }) ∧
    (booted.result ≠ .ok () →
      booted.machine = fresh.withRam after.ram ∧ after.ram.size = before.ram.size ∧
        (∀ j, ¬ Ram.Occupies kernel s.kernelAddress j → after.ram.byte j = before.ram.byte j) ∧
        (Ram.Meet kernel s.kernelAddress tree s.treeAddress → booted.machine = fresh)) := by
  intro fresh booted before after
  have course : BootCourse fresh kernel tree booted.result booted.machine :=
    fresh.bootKernel_course someKernel someTree
  have bounded : before.ram.size ≤ wordLimit := by
    rw [show before = Core.ofConfig s.core from rfl, Core.size_ofConfig]
    exact Nat.le_trans (Nat.min_le_right _ _) (by decide)
  refine ⟨course.succeeds_iff, fun succeeded => ?_, fun failed => ?_⟩
  · obtain ⟨kernelFits, treeFits, apart⟩ := course.succeeds_iff.mp succeeded
    rw [succeeded] at course
    have machine : booted.machine = fresh.started kernel tree := course.machine_of_ok
    have memory : after.ram = (before.ram.laid s.kernelAddress ⟨kernel⟩ kernel.size).laid
        s.treeAddress ⟨tree⟩ tree.size := congrArg (fun m => m.board.core.ram) machine
    have registers : after.registers = kernelRegisters s before.registers :=
      congrArg (fun m => m.board.core.registers) machine
    have placed : before.ram.PlacedBoth kernel s.kernelAddress tree s.treeAddress after.ram := by
      rw [memory]
      exact Ram.placedBoth_laid bounded kernelFits treeFits apart
    have handed : HandedOver s before.registers after.registers := by
      rw [registers]
      exact handedOver_kernelRegisters s before.registers
    have status : after.registers.current = ⟨0xD3⟩ :=
      handed.current.trans (Core.current_ofConfig s.core)
    refine ⟨placed, handed, ?_, ?_, ?_, ?_⟩
    · rw [status]
      rfl
    · rw [status]
      rfl
    · rw [status]
      rfl
    · rw [registers, memory, machine]
      rfl
  · obtain same | ⟨apart, kernelFits, machine⟩ := course.machine_of_failed failed
    · have core : after = before := congrArg (fun m => m.board.core) same
      rw [core, same]
      exact ⟨rfl, rfl, fun _ _ => rfl, fun _ => rfl⟩
    · have memory : after.ram = before.ram.laid s.kernelAddress ⟨kernel⟩ kernel.size :=
        congrArg (fun m => m.board.core.ram) machine
      have placed := Ram.placed_laid (Nat.le_trans kernelFits bounded) kernelFits
      rw [memory, machine]
      exact ⟨rfl, placed.size, fun j outside => (placed.bytes j).trans (if_neg outside),
        fun meet => absurd meet apart⟩

/-- Sixteen bytes of memory, the kernel at 8 and the device tree where it is asked for. -/
def smallSettings (treeAddress : Word) : Settings :=
  { Settings.standard with core := ⟨.bareMetal, 16, false⟩, kernelAddress := 8, treeAddress }

/-- A tree right behind a kernel of three bytes, and one that starts at its last byte. -/
theorem bootKernel_places_both_or_refuses_neighbours :
    let kernel : ByteArray := ⟨#[0x11, 0x22, 0x33]⟩
    let tree : ByteArray := ⟨#[0xD0, 0x0D]⟩
    let beside := (ofSettings (smallSettings 11)).bootKernel kernel tree
    let across := (ofSettings (smallSettings 10)).bootKernel kernel tree
    0 < kernel.size ∧ 0 < tree.size ∧ beside.result = .ok () ∧
      beside.machine.board.core.ram.byte 10 = 0x33 ∧
      beside.machine.board.core.ram.byte 11 = 0xD0 ∧
      beside.machine.board.core.registers.cell .user .r2 = 11 ∧
      across.result ≠ .ok () ∧ across.machine = ofSettings (smallSettings 10) := by
  intro kernel tree beside across
  have someKernel : 0 < kernel.size := by decide
  have someTree : 0 < tree.size := by decide
  have size (treeAddress : Word) :
      (ofSettings (smallSettings treeAddress)).board.core.ram.size = 16 :=
    Core.size_ofConfig _
  have apart : ¬ Ram.Meet kernel 8 tree 11 := by
    rw [Ram.meet_iff someKernel someTree]
    decide
  have meet : Ram.Meet kernel 8 tree 10 := by
    rw [Ram.meet_iff someKernel someTree]
    decide
  obtain ⟨starts, started, -⟩ :=
    bootKernel_places_both_or_refuses (smallSettings 11) kernel tree someKernel someTree
  obtain ⟨startsAcross, -, refused⟩ :=
    bootKernel_places_both_or_refuses (smallSettings 10) kernel tree someKernel someTree
  have succeeded : beside.result = .ok () := by
    refine starts.mpr ⟨?_, ?_, apart⟩ <;> rw [size] <;> decide
  have failed : across.result ≠ .ok () := fun result => (startsAcross.mp result).2.2 meet
  obtain ⟨placed, handed, -⟩ := started succeeded
  exact ⟨someKernel, someTree, succeeded, placed.first 2 (by decide), placed.second 0 (by decide),
    handed.tree, failed, (refused failed).2.2.2 meet⟩

end Machine
end ArmMachine
