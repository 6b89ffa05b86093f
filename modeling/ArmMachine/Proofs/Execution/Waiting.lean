import ArmMachine.Proofs.Execution.Branches
import ArmMachine.Proofs.Paging.Repeat

/-! A core that waits in a branch to itself. While the branch can be fetched and interrupts are
masked, steps and polls change nothing but counters, caches and devices. -/
namespace ArmMachine
namespace Board

variable {b b' fetched : Board} {word : Word}

/-- The fetch of a step in its two parts. -/
theorem fetchNext_eq_ok :
    b.fetchNext = (.ok word, fetched) ↔
      ∃ p looked, (b.mapCore .beginStep).translateStep b.core.registers.pc
          (.fetch b.core.registers.current.privileged) = (.ok p, looked) ∧
        looked.physicalReadStep p .word = (.ok word, fetched) := by
  change (b.mapCore .beginStep).run (getRegisters >>= fun registers =>
    translate b.core.registers.pc (.fetch registers.current.privileged) >>= fun address =>
      physicalRead address .word) = _ ↔ _
  rw [run_bind_ok (run_getRegisters _), run_bind_eq_ok]
  simp only [run_translate, run_physicalRead]
  rfl

/-- Where the next fetch goes. -/
def fetchAddress (b : Board) : Except Failure Word :=
  (b.core.mmu.translate (readDescriptor b.core.ram) b.core.registers.pc
    (.fetch b.core.registers.current.privileged)).result

/-- The board whose next fetch has looked up its address. -/
def lookedUp (b : Board) : Board :=
  ((b.mapCore .beginStep).translateStep b.core.registers.pc
    (.fetch b.core.registers.current.privileged)).2

theorem fetchNext_of_read {p : Word} (mapped : b.fetchAddress = .ok p)
    (read : b.lookedUp.physicalReadStep p .word = (.ok word, fetched)) :
    b.fetchNext = (.ok word, fetched) :=
  fetchNext_eq_ok.mpr ⟨p, b.lookedUp, Prod.ext mapped rfl, read⟩

theorem read_of_fetchNext (read : b.fetchNext = (.ok word, fetched)) :
    ∃ p, b.fetchAddress = .ok p ∧ b.lookedUp.physicalReadStep p .word = (.ok word, fetched) := by
  obtain ⟨p, looked, translated, stored⟩ := fetchNext_eq_ok.mp read
  obtain ⟨mapped, rfl⟩ := Prod.mk.inj translated
  exact ⟨p, mapped, stored⟩

/-- The next fetch reads the word from memory. -/
def FetchesFromMemory (b : Board) (word : Word) : Prop :=
  ∃ p, b.fetchAddress = .ok p ∧ p ≠ AddressMap.instructionCounter ∧
    b.core.ram.read? p .word = some word

theorem FetchesFromMemory.read (memory : b.FetchesFromMemory word) :
    b.fetchNext = (.ok word, b.lookedUp) := by
  obtain ⟨p, mapped, uncounted, shown⟩ := memory
  exact fetchNext_of_read mapped (physicalReadStep_memory uncounted shown)

theorem plainBranch_branchToSelf : Instruction.PlainBranch ⟨Machine.branchToSelf⟩ :=
  ⟨by decide, by decide, by decide⟩

theorem registers_branchToSelf (b fetched : Board) :
    (b.branched fetched Machine.branchToSelf).core.registers = b.core.registers := by
  have back : Instruction.branchOffset ⟨Machine.branchToSelf⟩ = -8 := by decide
  have here : b.core.registers.pc + 8 + Instruction.branchOffset ⟨Machine.branchToSelf⟩ =
      b.core.registers.pc := by
    rw [back, BitVec.add_assoc]
    exact BitVec.add_zero _
  rw [branched, here, RegisterFile.setPc_pc]

/-- After a branch to itself the next fetch goes where the last one went. -/
theorem fetchAddress_branchToSelf {p : Word} (mapped : b.fetchAddress = .ok p)
    (read : b.lookedUp.physicalReadStep p .word = (.ok Machine.branchToSelf, fetched)) :
    (b.branched fetched Machine.branchToSelf).fetchAddress = .ok p := by
  have core := b.lookedUp.core_physicalReadStep p .word
  rw [read] at core
  have answers := b.core.mmu.translate_answers (readDescriptor b.core.ram) b.core.registers.pc
    (.fetch b.core.registers.current.privileged)
  have mmu : (b.branched fetched Machine.branchToSelf).core.mmu = b.lookedUp.core.mmu := by
    have same : fetched.core = b.lookedUp.core := core
    rw [← same]
    rfl
  rw [fetchAddress, registers_branchToSelf, mmu]
  exact answers.again mapped

/-- A board whose next fetch reads the branch to itself, now and after any number of polls. -/
structure Waits (b : Board) (p : Word) : Prop where
  sound : b.Sound
  masked : b.core.registers.current.has .irqDisabled = true
  mapped : b.fetchAddress = .ok p
  uncounted : p ≠ AddressMap.instructionCounter
  shown : b.core.ram.read? p .word = some Machine.branchToSelf ∨
    b.core.ram.read? p .word = none ∧ b.devices.Holds p Machine.branchToSelf

theorem Waits.read {p : Word} (waits : b.Waits p) :
    b.fetchNext = (.ok Machine.branchToSelf, b.lookedUp) := by
  refine fetchNext_of_read waits.mapped ?_
  obtain memory | ⟨outside, held⟩ := waits.shown
  · exact physicalReadStep_memory waits.uncounted memory
  · exact physicalReadStep_device waits.uncounted outside held.read

/-- A step and a poll leave a waiting board waiting. -/
theorem Waits.step {p : Word} (waits : b.Waits p) (trace : Bool) :
    (b.step trace).result = .ok (.retired Shape.branch.cost) ∧
      (b.step trace).board.poll.Waits p ∧
      (b.step trace).board.core.registers = b.core.registers ∧
      (b.step trace).board.core.ram = b.core.ram := by
  have steps := b.step_steps trace
  generalize (b.step trace).result = result at steps ⊢
  generalize (b.step trace).board = after at steps ⊢
  obtain ⟨outcome, rfl, interrupts⟩ :=
    steps.of_branch waits.sound.running waits.sound.clear plainBranch_branchToSelf waits.read
  have sound := waits.sound.step steps
  have registers := registers_branchToSelf b b.lookedUp
  have source := read_of_fetchNext waits.read
  cases interrupts with
  | refused quiet =>
    refine ⟨rfl, ⟨sound, ?_, ?_, waits.uncounted, ?_⟩, registers, rfl⟩
    · change (b.branched b.lookedUp Machine.branchToSelf).core.registers.current.has _ = true
      rw [registers]
      exact waits.masked
    · obtain ⟨p', mapped, read⟩ := source
      rw [waits.mapped] at mapped
      cases mapped
      exact fetchAddress_branchToSelf waits.mapped read
    · exact waits.shown.imp_right fun device => ⟨device.1, device.2.poll⟩
  | entered asserted accepted =>
    have refused : (b.branched b.lookedUp Machine.branchToSelf).core.accepts .irq = false := by
      rw [Core.accepts, registers, waits.masked]
      rfl
    rw [refused] at accepted
    cases accepted

/-- After a masked branch to itself the core waits, unless the branch was no memory but a counter
that has moved on. -/
theorem waits_or_moved (sound : b.Sound)
    (read : b.fetchNext = (.ok Machine.branchToSelf, fetched))
    (next : (b.branched fetched Machine.branchToSelf).poll.Sound)
    (masked : b.core.registers.current.has .irqDisabled = true) :
    (∃ p, (b.branched fetched Machine.branchToSelf).poll.Waits p) ∨
      ∃ word, (b.branched fetched Machine.branchToSelf).poll.fetchNext.1 = .ok word ∧
        (word = Machine.branchToSelf + 1 ∨ word = Machine.branchToSelf - 1) := by
  obtain ⟨p, mapped, stored⟩ := read_of_fetchNext read
  have again : (b.branched fetched Machine.branchToSelf).poll.fetchAddress = .ok p :=
    fetchAddress_branchToSelf mapped stored
  have stillMasked : (b.branched fetched Machine.branchToSelf).poll.core.registers.current.has
      .irqDisabled = true := by
    change (b.branched fetched Machine.branchToSelf).core.registers.current.has _ = true
    rw [registers_branchToSelf]
    exact masked
  unfold physicalReadStep at stored
  split at stored
  · rename_i counter
    obtain ⟨count, rfl⟩ := Prod.mk.inj stored
    have counted : b.core.instructionCount = Machine.branchToSelf :=
      (DeviceTable.and_valueMask_word _).symm.trans (Except.ok.inj count)
    refine .inr ⟨Machine.branchToSelf + 1, ?_, .inl rfl⟩
    rw [fetchNext_of_read again (physicalReadStep_counter counter)]
    change Except.ok ((b.core.instructionCount + 1) &&& Width.word.valueMask) = _
    rw [DeviceTable.and_valueMask_word, counted]
  · rename_i uncounted
    split at stored
    · rename_i memory
      cases stored
      exact .inl ⟨p, next, stillMasked, again, uncounted, .inl memory⟩
    · rename_i outside
      split at stored
      · rename_i shown
        cases stored
        obtain ⟨rfl, held | moved⟩ := sound.standard.read_again (by decide) shown
        · exact .inl ⟨p, next, stillMasked, again, uncounted, .inr ⟨outside, held.poll⟩⟩
        · refine .inr ⟨Machine.branchToSelf - 1, ?_, .inr rfl⟩
          rw [fetchNext_of_read again
            (physicalReadStep_device uncounted outside (Prod.ext moved rfl))]
      · cases stored

end Board
end ArmMachine
