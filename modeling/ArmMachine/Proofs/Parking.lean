import ArmMachine.Proofs.Execution.Waiting

/-! The stop condition of a machine looks at the word fetched last and at the interrupt mask. A
parked machine stands still when that word was executed with interrupts masked and is what the next
fetch reads. It does not when the step took an interrupt, which has masked interrupts on its own and
left the handler to run. -/
namespace ArmMachine
namespace Machine

/-- A machine after some steps. -/
def after (m : Machine) : Nat → Machine
  | 0 => m
  | n + 1 => (m.after n).step.2.1

theorem after_succ (m : Machine) (n : Nat) : m.after (n + 1) = (m.after n).step.2.1 := rfl

/-- No further step changes a register or memory, and every one retires an instruction. -/
def Frozen (m : Machine) : Prop :=
  ∀ n, (∃ cycles, (m.after n).step.1 = .ok (.retired cycles)) ∧
    (m.after n).board.core.registers = m.board.core.registers ∧
    (m.after n).board.core.ram = m.board.core.ram

theorem step_ok {m : Machine} {outcome : Outcome} (succeeded : m.step.1 = .ok outcome) :
    (m.board.step m.settings.core.trace).result = .ok outcome ∧
      m.step.2.1.board = (m.board.step m.settings.core.trace).board.poll := by
  obtain ⟨board, settings⟩ := m
  simp only [step] at succeeded ⊢
  split at succeeded
  · rename_i retired
    cases succeeded
    exact ⟨retired, rfl⟩
  · cases succeeded

theorem step_of_ok {m : Machine} {outcome : Outcome}
    (result : (m.board.step m.settings.core.trace).result = .ok outcome) :
    m.step.1 = .ok outcome := by
  obtain ⟨board, settings⟩ := m
  simp only [step, result]

/-- Every step that succeeds is a step of the board and a poll. -/
theorem steps_of_ok {m : Machine} {outcome : Outcome} (succeeded : m.step.1 = .ok outcome) :
    ∃ b', m.board.Steps (.ok outcome) b' ∧ m.step.2.1.board = b'.poll := by
  obtain ⟨result, board⟩ := step_ok succeeded
  refine ⟨_, ?_, board⟩
  rw [← result]
  exact m.board.step_steps _

theorem load_sound {m : Machine} (sound : m.board.Sound) (base : Word) (image : ByteArray) :
    (m.load base image).2.board.Sound := by
  have kept : (m.board.core.loadImage base image).2.runState = m.board.core.runState ∧
      (m.board.core.loadImage base image).2.mmu = m.board.core.mmu := by
    unfold Core.loadImage
    split
    · split <;> exact ⟨rfl, rfl⟩
    · exact ⟨rfl, rfl⟩
  have clear := sound.clear
  rw [← kept.2] at clear
  exact ⟨kept.1.trans sound.running, clear, sound.standard⟩

theorem bootImage_sound (s : Settings) (image : ByteArray) (base : Word) (entry : Option Word) :
    ((ofSettings s).bootImage image base entry).machine.board.Sound := by
  have stopped : (0 : Word) &&& ~~~1#32 = 0 := by decide
  have devices : (DeviceTable.standard s.timerInterval).reset.Standard :=
    ⟨.initial, .ofInterval s.timerInterval, .initial, rfl, rfl, stopped⟩
  have loaded := load_sound (m := ofSettings s) ⟨rfl, rfl, devices⟩ base image
  unfold bootImage
  split
  · rename_i failed
    rw [failed] at loaded
    exact loaded
  · rename_i succeeded
    rw [succeeded] at loaded
    exact ⟨loaded.running, loaded.clear, loaded.standard⟩

theorem after_sound {m : Machine} (sound : m.board.Sound) {n : Nat}
    (succeeded : ∀ k < n, ∃ outcome, (m.after k).step.1 = .ok outcome) :
    (m.after n).board.Sound := by
  induction n with
  | zero => exact sound
  | succ n ih =>
    have before := ih fun k earlier => succeeded k (Nat.lt_succ_of_lt earlier)
    obtain ⟨outcome, step⟩ := succeeded n (Nat.lt_succ_self n)
    obtain ⟨b', steps, board⟩ := steps_of_ok step
    rw [after_succ, board]
    exact before.step steps

theorem frozen_of_waits {m : Machine} {p : Word} (waits : m.board.Waits p) : m.Frozen := by
  have still : ∀ n, (m.after n).board.Waits p ∧
      (m.after n).board.core.registers = m.board.core.registers ∧
      (m.after n).board.core.ram = m.board.core.ram := by
    intro n
    induction n with
    | zero => exact ⟨waits, rfl, rfl⟩
    | succ n ih =>
      obtain ⟨now, registers, ram⟩ := ih
      obtain ⟨result, next, registers', ram'⟩ := now.step (m.after n).settings.core.trace
      have board := (step_ok (step_of_ok result)).2
      rw [after_succ, board]
      exact ⟨next, registers'.trans registers, ram'.trans ram⟩
  intro n
  obtain ⟨now, registers, ram⟩ := still n
  exact ⟨⟨_, step_of_ok (now.step _).1⟩, registers, ram⟩

/-- A branch that leads away moves the program counter. -/
theorem not_frozen_of_branch {m : Machine} {word : Word} (sound : m.board.Sound)
    (plain : Instruction.PlainBranch ⟨word⟩) (away : word ≠ branchToSelf)
    (read : m.board.fetchNext.1 = .ok word) : ¬ m.Frozen := by
  intro frozen
  obtain ⟨⟨cycles, retired⟩, -⟩ := frozen 0
  obtain ⟨b', steps, board⟩ := steps_of_ok (m := m) retired
  obtain ⟨outcome, result, interrupts⟩ :=
    steps.of_branch sound.running sound.clear plain (Prod.ext read rfl)
  cases result
  have moved : m.step.2.1.board.core.registers = m.board.core.registers := (frozen 1).2.1
  rw [board] at moved
  cases interrupts with
  | refused quiet =>
    have pc : (m.board.core.registers.setPc
        (m.board.core.registers.pc + 8 + Instruction.branchOffset ⟨word⟩)).pc =
          m.board.core.registers.pc := congrArg RegisterFile.pc moved
    rw [RegisterFile.pc_setPc, BitVec.add_assoc] at pc
    exact away (plain.eq_branchToSelf (by simpa using pc))

/-- A step that leaves a fetched word on record has fetched it. -/
theorem fetched_of_recorded {b b' : Board} {outcome : Outcome}
    (running : b.core.runState = .running) (steps : b.Steps (.ok outcome) b')
    (recorded : b'.core.decode.shape.isSome = true) :
    ∃ fetched, b.fetchNext = (.ok b'.core.decode.word, fetched) := by
  cases steps with
  | halted cause state =>
    rw [running] at state
    cases state
  | completed executed dispatched outcome done settled b' state executes dispatches interrupts =>
    have settles := dispatches.settles
    rw [interrupts.keeps.2.1, settles.shape] at recorded
    rw [interrupts.keeps.2.1, settles.word]
    have kept : ∀ {word result} {fetched done : Board},
        (fetched.accept word).run (Instruction.execute ⟨word⟩) = (result, done) →
        done.core.decode.word = word := fun run => (Board.steady_of_run run).word
    cases executes with
    | unfetched fault fetched refused =>
      have blank : fetched.core.decode.shape = none := (Board.steady_of_fetchNext refused).shape
      change fetched.core.decode.shape.isSome = true at recorded
      rw [blank] at recorded
      cases recorded
    | skipped word fetched read idle => exact ⟨fetched, read⟩
    | retired word fetched done read due run =>
      exact ⟨fetched, read.trans (congrArg (fun w => (Except.ok w, fetched)) (kept run).symm)⟩
    | aborted word fault fetched done read due run =>
      exact ⟨fetched, read.trans (congrArg (fun w => (Except.ok w, fetched)) (kept run).symm)⟩

/-- What the stop condition says about the step before it. -/
theorem branched_of_parked {m : Machine} (sound : m.board.Sound) {outcome : Outcome}
    (succeeded : m.step.1 = .ok outcome) (parked : m.step.2.1.isParked = true) :
    ∃ fetched b', m.board.fetchNext = (.ok branchToSelf, fetched) ∧
      (m.board.branched fetched branchToSelf).Interrupts (.retired Shape.branch.cost) outcome b' ∧
      m.step.2.1.board = b'.poll ∧ b'.core.registers.current.has .irqDisabled = true := by
  obtain ⟨b', steps, board⟩ := steps_of_ok succeeded
  simp only [isParked, board, Board.core_poll, Bool.and_eq_true, decide_eq_true_eq] at parked
  obtain ⟨⟨recorded, word⟩, masked⟩ := parked
  obtain ⟨fetched, read⟩ := fetched_of_recorded sound.running steps recorded
  rw [word] at read
  obtain ⟨_, same, interrupts⟩ :=
    steps.of_branch sound.running sound.clear Board.plainBranch_branchToSelf read
  cases same
  exact ⟨fetched, b', read, interrupts, board, masked⟩

theorem frozen_of_memory {m : Machine} (sound : m.board.Sound)
    (masked : m.board.core.registers.current.has .irqDisabled = true)
    (memory : m.board.FetchesFromMemory branchToSelf) : m.Frozen := by
  obtain ⟨p, mapped, uncounted, shown⟩ := memory
  exact frozen_of_waits ⟨sound, masked, mapped, uncounted, .inl shown⟩

/-- Of all plain branches in memory only the one to itself stops a machine. -/
theorem frozen_iff_of_memory {m : Machine} {word : Word} (sound : m.board.Sound)
    (masked : m.board.core.registers.current.has .irqDisabled = true)
    (memory : m.board.FetchesFromMemory word) (plain : Instruction.PlainBranch ⟨word⟩) :
    m.Frozen ↔ word = branchToSelf := by
  constructor
  · intro frozen
    apply Decidable.byContradiction
    intro away
    exact not_frozen_of_branch sound plain away (congrArg Prod.fst memory.read) frozen
  · rintro rfl
    exact frozen_of_memory sound masked memory

/-- After a masked branch to itself, a machine stands still exactly when it fetches the branch
again. -/
theorem frozen_iff_of_branched {m now : Machine} {fetched : Board} (sound : m.board.Sound)
    (masked : m.board.core.registers.current.has .irqDisabled = true)
    (read : m.board.fetchNext = (.ok branchToSelf, fetched)) (next : now.board.Sound)
    (board : now.board = (m.board.branched fetched branchToSelf).poll) :
    now.Frozen ↔ now.board.fetchNext.1 = .ok branchToSelf := by
  have nextBranched := next
  rw [board] at nextBranched
  obtain ⟨p, waits⟩ | ⟨word, reads, moved⟩ := Board.waits_or_moved sound read nextBranched masked
  · rw [← board] at waits
    constructor
    · intro _
      rw [waits.read]
    · intro _
      exact frozen_of_waits waits
  · rw [← board] at reads
    have plain : Instruction.PlainBranch ⟨word⟩ := by
      rcases moved with rfl | rfl <;> exact ⟨by decide, by decide, by decide⟩
    have away : word ≠ branchToSelf := by
      rcases moved with rfl | rfl <;> decide
    constructor
    · intro frozen
      exact absurd frozen (not_frozen_of_branch next plain away reads)
    · intro again
      rw [reads] at again
      exact absurd (Except.ok.inj again) away

/-- A branch to itself that was fetched from memory is fetched from there again. -/
theorem fetchesFromMemory_branched {b fetched : Board}
    (read : b.fetchNext = (.ok branchToSelf, fetched)) (memory : b.FetchesFromMemory branchToSelf) :
    (b.branched fetched branchToSelf).poll.FetchesFromMemory branchToSelf := by
  obtain ⟨p, mapped, uncounted, shown⟩ := memory
  obtain ⟨p', mapped', stored⟩ := Board.read_of_fetchNext read
  rw [mapped] at mapped'
  cases mapped'
  exact ⟨p, Board.fetchAddress_branchToSelf mapped stored, uncounted, shown⟩

/-- Where an interrupt goes that comes after a branch to itself. -/
theorem entered_branched {b fetched : Board} (read : b.fetchNext = (.ok branchToSelf, fetched)) :
    let entered := ((b.branched fetched branchToSelf).core.enter .irq).registers
    entered.pc = b.core.vectorAddress .irq ∧
      entered.cell .irq .link = b.core.registers.pc + 4 := by
  have registers := Board.registers_branchToSelf b fetched
  have control : (b.branched fetched branchToSelf).core.mmu.control = b.core.mmu.control :=
    (Board.fetchNext_readChange read).tables.control
  have cell := Core.cell_enteredRegisters (b.branched fetched branchToSelf).core .irq
  constructor
  · change (Core.enteredRegisters _ .irq).cell .user .pc = _
    rw [cell, if_pos ⟨rfl, rfl⟩]
    exact Core.vectorAddress_congr control .irq
  · change (Core.enteredRegisters _ .irq).cell .irq .link = _
    rw [cell, if_neg (by decide), if_pos ⟨rfl, rfl⟩, Core.returnAddress, registers]
    rfl

/-- A parked machine whose last step retired the branch stands still exactly when the next fetch
reads the branch again, as it does from memory. If the last step took an interrupt instead,
interrupts were not masked before it and the handler comes next, which alone decides: if it starts
with a plain branch, the machine stands still exactly when that branch is to itself. -/
theorem parked_frozen_iff (s : Settings) (image : ByteArray) (base : Word) (entry : Option Word)
    (n : Nat) :
    let booted := ((ofSettings s).bootImage image base entry).machine
    let before := booted.after n
    let now := booted.after (n + 1)
    (∀ k ≤ n, ∃ outcome, (booted.after k).step.1 = .ok outcome) → now.isParked = true →
    before.step.1 = .ok (.retired Shape.branch.cost) ∧
        (now.Frozen ↔ now.board.fetchNext.1 = .ok branchToSelf) ∧
        (before.board.FetchesFromMemory branchToSelf → now.Frozen) ∨
      before.step.1 = .ok (.exception .irq) ∧
        before.board.core.registers.current.has .irqDisabled = false ∧
        now.board.core.registers.pc = before.board.core.vectorAddress .irq ∧
        now.board.core.registers.cell .irq .link = before.board.core.registers.pc + 4 ∧
        ∀ word, now.board.FetchesFromMemory word → Instruction.PlainBranch ⟨word⟩ →
          (now.Frozen ↔ word = branchToSelf) := by
  intro booted before now succeeded parked
  have sound : before.board.Sound := after_sound (bootImage_sound s image base entry)
    fun k earlier => succeeded k (Nat.le_of_lt earlier)
  have next : now.board.Sound := after_sound (bootImage_sound s image base entry)
    fun k earlier => succeeded k (Nat.le_of_lt_succ earlier)
  obtain ⟨outcome, succeeded⟩ := succeeded n (Nat.le_refl n)
  obtain ⟨fetched, b', read, interrupts, board, masked⟩ :=
    branched_of_parked sound succeeded parked
  change now.board = b'.poll at board
  have nowMasked : now.board.core.registers.current.has .irqDisabled = true := by
    rw [board]
    exact masked
  cases interrupts with
  | refused quiet =>
    rw [Board.registers_branchToSelf] at masked
    refine .inl ⟨succeeded, frozen_iff_of_branched sound masked read next board, ?_⟩
    intro memory
    have again := fetchesFromMemory_branched read memory
    rw [← board] at again
    exact frozen_of_memory next nowMasked again
  | entered asserted accepted =>
    have enabled : before.board.core.registers.current.has .irqDisabled = false := by
      rw [Core.accepts, Board.registers_branchToSelf] at accepted
      simpa using accepted
    obtain ⟨pc, link⟩ := entered_branched read
    rw [board]
    refine .inr ⟨succeeded, enabled, pc, link, ?_⟩
    intro word memory plain
    rw [← board] at memory
    exact frozen_iff_of_memory next nowMasked memory plain

/-- The timer expires at every poll. The program enters at the ninth word, enables interrupts, sets
up the controller and the timer, and branches to itself; the interrupt that follows finds a handler
at the seventh word that moves on. -/
def interrupted : Machine :=
  let words : List Word :=
    [0xEA000006, 0, 0, 0, 0, 0, 0xE3A07001, 0xEAFFFFFE, 0xE321F013, 0xE3A00403, 0xE3A01001,
      0xE5801000, 0xE5801014, 0xEAFFFFFE]
  let bytes := words.flatMap fun w =>
    [w.extractLsb' 0 8, w.extractLsb' 8 8, w.extractLsb' 16 8, w.extractLsb' 24 8]
  let settings := { Settings.standard with core := ⟨.bareMetal, 64, false⟩, timerInterval := 1 }
  ((ofSettings settings).bootImage ⟨(bytes.map UInt8.ofBitVec).toArray⟩ 0 (some 32)).machine

theorem parked_frozen_iff_interrupted :
    (∀ k ≤ 5, ∃ outcome, (interrupted.after k).step.1 = .ok outcome) ∧
      (interrupted.after 6).isParked = true ∧
      (interrupted.after 5).step.1 = .ok (.exception .irq) ∧
      (interrupted.after 5).board.core.registers.current.has .irqDisabled = false ∧
      ¬ (interrupted.after 6).Frozen := by
  have succeeded : ∀ k ≤ 5, ∃ outcome, (interrupted.after k).step.1 = .ok outcome := by
    unfold interrupted
    simp only [ofSettings, Core.ofConfig, Ram.zeroed_eq]
    intro k bound
    match k, bound with
    | 0, _ | 1, _ | 2, _ | 3, _ | 4, _ | 5, _ => exact ⟨_, rfl⟩
  have parked : (interrupted.after 6).isParked = true := by
    unfold interrupted
    simp only [ofSettings, Core.ofConfig, Ram.zeroed_eq]
    rfl
  have exception : (interrupted.after 5).step.1 = .ok (.exception .irq) := by
    unfold interrupted
    simp only [ofSettings, Core.ofConfig, Ram.zeroed_eq]
    rfl
  have moved : ((interrupted.after 6).after 1).board.core.registers.pc ≠
      (interrupted.after 6).board.core.registers.pc := by
    unfold interrupted
    simp only [ofSettings, Core.ofConfig, Ram.zeroed_eq]
    decide +kernel
  have unfrozen : ¬ (interrupted.after 6).Frozen := by
    intro frozen
    exact moved (congrArg RegisterFile.pc (frozen 1).2.1)
  obtain ⟨retired, -⟩ | ⟨-, enabled, -⟩ := parked_frozen_iff _ _ _ _ 5 succeeded parked
  · have same := exception.symm.trans retired
    cases same
  · exact ⟨succeeded, parked, exception, enabled, unfrozen⟩

end Machine
end ArmMachine
