import ArmMachine.Proofs.Execution.Aborts
import ArmMachine.Proofs.Execution.Exceptions
import ArmMachine.Proofs.Execution.Stages

/-! Aborts are precise. A data abort is entered only for an instruction that was aborted, with the
registers as they were before it, so that the handler can restart it. -/
namespace ArmMachine

namespace Mmu

theorem faultPending_invalidate (m : Mmu) (opcode : Nat) (address : Word) (side : Side) :
    (m.invalidate opcode address side).faultPending = m.faultPending := by
  unfold invalidate
  split <;> cases side <;> rfl

theorem faultPending_writeRegister (m : Mmu) (register operand opcode : Nat) (value : Word) :
    (m.writeRegister register operand opcode value).faultPending = m.faultPending := by
  unfold writeRegister
  split
  · rfl
  · rfl
  · rfl
  · rfl
  · rfl
  · generalize operandSides operand = sides
    induction sides generalizing m with
    | nil => rfl
    | cons side rest ih => exact (ih _).trans (m.faultPending_invalidate opcode value side)
  · rfl
  · rfl

end Mmu

namespace Core

theorem noteFault_of_clear {c : Core} (clear : c.mmu.faultPending = false) : c.noteFault = c := by
  simp [noteFault, clear]

theorem noteFault_of_fault {c : Core} (fault : c.mmu.faultPending = true)
    (idle : c.decode.pending = .none) : c.noteFault = c.setPending .dataAbort := by
  simp [noteFault, fault, idle]

theorem faultPending_takeAbort (c : Core) {kind : ExceptionKind} (abort : isAbort kind = true) :
    (c.takeAbort kind).mmu.faultPending = false := by
  rw [takeAbort, if_pos abort]
  rfl

theorem noteFault_of_pending {c : Core} (other : c.decode.pending ≠ .none) : c.noteFault = c := by
  simp [noteFault, other]

end Core

/-- The core after the data abort of an instruction, with the fault that aborted it: apart from the
program counter and what the abort mode keeps, every register is as before the instruction. -/
structure Core.EnteredDataAbort (c : Core) (fault : Abort) (c' : Core) : Prop where
  cells : ∀ bank id, ¬ (bank = .user ∧ id = .pc) → ¬ (bank = .abort ∧ id = .link) →
    c'.registers.cell bank id = c.registers.cell bank id
  pc : c'.registers.pc = c.vectorAddress .dataAbort
  link : c'.registers.cell .abort .link = c.registers.pc + 8
  current : c'.registers.current = enteredStatus c.registers.current .dataAbort
  savedAbort : c'.registers.savedOf .abort = some c.registers.current
  savedOther : ∀ bank, bank ≠ .abort → c'.registers.savedOf bank = c.registers.savedOf bank
  status : c'.mmu.faultStatus = fault.statusWord
  address : c'.mmu.faultAddress = fault.address
  record : c'.diagnostics.lastAbort = some ⟨c.registers.pc, fault.statusWord, fault.address⟩

/-- A core that has moved past an instruction and recorded its fault enters the abort precisely. -/
theorem Core.enteredDataAbort {c past : Core} {fault : Abort}
    (registers : past.registers = c.registers.setPc (c.registers.pc + 4))
    (address : past.decode.address = c.registers.pc)
    (control : past.mmu.control = c.mmu.control) (records : past.mmu.Records fault) :
    c.EnteredDataAbort fault (((past.takeAbort .dataAbort).enter .dataAbort).setPending .none) := by
  let taken := past.takeAbort .dataAbort
  have cell := fun bank => taken.cell_enteredRegisters .dataAbort bank
  have saved := fun bank => taken.savedOf_enteredRegisters .dataAbort bank
  have before : taken.registers = c.registers.setPc (c.registers.pc + 4) := registers
  have current : taken.registers.current = c.registers.current := by
    rw [before]
    rfl
  have abort : ExceptionKind.dataAbort.bank = .abort := rfl
  rw [abort] at cell saved
  constructor
  · intro bank id other unlinked
    refine (cell bank id).trans ?_
    rw [if_neg other, if_neg unlinked, before, RegisterFile.cell_setPc, if_neg other]
  · refine (cell .user .pc).trans ?_
    rw [if_pos ⟨rfl, rfl⟩]
    exact Core.vectorAddress_congr control .dataAbort
  · refine (cell .abort .link).trans ?_
    rw [if_neg (by decide), if_pos ⟨rfl, rfl⟩, returnAddress, before, RegisterFile.pc_setPc,
      BitVec.add_assoc]
    rfl
  · refine (taken.current_enteredRegisters .dataAbort).trans ?_
    rw [current]
  · refine (saved .abort).trans ?_
    rw [if_pos rfl, current]
  · intro bank other
    refine (saved bank).trans ?_
    rw [if_neg other, before]
    rfl
  · exact records.status
  · exact records.address
  · rw [← address, ← records.status, ← records.address]
    rfl

namespace Board

/-- The instruction at the program counter is fetched, is due, and is aborted. -/
def Aborts (b : Board) (fault : Abort) : Prop :=
  ∃ word fetched, b.fetchNext = (.ok word, fetched) ∧ (fetched.accept word).passes word = true ∧
    ((fetched.accept word).execute ⟨word⟩).result = .error (.abort fault)

theorem faultContract_primitives (privileged : Bool) : faultContract.Primitives privileged where
  read b p v width _ := b.read_faults p v width
  write b p v value width _ := b.write_faults p v value width
  registers _ _ := ⟨rfl, id⟩
  pending b p other := by
    refine ⟨rfl, fun _ => ?_⟩
    change p ≠ .dataAbort
    rcases other with rfl | rfl <;> decide
  coprocessor b i _ := ⟨b.core.mmu.faultPending_writeRegister _ _ _ _, id⟩
  refuse b cause fatal := by
    rintro fault rfl
    contradiction

variable {b fetched : Board} {word : Word}

theorem faults_of_run {i : Instruction} {result : Except Failure Unit} {done : Board}
    (run : b.run i.execute = (result, done)) : faultContract.Admits b (result, done) :=
  Instruction.admits_of_run faultContract_sequential (faultContract_primitives _) rfl run

theorem faultPending_accept (read : b.fetchNext = (.ok word, fetched)) :
    (fetched.accept word).core.mmu.faultPending = b.core.mmu.faultPending := by
  have faults := (b.mapCore .beginStep).fetch_faults b.core.registers.pc
  rw [run_fetchNext, read] at faults
  exact faults.1

theorem pending_accept (read : b.fetchNext = (.ok word, fetched)) :
    (fetched.accept word).core.decode.pending = .none := by rw [decode_accept read]

theorem execute_eq_run (b : Board) (i : Instruction) :
    (b.execute i).result = (b.run i.execute).1 ∧ (b.execute i).board = (b.run i.execute).2 :=
  ⟨rfl, rfl⟩

/-- Without a fault from before, a data abort stands for an instruction that was aborted. -/
theorem aborted_of_pending {executed : Outcome} {done : Board}
    (clear : b.core.mmu.faultPending = false) (executes : b.Executes (.ok executed) done)
    (pending : done.core.noteFault.decode.pending = .dataAbort) :
    ∃ word fault fetched unwound, b.fetchNext = (.ok word, fetched) ∧
      (fetched.accept word).passes word = true ∧
      (fetched.accept word).run (Instruction.execute ⟨word⟩) = (.error (.abort fault), unwound) ∧
      done = unwound.mapCore .countInstruction := by
  cases executes with
  | unfetched fault fetched refused =>
    have other : Pending.prefetchAbort ≠ .none := by decide
    rw [Core.noteFault_of_pending other] at pending
    cases pending
  | skipped word fetched read idle =>
    rw [Core.noteFault_of_clear ((faultPending_accept read).trans clear),
      pending_accept read] at pending
    cases pending
  | retired word fetched done read due executed =>
    obtain ⟨flag, idle⟩ := faults_of_run executed
    have quiet : (done.mapCore .countInstruction).core.mmu.faultPending = false :=
      (flag.trans (faultPending_accept read)).trans clear
    rw [Core.noteFault_of_clear quiet] at pending
    refine absurd pending (idle ?_)
    rw [pending_accept read]
    decide
  | aborted word fault fetched unwound read due executed =>
    exact ⟨word, fault, fetched, unwound, read, due, executed, rfl⟩

/-- An instruction that was aborted is undone, and its fault is on record. -/
theorem change_of_aborted {fault : Abort} {unwound : Board}
    (executed : b.run (Instruction.execute ⟨word⟩) = (.error (.abort fault), unwound)) :
    b.BusChange unwound ∧ unwound.core.mmu.Records fault := by
  refine ⟨?_, faults_of_run executed fault rfl⟩
  cases Instruction.failed_execute executed with
  | untouched change => exact change.toBusChange
  | partly change k lowest => exact change
  | unrestored target refused s saved thumb => cases refused

theorem noteFault_of_aborted {fault : Abort} {unwound : Board}
    (read : b.fetchNext = (.ok word, fetched))
    (run : (fetched.accept word).run (Instruction.execute ⟨word⟩) =
      (.error (.abort fault), unwound)) :
    (unwound.mapCore .countInstruction).core.noteFault =
      (unwound.mapCore .countInstruction).core.setPending .dataAbort := by
  obtain ⟨change, records⟩ := change_of_aborted run
  have idle := congrArg DecodeState.pending (change.decode.trans (decode_accept read))
  exact Core.noteFault_of_fault records.pending idle

theorem enteredDataAbort_of_aborted {fault : Abort} {unwound : Board}
    (read : b.fetchNext = (.ok word, fetched))
    (run : (fetched.accept word).run (Instruction.execute ⟨word⟩) =
      (.error (.abort fault), unwound)) :
    b.core.EnteredDataAbort fault
      (((Core.takeAbort (unwound.mapCore .countInstruction).core.noteFault .dataAbort).enter
        .dataAbort).setPending .none) := by
  obtain ⟨change, records⟩ := change_of_aborted run
  have decode := change.decode.trans (decode_accept read)
  rw [noteFault_of_aborted read run]
  exact Core.enteredDataAbort (change.registers.trans (registers_accept read))
    (congrArg DecodeState.address decode)
    (change.tables.control.trans (fetchNext_readChange read).tables.control) records

/-- Failed instructions change no register, and aborted ones at most memory that a block store had
already written; so a data abort finds everything as it was before the instruction. -/
theorem aborts_precisely :
    (∀ (b : Board) (i : Instruction) (cause : Failure),
      (∀ s, b.core.registers.savedStatus = some s → s.has .thumb = false) →
      (b.execute i).result = .error cause →
      (b.execute i).board.core.registers = b.core.registers ∧
        ∀ fault, cause = .abort fault →
          (b.execute i).board.core.ram = b.core.ram ∨
            ∃ k, i.StoredLowest b k (b.execute i).board.core.ram) ∧
    ∀ (b : Board) (trace : Bool), b.core.runState = .running → b.core.mmu.faultPending = false →
      (b.step trace).result = .ok (.exception .dataAbort) →
      ∃ fault, b.Aborts fault ∧ b.core.EnteredDataAbort fault (b.step trace).board.core := by
  constructor
  · intro b i cause clear failed
    obtain ⟨result, board⟩ := b.execute_eq_run i
    have run : b.run i.execute = (.error cause, (b.execute i).board) := by
      rw [board, ← failed, result]
    cases Instruction.failed_execute run with
    | untouched change => exact ⟨change.registers, fun _ _ => .inl change.ram⟩
    | partly change k lowest => exact ⟨change.registers, fun _ _ => .inr ⟨k, lowest⟩⟩
    | unrestored target refused s saved thumb =>
      rw [clear s saved] at thumb
      contradiction
  · intro b trace running clear outcome
    have steps := b.step_steps trace
    generalize b.step trace = progress at steps outcome
    obtain ⟨result, b', events⟩ := progress
    dsimp only at steps outcome ⊢
    subst outcome
    cases steps with
    | completed executed dispatched outcome done settled b' state executes dispatches interrupts =>
      cases interrupts with
      | refused quiet =>
        cases dispatches with
        | nothing idle => cases executes
        | entered kind pending =>
          have abort : done.core.noteFault.decode.pending = .dataAbort := by
            cases left : done.core.noteFault.decode.pending <;> simp_all [Pending.exception?]
          obtain ⟨word, fault, fetched, unwound, read, due, run, rfl⟩ :=
            aborted_of_pending clear executes abort
          have execution := (fetched.accept word).execute_eq_run ⟨word⟩
          exact ⟨fault, ⟨word, fetched, read, due, by rw [execution.1, run]⟩,
            enteredDataAbort_of_aborted read run⟩

/-- The first megabyte is mapped to itself, alignment is checked, and the word at 4 stores
register 0 where register 1 points, which is nowhere aligned. -/
def misalignedStore : Board where
  core :=
    { registers := (RegisterFile.initial.write .r1 1).setPc 4
      mmu := { Mmu.initial true with control := 3, domains := 1 }
      ram := ⟨⟨#[0x12, 0x0C, 0, 0, 0, 0, 0x81, 0xE5]⟩⟩
      decode := .idle 0
      instructionCount := 0
      runState := .running
      diagnostics := .initial }
  devices := .empty

theorem aborts_precisely_misalignedStore :
    (misalignedStore.execute ⟨0xE5810000⟩).board.core.registers = misalignedStore.core.registers ∧
      ∃ fault, misalignedStore.Aborts fault ∧
        misalignedStore.core.EnteredDataAbort fault (misalignedStore.step false).board.core := by
  have executed : (misalignedStore.execute ⟨0xE5810000⟩).result =
      .error (.abort ⟨.alignment, 0, 1⟩) := by rfl
  have clear : ∀ s, misalignedStore.core.registers.savedStatus = some s →
      s.has .thumb = false := by
    intro s saved
    cases saved
    rfl
  have entered : (misalignedStore.step false).result = .ok (.exception .dataAbort) := by rfl
  exact ⟨(aborts_precisely.1 misalignedStore ⟨0xE5810000⟩ _ clear executed).1,
    aborts_precisely.2 misalignedStore false rfl rfl entered⟩

end Board
end ArmMachine
