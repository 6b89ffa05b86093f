import ArmMachine.Proofs.Execution.Soundness
import ArmMachine.Machine

/-! Branches: what tells their words from others, and the one thing a step does that fetches one. -/
namespace ArmMachine

theorem Condition.code_of_al {c : BitVec 4} (always : Condition.ofCode c = .al) : c = 14 := by
  revert c
  decide

namespace Shape

theorem ofRegisterWord_ne_branch (w : Word) : ofRegisterWord w ≠ .branch := by
  unfold ofRegisterWord
  split
  · unfold ofMultiplyWord
    repeat' split
    all_goals simp
  split
  · unfold ofHalfwordWord
    dsimp only
    repeat' split
    all_goals simp
  split
  · unfold ofMiscellaneousWord
    dsimp only
    repeat' split
    all_goals simp
  split <;> simp

theorem ofImmediateWord_ne_branch (w : Word) : ofImmediateWord w ≠ .branch := by
  unfold ofImmediateWord
  repeat' split
  all_goals simp

theorem class_of_branch {w : Word} (branch : Shape.ofWord w = .branch) :
    w.extractLsb' 25 3 = 5 := by
  unfold Shape.ofWord at branch
  split at branch <;> rename_i code
  · exact absurd branch (ofRegisterWord_ne_branch w)
  · exact absurd branch (ofImmediateWord_ne_branch w)
  · cases branch
  · split at branch <;> cases branch
  · cases branch
  · exact congrArg BitVec.ofFin code
  · cases branch
  · repeat' split at branch
    all_goals cases branch

end Shape

/-- A branch that is always taken and keeps no return address. -/
structure Instruction.PlainBranch (i : Instruction) : Prop where
  shape : i.shape = .branch
  always : i.condition = .al
  unlinked : i.preIndexed = false

namespace Instruction.PlainBranch

variable {i : Instruction}

theorem branch_registers (plain : i.PlainBranch) (r : RegisterFile) :
    i.branch (r.setPc (r.pc + 4)) = r.setPc (r.pc + 8 + i.branchOffset) := by
  have target : i.branchTarget (r.setPc (r.pc + 4)) = r.pc + 8 + i.branchOffset := by
    have ahead : (r.setPc (r.pc + 4)).read .pc = r.pc + 4 + 4 := by
      change (r.setPc (r.pc + 4)).pc + 4 = _
      rw [RegisterFile.pc_setPc]
    rw [branchTarget, ahead, BitVec.add_assoc r.pc]
    rfl
  rw [branch, plain.unlinked, if_neg Bool.false_ne_true, target, RegisterFile.setPc_setPc]

theorem run_execute (plain : i.PlainBranch) (b : Board) :
    b.run i.execute = (.ok (), b.mapRegisters i.branch) := by
  unfold execute
  rw [plain.shape]
  exact Board.run_modifyRegisters b _

/-- Only one offset leads back to the branch itself. -/
theorem offset_eq {word : Word} (stays : 8 + branchOffset ⟨word⟩ = 0) :
    word.extractLsb' 0 24 = 0xFFFFFE := by
  unfold branchOffset at stays
  generalize word.extractLsb' 0 24 = field at stays ⊢
  have offset := congrArg BitVec.toNat stays
  rw [BitVec.toNat_add, BitVec.toNat_shiftLeft, BitVec.toNat_signExtend,
    BitVec.toNat_setWidth, Nat.shiftLeft_eq, BitVec.msb_eq_decide] at offset
  apply BitVec.eq_of_toNat_eq
  simp only [BitVec.ofNat_eq_ofNat, BitVec.toNat_ofNat, Nat.reducePow, Nat.reduceMod,
    Nat.add_one_sub_one, decide_eq_true_eq, Nat.reduceSub, Nat.add_mod_mod, Nat.zero_mod]
    at offset ⊢
  split at offset <;> omega

theorem eq_branchToSelf {word : Word} (plain : Instruction.PlainBranch ⟨word⟩)
    (stays : 8 + branchOffset ⟨word⟩ = 0) : word = Machine.branchToSelf := by
  have condition : word.toNat / 2 ^ 28 % 16 = 14 := by
    simpa [Nat.shiftRight_eq_div_pow] using
      congrArg BitVec.toNat (Condition.code_of_al plain.always)
  have kind : word.toNat / 2 ^ 25 % 8 = 5 := by
    simpa [Nat.shiftRight_eq_div_pow] using
      congrArg BitVec.toNat (Shape.class_of_branch plain.shape)
  have unlinked : word.toNat / 2 ^ 24 % 2 = 0 := by
    simpa [Instruction.preIndexed, BitVec.getLsbD, Nat.testBit_eq_decide_div_mod_eq] using
      plain.unlinked
  have offset : word.toNat % 2 ^ 24 = 0xFFFFFE := by
    simpa using congrArg BitVec.toNat (offset_eq stays)
  apply BitVec.eq_of_toNat_eq
  change word.toNat = 0xEAFFFFFE
  have bound := word.isLt
  omega

end Instruction.PlainBranch

namespace Board

variable {b b' fetched : Board} {word : Word}

/-- A board that has fetched and taken a branch. -/
def branched (b fetched : Board) (word : Word) : Board where
  core :=
    { b.core with
      registers := b.core.registers.setPc
        (b.core.registers.pc + 8 + Instruction.branchOffset ⟨word⟩)
      mmu := fetched.core.mmu
      decode := ⟨word, b.core.registers.pc, some .branch, .none⟩
      instructionCount := b.core.instructionCount + 1 }
  devices := fetched.devices

theorem accept_branched (plain : Instruction.PlainBranch ⟨word⟩)
    (read : b.fetchNext = (.ok word, fetched)) :
    ((fetched.accept word).mapRegisters (Instruction.branch ⟨word⟩)).mapCore .countInstruction =
      b.branched fetched word := by
  have change := fetchNext_readChange read
  have same := change.core
  rw [change.ram] at same
  obtain ⟨core, devices⟩ := fetched
  generalize core.mmu = m at same
  subst same
  simp only [branched, accept, mapRegisters, mapCore, Core.acceptFetch, Core.beginStep,
    Core.countInstruction, DecodeState.idle, plain.branch_registers, plain.shape]

/-- A step that fetches a branch takes it; all that may follow is an interrupt. -/
theorem Steps.of_branch {result : Except Failure Outcome} (running : b.core.runState = .running)
    (clear : b.core.mmu.faultPending = false) (plain : Instruction.PlainBranch ⟨word⟩)
    (read : b.fetchNext = (.ok word, fetched)) (steps : b.Steps result b') :
    ∃ outcome, result = .ok outcome ∧
      (b.branched fetched word).Interrupts (.retired Shape.branch.cost) outcome b' := by
  have run := plain.run_execute (fetched.accept word)
  have taken := accept_branched plain read
  have due : (fetched.accept word).passes word = true := by
    rw [passes, plain.always]
    rfl
  cases steps with
  | halted cause state =>
    rw [running] at state
    cases state
  | failed cause done state executes =>
    cases executes with
    | brokenFetch _ fetched' fatal refused =>
      rw [read] at refused
      cases refused
    | broken word' _ fetched' done fatal read' due' run' =>
      rw [read] at read'
      cases read'
      rw [run] at run'
      cases run'
  | completed executed dispatched outcome done settled b' state executes dispatches interrupts =>
    refine ⟨outcome, rfl, ?_⟩
    cases executes with
    | unfetched fault fetched' refused =>
      rw [read] at refused
      cases refused
    | skipped word' fetched' read' idle =>
      rw [read] at read'
      cases read'
      rw [due] at idle
      cases idle
    | retired word' fetched' done read' due' run' =>
      rw [read] at read'
      cases read'
      rw [run] at run'
      cases run'
      rw [taken] at dispatches
      have quiet : (b.branched fetched word).core.noteFault = (b.branched fetched word).core :=
        Core.noteFault_of_clear ((faultPending_accept read).trans clear)
      cases dispatches with
      | nothing idle =>
        rw [mapCore, quiet, plain.shape] at interrupts
        exact interrupts
      | entered kind pending =>
        rw [quiet] at pending
        cases pending
    | aborted word' fault fetched' done read' due' run' =>
      rw [read] at read'
      cases read'
      rw [run] at run'
      cases run'

end Board
end ArmMachine
