import ArmMachine.Proofs.Execution.Entries
import ArmMachine.Proofs.Execution.Invariance
import ArmMachine.Proofs.Execution.Return
import ArmMachine.Proofs.Execution.Unprivileged

/-! The bit of the short instruction set. Nothing that a core does sets it in a status word, so
every saved status word can be restored, and only a branch to a misaligned address asks for that
set. -/
namespace ArmMachine

namespace StatusWord

variable {s s' : StatusWord}

theorem has_thumb_of_controlBits (same : s'.controlBits = s.controlBits) :
    s'.has .thumb = s.has .thumb := by
  have inside : ∀ s : StatusWord, s.has .thumb = s.controlBits.getLsbD 5 := by
    intro s
    simp [has, controlBits, StatusBit.position]
  rw [inside, inside, same]

theorem thumb_assign (s : StatusWord) {bit : StatusBit} (other : bit ≠ .thumb) (on : Bool) :
    (s.assign bit on).has .thumb = s.has .thumb := by
  have apart : StatusBit.thumb.position ≠ bit.position := by
    cases bit <;> first | contradiction | decide
  rw [has, getLsbD_assign _ _ _ _ (by decide), if_neg apart, has]

end StatusWord

namespace RegisterFile

/-- No status word asks for the short instruction set. -/
structure Arm (r : RegisterFile) : Prop where
  current : r.current.has .thumb = false
  saved : ∀ s ∈ r.saved, s.has .thumb = false

theorem arm_initial : initial.Arm where
  current := rfl
  saved s member := by
    rw [Vector.eq_of_mem_replicate member]
    rfl

theorem thumb_of_savedStatus {r : RegisterFile} {s : StatusWord}
    (clear : ∀ s ∈ r.saved, s.has .thumb = false) (saved : r.savedStatus = some s) :
    s.has .thumb = false := by
  obtain ⟨i, -, rfl⟩ := Option.map_eq_some_iff.mp saved
  exact clear _ (Vector.getElem_mem i.isLt)

/-- A saved status word that may be restored is restored. -/
theorem restoreStatus_eq_ok {r : RegisterFile}
    (clear : ∀ s ∈ r.saved, s.has .thumb = false) :
    r.restoreStatus = .ok (r.setCurrent (r.savedStatus.getD r.current)) := by
  unfold restoreStatus
  split
  · rename_i absent
    rw [absent]
    rfl
  · rename_i s saved
    rw [thumb_of_savedStatus clear saved, saved]
    rfl

namespace Arm

variable {r r' : RegisterFile} (arm : r.Arm)
include arm

theorem of_status (current : r'.current.has .thumb = r.current.has .thumb)
    (saved : r'.saved = r.saved) : r'.Arm :=
  ⟨current.trans arm.current, by rw [saved]; exact arm.saved⟩

theorem setCurrent {s : StatusWord} (clear : s.has .thumb = false) : (r.setCurrent s).Arm :=
  ⟨clear, arm.saved⟩

theorem setSavedOf (bank : Bank) {s : StatusWord} (clear : s.has .thumb = false) :
    (r.setSavedOf bank s).Arm := by
  unfold RegisterFile.setSavedOf
  split
  · exact arm
  · refine ⟨arm.current, fun t member => ?_⟩
    obtain ⟨j, inside, rfl⟩ := Vector.getElem_of_mem member
    rw [Vector.getElem_set]
    split
    · exact clear
    · exact arm.saved _ (Vector.getElem_mem inside)

/-- What the saved status word restores is in order. -/
theorem restored : (r.setCurrent (r.savedStatus.getD r.current)).Arm := by
  cases saved : r.savedStatus with
  | none => exact arm
  | some s => exact arm.setCurrent (thumb_of_savedStatus arm.saved saved)

end Arm
end RegisterFile

/-- The status word of an interrupted program is saved as it was. -/
theorem Core.arm_enteredRegisters {c : Core} (arm : c.registers.Arm) (kind : ExceptionKind) :
    (c.enteredRegisters kind).Arm := by
  constructor
  · rw [current_enteredRegisters, thumb_enteredStatus]
  · rw [saved_enteredRegisters]
    exact (arm.setSavedOf kind.bank arm.current).saved

namespace Instruction

open RegisterFile (Arm)

variable (i : Instruction) {r : RegisterFile}

theorem thumb_statusMask : i.statusMask.getLsbD StatusBit.thumb.position = false := by
  have cleared : (~~~StatusBit.thumb.mask).getLsbD StatusBit.thumb.position = false := by decide
  rw [statusMask, BitVec.getLsbD_and, cleared, Bool.and_false]

/-- A mask without the bit leaves the bit alone. -/
theorem thumb_mergeStatus (s : StatusWord) {mask : Word} (value : Word)
    (without : mask.getLsbD StatusBit.thumb.position = false) :
    (mergeStatus s mask value).has .thumb = s.has .thumb := by
  have inside : StatusBit.thumb.position < 32 := by decide
  simp only [StatusWord.has, mergeStatus, BitVec.getLsbD_or, BitVec.getLsbD_and,
    BitVec.getLsbD_not, without, inside, decide_true, Bool.not_false, Bool.and_true,
    Bool.and_false, Bool.or_false]

section Updates
variable (arm : r.Arm)
include arm

theorem arm_writeResult (id : RegisterId) (value : Word) : (r.writeResult id value).Arm :=
  arm.of_status (by rw [RegisterFile.current_writeResult]) (r.saved_writeResult id value)

theorem arm_updateFlags (u : FlagUpdate) : (r.updateFlags u).Arm :=
  arm.of_status (StatusWord.has_thumb_of_controlBits (u.controlBits_apply r.current)) rfl

theorem arm_writeBase (base : Option Word) : (i.writeBase r base).Arm := by
  cases base with
  | none => exact arm
  | some base => exact arm.of_status rfl rfl

theorem arm_writeBlockBase (base : Word) : (i.writeBlockBase r base).Arm :=
  arm.of_status (by rw [current_writeBlockBase]) (i.saved_writeBlockBase r base)

theorem arm_commitBlock (userBank : Bool) (values : List (RegisterId × Word)) :
    (commitBlock userBank r values).Arm := by
  obtain ⟨current, saved⟩ := commitBlock_status userBank values r
  exact arm.of_status (by rw [current]) saved

theorem arm_processData :
    (i.processData r).2.Arm ∧ (i.processData r).1 = .ok () := by
  have written := arm_writeResult arm i.rd (i.dataResult r).value
  simp only [processData]
  split
  · exact ⟨arm_updateFlags arm _, rfl⟩
  · split
    · exact ⟨written, rfl⟩
    · split
      · rw [RegisterFile.restoreStatus_eq_ok written.saved]
        exact ⟨written.restored, rfl⟩
      · exact ⟨arm_updateFlags written _, rfl⟩

theorem arm_branch : (i.branch r).Arm := by
  unfold branch
  split <;> exact arm.of_status rfl rfl

theorem arm_branchExchange {t : RegisterFile} (exchanged : i.branchExchange r = .ok t) :
    t.Arm := by
  simp only [branchExchange] at exchanged
  split at exchanged <;> cases exchanged
  split <;> exact arm.of_status rfl rfl

theorem arm_multiply : (i.multiply r).Arm := by
  have written : (r.write i.rn (i.product r)).Arm := arm.of_status rfl rfl
  simp only [multiply]
  split
  · exact arm_updateFlags written _
  · exact written

theorem arm_multiplyLong : (i.multiplyLong r).Arm := by
  have written : ∀ low high, ((r.write i.rd low).write i.rn high).Arm :=
    fun _ _ => arm.of_status rfl rfl
  simp only [multiplyLong]
  split
  · refine arm.of_status ?_ rfl
    rw [RegisterFile.current_setCurrent, longFlags, StatusWord.thumb_assign _ (by decide),
      StatusWord.thumb_assign _ (by decide)]
    rfl
  · exact written _ _

theorem arm_writeStatus : (i.writeStatus r).Arm := by
  have masked : (i.statusMask &&& 0xFF000000).getLsbD StatusBit.thumb.position = false := by
    rw [BitVec.getLsbD_and, thumb_statusMask, Bool.false_and]
  simp only [writeStatus]
  split
  · split
    · rename_i s saved
      refine arm.setSavedOf _ ?_
      rw [thumb_mergeStatus s _ i.thumb_statusMask]
      exact RegisterFile.thumb_of_savedStatus arm.saved saved
    · exact arm
  · split
    · exact arm.of_status (thumb_mergeStatus _ _ i.thumb_statusMask) rfl
    · exact arm.of_status (thumb_mergeStatus _ _ masked) rfl

end Updates

theorem arm_transferCoprocessor {c : Core} (arm : c.registers.Arm) :
    (i.transferCoprocessor c).registers.Arm := by
  unfold transferCoprocessor
  split
  · split
    · unfold readCoprocessor
      dsimp only
      split
      · exact arm.of_status (thumb_mergeStatus _ _ (by decide)) rfl
      · exact arm.of_status rfl rfl
    · exact arm
  · exact arm

/-- Every instruction keeps to the one instruction set, and only a branch to a register is refused
for asking for the other. -/
theorem preserves_arm : i.Preserves Arm fun cause =>
    ∀ target, cause = .thumb target → i.shape = .branchExchange := by
  have transfers : i.TransfersKeep Arm := fun before r offset arm =>
    ⟨i.arm_writeBase arm _, arm_writeResult (i.arm_writeBase arm _) i.rd⟩
  have blocks : i.BlockTransfersKeep Arm := fun r base arm =>
    ⟨i.arm_writeBlockBase arm base, arm_commitBlock (i.arm_writeBlockBase arm base) _⟩
  have computed : ∀ r, r.Arm → (i.processData r).2.Arm ∧ ∀ cause,
      (i.processData r).1 = .error cause →
        ∀ target, cause = .thumb target → i.shape = .branchExchange := by
    intro r arm
    obtain ⟨kept, done⟩ := i.arm_processData arm
    refine ⟨kept, fun cause failed => ?_⟩
    rw [done] at failed
    cases failed
  unfold Preserves
  split
  iterate 3 exact computed
  iterate 2 exact transfers
  iterate 6 exact ⟨transfers, fun _ other => nomatch other⟩
  · refine ⟨blocks, fun r arm => ?_⟩
    rw [RegisterFile.restoreStatus_eq_ok arm.saved]
    exact arm.restored
  · exact fun r value arm => arm_writeResult arm i.rd value
  · exact fun r arm => i.arm_branch arm
  · rename_i shape
    intro r arm
    cases exchanged : i.branchExchange r with
    | ok t => exact i.arm_branchExchange arm exchanged
    | error cause => exact fun _ _ => shape
  · exact fun r arm => i.arm_multiply arm
  · exact fun r arm => i.arm_multiplyLong arm
  · exact fun r arm => arm.of_status rfl rfl
  · exact fun r arm => i.arm_writeStatus arm
  · exact fun c arm => i.arm_transferCoprocessor arm
  · exact fun r arm => arm_writeResult arm i.rd _
  iterate 2 trivial

theorem branchExchange_refused {cause : Failure} {target : Word}
    (refused : i.branchExchange r = .error cause) (thumb : cause = .thumb target) :
    target = r.read i.rm ∧ target &&& 3 ≠ 0 := by
  simp only [branchExchange] at refused
  split at refused <;> cases refused
  rename_i misaligned
  cases thumb
  exact ⟨rfl, misaligned⟩

end Instruction

namespace Board

open Instruction (preserves_arm)

variable {b b' done fetched : Board} {outcome executed : Outcome} {entries : List ExceptionKind}

/-- An instruction keeps to the one instruction set; if it is refused for asking for the other, it
is a branch to a misaligned address. -/
theorem arm_of_run {i : Instruction} {result : Except Failure Unit} (arm : b.core.registers.Arm)
    (run : b.run i.execute = (result, done)) :
    done.core.registers.Arm ∧ ∀ target, result = .error (.thumb target) →
      i.shape = .branchExchange ∧ target = b.core.registers.read i.rm ∧ target &&& 3 ≠ 0 := by
  have bus : ∀ cause : Failure, cause.onBus = true →
      ∀ target, cause = .thumb target → i.shape = .branchExchange := by
    rintro _ other target rfl
    cases other
  have kept := i.invariance_execute (b := b) bus i.preserves_arm
  rw [run] at kept
  cases result with
  | ok _ => exact ⟨kept arm, fun _ failed => nomatch failed⟩
  | error cause =>
    obtain ⟨exchanges, arm⟩ := kept arm
    refine ⟨arm, fun target failed => ?_⟩
    cases failed
    have shape := exchanges target rfl
    unfold Instruction.execute at run
    rw [shape] at run
    dsimp only at run
    rw [i.run_branchExchange] at run
    split at run <;> cases run
    rename_i refused
    exact ⟨shape, i.branchExchange_refused refused rfl⟩

theorem registers_fetchNext {result : Except Failure Word}
    (read : b.fetchNext = (result, fetched)) : fetched.core.registers = b.core.registers :=
  (fetchNext_readChange read).registers

theorem Executes.arm {result : Except Failure Outcome} (executes : b.Executes result done)
    (arm : b.core.registers.Arm) : done.core.registers.Arm := by
  refine executes.establishes (P := fun done => done.core.registers.Arm) ?_ ?_ ?_ (fun _ => id)
    (fun _ => id)
  · intro answer next read
    rw [registers_fetchNext read]
    exact arm
  · intro word next read arm
    exact arm.of_status rfl rfl
  · intro word next answer after read accepted run
    exact (arm_of_run accepted run).1

/-- The next instruction is a branch to a register that holds a misaligned target. -/
def BranchesMisaligned (b : Board) (target : Word) : Prop :=
  ∃ word fetched, b.fetchNext = (.ok word, fetched) ∧ (fetched.accept word).passes word = true ∧
    Instruction.shape ⟨word⟩ = .branchExchange ∧
    target = (fetched.accept word).core.registers.read (Instruction.rm ⟨word⟩) ∧ target &&& 3 ≠ 0

/-- Of all that can make a step fail, only a branch to a misaligned target asks for the short
instruction set. -/
theorem Executes.thumb {target : Word} (executes : b.Executes (.error (.thumb target)) done)
    (arm : b.core.registers.Arm) : b.BranchesMisaligned target := by
  cases executes with
  | brokenFetch cause fetched fatal refused =>
    have access := (b.mapCore .beginStep).access_fetch b.core.registers.pc
    rw [run_fetchNext, refused] at access
    cases access.1
  | broken word cause fetched done fatal read due run =>
    have accepted : (fetched.accept word).core.registers.Arm := by
      rw [registers_accept read]
      exact arm.of_status rfl rfl
    exact ⟨word, fetched, read, due, (arm_of_run accepted run).2 target rfl⟩

theorem Ends.arm (ends : done.Ends executed entries outcome b') (arm : done.core.registers.Arm) :
    b'.core.registers.Arm := by
  have noted : done.core.noteFault.registers.Arm := by
    rw [Core.registers_noteFault]
    exact arm
  cases ends with
  | quiet idle refused => exact noted
  | dispatched kind pending =>
    have taken : (done.core.noteFault.takeAbort kind).registers.Arm := by
      rw [Core.registers_takeAbort]
      exact noted
    exact Core.arm_enteredRegisters taken kind
  | interrupted idle asserted accepted => exact Core.arm_enteredRegisters noted .irq

theorem arm_step (b : Board) (trace : Bool) (arm : b.core.registers.Arm) :
    (b.step trace).board.core.registers.Arm := by
  have turns := b.step_turns trace
  generalize (b.step trace).entries = entries, (b.step trace).result = result,
    (b.step trace).board = b' at turns
  cases turns with
  | halted cause state => exact arm
  | failed cause done state executes => exact executes.arm arm
  | completed executed outcome entries done b' state executes ends =>
    exact ends.arm (executes.arm arm)

/-- Where a core can get from its creation or a reset. Between the steps anything may be done to it
from outside but to its status words. -/
inductive FromReset : Board → Prop
  | created (config : CoreConfig) (devices : DeviceTable) :
      FromReset ⟨Core.ofConfig config, devices⟩
  | reset (c : Core) (devices : DeviceTable) : FromReset ⟨c.reset, devices⟩
  | step (b : Board) (trace : Bool) (reached : FromReset b) : FromReset (b.step trace).board
  | edit (b b' : Board) (reached : FromReset b)
      (current : b'.core.registers.current = b.core.registers.current)
      (saved : b'.core.registers.saved = b.core.registers.saved) : FromReset b'

theorem arm_reset (c : Core) : c.reset.registers.Arm :=
  c.cleared.arm_enteredRegisters RegisterFile.arm_initial .reset

theorem FromReset.arm (reached : b.FromReset) : b.core.registers.Arm := by
  induction reached with
  | created config devices => exact arm_reset _
  | reset c devices => exact arm_reset c
  | step b trace reached ih => exact b.arm_step trace ih
  | edit b b' reached current saved ih => exact ih.of_status (by rw [current]) saved

/-- From a reset on no status word ever asks for the short instruction set, so that restoring one
never fails; and a step fails for it only at a branch to a target that is not aligned. -/
theorem stays_in_arm_state (b : Board) (reached : b.FromReset) :
    b.core.registers.current.has .thumb = false ∧
    (∀ s ∈ b.core.registers.saved, s.has .thumb = false) ∧
    (∀ r : RegisterFile, r.saved = b.core.registers.saved →
      r.restoreStatus = .ok (r.setCurrent (r.savedStatus.getD r.current))) ∧
    ∀ trace target, (b.step trace).result = .error (.thumb target) →
      b.BranchesMisaligned target := by
  have arm := reached.arm
  refine ⟨arm.current, arm.saved, fun r saved => ?_, fun trace target failed => ?_⟩
  · exact RegisterFile.restoreStatus_eq_ok (saved ▸ arm.saved)
  · have turns := b.step_turns trace
    rw [failed] at turns
    generalize (b.step trace).entries = entries, (b.step trace).board = b' at turns
    cases turns with
    | failed cause done state executes => exact executes.thumb arm

/-- Sets every bit of a saved status word and of the current one, as far as it may, and branches to
where the short instruction set would be expected. -/
def setsEveryBit : Board where
  core :=
    { Core.ofConfig .bareMetal with
      ram := ⟨⟨#[0, 0, 0xE0, 0xE3, 0, 0xF0, 0x6F, 0xE1, 0, 0xF0, 0x2F, 0xE1, 0x10, 0xFF, 0x2F,
        0xE1]⟩⟩ }
  devices := .empty

theorem stays_in_arm_state_setsEveryBit :
    let set := (((setsEveryBit.step false).board.step false).board.step false).board
    set.core.registers.current = ⟨0xFFFFFFDF⟩ ∧ set.core.registers.current.has .thumb = false ∧
      set.core.registers.savedOf .supervisor = some ⟨0xFFFFFFDF⟩ ∧
      set.BranchesMisaligned 0xFFFFFFFF := by
  have start : setsEveryBit.FromReset := .edit _ _ (.created .bareMetal .empty) rfl rfl
  have reached := start.step _ false |>.step _ false |>.step _ false
  obtain ⟨current, -, -, fails⟩ := stays_in_arm_state _ reached
  exact ⟨by rfl, current, by rfl, fails false 0xFFFFFFFF (by rfl)⟩

end Board
end ArmMachine
