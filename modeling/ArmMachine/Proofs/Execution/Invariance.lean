import ArmMachine.Proofs.Execution.Stages

/-! Properties of the registers that instructions keep. The bus leaves the registers alone, so all
that counts is what an instruction of each shape makes of them, and with what it refuses. -/
namespace ArmMachine

/-- The failures of a bus access. -/
def Failure.onBus : Failure → Bool
  | .abort _ | .unmapped _ | .permissionConfiguration _ => true
  | .thumb _ | .signedStore _ | .ramTooLarge _ _ | .imageOutOfRange _ _ => false

theorem Tables.Meets.onBus {ram : Ram} {control : Word} {cause : Failure}
    (meets : Tables.Meets (Board.readDescriptor ram) control cause) : cause.onBus = true := by
  obtain rfl | ⟨address, missing⟩ := meets
  · rfl
  · unfold Board.readDescriptor at missing
    split at missing <;> cases missing
    rfl

/-- Registers with a property, or a refusal with one of some causes. -/
def RegisterFile.Yields (P : RegisterFile → Prop) (E : Failure → Prop) :
    Except Failure RegisterFile → Prop
  | .ok r => P r
  | .error cause => E cause

namespace Board

/-- The registers stay as they are, and a failure is one of the bus. -/
def accessContract : Contract where
  ok b b' := b'.core.registers = b.core.registers
  fail cause b b' := cause.onBus = true ∧ b'.core.registers = b.core.registers

theorem accessContract_sequential : accessContract.Sequential where
  refl _ := rfl
  trans first next := next.trans first
  fail first failed := ⟨failed.1, failed.2.trans first⟩

section Primitive
variable (b : Board)

theorem access_translateStep (v : Word) (access : Access) :
    accessContract.Admits b (b.translateStep v access) := by
  refine b.admits_translateStep (fun _ _ _ _ => rfl) fun t answers cause failed => ⟨?_, rfl⟩
  obtain ⟨a, rfl, records⟩ | ⟨meets, same⟩ := answers.failure failed
  · rfl
  · exact meets.onBus

theorem access_physicalReadStep (address : Word) (width : Width) :
    accessContract.Admits b (b.physicalReadStep address width) :=
  b.admits_physicalReadStep (fun _ => rfl) ⟨rfl, rfl⟩

theorem access_physicalWriteStep (address value : Word) (width : Width) :
    accessContract.Admits b (b.physicalWriteStep address value width) :=
  b.admits_physicalWriteStep (fun _ _ => rfl) ⟨rfl, rfl⟩

theorem access_read (privileged : Bool) (v : Word) (width : Width) :
    accessContract.Admits b (b.run (read privileged v width)) :=
  b.admits_read privileged v width accessContract_sequential access_translateStep
    access_physicalReadStep

theorem access_fetch (v : Word) : accessContract.Admits b (b.run (fetch v)) :=
  b.admits_fetch v accessContract_sequential access_translateStep access_physicalReadStep

theorem access_write (privileged : Bool) (v value : Word) (width : Width) :
    accessContract.Admits b (b.run (write privileged v value width)) :=
  b.admits_write privileged v value width accessContract_sequential access_translateStep
    access_physicalWriteStep

end Primitive

/-- A property of the registers is kept whatever the result, and a failure has one of some causes.
-/
def invariance (P : RegisterFile → Prop) (E : Failure → Prop) : Contract where
  ok b b' := P b.core.registers → P b'.core.registers
  fail cause b b' := P b.core.registers → E cause ∧ P b'.core.registers

section Invariance
variable {P : RegisterFile → Prop} {E : Failure → Prop} {α : Type} {b : Board}

theorem invariance_sequential : (invariance P E).Sequential where
  refl _ := id
  trans first next := next ∘ first
  fail first failed := failed ∘ first

theorem invariance_modify {f : RegisterFile → RegisterFile}
    (kept : P b.core.registers → P (f b.core.registers)) :
    (invariance P E).Admits b (b.run (modifyRegisters f)) := kept

/-- New registers are taken over as a whole, or refused. -/
theorem invariance_replace {x : Except Failure RegisterFile}
    (yields : P b.core.registers → RegisterFile.Yields P E x) :
    (invariance P E).Admits b (b.run (ofExcept x >>= fun r => modifyRegisters fun _ => r)) := by
  rw [run_bind, run_ofExcept]
  cases x with
  | ok r => exact yields
  | error cause => exact fun holds => ⟨yields holds, holds⟩

theorem invariance_of_access (bus : ∀ cause, cause.onBus = true → E cause)
    {r : Except Failure α × Board} (access : accessContract.Admits b r) :
    (invariance P E).Admits b r := by
  obtain ⟨result, b'⟩ := r
  cases result with
  | ok a =>
    intro holds
    rw [show b'.core.registers = b.core.registers from access]
    exact holds
  | error cause =>
    intro holds
    rw [access.2]
    exact ⟨bus cause access.1, holds⟩

end Invariance
end Board

namespace Instruction

/-- Single transfers keep a property of the registers, loads as well as stores. The plan is made
from the registers before the access. -/
def TransfersKeep (i : Instruction) (P : RegisterFile → Prop) : Prop :=
  ∀ before r offset, P r →
    P (i.writeBase r (i.transferPlan before offset).newBase) ∧
      ∀ value, P ((i.writeBase r (i.transferPlan before offset).newBase).writeResult i.rd value)

/-- Block transfers keep a property of the registers, loads as well as stores. -/
def BlockTransfersKeep (i : Instruction) (P : RegisterFile → Prop) : Prop :=
  ∀ r base, P r → P (i.writeBlockBase r base) ∧
    ∀ values, P (commitBlock i.blockUsesUserBank (i.writeBlockBase r base) values)

/-- What an instruction makes of the registers keeps a property of them, and what it refuses by
itself it refuses with one of some causes. -/
def Preserves (i : Instruction) (P : RegisterFile → Prop) (E : Failure → Prop) : Prop :=
  match i.shape with
  | .dataImmediate | .dataShiftImmediate | .dataShiftRegister =>
    ∀ r, P r → P (i.processData r).2 ∧ ∀ cause, (i.processData r).1 = .error cause → E cause
  | .transferImmediate | .transferRegister => i.TransfersKeep P
  | .halfwordRegister | .halfwordImmediate | .signedByteRegister | .signedByteImmediate
  | .signedHalfwordRegister | .signedHalfwordImmediate =>
    i.TransfersKeep P ∧ E (.signedStore i.word)
  | .blockTransfer =>
    i.BlockTransfersKeep P ∧ ∀ r, P r → RegisterFile.Yields P E r.restoreStatus
  | .swap => ∀ r value, P r → P (r.writeResult i.rd value)
  | .branch => ∀ r, P r → P (i.branch r)
  | .branchExchange => ∀ r, P r → RegisterFile.Yields P E (i.branchExchange r)
  | .multiply => ∀ r, P r → P (i.multiply r)
  | .multiplyLong => ∀ r, P r → P (i.multiplyLong r)
  | .readStatus => ∀ r, P r → P (i.readStatus r)
  | .writeStatus => ∀ r, P r → P (i.writeStatus r)
  | .coprocessor => ∀ c : Core, P c.registers → P (i.transferCoprocessor c).registers
  | .leadingZeros => ∀ r, P r → P (i.countLeadingZeros r)
  | .softwareInterrupt | .undefined => True

section Handlers
variable {P : RegisterFile → Prop} {E : Failure → Prop} {b : Board} (i : Instruction)
  (bus : ∀ cause, cause.onBus = true → E cause)
open Board (invariance invariance_modify invariance_sequential invariance_of_access)

theorem invariance_processData
    (kept : ∀ r, P r → P (i.processData r).2 ∧
      ∀ cause, (i.processData r).1 = .error cause → E cause) :
    (invariance P E).Admits b (b.run i.processDataOnBoard) := by
  have computed := kept b.core.registers
  rw [run_processData]
  cases processed : (i.processData b.core.registers).1 with
  | ok _ => exact fun holds => (computed holds).1
  | error cause => exact fun holds => ⟨(computed holds).2 cause processed, (computed holds).1⟩

theorem invariance_branchExchange
    (kept : ∀ r, P r → RegisterFile.Yields P E (i.branchExchange r)) :
    (invariance P E).Admits b (b.run i.branchExchangeOnBoard) :=
  Contract.Sequential.bindRegisters (Board.invariance_replace (kept _))

include bus

theorem invariance_loadAlong (plan : TransferPlan) (width : Width) (convert : Word → Word)
    (kept : ∀ r value, P r → P ((i.writeBase r plan.newBase).writeResult i.rd value)) :
    (invariance P E).Admits b (b.run (i.loadAlong plan width convert)) :=
  invariance_sequential.bind (invariance_of_access bus (b.access_read _ _ _)) fun _ _ _ =>
    invariance_modify (kept _ _)

theorem invariance_storeAlong (plan : TransferPlan) (width : Width)
    (kept : ∀ r, P r → P (i.writeBase r plan.newBase)) :
    (invariance P E).Admits b (b.run (i.storeAlong plan width)) := by
  apply Contract.Sequential.bindRegisters
  exact invariance_sequential.bind (invariance_of_access bus (b.access_write _ _ _ _))
    fun _ _ _ => invariance_modify (kept _)

theorem invariance_transfer (kept : i.TransfersKeep P) :
    (invariance P E).Admits b (b.run i.transfer) := by
  apply Contract.Sequential.bindRegisters
  dsimp only
  split
  · exact i.invariance_loadAlong bus _ _ _ fun r value holds => (kept _ r _ holds).2 value
  · exact i.invariance_storeAlong bus _ _ fun r holds => (kept _ r _ holds).1

theorem invariance_transferHalfword (kept : i.TransfersKeep P)
    (signedStore : E (.signedStore i.word)) :
    (invariance P E).Admits b (b.run i.transferHalfword) := by
  rw [run_transferHalfword]
  split
  · exact fun holds => ⟨signedStore, holds⟩
  · dsimp only
    split
    · exact i.invariance_loadAlong bus _ _ _ fun r value holds => (kept _ r _ holds).2 value
    · exact i.invariance_storeAlong bus _ _ fun r holds => (kept _ r _ holds).1

theorem invariance_swap (kept : ∀ r value, P r → P (r.writeResult i.rd value)) :
    (invariance P E).Admits b (b.run i.swap) := by
  apply Contract.Sequential.bindRegisters
  refine invariance_sequential.bind (invariance_of_access bus (b.access_read _ _ _))
    fun _ b' _ => ?_
  exact invariance_sequential.bind (invariance_of_access bus (b'.access_write _ _ _ _))
    fun _ _ _ => invariance_modify (kept _ _)

omit bus in
theorem access_writeBlock (privileged : Bool) (address : Word) (values : List Word) :
    Board.accessContract.Admits b (b.run (writeBlock privileged address values)) := by
  induction values generalizing b address with
  | nil => rfl
  | cons value rest ih =>
    exact Board.accessContract_sequential.bind (b.access_write _ _ _ _) fun _ _ _ => ih _

theorem invariance_loadBlock (kept : i.BlockTransfersKeep P)
    (restored : ∀ r, P r → RegisterFile.Yields P E r.restoreStatus) :
    (invariance P E).Admits b (b.run i.loadBlock) := by
  apply Contract.Sequential.bindRegisters
  have reads := admits_readBlock (b := b) (p := b.core.registers.current.privileged)
    Board.accessContract_sequential (fun b address => b.access_read _ address .word)
  refine invariance_sequential.bind (invariance_of_access bus (reads _ _)) fun values b' _ => ?_
  refine invariance_sequential.bind
    (invariance_modify fun holds => (kept _ _ holds).2 values) fun _ b'' _ => ?_
  split
  · exact Contract.Sequential.bindRegisters (Board.invariance_replace (restored _))
  · exact id

theorem invariance_storeBlock (kept : i.BlockTransfersKeep P) :
    (invariance P E).Admits b (b.run i.storeBlock) := by
  apply Contract.Sequential.bindRegisters
  exact invariance_sequential.bind (invariance_of_access bus (access_writeBlock _ _ _))
    fun _ _ _ => invariance_modify fun holds => (kept _ _ holds).1

/-- An instruction keeps what all it makes of the registers keeps. -/
theorem invariance_execute (preserves : i.Preserves P E) :
    (invariance P E).Admits b (b.run i.execute) := by
  unfold Preserves at preserves
  unfold execute
  generalize i.shape = shape at preserves ⊢
  cases shape
  iterate 3 exact i.invariance_processData preserves
  iterate 2 exact i.invariance_transfer bus preserves
  iterate 6 exact i.invariance_transferHalfword bus preserves.1 preserves.2
  · dsimp only [transferBlock]
    split
    · exact i.invariance_loadBlock bus preserves.1 preserves.2
    · exact i.invariance_storeBlock bus preserves.1
  · exact invariance_modify (preserves _)
  · exact i.invariance_branchExchange preserves
  iterate 2 exact invariance_modify (preserves _)
  · exact i.invariance_swap bus preserves
  iterate 2 exact invariance_modify (preserves _)
  · exact preserves b.core
  · exact invariance_modify (preserves _)
  iterate 2 exact id

end Handlers
end Instruction
end ArmMachine
