import ArmMachine.Proofs.Execution.Actions
import ArmMachine.Proofs.Memory
import ArmMachine.Proofs.Paging.Effects

/-! Bus accesses one at a time. They leave registers, decode state and counters alone; only a write
that succeeds touches memory, by one store; and an access that aborts leaves its record. -/
namespace ArmMachine

namespace Board

/-- Only memory management, memory and devices differ, and translations are decided as before. -/
structure BusChange (b b' : Board) : Prop where
  core : b'.core = { b.core with mmu := b'.core.mmu, ram := b'.core.ram }
  tables : b.core.mmu.SameTables b'.core.mmu

/-- A bus change that leaves memory alone. -/
structure ReadChange (b b' : Board) : Prop extends b.BusChange b' where
  ram : b'.core.ram = b.core.ram

@[refl] theorem BusChange.refl (b : Board) : b.BusChange b := ⟨rfl, .refl _⟩

theorem BusChange.trans {b b' b'' : Board} (first : b.BusChange b') (next : b'.BusChange b'') :
    b.BusChange b'' := by
  refine ⟨?_, first.tables.trans next.tables⟩
  rw [next.core, first.core]

theorem BusChange.registers {b b' : Board} (change : b.BusChange b') :
    b'.core.registers = b.core.registers := by rw [change.core]

theorem BusChange.decode {b b' : Board} (change : b.BusChange b') :
    b'.core.decode = b.core.decode := by rw [change.core]

@[refl] theorem ReadChange.refl (b : Board) : b.ReadChange b := ⟨.refl b, rfl⟩

theorem ReadChange.trans {b b' b'' : Board} (first : b.ReadChange b') (next : b'.ReadChange b'') :
    b.ReadChange b'' :=
  ⟨first.toBusChange.trans next.toBusChange, next.ram.trans first.ram⟩

/-- Memory stays as it is, whatever the result. -/
def readContract : Contract := ⟨ReadChange, fun _ => ReadChange⟩

theorem readContract_sequential : readContract.Sequential := ⟨.refl, .trans, .trans⟩

theorem readContract_admits {α : Type} {b : Board} {r : Except Failure α × Board} :
    readContract.Admits b r ↔ b.ReadChange r.2 := Contract.always_admits

/-- An action that succeeds leaves the fault flag as it was, and no data abort to dispatch; one that
aborts leaves the record of its abort. -/
def faultContract : Contract where
  ok b b' := b'.core.mmu.faultPending = b.core.mmu.faultPending ∧
    (b.core.decode.pending ≠ .dataAbort → b'.core.decode.pending ≠ .dataAbort)
  fail cause _ b' := ∀ fault, cause = .abort fault → b'.core.mmu.Records fault

theorem faultContract_sequential : faultContract.Sequential where
  refl _ := ⟨rfl, id⟩
  trans first next := ⟨next.1.trans first.1, next.2 ∘ first.2⟩
  fail _ failed := failed

section Primitive
variable (b : Board)

section Admits
variable {c : Contract} {v address value : Word} {access : Access} {width : Width}

/-- A contract admits a translation if it admits every answer of the unit. -/
theorem admits_translateStep
    (answered : ∀ t, b.core.mmu.Answers (readDescriptor b.core.ram) v access t → ∀ p,
      t.result = .ok p → c.ok b (b.mapCore fun core => { core with mmu := t.mmu }))
    (failed : ∀ t, b.core.mmu.Answers (readDescriptor b.core.ram) v access t → ∀ cause,
      t.result = .error cause → c.fail cause b (b.mapCore fun core => { core with mmu := t.mmu })) :
    c.Admits b (b.translateStep v access) := by
  have answers := b.core.mmu.translate_answers (readDescriptor b.core.ram) v access
  unfold translateStep
  generalize b.core.mmu.translate (readDescriptor b.core.ram) v access = t at answers
  cases result : t.result with
  | ok p =>
    dsimp only
    rw [result]
    exact answered t answers p result
  | error cause =>
    dsimp only
    rw [result]
    exact failed t answers cause result

/-- A contract admits a physical read if it admits that devices answer and that nothing does. -/
theorem admits_physicalReadStep (answered : ∀ devices, c.ok b { b with devices })
    (unmapped : c.fail (.unmapped address) b b) :
    c.Admits b (b.physicalReadStep address width) := by
  unfold physicalReadStep
  split
  · exact answered b.devices
  · split
    · exact answered b.devices
    · split
      · exact answered _
      · exact unmapped

/-- A contract admits a physical write if it admits that memory and devices change and that nothing
takes the value. -/
theorem admits_physicalWriteStep
    (written : ∀ ram devices, c.ok b { core := { b.core with ram }, devices })
    (unmapped : c.fail (.unmapped address) b b) :
    c.Admits b (b.physicalWriteStep address value width) := by
  unfold physicalWriteStep
  split
  · exact written b.core.ram b.devices
  · split
    · exact written _ b.devices
    · split
      · exact written b.core.ram _
      · exact unmapped

end Admits

theorem translateStep_readChange (v : Word) (access : Access) :
    b.ReadChange (b.translateStep v access).2 :=
  ⟨⟨rfl, (b.core.mmu.translate_answers (readDescriptor b.core.ram) v access).sameTables⟩, rfl⟩

theorem translateStep_faults (v : Word) (access : Access) :
    faultContract.Admits b (b.translateStep v access) := by
  refine b.admits_translateStep (fun t answers p answered => ?_) fun t answers cause failed => ?_
  · exact ⟨(answers.sameFault answered).pending, id⟩
  · rintro fault rfl
    exact answers.faultAfter (readDescriptor_readsFatally _) failed

/-- A physical read changes devices only. -/
theorem core_physicalReadStep (address : Word) (width : Width) :
    (b.physicalReadStep address width).2.core = b.core := by
  unfold physicalReadStep
  split
  · rfl
  · split
    · rfl
    · split <;> rfl

theorem physicalReadStep_readChange (address : Word) (width : Width) :
    b.ReadChange (b.physicalReadStep address width).2 := by
  have same := b.core_physicalReadStep address width
  exact ⟨⟨by rw [same], by rw [same]⟩, by rw [same]⟩

theorem physicalReadStep_faults (address : Word) (width : Width) :
    faultContract.Admits b (b.physicalReadStep address width) :=
  b.admits_physicalReadStep (fun _ => ⟨rfl, id⟩) fun _ other => nomatch other

/-- A physical write leaves the core as it is, but for memory. -/
theorem core_physicalWriteStep (address value : Word) (width : Width) :
    (b.physicalWriteStep address value width).2.core =
      { b.core with ram := b.core.ram.afterWrite address value width } := by
  unfold physicalWriteStep Ram.afterWrite
  split
  · rename_i counter
    simp [counter]
  · rename_i other
    split
    · rename_i covered
      simp [other, covered]
    · rename_i uncovered
      simp only [uncovered, and_false, Bool.false_eq_true, if_false]
      split <;> rfl

theorem physicalWriteStep_error {address value : Word} {width : Width} {cause : Failure}
    {b' : Board} (failed : b.physicalWriteStep address value width = (.error cause, b')) :
    b' = b := by
  unfold physicalWriteStep at failed
  split at failed
  · cases failed
  · split at failed
    · cases failed
    · split at failed <;> cases failed
      rfl

theorem physicalWriteStep_busChange (address value : Word) (width : Width) :
    b.BusChange (b.physicalWriteStep address value width).2 := by
  have same := b.core_physicalWriteStep address value width
  exact ⟨by rw [same], by rw [same]⟩

theorem physicalWriteStep_faults (address value : Word) (width : Width) :
    faultContract.Admits b (b.physicalWriteStep address value width) :=
  b.admits_physicalWriteStep (fun _ _ => ⟨rfl, id⟩) fun _ other => nomatch other

end Primitive

section Claimed
variable {b : Board} {address value : Word} {width : Width} {devices : DeviceTable}

theorem physicalReadStep_counter (counter : address = AddressMap.instructionCounter) :
    b.physicalReadStep address width = (.ok (b.core.instructionCount &&& width.valueMask), b) := by
  rw [physicalReadStep, if_pos counter]

theorem physicalReadStep_memory (other : address ≠ AddressMap.instructionCounter)
    (memory : b.core.ram.read? address width = some value) :
    b.physicalReadStep address width = (.ok value, b) := by
  rw [physicalReadStep, if_neg other, memory]

theorem physicalReadStep_device (other : address ≠ AddressMap.instructionCounter)
    (outside : b.core.ram.read? address width = none)
    (shown : b.devices.read address width = (some value, devices)) :
    b.physicalReadStep address width = (.ok value, { b with devices }) := by
  rw [physicalReadStep, if_neg other, outside]
  dsimp only
  rw [shown]

theorem physicalReadStep_unclaimed (other : address ≠ AddressMap.instructionCounter)
    (outside : b.core.ram.read? address width = none)
    (silent : b.devices.read address width = (none, devices)) :
    b.physicalReadStep address width = (.error (.unmapped address), b) := by
  rw [physicalReadStep, if_neg other, outside]
  dsimp only
  rw [silent]

theorem physicalWriteStep_counter (counter : address = AddressMap.instructionCounter) :
    b.physicalWriteStep address value width = (.ok (), b) := by
  rw [physicalWriteStep, if_pos counter]

theorem physicalWriteStep_memory (other : address ≠ AddressMap.instructionCounter)
    (covered : b.core.ram.covers address width = true) :
    b.physicalWriteStep address value width =
      (.ok (), b.mapCore fun c => { c with ram := c.ram.store address value width }) := by
  rw [physicalWriteStep, if_neg other, if_pos covered]
  rfl

theorem physicalWriteStep_device (other : address ≠ AddressMap.instructionCounter)
    (outside : ¬ b.core.ram.covers address width = true)
    (claimed : b.devices.claims address = true) :
    b.physicalWriteStep address value width =
      (.ok (), { b with devices := b.devices.write address value width }) := by
  rw [physicalWriteStep, if_neg other, if_neg outside, if_pos claimed]

theorem physicalWriteStep_unclaimed (other : address ≠ AddressMap.instructionCounter)
    (outside : ¬ b.core.ram.covers address width = true)
    (unclaimed : ¬ b.devices.claims address = true) :
    b.physicalWriteStep address value width = (.error (.unmapped address), b) := by
  rw [physicalWriteStep, if_neg other, if_neg outside, if_neg unclaimed]

end Claimed

section Translated
variable (b : Board) (privileged : Bool) (v value : Word) (width : Width)

/-- A contract that admits translations and physical accesses admits reads, fetches and writes. -/
theorem admits_read {c : Contract} (sequential : c.Sequential)
    (translates : ∀ b v access, c.Admits b (translateStep b v access))
    (reads : ∀ b address width, c.Admits b (physicalReadStep b address width)) :
    c.Admits b (b.run (read privileged v width)) := by
  refine sequential.bind ?_ fun address b' _ => ?_
  · rw [run_translate]
    exact translates b v _
  · rw [run_physicalRead]
    exact reads b' address width

theorem admits_fetch {c : Contract} (sequential : c.Sequential)
    (translates : ∀ b v access, c.Admits b (translateStep b v access))
    (reads : ∀ b address width, c.Admits b (physicalReadStep b address width)) :
    c.Admits b (b.run (fetch v)) := by
  apply Contract.Sequential.bindRegisters
  refine sequential.bind ?_ fun address b' _ => ?_
  · rw [run_translate]
    exact translates b v _
  · rw [run_physicalRead]
    exact reads b' address .word

theorem admits_write {c : Contract} (sequential : c.Sequential)
    (translates : ∀ b v access, c.Admits b (translateStep b v access))
    (writes : ∀ b address value width, c.Admits b (physicalWriteStep b address value width)) :
    c.Admits b (b.run (write privileged v value width)) := by
  refine sequential.bind ?_ fun address b' _ => ?_
  · rw [run_translate]
    exact translates b v _
  · rw [run_physicalWrite]
    exact writes b' address value width

theorem read_readChange : b.ReadChange (b.run (read privileged v width)).2 :=
  readContract_admits.mp <| b.admits_read privileged v width readContract_sequential
    (fun b v access => readContract_admits.mpr (b.translateStep_readChange v access))
    (fun b address width => readContract_admits.mpr (b.physicalReadStep_readChange address width))

theorem fetch_readChange : b.ReadChange (b.run (fetch v)).2 :=
  readContract_admits.mp <| b.admits_fetch v readContract_sequential
    (fun b v access => readContract_admits.mpr (b.translateStep_readChange v access))
    (fun b address width => readContract_admits.mpr (b.physicalReadStep_readChange address width))

theorem read_faults : faultContract.Admits b (b.run (read privileged v width)) :=
  b.admits_read privileged v width faultContract_sequential translateStep_faults
    physicalReadStep_faults

theorem fetch_faults : faultContract.Admits b (b.run (fetch v)) :=
  b.admits_fetch v faultContract_sequential translateStep_faults physicalReadStep_faults

theorem write_faults : faultContract.Admits b (b.run (write privileged v value width)) :=
  b.admits_write privileged v value width faultContract_sequential translateStep_faults
    physicalWriteStep_faults

variable {b privileged v value width}

/-- A write that fails has only looked up its address. -/
theorem write_error {cause : Failure} {b' : Board}
    (failed : b.run (write privileged v value width) = (.error cause, b')) : b.ReadChange b' := by
  have looked := b.translateStep_readChange v (.data true privileged width)
  rw [← run_translate] at looked
  obtain refused | ⟨address, middle, translated, unclaimed⟩ := (b.run_bind_eq_error).mp failed
  · rw [refused] at looked
    exact looked
  · rw [translated] at looked
    rw [run_physicalWrite] at unclaimed
    rw [middle.physicalWriteStep_error unclaimed]
    exact looked

theorem write_ok {b' : Board} (written : b.run (write privileged v value width) = (.ok (), b')) :
    b.BusChange b' ∧ ∃ address, b'.core.ram = b.core.ram.afterWrite address value width := by
  obtain ⟨address, middle, translated, stored⟩ := (b.run_bind_eq_ok).mp written
  have looked := b.translateStep_readChange v (.data true privileged width)
  rw [← run_translate, translated] at looked
  rw [run_physicalWrite] at stored
  have change := middle.physicalWriteStep_busChange address value width
  have core := middle.core_physicalWriteStep address value width
  rw [stored] at change core
  refine ⟨looked.toBusChange.trans change, address, ?_⟩
  rw [core, ← looked.ram]

theorem write_busChange (b : Board) (privileged : Bool) (v value : Word) (width : Width) :
    b.BusChange (b.run (write privileged v value width)).2 := by
  generalize written : b.run (write privileged v value width) = r
  obtain ⟨result, b'⟩ := r
  cases result with
  | ok _ => exact (write_ok written).1
  | error cause => exact (write_error written).toBusChange

end Translated
end Board
end ArmMachine
