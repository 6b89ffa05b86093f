import ArmMachine.Proofs.Device.Standard
import ArmMachine.Proofs.Execution.Precision

/-! What every completed step of a machine leaves for the next one: a running core without a fault
to dispatch, on the standard devices. -/
namespace ArmMachine
namespace Board

/-- The core runs on as it did, the fetched word stays on record, and standard devices stay
standard. -/
structure Steady (b b' : Board) : Prop where
  runState : b'.core.runState = b.core.runState
  word : b'.core.decode.word = b.core.decode.word
  shape : b'.core.decode.shape = b.core.decode.shape
  devices : b.devices.Standard → b'.devices.Standard

@[refl] theorem Steady.refl (b : Board) : b.Steady b := ⟨rfl, rfl, rfl, id⟩

theorem Steady.trans {b b' b'' : Board} (first : b.Steady b') (next : b'.Steady b'') :
    b.Steady b'' :=
  ⟨next.runState.trans first.runState, next.word.trans first.word, next.shape.trans first.shape,
    next.devices ∘ first.devices⟩

def steadyContract : Contract := ⟨Steady, fun _ => Steady⟩

theorem steadyContract_sequential : steadyContract.Sequential := ⟨.refl, .trans, .trans⟩

theorem steadyContract_admits {α : Type} {b : Board} {r : Except Failure α × Board} :
    steadyContract.Admits b r ↔ b.Steady r.2 := Contract.always_admits

section Primitive
variable (b : Board)

theorem translateStep_steady (v : Word) (access : Access) :
    steadyContract.Admits b (b.translateStep v access) :=
  steadyContract_admits.mpr ⟨rfl, rfl, rfl, id⟩

theorem physicalReadStep_steady (address : Word) (width : Width) :
    steadyContract.Admits b (b.physicalReadStep address width) := by
  refine steadyContract_admits.mpr ?_
  have core := b.core_physicalReadStep address width
  refine ⟨by rw [core], by rw [core], by rw [core], fun standard => ?_⟩
  have read := standard.read address width
  unfold physicalReadStep
  split
  · exact standard
  · split
    · exact standard
    · split
      · rename_i answered
        rw [answered] at read
        exact read
      · exact standard

theorem physicalWriteStep_steady (address value : Word) (width : Width) :
    steadyContract.Admits b (b.physicalWriteStep address value width) := by
  refine steadyContract_admits.mpr ?_
  have core := b.core_physicalWriteStep address value width
  refine ⟨by rw [core], by rw [core], by rw [core], fun standard => ?_⟩
  unfold physicalWriteStep
  split
  · exact standard
  · split
    · exact standard
    · split
      · exact standard.write address value width
      · exact standard

theorem steadyContract_primitives (privileged : Bool) : steadyContract.Primitives privileged where
  read b p v width _ := b.admits_read p v width steadyContract_sequential translateStep_steady
    physicalReadStep_steady
  write b p v value width _ := b.admits_write p v value width steadyContract_sequential
    translateStep_steady physicalWriteStep_steady
  registers _ _ := ⟨rfl, rfl, rfl, id⟩
  pending _ _ _ := ⟨rfl, rfl, rfl, id⟩
  coprocessor _ _ _ := ⟨rfl, rfl, rfl, id⟩
  refuse b _ _ := .refl b

end Primitive

variable {b b' fetched done : Board} {word : Word}

theorem steady_of_run {i : Instruction} {result : Except Failure Unit}
    (run : b.run i.execute = (result, done)) : b.Steady done :=
  steadyContract_admits.mp
    (Instruction.admits_of_run steadyContract_sequential (steadyContract_primitives _) rfl run)

theorem steady_of_fetchNext {result : Except Failure Word}
    (read : b.fetchNext = (result, fetched)) : (b.mapCore .beginStep).Steady fetched := by
  have admits := (b.mapCore .beginStep).admits_fetch b.core.registers.pc steadyContract_sequential
    translateStep_steady physicalReadStep_steady
  rw [run_fetchNext, read] at admits
  exact steadyContract_admits.mp admits

/-- Nothing stands in the way of the next step, and the devices are those of a machine. -/
structure Sound (b : Board) : Prop where
  running : b.core.runState = .running
  clear : b.core.mmu.faultPending = false
  standard : b.devices.Standard

theorem Executes.runState_devices {result : Except Failure Outcome}
    (executes : b.Executes result done) :
    done.core.runState = b.core.runState ∧ (b.devices.Standard → done.devices.Standard) := by
  refine executes.keeps (P := fun done => done.core.runState = b.core.runState ∧
    (b.devices.Standard → done.devices.Standard)) ?_ ?_ ?_
  · rintro first next same ⟨state, standard⟩
    rw [same.runState, same.devices]
    exact ⟨state, standard⟩
  · intro answer next read
    have steady := steady_of_fetchNext read
    exact ⟨steady.runState, steady.devices⟩
  · rintro word next answer after read ⟨state, standard⟩ run
    have steady := steady_of_run run
    exact ⟨steady.runState.trans state, steady.devices ∘ standard⟩

/-- After an instruction a fault is pending only together with its abort. -/
theorem Executes.clear_or_abort (clear : b.core.mmu.faultPending = false) {outcome : Outcome}
    (executes : b.Executes (.ok outcome) done) :
    done.core.mmu.faultPending = false ∨
      ∃ kind, Core.isAbort kind = true ∧
        done.core.noteFault.decode.pending.exception? = some kind := by
  cases executes with
  | unfetched fault fetched refused =>
    have other : Pending.prefetchAbort ≠ .none := by decide
    refine .inr ⟨.prefetchAbort, rfl, ?_⟩
    rw [Core.noteFault_of_pending other]
    rfl
  | skipped word fetched read idle => exact .inl ((faultPending_accept read).trans clear)
  | retired word fetched done read due run =>
    exact .inl (((faults_of_run run).1.trans (faultPending_accept read)).trans clear)
  | aborted word fault fetched unwound read due run =>
    refine .inr ⟨.dataAbort, rfl, ?_⟩
    rw [noteFault_of_aborted read run]
    rfl

theorem Dispatches.clear {executed dispatched : Outcome} {settled : Board}
    (dispatches : done.Dispatches executed dispatched settled)
    (sources : done.core.mmu.faultPending = false ∨
      ∃ kind, Core.isAbort kind = true ∧
        done.core.noteFault.decode.pending.exception? = some kind) :
    settled.core.mmu.faultPending = false := by
  obtain clear | ⟨kind, abort, raised⟩ := sources
  · obtain same | taken := dispatches.settles.mmu
    · rw [same, clear]
    · rw [taken]
      rfl
  · cases dispatches with
    | nothing idle =>
      rw [idle] at raised
      cases raised
    | entered kind' pending =>
      rw [raised] at pending
      cases pending
      exact Core.faultPending_takeAbort done.core.noteFault abort

theorem Sound.step (sound : b.Sound) {outcome : Outcome} (steps : b.Steps (.ok outcome) b') :
    b'.poll.Sound := by
  cases steps with
  | halted cause state =>
    rw [sound.running] at state
    cases state
  | completed executed dispatched outcome done settled b' state executes dispatches interrupts =>
    obtain ⟨ran, devices⟩ := executes.runState_devices
    have settles := dispatches.settles
    obtain ⟨runState, -, mmu, sameDevices⟩ := interrupts.keeps
    have standard := devices sound.standard
    rw [← settles.devices, ← sameDevices] at standard
    refine ⟨?_, ?_, standard.poll⟩
    · exact ((runState.trans settles.runState).trans ran).trans sound.running
    · exact (congrArg Mmu.faultPending mmu).trans
        (dispatches.clear (executes.clear_or_abort sound.clear))

end Board
end ArmMachine
