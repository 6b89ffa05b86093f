import ArmMachine.Proofs.Execution.Accounting
import ArmMachine.Proofs.Execution.Halting

/-! The bare-metal profile. Nothing that a program or a reset does switches paging on, so addresses
stand for themselves, the caches hold nothing, and no access is ever aborted. -/
namespace ArmMachine

/-- There is nothing to invalidate in an empty cache. -/
@[simp] theorem BlockCache.invalidate_empty (v : Word) : empty.invalidate v = empty := by
  have kept : { empty.slot (slotOf v) with valid := false } = CachedBlock.empty := by
    rw [slot_empty]
    rfl
  unfold invalidate
  split
  · rw [kept, setSlot]
    congr 1
    apply Vector.ext
    intro i inside
    simp [empty]
  · rfl

namespace Mmu

/-- Paging cannot be switched on and is off; the unit holds nothing and has counted nothing. -/
structure Bare (m : Mmu) : Prop where
  pagingAllowed : m.pagingAllowed = false
  off : m.enabled = false
  cache : ∀ side, m.cache side = .empty
  hits : m.hits = 0
  lookups : m.lookups = 0
  fault : m.faultPending = false

theorem bare_initial : (initial false).Bare where
  pagingAllowed := rfl
  off := rfl
  cache side := by cases side <;> rfl
  hits := rfl
  lookups := rfl
  fault := rfl

namespace Bare

variable {m : Mmu} (bare : m.Bare)
include bare

theorem reset : m.reset.Bare where
  pagingAllowed := bare.pagingAllowed
  off := (rfl : Control.translates 0 = false)
  cache side := by cases side <;> rfl
  hits := bare.hits
  lookups := bare.lookups
  fault := rfl

theorem takeFault : m.takeFault.Bare := { bare with fault := rfl }

/-- Every address stands for itself, whatever its alignment. -/
theorem translate (read : Word → Except Failure Word) (v : Word) (access : Access) :
    m.translate read v access = ⟨.ok v, m, []⟩ := by
  simp [Mmu.translate, bare.off]

theorem setCache_empty (side : Side) : (m.setCache side .empty).Bare := by
  refine ⟨?_, ?_, fun other => ?_, ?_, ?_, ?_⟩
  · cases side <;> exact bare.pagingAllowed
  · cases side <;> exact bare.off
  · rw [cache_setCache]
    split
    · rfl
    · exact bare.cache other
  · cases side <;> exact bare.hits
  · cases side <;> exact bare.lookups
  · cases side <;> exact bare.fault

theorem invalidate (opcode : Nat) (address : Word) (side : Side) :
    (m.invalidate opcode address side).Bare := by
  unfold Mmu.invalidate
  split
  · exact bare.setCache_empty side
  · rw [bare.cache, BlockCache.invalidate_empty]
    exact bare.setCache_empty side
  · exact bare

/-- The bit that would switch paging on is dropped from what is written. -/
theorem writeControl (value : Word) :
    { m with control := value &&& ~~~Control.enableMask }.Bare := by
  refine { bare with off := ?_ }
  simp [enabled, Control.translates, Control.enableMask]

theorem invalidateSides (opcode : Nat) (address : Word) (sides : List Side) :
    (sides.foldl (fun m side => m.invalidate opcode address side) m).Bare := by
  induction sides generalizing m with
  | nil => exact bare
  | cons side rest ih => exact ih (bare.invalidate opcode address side)

theorem writeRegister (register operand opcode : Nat) (value : Word) :
    (m.writeRegister register operand opcode value).Bare := by
  have closed : ¬ m.pagingAllowed = true := by simp [bare.pagingAllowed]
  unfold Mmu.writeRegister
  split
  · rw [if_neg closed]
    exact bare.writeControl value
  iterate 4 exact { bare with }
  · exact bare.invalidateSides opcode value _
  · exact { bare with }
  · exact bare

end Bare
end Mmu

namespace Diagnostics

/-- No abort was counted, and none is on record. -/
structure Unaborted (d : Diagnostics) : Prop where
  count : ∀ kind, Core.isAbort kind = true → d.count kind = 0
  last : d.lastAbort = none

theorem unaborted_initial : initial.Unaborted where
  count kind _ := by cases kind <;> rfl
  last := rfl

/-- An exception that is not an abort is counted elsewhere. -/
theorem Unaborted.recordException {d : Diagnostics} (unaborted : d.Unaborted)
    {kind : ExceptionKind} (other : Core.isAbort kind = false) :
    (d.recordException kind).Unaborted where
  count abort aborts := by
    have apart : kind ≠ abort := by
      rintro rfl
      rw [other] at aborts
      cases aborts
    rw [d.count_recordException, if_neg apart]
    exact unaborted.count abort aborts
  last := unaborted.last

end Diagnostics

namespace Board

variable {b b' done fetched : Board} {outcome executed : Outcome} {entries : List ExceptionKind}

/-- Without paging an action keeps it that way, and fails only with what halts a core. -/
def bareContract : Contract where
  ok b b' := b.core.mmu.Bare → b'.core.mmu.Bare
  fail cause b b' := b.core.mmu.Bare → cause.isFatal = true ∧ b'.core.mmu.Bare

theorem bareContract_sequential : bareContract.Sequential where
  refl _ := id
  trans first next := next ∘ first
  fail first failed := failed ∘ first

section Primitive
variable (b : Board)

theorem bare_translateStep (v : Word) (access : Access) :
    bareContract.Admits b (b.translateStep v access) := by
  have answer : b.core.mmu.Bare → b.translateStep v access = (.ok v, b) := by
    intro bare
    rw [translateStep, bare.translate]
  generalize b.translateStep v access = r at answer ⊢
  obtain ⟨result, b'⟩ := r
  cases result with
  | ok p =>
    intro bare
    cases answer bare
    exact bare
  | error cause =>
    intro bare
    cases answer bare

theorem bare_physicalReadStep (address : Word) (width : Width) :
    bareContract.Admits b (b.physicalReadStep address width) :=
  b.admits_physicalReadStep (fun _ => id) fun bare => ⟨rfl, bare⟩

theorem bare_physicalWriteStep (address value : Word) (width : Width) :
    bareContract.Admits b (b.physicalWriteStep address value width) :=
  b.admits_physicalWriteStep (fun _ _ => id) fun bare => ⟨rfl, bare⟩

theorem bareContract_primitives (privileged : Bool) : bareContract.Primitives privileged where
  read b p v width _ := b.admits_read p v width bareContract_sequential bare_translateStep
    bare_physicalReadStep
  write b p v value width _ := b.admits_write p v value width bareContract_sequential
    bare_translateStep bare_physicalWriteStep
  registers _ _ := id
  pending _ _ _ := id
  coprocessor _ _ _ bare := bare.writeRegister _ _ _ _
  refuse _ _ fatal bare := ⟨fatal, bare⟩

end Primitive

theorem bare_of_run {i : Instruction} {result : Except Failure Unit}
    (run : b.run i.execute = (result, done)) : bareContract.Admits b (result, done) :=
  Instruction.admits_of_run bareContract_sequential (bareContract_primitives _) rfl run

theorem bare_of_fetchNext {result : Except Failure Word}
    (read : b.fetchNext = (result, fetched)) : bareContract.Admits b (result, fetched) := by
  have admits := (b.mapCore .beginStep).admits_fetch b.core.registers.pc bareContract_sequential
    bare_translateStep bare_physicalReadStep
  rw [run_fetchNext, read] at admits
  cases result <;> exact admits

theorem bare_accept {word : Word} (read : b.fetchNext = (.ok word, fetched))
    (bare : b.core.mmu.Bare) : (fetched.accept word).core.mmu.Bare :=
  bare_of_fetchNext read bare

theorem not_fetchAborts (bare : b.core.mmu.Bare) : ¬ ∃ fault, b.FetchAborts fault := by
  rintro ⟨fault, refused⟩
  cases (bare_of_fetchNext (Prod.ext refused rfl) bare).1

theorem not_aborts (bare : b.core.mmu.Bare) : ¬ ∃ fault, b.Aborts fault := by
  rintro ⟨fault, word, fetched, read, due, aborted⟩
  cases (bare_of_run (Prod.ext aborted rfl) (bare_accept read bare)).1

theorem Executes.bare {result : Except Failure Outcome} (executes : b.Executes result done)
    (bare : b.core.mmu.Bare) : done.core.mmu.Bare := by
  refine executes.establishes (P := fun done => done.core.mmu.Bare) ?_ (fun _ _ _ => id) ?_
    (fun _ => id) (fun _ => id)
  · intro answer next read
    have admits := bare_of_fetchNext read
    cases answer with
    | ok _ => exact admits bare
    | error cause => exact (admits bare).2
  · intro word next answer after read accepted run
    have admits := bare_of_run run
    cases answer with
    | ok _ => exact admits accepted
    | error cause => exact (admits accepted).2

theorem Ends.bare (ends : done.Ends executed entries outcome b') (bare : done.core.mmu.Bare) :
    b'.core.mmu.Bare := by
  have noted : done.core.noteFault.mmu.Bare := by
    rw [Core.mmu_noteFault]
    exact bare
  cases ends with
  | quiet idle refused => exact noted
  | dispatched kind pending =>
    change (done.core.noteFault.takeAbort kind).mmu.Bare
    unfold Core.takeAbort
    split
    · exact noted.takeFault
    · exact noted
  | interrupted idle asserted accepted => exact noted

/-- The last abort on record is that of an abort that was entered. -/
theorem Ends.lastAbort (ends : done.Ends executed entries outcome b')
    (none : ∀ kind ∈ entries, Core.isAbort kind = false) :
    b'.core.diagnostics.lastAbort = done.core.diagnostics.lastAbort := by
  have noted : done.core.noteFault.diagnostics.lastAbort = done.core.diagnostics.lastAbort := by
    rw [Core.diagnostics_noteFault]
  cases ends with
  | quiet idle refused => exact noted
  | dispatched kind pending =>
    refine Eq.trans ?_ noted
    change (done.core.noteFault.takeAbort kind).diagnostics.lastAbort = _
    rw [Core.takeAbort, none kind (List.mem_singleton_self kind)]
    rfl
  | interrupted idle asserted accepted => exact noted

/-- Without paging a step enters no abort. -/
theorem Turns.entries_bare {result : Except Failure Outcome} (turns : b.Turns entries result b')
    (bare : b.core.mmu.Bare) : ∀ kind ∈ entries, Core.isAbort kind = false := by
  intro kind entered
  cases turns with
  | halted cause state => cases entered
  | failed cause done state executes => cases entered
  | completed executed outcome entries done b' state executes ends =>
    obtain ⟨prefetch, data⟩ := executes.raises bare.fault
    cases kind with
    | prefetchAbort =>
      exact absurd (prefetch.mp ((ends.mem_entries rfl).mp entered)) (not_fetchAborts bare)
    | dataAbort => exact absurd (data.mp ((ends.mem_entries rfl).mp entered)) (not_aborts bare)
    | _ => rfl

theorem Ends.unaborted (ends : done.Ends executed entries outcome b')
    (none : ∀ kind ∈ entries, Core.isAbort kind = false)
    (unaborted : done.core.diagnostics.Unaborted) : b'.core.diagnostics.Unaborted where
  count kind abort := by
    have unentered : kind ∉ entries := by
      intro entered
      rw [none kind entered] at abort
      cases abort
    rw [ends.counters, if_neg unentered]
    exact unaborted.count kind abort
  last := (ends.lastAbort none).trans unaborted.last

theorem Turns.bare {result : Except Failure Outcome} (turns : b.Turns entries result b')
    (bare : b.core.mmu.Bare) (unaborted : b.core.diagnostics.Unaborted) :
    b'.core.mmu.Bare ∧ b'.core.diagnostics.Unaborted := by
  have none := turns.entries_bare bare
  cases turns with
  | halted cause state => exact ⟨bare, unaborted⟩
  | failed cause done state executes =>
    rw [← executes.diagnostics] at unaborted
    exact ⟨executes.bare bare, unaborted⟩
  | completed executed outcome entries done b' state executes ends =>
    rw [← executes.diagnostics] at unaborted
    exact ⟨ends.bare (executes.bare bare), ends.unaborted none unaborted⟩

/-- Where a core of the bare-metal profile can get to by steps, resets and writes to its
coprocessor. Between these anything may be done to registers, memory and devices. -/
inductive BareMetal : Board → Prop
  | created (config : CoreConfig) (profile : config.profile = .bareMetal) (devices : DeviceTable) :
      BareMetal ⟨Core.ofConfig config, devices⟩
  | step (b : Board) (trace : Bool) (reached : BareMetal b) : BareMetal (b.step trace).board
  | reset (b : Board) (reached : BareMetal b) : BareMetal (b.mapCore .reset)
  | writeRegister (b : Board) (register operand opcode : Nat) (value : Word)
      (reached : BareMetal b) :
      BareMetal (b.mapCore fun c =>
        { c with mmu := c.mmu.writeRegister register operand opcode value })
  | edit (b b' : Board) (reached : BareMetal b) (mmu : b'.core.mmu = b.core.mmu)
      (diagnostics : b'.core.diagnostics = b.core.diagnostics) : BareMetal b'

theorem BareMetal.bare (reached : b.BareMetal) :
    b.core.mmu.Bare ∧ b.core.diagnostics.Unaborted := by
  have resets : Core.isAbort .reset = false := rfl
  induction reached with
  | created config profile devices =>
    have off : config.profile.allowsPaging = false := by rw [profile]; rfl
    refine ⟨?_, Diagnostics.unaborted_initial.recordException resets⟩
    change (Mmu.initial config.profile.allowsPaging).reset.Bare
    rw [off]
    exact Mmu.bare_initial.reset
  | step b trace reached ih => exact (b.step_turns trace).bare ih.1 ih.2
  | reset b reached ih => exact ⟨ih.1.reset, ih.2.recordException resets⟩
  | writeRegister b register operand opcode value reached ih =>
    exact ⟨ih.1.writeRegister register operand opcode value, ih.2⟩
  | edit b b' reached mmu diagnostics ih =>
    rw [mmu, diagnostics]
    exact ih

/-- On a core of the bare-metal profile paging is never on: translations answer with the address
itself and change nothing, the caches stay empty, and no step enters an abort. -/
theorem bare_metal_never_aborts (b : Board) (reached : b.BareMetal) :
    b.core.mmu.enabled = false ∧
    (∀ read v access, b.core.mmu.translate read v access = ⟨.ok v, b.core.mmu, []⟩) ∧
    (∀ side, b.core.mmu.cache side = .empty) ∧ b.core.mmu.hits = 0 ∧ b.core.mmu.lookups = 0 ∧
    b.core.mmu.faultPending = false ∧
    (∀ kind, Core.isAbort kind = true → b.core.diagnostics.count kind = 0) ∧
    b.core.diagnostics.lastAbort = none ∧
    ∀ trace, ∀ kind ∈ (b.step trace).entries, Core.isAbort kind = false := by
  obtain ⟨bare, unaborted⟩ := reached.bare
  exact ⟨bare.off, bare.translate, bare.cache, bare.hits, bare.lookups, bare.fault,
    unaborted.count, unaborted.last, fun trace => (b.step_turns trace).entries_bare bare⟩

/-- Writes all ones to the control register and loads a word from an address that is not aligned. -/
def switchesPagingOn : Board where
  core :=
    { Core.ofConfig .bareMetal with
      ram := ⟨⟨#[0, 0, 0xE0, 0xE3, 0x10, 0x0F, 0x01, 0xEE, 1, 0x20, 0x91, 0xE5]⟩⟩ }
  devices := .empty

theorem bare_metal_never_aborts_switchesPagingOn :
    let loaded := (((switchesPagingOn.step false).board.step false).board.step false).board
    loaded.core.mmu.control = 0xFFFFFFFE ∧ loaded.core.registers.read .r2 = 0x00E3E000 ∧
      loaded.core.mmu.enabled = false ∧ loaded.core.mmu.lookups = 0 ∧
      loaded.core.diagnostics.count .dataAbort = 0 := by
  have start : switchesPagingOn.BareMetal := .edit _ _ (.created .bareMetal rfl .empty) rfl rfl
  have reached := start.step _ false |>.step _ false |>.step _ false
  obtain ⟨off, -, -, -, lookups, -, counts, -⟩ := bare_metal_never_aborts _ reached
  exact ⟨by rfl, by rfl, off, lookups, counts .dataAbort rfl⟩

end Board
end ArmMachine
