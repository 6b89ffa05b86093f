import ArmMachine.Proofs.Execution.Entries
import ArmMachine.Proofs.Execution.Protection
import ArmMachine.Proofs.Execution.Unprivileged

/-! User mode gains no privilege. A step that starts there either changes only what user mode may
change, or enters one exception, whose handler finds everything privileged as it was. -/
namespace ArmMachine

/-- The registers of the system control coprocessor that rule what user mode may do are the same. -/
structure Mmu.SameSystem (m m' : Mmu) : Prop extends m.SameTables m' where
  processId : m'.processId = m.processId

namespace Mmu

@[refl] theorem SameSystem.refl (m : Mmu) : m.SameSystem m := ⟨.refl m, rfl⟩

theorem SameSystem.trans {m m' m'' : Mmu} (first : m.SameSystem m') (next : m'.SameSystem m'') :
    m.SameSystem m'' :=
  ⟨first.toSameTables.trans next.toSameTables, next.processId.trans first.processId⟩

theorem Answers.sameSystem {m : Mmu} {read : Word → Except Failure Word} {v : Word}
    {access : Access} {t : Resolution} (answers : m.Answers read v access t) :
    m.SameSystem t.mmu := by
  refine ⟨answers.sameTables, ?_⟩
  cases answers with
  | identity off => rfl
  | misaligned on checked odd => rfl
  | hit pages e found allowed => rfl
  | undecided pages e found cause failed => rfl
  | refused pages missed refusal answer => cases refusal <;> rfl
  | walked pages missed mapping manager found granted => cases access.side <;> rfl

end Mmu

namespace Board

def SameSystem (b b' : Board) : Prop := b.core.mmu.SameSystem b'.core.mmu

theorem sameSystem_sequential : (Contract.always SameSystem).Sequential :=
  Contract.always_sequential (fun b => .refl b.core.mmu) Mmu.SameSystem.trans

theorem sameSystem_translateStep (b : Board) (v : Word) (access : Access) :
    (Contract.always SameSystem).Admits b (b.translateStep v access) :=
  Contract.always_admits.mpr
    (b.core.mmu.translate_answers (readDescriptor b.core.ram) v access).sameSystem

theorem sameSystem_physicalReadStep (b : Board) (address : Word) (width : Width) :
    (Contract.always SameSystem).Admits b (b.physicalReadStep address width) := by
  refine Contract.always_admits.mpr ?_
  rw [SameSystem, core_physicalReadStep]

theorem sameSystem_physicalWriteStep (b : Board) (address value : Word) (width : Width) :
    (Contract.always SameSystem).Admits b (b.physicalWriteStep address value width) := by
  refine Contract.always_admits.mpr ?_
  rw [SameSystem, core_physicalWriteStep]

/-- Without privilege there is no coprocessor, and nothing else writes these registers. -/
theorem sameSystem_primitives : (Contract.always SameSystem).Primitives false where
  read b p v width _ := b.admits_read p v width sameSystem_sequential sameSystem_translateStep
    sameSystem_physicalReadStep
  write b p v value width _ := b.admits_write p v value width sameSystem_sequential
    sameSystem_translateStep sameSystem_physicalWriteStep
  registers b _ := .refl b.core.mmu
  pending b _ _ := .refl b.core.mmu
  coprocessor _ _ granted := absurd granted Bool.false_ne_true
  refuse b _ _ := .refl b.core.mmu

variable {b done fetched : Board} {word : Word}

theorem userChange_of_accept (read : b.fetchNext = (.ok word, fetched)) :
    b.core.registers.UserChange (fetched.accept word).core.registers := by
  rw [registers_accept read]
  exact b.core.registers.userChange_setPc _

theorem Executes.userChange (user : b.core.registers.current.privileged = false)
    {result : Except Failure Outcome} (executes : b.Executes result done) :
    b.core.registers.UserChange done.core.registers := by
  refine executes.establishes (P := fun done => b.core.registers.UserChange done.core.registers)
    ?_ ?_ ?_ (fun _ => id) (fun _ => id)
  · intro answer next read
    rw [(fetchNext_readChange read).registers]
    exact ⟨rfl, fun _ _ _ => rfl, rfl⟩
  · intro word next read _
    exact userChange_of_accept read
  · intro word next answer after read accepted run
    have executed := (Instruction.unprivileged_execute ⟨word⟩).userChange (accepted.user user)
    rw [run] at executed
    exact accepted.trans executed

theorem Executes.sameSystem (user : b.core.registers.current.privileged = false)
    {result : Except Failure Outcome} (executes : b.Executes result done) : b.SameSystem done := by
  refine executes.keeps (P := b.SameSystem) ?_ ?_ ?_
  · intro first next same kept
    rw [SameSystem, same.mmu]
    exact kept
  · intro answer next read
    have admits := (b.mapCore .beginStep).admits_fetch b.core.registers.pc sameSystem_sequential
      sameSystem_translateStep sameSystem_physicalReadStep
    rw [run_fetchNext, read] at admits
    exact Contract.always_admits.mp admits
  · intro word next answer after read kept run
    have mode := (userChange_of_accept read).user user
    have admits := Instruction.admits_of_run sameSystem_sequential sameSystem_primitives mode run
    exact kept.trans (Contract.always_admits.mp admits)

end Board

/-- The core after an exception that user code ran into. Of what user mode does not see, only the
link register and the saved status word of the entered mode are written, the latter with the status
of user mode up to its flags. -/
structure Core.EnteredFromUser (c : Core) (kind : ExceptionKind) (c' : Core) : Prop where
  pc : c'.registers.pc = c.vectorAddress kind
  mode : c'.registers.current.mode? = some kind.mode
  masked : c'.registers.current.has .irqDisabled = true
  arm : c'.registers.current.has .thumb = false
  cells : ∀ bank, bank ≠ .user → ∀ id, ¬ (bank = kind.bank ∧ id = .link) →
    c'.registers.cell bank id = c.registers.cell bank id
  saved : ∃ s, c'.registers.savedOf kind.bank = some s ∧
    s.controlBits = c.registers.current.controlBits
  savedOther : ∀ bank, bank ≠ kind.bank → c'.registers.savedOf bank = c.registers.savedOf bank
  counted : c'.diagnostics.exceptions = (c.diagnostics.recordException kind).exceptions

/-- Entering an exception after user code has run on. -/
theorem Core.enteredFromUser {c past c' : Core} {kind : ExceptionKind}
    (change : c.registers.UserChange past.registers) (system : c.mmu.SameSystem past.mmu)
    (counted : past.diagnostics.exceptions = c.diagnostics.exceptions)
    (registers : c'.registers = past.enteredRegisters kind)
    (entered : c'.diagnostics.exceptions = (past.diagnostics.recordException kind).exceptions) :
    c.EnteredFromUser kind c' := by
  have current : c'.registers.current = enteredStatus past.registers.current kind := by
    rw [registers, current_enteredRegisters]
  constructor
  · rw [registers, RegisterFile.pc, cell_enteredRegisters, if_pos ⟨rfl, rfl⟩]
    exact vectorAddress_congr system.control kind
  · rw [current, StatusWord.mode?, modeCode_enteredStatus, Mode.ofCode?_code]
  · rw [current, irqDisabled_enteredStatus]
  · rw [current, thumb_enteredStatus]
  · intro bank other id unlinked
    rw [registers, cell_enteredRegisters, if_neg fun here => other here.1, if_neg unlinked,
      change.cells bank other id]
  · refine ⟨past.registers.current, ?_, change.control⟩
    rw [registers, savedOf_enteredRegisters, if_pos rfl]
  · intro bank other
    rw [registers, savedOf_enteredRegisters, if_neg other, change.savedOf]
  · rw [entered]
    simp only [Diagnostics.recordException, Diagnostics.setCount, Diagnostics.count, counted]

theorem Core.sameSystem_takeAbort (c : Core) (kind : ExceptionKind) :
    c.mmu.SameSystem (c.takeAbort kind).mmu := by
  unfold takeAbort
  split <;> exact ⟨⟨rfl, rfl, rfl⟩, rfl⟩

namespace Board

variable {b done b' : Board} {outcome executed : Outcome} {entries : List ExceptionKind}

/-- Only what user mode may change is changed, and no exception is entered. -/
structure StaysUser (b b' : Board) : Prop where
  change : b.core.registers.UserChange b'.core.registers
  diagnostics : b'.core.diagnostics = b.core.diagnostics

/-- What may come of a step in user mode. Either way the rules for user mode stay as they are. -/
inductive UserStep (b : Board) : List ExceptionKind → Outcome → Board → Prop
  | stays (outcome : Outcome) (b' : Board) (plain : ∀ kind, outcome ≠ .exception kind)
      (system : b.SameSystem b') (stays : b.StaysUser b') : UserStep b [] outcome b'
  | enters (kind : ExceptionKind) (b' : Board) (system : b.SameSystem b')
      (entered : b.core.EnteredFromUser kind b'.core) : UserStep b [kind] (.exception kind) b'

theorem Ends.userStep (ends : done.Ends executed entries outcome b') (stays : b.StaysUser done)
    (system : b.SameSystem done) (plain : ∀ kind, executed ≠ .exception kind) :
    b.UserStep entries outcome b' := by
  let c := done.core.noteFault
  have change : b.core.registers.UserChange c.registers := by
    rw [Core.registers_noteFault]
    exact stays.change
  have same : b.core.mmu.SameSystem c.mmu := by
    rw [Core.mmu_noteFault]
    exact system
  have counted : c.diagnostics = b.core.diagnostics :=
    (Core.diagnostics_noteFault _).trans stays.diagnostics
  have exceptions := congrArg Diagnostics.exceptions counted
  cases ends with
  | quiet idle refused => exact .stays outcome _ plain same ⟨change, counted⟩
  | dispatched kind pending =>
    have taken := same.trans (c.sameSystem_takeAbort kind)
    have changed : b.core.registers.UserChange (c.takeAbort kind).registers := by
      rw [Core.registers_takeAbort]
      exact change
    have before := (c.exceptions_takeAbort kind).trans exceptions
    exact .enters kind _ taken (Core.enteredFromUser changed taken before rfl rfl)
  | interrupted idle asserted accepted =>
    exact .enters .irq _ same (Core.enteredFromUser change same exceptions rfl rfl)

theorem Turns.userStep (turns : b.Turns entries (.ok outcome) b')
    (user : b.core.registers.current.privileged = false) : b.UserStep entries outcome b' := by
  cases turns with
  | halted cause state =>
    have same : b.core.registers.UserChange b.core.registers := ⟨rfl, fun _ _ _ => rfl, rfl⟩
    exact .stays _ b (fun _ entered => nomatch entered) (.refl b.core.mmu) ⟨same, rfl⟩
  | completed executed outcome entries done b' state executes ends =>
    have stays : b.StaysUser done := ⟨executes.userChange user, executes.diagnostics⟩
    refine ends.userStep stays (executes.sameSystem user) fun kind entered => ?_
    obtain rfl | ⟨cycles, rfl⟩ := executes.completes <;> cases entered

/-- A step in user mode that does not stop the core enters no exception and changes only what user
mode may change, or enters one exception and hands over to its handler. -/
theorem user_step_gains_nothing (b : Board) (trace : Bool) (outcome : Outcome)
    (user : b.core.registers.current.mode? = some .user)
    (result : (b.step trace).result = .ok outcome) :
    b.UserStep (b.step trace).entries outcome (b.step trace).board := by
  have turns := b.step_turns trace
  rw [result] at turns
  exact turns.userStep (StatusWord.privileged_of_mode? user)

/-- The second store of the program is refused, which hands over to the handler of data aborts. -/
theorem user_step_gains_nothing_userProgram :
    (userProgram.stepped false 1).UserStep [.dataAbort] (.exception .dataAbort)
      (userProgram.stepped false 2) := by
  have entries : ((userProgram.stepped false 1).step false).entries = [.dataAbort] := by rfl
  rw [← entries]
  exact user_step_gains_nothing (userProgram.stepped false 1) false _ (by rfl) (by rfl)

end Board
end ArmMachine
