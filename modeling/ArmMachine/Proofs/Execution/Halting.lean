import ArmMachine.Proofs.Execution.Entries
import ArmMachine.Proofs.Execution.Soundness

/-! What every step leaves behind, along any run. No fault outlives its step, an abort is entered in
the step that met it and in no other, and a failure that stops the core does nothing else. -/
namespace ArmMachine

/-- The failures that a step can stop a core with. The others are aborts, which a step handles, and
those of setting a machine up. -/
def Failure.halts : Failure → Bool
  | .unmapped _ | .thumb _ | .signedStore _ | .permissionConfiguration _ => true
  | .abort _ | .ramTooLarge _ _ | .imageOutOfRange _ _ => false

theorem Tables.Meets.halts {ram : Ram} {control : Word} {cause : Failure}
    (meets : Tables.Meets (Board.readDescriptor ram) control cause) : cause.halts = true := by
  obtain rfl | ⟨address, missing⟩ := meets
  · rfl
  · unfold Board.readDescriptor at missing
    split at missing <;> cases missing
    rfl

theorem Instruction.pending_transferCoprocessor (i : Instruction) (c : Core) :
    (i.transferCoprocessor c).decode.pending = c.decode.pending ∨
      (i.transferCoprocessor c).decode.pending = .undefined := by
  unfold transferCoprocessor
  split
  · split <;> exact .inl rfl
  · exact .inr rfl

namespace Board

/-- No fault is recorded or taken, and what is to be dispatched stays as it is. -/
structure Calm (b b' : Board) : Prop where
  fault : b'.core.mmu.faultPending = b.core.mmu.faultPending
  decode : b'.core.decode = b.core.decode

theorem Calm.trans {b b' b'' : Board} (first : b.Calm b') (next : b'.Calm b'') : b.Calm b'' :=
  ⟨next.fault.trans first.fault, next.decode.trans first.decode⟩

/-- Actions that succeed, or fail with what halts a core, leave no fault behind. -/
def calmContract : Contract where
  ok := Calm
  fail cause b b' := cause.isFatal = true → cause.halts = true ∧ b.Calm b'

theorem calmContract_sequential : calmContract.Sequential where
  refl _ := ⟨rfl, rfl⟩
  trans := .trans
  fail first failed fatal := ⟨(failed fatal).1, first.trans (failed fatal).2⟩

section Primitive
variable (b : Board)

theorem calm_translateStep (v : Word) (access : Access) :
    calmContract.Admits b (b.translateStep v access) := by
  refine b.admits_translateStep (fun t answers p answered => ?_) fun t answers cause failed => ?_
  · exact ⟨(answers.sameFault answered).pending, rfl⟩
  · intro fatal
    obtain ⟨a, rfl, records⟩ | ⟨meets, same⟩ := answers.failure failed
    · contradiction
    · exact ⟨meets.halts, same.pending, rfl⟩

theorem calm_physicalReadStep (address : Word) (width : Width) :
    calmContract.Admits b (b.physicalReadStep address width) :=
  b.admits_physicalReadStep (fun _ => ⟨rfl, rfl⟩) fun _ => ⟨rfl, rfl, rfl⟩

theorem calm_physicalWriteStep (address value : Word) (width : Width) :
    calmContract.Admits b (b.physicalWriteStep address value width) :=
  b.admits_physicalWriteStep (fun _ _ => ⟨rfl, rfl⟩) fun _ => ⟨rfl, rfl, rfl⟩

theorem calmContract_moves (privileged : Bool) : calmContract.Moves privileged where
  read b p v width _ := b.admits_read p v width calmContract_sequential calm_translateStep
    calm_physicalReadStep
  write b p v value width _ := b.admits_write p v value width calmContract_sequential
    calm_translateStep calm_physicalWriteStep
  registers _ _ := ⟨rfl, rfl⟩
  thumb _ _ _ := ⟨rfl, rfl, rfl⟩
  signedStore _ _ _ := ⟨rfl, rfl, rfl⟩

end Primitive

variable {b b' done fetched : Board} {word : Word}

theorem calm_of_plain {i : Instruction} (plain : i.requests = false)
    {result : Except Failure Unit} (run : b.run i.execute = (result, done)) :
    calmContract.Admits b (result, done) := by
  rw [← run]
  exact i.admits_of_moves calmContract_sequential (calmContract_moves _) plain rfl

/-- An instruction that runs to its end leaves no abort to be dispatched. -/
theorem pending_of_run {i : Instruction} (run : b.run i.execute = (.ok (), done)) :
    done.core.decode.pending = b.core.decode.pending ∨ done.core.decode.pending = .undefined ∨
      done.core.decode.pending = .softwareInterrupt := by
  cases requests : i.requests with
  | false => exact .inl (congrArg DecodeState.pending (calm_of_plain requests run).decode)
  | true =>
    obtain ⟨-, transferred⟩ | ⟨p, asked, left⟩ := Instruction.run_of_requests b requests
    · rw [transferred] at run
      cases run
      exact (i.pending_transferCoprocessor b.core).imp_right .inl
    · rw [left] at run
      cases run
      exact .inr asked

/-- An instruction that halts the core has left nothing behind. -/
theorem calm_of_fatal {i : Instruction} {cause : Failure} (fatal : cause.isFatal = true)
    (run : b.run i.execute = (.error cause, done)) : cause.halts = true ∧ b.Calm done := by
  cases requests : i.requests with
  | false => exact calm_of_plain requests run fatal
  | true =>
    obtain ⟨-, transferred⟩ | ⟨p, asked, left⟩ := Instruction.run_of_requests b requests
    · rw [transferred] at run
      cases run
    · rw [left] at run
      cases run

theorem calm_of_fetchNext {cause : Failure} (fatal : cause.isFatal = true)
    (refused : b.fetchNext = (.error cause, fetched)) :
    cause.halts = true ∧ (b.mapCore .beginStep).Calm fetched := by
  have admits := (b.mapCore .beginStep).admits_fetch b.core.registers.pc calmContract_sequential
    calm_translateStep calm_physicalReadStep
  rw [run_fetchNext, refused] at admits
  exact admits fatal

/-- The fetch of the step is refused with an abort. -/
def FetchAborts (b : Board) (fault : Abort) : Prop := b.fetchNext.1 = .error (.abort fault)

theorem fetchAborts_iff_of_fetched {result : Except Failure Word}
    (read : b.fetchNext = (result, fetched)) :
    (∃ fault, b.FetchAborts fault) ↔ ∃ fault, result = .error (.abort fault) := by
  simp only [FetchAborts, read]

/-- A fetched instruction is aborted exactly when it is due and its run ends in an abort. -/
theorem aborts_iff_of_fetched (read : b.fetchNext = (.ok word, fetched)) :
    (∃ fault, b.Aborts fault) ↔ (fetched.accept word).passes word = true ∧
      ∃ fault, ((fetched.accept word).run (Instruction.execute ⟨word⟩)).1 =
        .error (.abort fault) := by
  constructor
  · rintro ⟨fault, word', fetched', again, due, aborted⟩
    rw [read] at again
    cases again
    exact ⟨due, fault, aborted⟩
  · rintro ⟨due, fault, aborted⟩
    exact ⟨fault, word, fetched, read, due, aborted⟩

theorem not_aborts_of_unfetched {cause : Failure}
    (refused : b.fetchNext = (.error cause, fetched)) : ¬ ∃ fault, b.Aborts fault := by
  rintro ⟨fault, word, fetched', read, -⟩
  rw [refused] at read
  cases read

/-- What is to be dispatched after an instruction tells whether the step was aborted, and where. -/
theorem Executes.raises (clear : b.core.mmu.faultPending = false) {executed : Outcome}
    (executes : b.Executes (.ok executed) done) :
    (done.core.noteFault.decode.pending = .prefetchAbort ↔ ∃ fault, b.FetchAborts fault) ∧
      (done.core.noteFault.decode.pending = .dataAbort ↔ ∃ fault, b.Aborts fault) := by
  cases executes with
  | unfetched fault fetched refused =>
    have other : Pending.prefetchAbort ≠ .none := by decide
    rw [Core.noteFault_of_pending other, fetchAborts_iff_of_fetched refused]
    refine ⟨⟨fun _ => ⟨fault, rfl⟩, fun _ => rfl⟩, fun data => ?_, fun aborts => ?_⟩
    · cases data
    · exact absurd aborts (not_aborts_of_unfetched refused)
  | skipped word fetched read idle =>
    rw [Core.noteFault_of_clear ((faultPending_accept read).trans clear), pending_accept read,
      fetchAborts_iff_of_fetched read, aborts_iff_of_fetched read, idle]
    simp
  | retired word fetched done read due run =>
    have quiet : (done.mapCore .countInstruction).core.mmu.faultPending = false :=
      ((faults_of_run run).1.trans (faultPending_accept read)).trans clear
    have left := pending_of_run run
    rw [pending_accept read] at left
    rw [Core.noteFault_of_clear quiet, fetchAborts_iff_of_fetched read, aborts_iff_of_fetched read,
      run]
    change (done.core.decode.pending = _ ↔ _) ∧ (done.core.decode.pending = _ ↔ _)
    rcases left with left | left | left <;> simp [left]
  | aborted word fault fetched unwound read due run =>
    rw [noteFault_of_aborted read run, fetchAborts_iff_of_fetched read, aborts_iff_of_fetched read,
      run]
    simp [Core.setPending, due]

/-- A step that halts the core has met no abort, and leaves neither a fault nor anything to be
dispatched. -/
theorem Executes.halts (clear : b.core.mmu.faultPending = false) {cause : Failure}
    (executes : b.Executes (.error cause) done) :
    cause.halts = true ∧ done.core.mmu.faultPending = false ∧ done.core.decode.pending = .none ∧
      (¬ ∃ fault, b.FetchAborts fault) ∧ ¬ ∃ fault, b.Aborts fault := by
  cases executes with
  | brokenFetch cause fetched fatal refused =>
    obtain ⟨halts, calm⟩ := calm_of_fetchNext fatal refused
    have none : ¬ ∃ fault, b.FetchAborts fault := by
      rw [fetchAborts_iff_of_fetched refused]
      rintro ⟨fault, ⟨⟩⟩
      cases fatal
    exact ⟨halts, calm.fault.trans clear, congrArg DecodeState.pending calm.decode, none,
      not_aborts_of_unfetched refused⟩
  | broken word cause fetched after fatal read due run =>
    obtain ⟨halts, calm⟩ := calm_of_fatal fatal run
    have unfetched : ¬ ∃ fault, b.FetchAborts fault := by
      rw [fetchAborts_iff_of_fetched read]
      rintro ⟨fault, ⟨⟩⟩
    have none : ¬ ∃ fault, b.Aborts fault := by
      rw [aborts_iff_of_fetched read, run]
      rintro ⟨-, fault, ⟨⟩⟩
      cases fatal
    exact ⟨halts, (calm.fault.trans (faultPending_accept read)).trans clear,
      (congrArg DecodeState.pending calm.decode).trans (pending_accept read), unfetched, none⟩

variable {executed outcome : Outcome} {entries : List ExceptionKind}

/-- What the step leaves for the next one, provided that a fault comes with its abort. -/
theorem Ends.settles (ends : done.Ends executed entries outcome b')
    (sources : done.core.mmu.faultPending = false ∨
      ∃ kind, Core.isAbort kind = true ∧
        done.core.noteFault.decode.pending.exception? = some kind) :
    b'.core.mmu.faultPending = false ∧ b'.core.decode.pending = .none := by
  cases ends with
  | quiet idle refused =>
    have dispatches : done.Dispatches executed executed _ := .nothing idle
    exact ⟨dispatches.clear sources, idle⟩
  | dispatched kind pending =>
    have dispatches : done.Dispatches executed (.exception kind) _ := .entered kind pending
    exact ⟨dispatches.clear sources, rfl⟩
  | interrupted idle asserted accepted =>
    have dispatches : done.Dispatches executed executed _ := .nothing idle
    exact ⟨dispatches.clear sources, idle⟩

/-- Of the exceptions a step enters, only the interrupt was not to be dispatched. -/
theorem Ends.mem_entries (ends : done.Ends executed entries outcome b') {p : Pending}
    {kind : ExceptionKind} (names : p.exception? = some kind) :
    kind ∈ entries ↔ done.core.noteFault.decode.pending = p := by
  have idle : p ≠ .none := by
    rintro rfl
    cases names
  cases ends with
  | quiet idle' refused => simp [idle', idle.symm]
  | dispatched kind' pending =>
    rw [List.mem_singleton]
    constructor
    · rintro rfl
      exact Pending.exception?_inj (pending.trans names.symm)
    · intro same
      rw [same, names] at pending
      exact Option.some.inj pending
  | interrupted idle' asserted accepted => simp [idle', idle.symm, Pending.ne_irq names]

/-- What stepping reaches, whatever becomes of the devices between the steps. -/
inductive Reaches (start : Board) : Board → Prop
  | start : Reaches start start
  | step (b : Board) (trace : Bool) (reached : Reaches start b) :
      Reaches start (b.step trace).board
  | exchange (b : Board) (devices : DeviceTable) (reached : Reaches start b) :
      Reaches start { b with devices }

/-- A core that was halted stays as it is. -/
theorem Reaches.halted {cause : Failure} {later : Board} (reached : b.Reaches later)
    (state : b.core.runState = .halted cause) :
    later.core = b.core ∧ ∀ trace, later.step trace = ⟨.ok (.halted cause), later, []⟩ := by
  have stuck : ∀ later : Board, later.core = b.core → ∀ trace,
      later.step trace = ⟨.ok (.halted cause), later, []⟩ := by
    intro later same trace
    rw [Board.step, same, state]
  suffices later.core = b.core from ⟨this, stuck later this⟩
  induction reached with
  | start => rfl
  | step later trace reached ih =>
    rw [stuck later ih]
    exact ih
  | exchange later devices reached ih => exact ih

/-- No fault is left over, nor, once a step has been made, anything to be dispatched. -/
structure Settled (b : Board) : Prop where
  clear : b.core.mmu.faultPending = false
  idle : b.core.runState = .running ∨ b.core.decode.pending = .none

/-- The step that halts a core does nothing else, and until a reset no later one does anything. -/
structure HaltedBy (b : Board) (cause : Failure) (b' : Board) : Prop where
  halts : cause.halts = true
  runState : b'.core.runState = .halted cause
  counters : b.SameCounters b'
  stays : ∀ later, b'.Reaches later → later.core = b'.core ∧
    ∀ trace, later.step trace = ⟨.ok (.halted cause), later, []⟩
  resumes : (b'.mapCore .reset).core.runState = .running

/-- What a step does about faults: each one is handled in the step that meets it. -/
structure HandlesFaults (b : Board) (entries : List ExceptionKind)
    (result : Except Failure Outcome) (b' : Board) : Prop where
  clear : b'.core.mmu.faultPending = false
  idle : b'.core.decode.pending = .none
  prefetchAbort : .prefetchAbort ∈ entries ↔
    b.core.runState = .running ∧ ∃ fault, b.FetchAborts fault
  dataAbort : .dataAbort ∈ entries ↔ b.core.runState = .running ∧ ∃ fault, b.Aborts fault
  failure : ∀ cause, result = .error cause → entries = [] ∧ b.HaltedBy cause b'

theorem haltedBy_of_executes (clear : b.core.mmu.faultPending = false) {cause : Failure}
    (executes : b.Executes (.error cause) done) :
    b.HaltedBy cause (done.mapCore fun c => c.halt cause) where
  halts := (executes.halts clear).1
  runState := rfl
  counters := ⟨executes.diagnostics, executes.instructionCount⟩
  stays _ reached := reached.halted rfl
  resumes := rfl

theorem Settled.handlesFaults (settled : b.Settled) {result : Except Failure Outcome}
    (turns : b.Turns entries result b') : b.HandlesFaults entries result b' := by
  cases turns with
  | halted cause state =>
    have stopped : b.core.runState ≠ .running := by
      rw [state]
      exact fun running => nomatch running
    have idle := settled.idle.resolve_left stopped
    refine ⟨settled.clear, idle, ?_, ?_, fun _ failed => nomatch failed⟩
    · simp [stopped]
    · simp [stopped]
  | failed cause done state executes =>
    obtain ⟨halts, clear, idle, unfetched, unaborted⟩ := executes.halts settled.clear
    refine ⟨clear, idle, ?_, ?_, fun cause' failed => ?_⟩
    · simp [unfetched]
    · simp [unaborted]
    · cases failed
      exact ⟨rfl, haltedBy_of_executes settled.clear executes⟩
  | completed executed outcome entries done b' state executes ends =>
    obtain ⟨clear, idle⟩ := ends.settles (executes.clear_or_abort settled.clear)
    obtain ⟨prefetch, data⟩ := executes.raises settled.clear
    refine ⟨clear, idle, ?_, ?_, fun _ failed => nomatch failed⟩
    · rw [ends.mem_entries (p := .prefetchAbort) rfl, prefetch]
      simp [state]
    · rw [ends.mem_entries (p := .dataAbort) rfl, data]
      simp [state]

theorem Reaches.settled {start : Board} (reached : start.Reaches b)
    (running : start.core.runState = .running) (clear : start.core.mmu.faultPending = false) :
    b.Settled := by
  induction reached with
  | start => exact ⟨clear, .inl running⟩
  | step b trace reached ih =>
    have handles := ih.handlesFaults (b.step_turns trace)
    exact ⟨handles.clear, .inr handles.idle⟩
  | exchange b devices reached ih => exact ⟨ih.clear, ih.idle⟩

/-- Every step of a run that starts without a fault handles the faults it meets and no others. -/
theorem steps_handle_faults (start b : Board) (trace : Bool)
    (running : start.core.runState = .running) (clear : start.core.mmu.faultPending = false)
    (reached : start.Reaches b) :
    b.HandlesFaults (b.step trace).entries (b.step trace).result (b.step trace).board :=
  (reached.settled running clear).handlesFaults (b.step_turns trace)

/-- The store is aborted for its alignment, and where the handler should be there is no memory. -/
theorem steps_handle_faults_misalignedStore :
    let handler := (misalignedStore.step false).board
    (∃ fault, misalignedStore.Aborts fault) ∧
      handler.HaltedBy (.unmapped 0x10) (handler.step false).board := by
  have first := steps_handle_faults misalignedStore misalignedStore false rfl rfl .start
  have next := steps_handle_faults misalignedStore (misalignedStore.step false).board false rfl rfl
    (.step misalignedStore false .start)
  have entered : (misalignedStore.step false).entries = [.dataAbort] := by rfl
  have failed : ((misalignedStore.step false).board.step false).result =
      .error (.unmapped 0x10) := by rfl
  refine ⟨(first.dataAbort.mp ?_).2, (next.failure _ failed).2⟩
  rw [entered]
  exact List.mem_singleton_self _

end Board
end ArmMachine
