import ArmMachine.Proofs.Execution.Precision

/-! The exceptions that a step enters, read off its events. Entering one masks interrupts, so no
step enters two; a step that fails or finds the core halted enters none. -/
namespace ArmMachine

namespace Event

/-- The exception whose entry an event reports. -/
def entered? : Event → Option ExceptionKind
  | exceptionEntered kind _ _ => some kind
  | _ => none

end Event

/-- The exceptions entered on the way, in order. -/
def Progress.entries {α : Type} (p : Progress α) : List ExceptionKind :=
  p.events.filterMap Event.entered?

namespace Event

theorem entered?_eq_none_of_access {α : Type} (result : Except Failure α) :
    (ofAccess result).filterMap entered? = [] := by
  unfold ofAccess
  split <;> rfl

theorem entered?_eq_none_of_cacheOperation (operand opcode : Nat) (address : Word) :
    (ofCacheOperation operand opcode address).filterMap entered? = [] := by
  have unknown : ∀ sides : List Side,
      (sides.map fun _ => unknownCacheOperation operand opcode).filterMap entered? = [] := by
    intro sides
    induction sides with
    | nil => rfl
    | cons side rest ih => exact ih
  unfold ofCacheOperation
  split
  · rfl
  · rw [List.filterMap_append]
    split
    · rfl
    · rw [unknown]
      rfl

theorem entered?_eq_none_of_coprocessor (i : Instruction) (c : Core) :
    (i.coprocessorEvents c).filterMap entered? = [] := by
  unfold Instruction.coprocessorEvents
  split
  · split
    · unfold ofRegisterRead
      split <;> rfl
    · unfold ofRegisterWrite
      split
      · exact entered?_eq_none_of_cacheOperation _ _ _
      · split <;> rfl
  · rfl

theorem entered?_exception {c : Core} {kind : ExceptionKind} (accepted : c.accepts kind = true) :
    (ofException c kind).filterMap entered? = [kind] := by
  rw [ofException, if_pos accepted]
  rfl

end Event

namespace Board

variable {b done b' : Board} {outcome : Outcome} {entries : List ExceptionKind}

/-- Nothing is entered before an instruction is done. -/
theorem entries_fetchAndExecute (b : Board) (trace : Bool) :
    (b.fetchAndExecute trace).entries = [] := by
  have executed : ∀ (b : Board) (i : Instruction), (b.execute i).entries = [] := by
    intro b i
    rw [Progress.entries, execute, List.filterMap_append, Event.entered?_eq_none_of_coprocessor,
      Event.entered?_eq_none_of_access]
    rfl
  have due : ∀ (b : Board) (i : Instruction), (b.executeFetched i).entries = [] := by
    intro b i
    have none := executed b i
    unfold executeFetched
    split
    · dsimp only
      split <;> exact none
    · rfl
  unfold fetchAndExecute
  dsimp only
  split
  · rfl
  · rfl
  · rename_i word _
    rw [Progress.entries, List.filterMap_append]
    have traced : (if trace then [Event.executed b.core.registers.pc word] else []).filterMap
        Event.entered? = [] := by
      split <;> rfl
    rw [traced, List.nil_append]
    exact due _ _

/-- The counters stay as they are. -/
structure SameCounters (b b' : Board) : Prop where
  diagnostics : b'.core.diagnostics = b.core.diagnostics
  instructionCount : b'.core.instructionCount = b.core.instructionCount

theorem SameCounters.trans {b b' b'' : Board} (first : b.SameCounters b')
    (next : b'.SameCounters b'') : b.SameCounters b'' :=
  ⟨next.diagnostics.trans first.diagnostics, next.instructionCount.trans first.instructionCount⟩

theorem BusChange.sameCounters {b b' : Board} (change : b.BusChange b') : b.SameCounters b' := by
  constructor <;> rw [change.core]

theorem sameCounters_sequential : (Contract.always SameCounters).Sequential :=
  Contract.always_sequential (fun _ => ⟨rfl, rfl⟩) .trans

theorem sameCounters_primitives (privileged : Bool) :
    (Contract.always SameCounters).Primitives privileged where
  read b p v width _ := Contract.always_admits.mpr (b.read_readChange p v width).sameCounters
  write b p v value width _ :=
    Contract.always_admits.mpr (b.write_busChange p v value width).sameCounters
  registers _ _ := ⟨rfl, rfl⟩
  pending _ _ _ := ⟨rfl, rfl⟩
  coprocessor _ _ _ := ⟨rfl, rfl⟩
  refuse _ _ _ := ⟨rfl, rfl⟩

theorem sameCounters_of_run {i : Instruction} {result : Except Failure Unit} {done : Board}
    (run : b.run i.execute = (result, done)) : b.SameCounters done :=
  Contract.always_admits.mp
    (Instruction.admits_of_run sameCounters_sequential (sameCounters_primitives _) rfl run)

theorem sameCounters_of_fetchNext {result : Except Failure Word} {fetched : Board}
    (read : b.fetchNext = (result, fetched)) : b.SameCounters fetched := by
  have begun : b.SameCounters (b.mapCore .beginStep) := ⟨rfl, rfl⟩
  exact begun.trans (fetchNext_readChange read).sameCounters

theorem Executes.diagnostics {result : Except Failure Outcome} (executes : b.Executes result done) :
    done.core.diagnostics = b.core.diagnostics := by
  refine executes.establishes (P := fun done => done.core.diagnostics = b.core.diagnostics)
    ?_ (fun _ _ _ => id) ?_ (fun _ => id) (fun _ => id)
  · intro answer next read
    exact (sameCounters_of_fetchNext read).diagnostics
  · intro word next answer after read accepted run
    exact (sameCounters_of_run run).diagnostics.trans accepted

/-- An instruction that halts the core is not counted. -/
theorem Executes.instructionCount {cause : Failure} (executes : b.Executes (.error cause) done) :
    done.core.instructionCount = b.core.instructionCount := by
  cases executes with
  | brokenFetch cause fetched fatal refused =>
    exact (sameCounters_of_fetchNext refused).instructionCount
  | broken word cause fetched after fatal read due run =>
    have accepted := (sameCounters_of_fetchNext read).instructionCount
    exact (sameCounters_of_run run).instructionCount.trans accepted

/-- What an instruction that lets the core go on comes to by itself. -/
theorem Executes.completes {executed : Outcome} (executes : b.Executes (.ok executed) done) :
    executed = .skipped ∨ ∃ cycles, executed = .retired cycles := by
  cases executes with
  | unfetched fault fetched refused => exact .inl rfl
  | skipped word fetched read idle => exact .inl rfl
  | retired word fetched after read due run => exact .inr ⟨_, rfl⟩
  | aborted word fault fetched after read due run => exact .inr ⟨_, rfl⟩

/-- How a step ends once its instruction is done. -/
inductive Ends (b : Board) (outcome : Outcome) : List ExceptionKind → Outcome → Board → Prop
  | quiet (idle : b.core.noteFault.decode.pending = .none)
      (refused : (b.devices.irqPending && b.core.accepts .irq) = false) :
      Ends b outcome [] outcome (b.mapCore .noteFault)
  | dispatched (kind : ExceptionKind)
      (pending : b.core.noteFault.decode.pending.exception? = some kind) :
      Ends b outcome [kind] (.exception kind)
        (b.mapCore fun c => ((c.noteFault.takeAbort kind).enter kind).setPending .none)
  | interrupted (idle : b.core.noteFault.decode.pending = .none)
      (asserted : b.devices.irqPending = true) (accepted : b.core.accepts .irq = true) :
      Ends b outcome [.irq] (.exception .irq) (b.mapCore fun c => c.noteFault.enter .irq)

/-- What one step can come to, with the exceptions it enters. -/
inductive Turns (b : Board) : List ExceptionKind → Except Failure Outcome → Board → Prop
  | halted (cause : Failure) (state : b.core.runState = .halted cause) :
      Turns b [] (.ok (.halted cause)) b
  | failed (cause : Failure) (done : Board) (state : b.core.runState = .running)
      (executes : b.Executes (.error cause) done) :
      Turns b [] (.error cause) (done.mapCore fun c => c.halt cause)
  | completed (executed outcome : Outcome) (entries : List ExceptionKind) (done b' : Board)
      (state : b.core.runState = .running) (executes : b.Executes (.ok executed) done)
      (ends : done.Ends executed entries outcome b') : Turns b entries (.ok outcome) b'

end Board

namespace Pending

theorem exception?_eq_none {p : Pending} : p.exception? = Option.none ↔ p = none := by
  cases p <;> simp [exception?]

theorem exception?_inj {p p' : Pending} (same : p.exception? = p'.exception?) : p = p' := by
  cases p <;> cases p' <;> first | rfl | cases same

/-- An instruction leaves no interrupt to be dispatched. -/
theorem ne_irq {p : Pending} {kind : ExceptionKind} (pending : p.exception? = some kind) :
    kind ≠ .irq := by
  rintro rfl
  cases p <;> cases pending

end Pending

namespace Core

variable (c : Core)

theorem irqDisabled_enteredStatus (s : StatusWord) (kind : ExceptionKind) :
    (enteredStatus s kind).has .irqDisabled = true := by
  have position : StatusBit.irqDisabled.position < 32 := by decide
  unfold enteredStatus StatusWord.has
  dsimp only
  split
  · rw [StatusWord.getLsbD_assign _ _ _ _ position, if_neg (by decide),
      StatusWord.getLsbD_assign _ _ _ _ position, if_pos rfl]
  · rw [StatusWord.getLsbD_assign _ _ _ _ position, if_pos rfl]

theorem thumb_enteredStatus (s : StatusWord) (kind : ExceptionKind) :
    (enteredStatus s kind).has .thumb = false := by
  have position : StatusBit.thumb.position < 32 := by decide
  unfold enteredStatus StatusWord.has
  dsimp only
  split
  · rw [StatusWord.getLsbD_assign _ _ _ _ position, if_neg (by decide),
      StatusWord.getLsbD_assign _ _ _ _ position, if_neg (by decide),
      StatusWord.getLsbD_assign _ _ _ _ position, if_pos rfl]
  · rw [StatusWord.getLsbD_assign _ _ _ _ position, if_neg (by decide),
      StatusWord.getLsbD_assign _ _ _ _ position, if_pos rfl]

/-- An exception masks interrupts. -/
theorem accepts_irq_enter (kind : ExceptionKind) : (c.enter kind).accepts .irq = false := by
  have masked := irqDisabled_enteredStatus c.registers.current kind
  rw [← current_enteredRegisters] at masked
  have disabled : (c.enter kind).registers.current.has .irqDisabled = true := masked
  simp [accepts, disabled]

theorem accepts_of_ne_irq {kind : ExceptionKind} (other : kind ≠ .irq) : c.accepts kind = true := by
  simp [accepts, other]

/-- Noting a fault changes nothing but what is pending. -/
theorem noteFault_eq : c.noteFault = { c with decode := c.noteFault.decode } := by
  unfold noteFault
  split <;> rfl

@[simp] theorem registers_noteFault : c.noteFault.registers = c.registers := by rw [noteFault_eq]

@[simp] theorem mmu_noteFault : c.noteFault.mmu = c.mmu := by rw [noteFault_eq]

@[simp] theorem diagnostics_noteFault : c.noteFault.diagnostics = c.diagnostics := by
  rw [noteFault_eq]

@[simp] theorem registers_takeAbort (kind : ExceptionKind) :
    (c.takeAbort kind).registers = c.registers := by
  unfold takeAbort
  split <;> rfl

/-- Recording an abort counts nothing. -/
@[simp] theorem exceptions_takeAbort (kind : ExceptionKind) :
    (c.takeAbort kind).diagnostics.exceptions = c.diagnostics.exceptions := by
  unfold takeAbort
  split <;> rfl

theorem accepts_noteFault (kind : ExceptionKind) : c.noteFault.accepts kind = c.accepts kind := by
  unfold noteFault
  split <;> rfl

end Core

namespace Board

theorem dispatchPending_of_idle (b : Board) (outcome : Outcome)
    (idle : b.core.noteFault.decode.pending = .none) :
    b.dispatchPending outcome = ⟨outcome, b.mapCore .noteFault, []⟩ := by
  have nothing := Pending.exception?_eq_none.mpr idle
  simp only [dispatchPending, mapCore, nothing]

theorem dispatchPending_of_pending (b : Board) (outcome : Outcome) {kind : ExceptionKind}
    (pending : b.core.noteFault.decode.pending.exception? = some kind) :
    b.dispatchPending outcome =
      ⟨.exception kind,
        b.mapCore fun c => ((c.noteFault.takeAbort kind).enter kind).setPending .none,
        Event.ofException (b.core.noteFault.takeAbort kind) kind⟩ := by
  simp only [dispatchPending, mapCore, pending]

theorem takeInterrupt_of_refused (b : Board) (outcome : Outcome)
    (refused : (b.devices.irqPending && b.core.accepts .irq) = false) :
    b.takeInterrupt outcome = ⟨outcome, b, []⟩ := by
  rw [takeInterrupt, if_neg (Bool.eq_false_iff.mp refused)]

theorem takeInterrupt_of_accepted (b : Board) (outcome : Outcome)
    (asserted : b.devices.irqPending = true) (accepted : b.core.accepts .irq = true) :
    b.takeInterrupt outcome =
      ⟨.exception .irq, b.mapCore fun c => c.enter .irq, Event.ofException b.core .irq⟩ := by
  simp [takeInterrupt, asserted, accepted]

/-- An exception that is dispatched masks the interrupt request behind it. -/
theorem done_ends (b : Board) (outcome : Outcome) :
    let dispatched := b.dispatchPending outcome
    let interrupted := dispatched.board.takeInterrupt dispatched.result
    b.Ends outcome (dispatched.entries ++ interrupted.entries) interrupted.result
      interrupted.board := by
  cases pending : b.core.noteFault.decode.pending.exception? with
  | none =>
    have idle := Pending.exception?_eq_none.mp pending
    have accepts : ((b.mapCore .noteFault).core).accepts .irq = b.core.accepts .irq :=
      b.core.accepts_noteFault .irq
    rw [dispatchPending_of_idle b outcome idle]
    dsimp only
    by_cases taken : (b.devices.irqPending && b.core.accepts .irq) = true
    · obtain ⟨asserted, accepted⟩ := (Bool.and_eq_true _ _).mp taken
      rw [takeInterrupt_of_accepted (b.mapCore .noteFault) outcome asserted
        (accepts.trans accepted)]
      have entered := Event.entered?_exception (accepts.trans accepted)
      rw [Progress.entries, Progress.entries, entered]
      exact .interrupted idle asserted accepted
    · have quiet := Bool.eq_false_iff.mpr taken
      have refused : ((b.mapCore .noteFault).devices.irqPending &&
          (b.mapCore .noteFault).core.accepts .irq) = false := by
        rw [accepts]
        exact quiet
      rw [takeInterrupt_of_refused _ outcome refused]
      exact .quiet idle quiet
  | some kind =>
    let c := b.core.noteFault.takeAbort kind
    have masked : (b.mapCore fun c =>
        ((c.noteFault.takeAbort kind).enter kind).setPending .none).core.accepts .irq = false :=
      c.accepts_irq_enter kind
    have entered := Event.entered?_exception (c.accepts_of_ne_irq (Pending.ne_irq pending))
    rw [dispatchPending_of_pending b outcome pending]
    dsimp only
    rw [takeInterrupt_of_refused _ _ (by rw [masked, Bool.and_false]), Progress.entries,
      Progress.entries, entered]
    exact .dispatched kind pending

theorem step_turns (b : Board) (trace : Bool) :
    b.Turns (b.step trace).entries (b.step trace).result (b.step trace).board := by
  have executes := b.fetchAndExecute_executes trace
  have before := b.entries_fetchAndExecute trace
  cases state : b.core.runState with
  | halted cause =>
    simp only [step, state]
    exact .halted cause state
  | running =>
    simp only [step, state, runningStep]
    generalize b.fetchAndExecute trace = executed at executes before
    obtain ⟨result, done, events⟩ := executed
    rw [Progress.entries] at before
    cases result with
    | error cause =>
      have none : (events ++
          [Event.coreHalted cause (Dump.ofCore (done.core.halt cause))]).filterMap
            Event.entered? = [] := by
        rw [List.filterMap_append, before]
        rfl
      have failed := Turns.failed cause done state executes
      rw [← none] at failed
      exact failed
    | ok outcome =>
      have ends := done.done_ends outcome
      have whole : (events ++ (done.dispatchPending outcome).events ++
          ((done.dispatchPending outcome).board.takeInterrupt
            (done.dispatchPending outcome).result).events).filterMap Event.entered? =
          (done.dispatchPending outcome).entries ++
            ((done.dispatchPending outcome).board.takeInterrupt
              (done.dispatchPending outcome).result).entries := by
        rw [List.filterMap_append, List.filterMap_append, before]
        rfl
      dsimp only
      rw [Progress.entries]
      dsimp only
      rw [whole]
      exact .completed outcome _ _ done _ state executes ends

section Step
variable {b fetched done : Board} {word : Word} (trace : Bool)
  (read : b.fetchNext = (.ok word, fetched)) (due : (fetched.accept word).passes word = true)
include read due

/-- An instruction that is carried out to its end lets the core go on. -/
theorem step_of_run
    (run : (fetched.accept word).run (Instruction.execute ⟨word⟩) = (.ok (), done)) :
    ∃ outcome, (b.step trace).result = .ok outcome := by
  have retires := Executes.retired word fetched done read due run
  have turns := b.step_turns trace
  generalize (b.step trace).entries = entries, (b.step trace).result = result,
    (b.step trace).board = b' at turns
  cases turns with
  | halted cause state => exact ⟨_, rfl⟩
  | failed cause done' state executes => cases (retires.unique executes).1
  | completed executed outcome entries done' b' state executes ends => exact ⟨_, rfl⟩

/-- A failure that no exception stands for stops the core. -/
theorem step_of_fatal {cause : Failure} (running : b.core.runState = .running)
    (fatal : cause.isFatal = true)
    (run : (fetched.accept word).run (Instruction.execute ⟨word⟩) = (.error cause, done)) :
    (b.step trace).result = .error cause ∧
      (b.step trace).board = done.mapCore fun c => c.halt cause := by
  have breaks := Executes.broken word cause fetched done fatal read due run
  have turns := b.step_turns trace
  generalize (b.step trace).entries = entries, (b.step trace).result = result,
    (b.step trace).board = b' at turns
  cases turns with
  | halted cause' state =>
    rw [running] at state
    cases state
  | failed cause' done' state executes =>
    obtain ⟨same, rfl⟩ := breaks.unique executes
    cases same
    exact ⟨rfl, rfl⟩
  | completed executed outcome entries done' b' state executes ends =>
    cases (breaks.unique executes).1

end Step

end Board
end ArmMachine
