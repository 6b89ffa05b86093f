import ArmMachine.Proofs.Execution.Bus

/-! The stages of a step, each with everything it can do: fetching and executing one instruction,
dispatching what it left pending, taking an interrupt. -/
namespace ArmMachine
namespace Board

/-- The fetch that a step begins with. -/
def fetchNext (b : Board) : Except Failure Word × Board :=
  (b.mapCore .beginStep).run (fetch b.core.registers.pc)

theorem run_fetchNext (b : Board) :
    (b.mapCore .beginStep).run (fetch b.core.registers.pc) = b.fetchNext := rfl

/-- A board that has fetched a word and is about to execute it. -/
def accept (b : Board) (word : Word) : Board := b.mapCore fun c => c.acceptFetch ⟨word⟩

/-- Whether the condition of a word that is about to be executed passes. -/
def passes (b : Board) (word : Word) : Bool :=
  (Instruction.condition ⟨word⟩).passes b.core.registers.current

/-- What fetching and executing an instruction can come to. -/
inductive Executes (b : Board) : Except Failure Outcome → Board → Prop
  | unfetched (fault : Abort) (fetched : Board)
      (refused : b.fetchNext = (.error (.abort fault), fetched)) :
      Executes b (.ok .skipped) (fetched.mapCore fun c => c.setPending .prefetchAbort)
  | brokenFetch (cause : Failure) (fetched : Board) (fatal : cause.isFatal = true)
      (refused : b.fetchNext = (.error cause, fetched)) : Executes b (.error cause) fetched
  | skipped (word : Word) (fetched : Board) (read : b.fetchNext = (.ok word, fetched))
      (idle : (fetched.accept word).passes word = false) :
      Executes b (.ok .skipped) (fetched.accept word)
  | retired (word : Word) (fetched done : Board) (read : b.fetchNext = (.ok word, fetched))
      (due : (fetched.accept word).passes word = true)
      (executed : (fetched.accept word).run (Instruction.execute ⟨word⟩) = (.ok (), done)) :
      Executes b (.ok (.retired (Instruction.shape ⟨word⟩).cost)) (done.mapCore .countInstruction)
  | aborted (word : Word) (fault : Abort) (fetched done : Board)
      (read : b.fetchNext = (.ok word, fetched)) (due : (fetched.accept word).passes word = true)
      (executed : (fetched.accept word).run (Instruction.execute ⟨word⟩) =
        (.error (.abort fault), done)) :
      Executes b (.ok (.retired (Instruction.shape ⟨word⟩).cost)) (done.mapCore .countInstruction)
  | broken (word : Word) (cause : Failure) (fetched done : Board) (fatal : cause.isFatal = true)
      (read : b.fetchNext = (.ok word, fetched)) (due : (fetched.accept word).passes word = true)
      (executed : (fetched.accept word).run (Instruction.execute ⟨word⟩) = (.error cause, done)) :
      Executes b (.error cause) done

/-- What dispatching can come to, after an instruction with the given outcome. -/
inductive Dispatches (b : Board) (outcome : Outcome) : Outcome → Board → Prop
  | nothing (idle : b.core.noteFault.decode.pending = .none) :
      Dispatches b outcome outcome (b.mapCore .noteFault)
  | entered (kind : ExceptionKind)
      (pending : b.core.noteFault.decode.pending.exception? = some kind) :
      Dispatches b outcome (.exception kind)
        (b.mapCore fun c => ((c.noteFault.takeAbort kind).enter kind).setPending .none)

/-- What becomes of an interrupt request at the end of a step. -/
inductive Interrupts (b : Board) (outcome : Outcome) : Outcome → Board → Prop
  | refused (quiet : (b.devices.irqPending && b.core.accepts .irq) = false) :
      Interrupts b outcome outcome b
  | entered (asserted : b.devices.irqPending = true) (accepted : b.core.accepts .irq = true) :
      Interrupts b outcome (.exception .irq) (b.mapCore fun c => c.enter .irq)

/-- What one step can come to. -/
inductive Steps (b : Board) : Except Failure Outcome → Board → Prop
  | halted (cause : Failure) (state : b.core.runState = .halted cause) :
      Steps b (.ok (.halted cause)) b
  | failed (cause : Failure) (done : Board) (state : b.core.runState = .running)
      (executes : b.Executes (.error cause) done) :
      Steps b (.error cause) (done.mapCore fun c => c.halt cause)
  | completed (executed dispatched outcome : Outcome) (done settled b' : Board)
      (state : b.core.runState = .running) (executes : b.Executes (.ok executed) done)
      (dispatches : done.Dispatches executed dispatched settled)
      (interrupts : settled.Interrupts dispatched outcome b') : Steps b (.ok outcome) b'

theorem fetchAndExecute_executes (b : Board) (trace : Bool) :
    b.Executes (b.fetchAndExecute trace).result (b.fetchAndExecute trace).board := by
  unfold fetchAndExecute
  dsimp only
  rw [run_fetchNext]
  generalize stage : b.fetchNext = r
  obtain ⟨result, fetched⟩ := r
  cases result with
  | error cause =>
    cases cause with
    | abort fault => exact .unfetched fault fetched stage
    | _ => exact .brokenFetch _ fetched rfl stage
  | ok word =>
    dsimp only
    change Executes b ((fetched.accept word).executeFetched ⟨word⟩).result
      ((fetched.accept word).executeFetched ⟨word⟩).board
    unfold executeFetched
    split
    · rename_i due
      unfold execute
      dsimp only
      generalize run : (fetched.accept word).run (Instruction.execute ⟨word⟩) = r
      obtain ⟨result, done⟩ := r
      cases result with
      | ok _ => exact .retired word fetched done stage due run
      | error cause =>
        cases cause with
        | abort fault => exact .aborted word fault fetched done stage due run
        | _ => exact .broken word _ fetched done rfl stage due run
    · rename_i idle
      exact .skipped word fetched stage (Bool.eq_false_iff.mpr idle)

/-- Fetching and executing can come to one thing only. -/
theorem Executes.unique {b done done' : Board} {result result' : Except Failure Outcome}
    (executes : b.Executes result done) (again : b.Executes result' done') :
    result = result' ∧ done = done' := by
  cases executes <;> cases again <;> grind [Failure.isFatal]

/-- A property holds after an instruction if fetches establish it and every later stage keeps it. -/
theorem Executes.establishes {P : Board → Prop} {b done : Board} {result : Except Failure Outcome}
    (executes : b.Executes result done)
    (fetches : ∀ answer next, b.fetchNext = (answer, next) → P next)
    (accepts : ∀ word next, b.fetchNext = (.ok word, next) → P next → P (next.accept word))
    (runs : ∀ word next answer after, b.fetchNext = (.ok word, next) → P (next.accept word) →
      (next.accept word).run (Instruction.execute ⟨word⟩) = (answer, after) → P after)
    (marks : ∀ next, P next → P (next.mapCore fun c => c.setPending .prefetchAbort))
    (counts : ∀ after, P after → P (after.mapCore .countInstruction)) : P done := by
  have accepted : ∀ {word next}, b.fetchNext = (.ok word, next) → P (next.accept word) :=
    fun read => accepts _ _ read (fetches _ _ read)
  cases executes with
  | unfetched fault next refused => exact marks next (fetches _ next refused)
  | brokenFetch cause next fatal refused => exact fetches _ done refused
  | skipped word next read idle => exact accepted read
  | retired word next after read due run =>
    exact counts after (runs word next _ after read (accepted read) run)
  | aborted word fault next after read due run =>
    exact counts after (runs word next _ after read (accepted read) run)
  | broken word cause next after fatal read due run =>
    exact runs word next _ done read (accepted read) run

/-- Two boards differ at most in registers, decode state and counters. -/
structure SameStore (b b' : Board) : Prop where
  mmu : b'.core.mmu = b.core.mmu
  ram : b'.core.ram = b.core.ram
  runState : b'.core.runState = b.core.runState
  devices : b'.devices = b.devices

/-- A property holds after an instruction if fetches establish it, execution keeps it and it does
not tell boards apart that have the same store. -/
theorem Executes.keeps {P : Board → Prop} {b done : Board} {result : Except Failure Outcome}
    (executes : b.Executes result done)
    (frame : ∀ first next : Board, first.SameStore next → P first → P next)
    (fetches : ∀ answer next, b.fetchNext = (answer, next) → P next)
    (runs : ∀ word next answer after, b.fetchNext = (.ok word, next) → P (next.accept word) →
      (next.accept word).run (Instruction.execute ⟨word⟩) = (answer, after) → P after) :
    P done :=
  executes.establishes fetches (fun _ next _ => frame next _ ⟨rfl, rfl, rfl, rfl⟩) runs
    (fun next => frame next _ ⟨rfl, rfl, rfl, rfl⟩)
    (fun after => frame after _ ⟨rfl, rfl, rfl, rfl⟩)

/-- What dispatching leaves as it was. An abort that is entered takes its fault along. -/
structure Settles (b b' : Board) : Prop where
  mmu : b'.core.mmu = b.core.mmu ∨ b'.core.mmu = b.core.mmu.takeFault
  ram : b'.core.ram = b.core.ram
  runState : b'.core.runState = b.core.runState
  word : b'.core.decode.word = b.core.decode.word
  shape : b'.core.decode.shape = b.core.decode.shape
  devices : b'.devices = b.devices

theorem Dispatches.settles {b settled : Board} {executed dispatched : Outcome}
    (dispatches : b.Dispatches executed dispatched settled) : b.Settles settled := by
  let c := b.core.noteFault
  obtain ⟨mmu, ram, runState, word, shape⟩ : c.mmu = b.core.mmu ∧ c.ram = b.core.ram ∧
      c.runState = b.core.runState ∧ c.decode.word = b.core.decode.word ∧
      c.decode.shape = b.core.decode.shape := by
    unfold c Core.noteFault
    split <;> exact ⟨rfl, rfl, rfl, rfl, rfl⟩
  cases dispatches with
  | nothing idle => exact ⟨.inl mmu, ram, runState, word, shape, rfl⟩
  | entered kind pending =>
    obtain ⟨fault, ram', runState', decode⟩ :
        ((c.takeAbort kind).mmu = c.mmu ∨ (c.takeAbort kind).mmu = c.mmu.takeFault) ∧
          (c.takeAbort kind).ram = c.ram ∧ (c.takeAbort kind).runState = c.runState ∧
          (c.takeAbort kind).decode = c.decode := by
      unfold Core.takeAbort
      split
      · exact ⟨.inr rfl, rfl, rfl, rfl⟩
      · exact ⟨.inl rfl, rfl, rfl, rfl⟩
    rw [mmu] at fault
    exact ⟨fault, ram'.trans ram, runState'.trans runState,
      (congrArg DecodeState.word decode).trans word,
      (congrArg DecodeState.shape decode).trans shape, rfl⟩

theorem Interrupts.keeps {b b' : Board} {outcome outcome' : Outcome}
    (interrupts : b.Interrupts outcome outcome' b') :
    b'.core.runState = b.core.runState ∧ b'.core.decode = b.core.decode ∧
      b'.core.mmu = b.core.mmu ∧ b'.devices = b.devices := by
  cases interrupts <;> exact ⟨rfl, rfl, rfl, rfl⟩

theorem dispatchPending_dispatches (b : Board) (outcome : Outcome) :
    b.Dispatches outcome (b.dispatchPending outcome).result (b.dispatchPending outcome).board := by
  unfold dispatchPending
  dsimp only
  split
  · rename_i idle
    refine .nothing ?_
    cases pending : b.core.noteFault.decode.pending with
    | none => rfl
    | _ => simp [mapCore, pending, Pending.exception?] at idle
  · rename_i kind pending
    exact .entered kind pending

theorem takeInterrupt_interrupts (b : Board) (outcome : Outcome) :
    b.Interrupts outcome (b.takeInterrupt outcome).result (b.takeInterrupt outcome).board := by
  unfold takeInterrupt
  split
  · rename_i taken
    obtain ⟨asserted, accepted⟩ := (Bool.and_eq_true _ _).mp taken
    exact .entered asserted accepted
  · rename_i quiet
    exact .refused (Bool.eq_false_iff.mpr quiet)

theorem step_steps (b : Board) (trace : Bool) :
    b.Steps (b.step trace).result (b.step trace).board := by
  have executes := b.fetchAndExecute_executes trace
  unfold step
  cases state : b.core.runState with
  | halted cause => exact .halted cause state
  | running =>
    simp only [runningStep]
    generalize b.fetchAndExecute trace = executed at executes
    obtain ⟨result, done, _⟩ := executed
    cases result with
    | error cause => exact .failed cause done state executes
    | ok outcome =>
      exact .completed outcome _ _ done _ _ state executes (done.dispatchPending_dispatches outcome)
        (takeInterrupt_interrupts _ _)

variable {b fetched : Board} {word : Word}

/-- What a fetch leaves for the instruction it fetched. -/
theorem fetchNext_readChange {result : Except Failure Word}
    (read : b.fetchNext = (result, fetched)) : (b.mapCore .beginStep).ReadChange fetched := by
  have change := (b.mapCore .beginStep).fetch_readChange b.core.registers.pc
  rw [run_fetchNext, read] at change
  exact change

theorem decode_accept (read : b.fetchNext = (.ok word, fetched)) :
    (fetched.accept word).core.decode =
      ⟨word, b.core.registers.pc, some (Instruction.shape ⟨word⟩), .none⟩ := by
  have change := (fetchNext_readChange read).decode
  change { fetched.core.decode with word := word, shape := some (Instruction.shape ⟨word⟩) } = _
  rw [change]
  rfl

theorem registers_accept (read : b.fetchNext = (.ok word, fetched)) :
    (fetched.accept word).core.registers =
      b.core.registers.setPc (b.core.registers.pc + 4) := by
  have change := (fetchNext_readChange read).registers
  change fetched.core.registers.setPc (fetched.core.registers.pc + 4) = _
  rw [change]
  rfl

end Board
end ArmMachine
