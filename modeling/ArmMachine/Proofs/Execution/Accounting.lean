import Mathlib.Algebra.GroupWithZero.Nat
import Mathlib.Algebra.Order.BigOperators.Group.List
import Mathlib.Algebra.Order.Group.Nat
import ArmMachine.Proofs.Execution.Entries

/-! What a step counts. An exception that is entered is the outcome of its step and is counted once;
an instruction is counted when it was fetched and its condition passed, whatever became of it. Along
a run the counters add up to the outcomes and to the instructions executed. -/
namespace ArmMachine

theorem ExceptionKind.index_inj {kind other : ExceptionKind} (same : kind.index = other.index) :
    kind = other := by
  cases kind <;> cases other <;> first | rfl | cases same

/-- Cutting some summands off at a limit keeps the sum only if it cuts nothing. -/
theorem sum_min_eq_iff {α : Type} (n : α → Nat) (limit : Nat) (l : List α) :
    (l.map fun x => min (n x) limit).sum = (l.map n).sum ↔ ∀ x ∈ l, n x ≤ limit := by
  constructor
  · intro same x member
    by_contra beyond
    have cut : (l.map fun x => min (n x) limit).sum < (l.map n).sum :=
      List.sum_lt_sum _ _ (fun x _ => Nat.min_le_left (n x) limit) ⟨x, member, by omega⟩
    exact cut.ne same
  · intro within
    exact congrArg List.sum (List.map_congr_left fun x member => Nat.min_eq_left (within x member))

namespace Diagnostics

/-- A counter goes up by one until it reaches its largest value, and takes no other with it. -/
theorem count_recordException (d : Diagnostics) (kind other : ExceptionKind) :
    (d.recordException kind).count other =
      if kind = other then min (d.count other + 1) maximumCount else d.count other := by
  have counted : (d.recordException kind).count other =
      if kind.index = other.index then min (d.count kind + 1) maximumCount
      else d.count other := Vector.getElem_set kind.index_lt other.index_lt
  rw [counted]
  by_cases same : kind = other
  · subst same
    rw [if_pos rfl, if_pos rfl]
  · have apart : ¬ kind.index = other.index := fun index => same (ExceptionKind.index_inj index)
    rw [if_neg apart, if_neg same]

/-- All exceptions that were counted. -/
def total (d : Diagnostics) : Nat := (ExceptionKind.all.map d.count).sum

/-- The sum of the counters is exact as long as none of them has come to its end. -/
theorem total_eq_iff {d : Diagnostics} {n : ExceptionKind → Nat}
    (counters : ∀ kind, d.count kind = min (n kind) maximumCount) :
    d.total = (ExceptionKind.all.map n).sum ↔ ∀ kind, n kind ≤ maximumCount := by
  have every : ∀ kind, kind ∈ ExceptionKind.all := by
    intro kind
    cases kind <;> decide
  have cut : d.count = fun kind => min (n kind) maximumCount := funext counters
  rw [total, cut, sum_min_eq_iff]
  exact ⟨fun within kind => within kind (every kind), fun within kind _ => within kind⟩

end Diagnostics

namespace Outcome

def isException : Outcome → Bool
  | exception _ => true
  | retired _ | skipped | halted _ => false

/-- Every exception among some outcomes is of one kind. -/
theorem countP_isException (outcomes : List Outcome) :
    outcomes.countP isException =
      (ExceptionKind.all.map fun kind => outcomes.count (exception kind)).sum := by
  induction outcomes with
  | nil => rfl
  | cons outcome rest ih =>
    rw [List.countP_cons, ih]
    cases outcome with
    | exception kind =>
      cases kind <;> simp [ExceptionKind.all, isException, List.count_cons] <;> omega
    | _ => simp [ExceptionKind.all, isException]

end Outcome

namespace Board

variable {b b' done fetched settled start : Board} {outcome executed : Outcome}
  {entries : List ExceptionKind} {outcomes : List Outcome}

/-- The next step executes an instruction: its word is fetched, and its condition passes. -/
def executesNext (b : Board) : Bool :=
  match b.fetchNext with
  | (.ok word, fetched) => (fetched.accept word).passes word
  | (.error _, _) => false

/-- What a step that lets the core go on does to registers and counters, with `done` the board after
its instruction and `entries` the exceptions it enters. -/
structure Accounts (b done : Board) (entries : List ExceptionKind) (outcome : Outcome)
    (b' : Board) : Prop where
  single : entries.length ≤ 1
  entered : ∀ kind, outcome = .exception kind ↔ entries = [kind]
  counters : ∀ kind, b'.core.diagnostics.count kind =
    if outcome = .exception kind then
      min (b.core.diagnostics.count kind + 1) Diagnostics.maximumCount
    else b.core.diagnostics.count kind
  interrupt : .irq ∈ entries → entries = [.irq] ∧
    (∃ e ∈ b'.devices.entries, e.enabled = true ∧ e.device.assertsIrq = true) ∧
    done.core.registers.current.has .irqDisabled = false ∧
    b'.core.registers.savedOf .irq = some done.core.registers.current
  instructions : b'.core.instructionCount =
    b.core.instructionCount + if b.executesNext then 1 else 0
  skipped : outcome = .skipped →
    b'.core.registers = b.core.registers.setPc (b.core.registers.pc + 4)

/-- The instruction counter tells whether an instruction was executed, and nothing else. -/
theorem Executes.counts (executes : b.Executes (.ok executed) done) :
    done.core.instructionCount = b.core.instructionCount + if b.executesNext then 1 else 0 := by
  have accepted : ∀ {word fetched}, b.fetchNext = (.ok word, fetched) →
      (fetched.accept word).core.instructionCount = b.core.instructionCount :=
    fun read => (sameCounters_of_fetchNext read).instructionCount
  have counted : ∀ {word fetched result after}, b.fetchNext = (.ok word, fetched) →
      (fetched.accept word).run (Instruction.execute ⟨word⟩) = (result, after) →
      (after.mapCore .countInstruction).core.instructionCount = b.core.instructionCount + 1 := by
    intro word fetched result after read run
    have same := (sameCounters_of_run run).instructionCount.trans (accepted read)
    exact congrArg (· + 1) same
  unfold executesNext
  cases executes with
  | unfetched fault fetched refused =>
    rw [refused]
    exact (sameCounters_of_fetchNext refused).instructionCount.trans (BitVec.add_zero _).symm
  | skipped word fetched read idle =>
    simp only [read, idle, Bool.false_eq_true, if_false]
    exact (accepted read).trans (BitVec.add_zero _).symm
  | retired word fetched after read due run =>
    simp only [read, due, if_true]
    exact counted read run
  | aborted word fault fetched after read due run =>
    simp only [read, due, if_true]
    exact counted read run

/-- What ends a step leaves the instruction counter alone. -/
theorem Ends.instructionCount (ends : done.Ends executed entries outcome b') :
    b'.core.instructionCount = done.core.instructionCount := by
  have noted : done.core.noteFault.instructionCount = done.core.instructionCount := by
    rw [Core.noteFault_eq]
  cases ends with
  | quiet idle refused => exact noted
  | dispatched kind pending =>
    refine Eq.trans ?_ noted
    change (done.core.noteFault.takeAbort kind).instructionCount = _
    unfold Core.takeAbort
    split <;> rfl
  | interrupted idle asserted accepted => exact noted

/-- The exceptions entered at the end of a step are the ones that are counted. -/
theorem Ends.counters (ends : done.Ends executed entries outcome b') (kind : ExceptionKind) :
    b'.core.diagnostics.count kind =
      if kind ∈ entries then min (done.core.diagnostics.count kind + 1) Diagnostics.maximumCount
      else done.core.diagnostics.count kind := by
  have noted : done.core.noteFault.diagnostics.count kind = done.core.diagnostics.count kind := by
    rw [Core.diagnostics_noteFault]
  cases ends with
  | quiet idle refused =>
    rw [if_neg List.not_mem_nil]
    exact noted
  | dispatched entered pending =>
    have taken : (done.core.noteFault.takeAbort entered).diagnostics.count kind =
        done.core.noteFault.diagnostics.count kind := by
      rw [Diagnostics.count, Core.exceptions_takeAbort]
      rfl
    have counted := (done.core.noteFault.takeAbort entered).diagnostics.count_recordException
      entered kind
    rw [taken, noted] at counted
    simp only [List.mem_singleton, eq_comm (a := kind)]
    exact counted
  | interrupted idle asserted accepted =>
    have counted := done.core.noteFault.diagnostics.count_recordException .irq kind
    rw [noted] at counted
    simp only [List.mem_singleton, eq_comm (a := kind)]
    exact counted

theorem mem_irqPending {t : DeviceTable} (asserted : t.irqPending = true) :
    ∃ e ∈ t.entries, e.enabled = true ∧ e.device.assertsIrq = true := by
  obtain ⟨e, member, asserts⟩ := List.any_eq_true.mp asserted
  exact ⟨e, member, (Bool.and_eq_true _ _).mp asserts⟩

/-- An interrupt is entered alone, and only if the instruction has left interrupts enabled. -/
theorem Ends.interrupt (ends : done.Ends executed entries outcome b')
    (interrupts : .irq ∈ entries) :
    entries = [.irq] ∧ (∃ e ∈ b'.devices.entries, e.enabled = true ∧ e.device.assertsIrq = true) ∧
      done.core.registers.current.has .irqDisabled = false ∧
      b'.core.registers.savedOf .irq = some done.core.registers.current := by
  cases ends with
  | quiet idle refused => contradiction
  | dispatched kind pending =>
    exact absurd (List.mem_singleton.mp interrupts).symm (Pending.ne_irq pending)
  | interrupted idle asserted accepted =>
    have enabled : done.core.registers.current.has .irqDisabled = false := by
      simpa [Core.accepts] using accepted
    have own : Bank.irq = ExceptionKind.irq.bank := rfl
    refine ⟨rfl, mem_irqPending asserted, enabled, ?_⟩
    refine (done.core.noteFault.savedOf_enteredRegisters .irq .irq).trans ?_
    rw [if_pos own, Core.registers_noteFault]

/-- A step that ends without an exception has the outcome of its instruction, any other step that of
the one exception it enters. -/
theorem Ends.outcome_cases (ends : done.Ends executed entries outcome b') :
    entries = [] ∧ outcome = executed ∨ ∃ kind, entries = [kind] ∧ outcome = .exception kind := by
  cases ends with
  | quiet idle refused => exact .inl ⟨rfl, rfl⟩
  | dispatched kind pending => exact .inr ⟨kind, rfl, rfl⟩
  | interrupted idle asserted accepted => exact .inr ⟨.irq, rfl, rfl⟩

/-- An instruction that is passed over moves the program counter only. -/
theorem Ends.skipped (ends : done.Ends executed entries .skipped b')
    (executes : b.Executes (.ok executed) done) :
    b'.core.registers = b.core.registers.setPc (b.core.registers.pc + 4) := by
  cases ends with
  | quiet idle refused =>
    refine (Core.registers_noteFault _).trans ?_
    cases executes with
    | unfetched fault fetched unread =>
      have other : Pending.prefetchAbort ≠ .none := by decide
      rw [Core.noteFault_of_pending other] at idle
      cases idle
    | skipped word fetched read undue => exact registers_accept read

theorem Turns.accounts (turns : b.Turns entries (.ok outcome) b')
    (running : b.core.runState = .running) {ran : Except Failure Outcome}
    (executes : b.Executes ran done) : b.Accounts done entries outcome b' := by
  cases turns with
  | halted cause state =>
    rw [running] at state
    cases state
  | completed executed outcome entries after b' state completes ends =>
    obtain ⟨rfl, rfl⟩ := executes.unique completes
    have plain : ∀ kind, executed ≠ .exception kind := by
      rintro kind rfl
      obtain passed | ⟨cycles, retired⟩ := completes.completes
      · cases passed
      · cases retired
    have entered : ∀ kind, outcome = .exception kind ↔ entries = [kind] := by
      intro kind
      obtain ⟨rfl, rfl⟩ | ⟨only, rfl, rfl⟩ := ends.outcome_cases
      · simp [plain]
      · simp
    have members : ∀ kind, kind ∈ entries ↔ outcome = .exception kind := by
      intro kind
      obtain ⟨rfl, rfl⟩ | ⟨only, rfl, rfl⟩ := ends.outcome_cases
      · simp [plain]
      · simp [eq_comm]
    refine ⟨?_, entered, fun kind => ?_, ends.interrupt, ?_, ?_⟩
    · obtain ⟨rfl, -⟩ | ⟨kind, rfl, -⟩ := ends.outcome_cases
      · exact Nat.zero_le 1
      · exact Nat.le_refl 1
    · have counted := ends.counters kind
      simp only [members, Diagnostics.count, completes.diagnostics] at counted ⊢
      exact counted
    · rw [ends.instructionCount, completes.counts]
    · rintro rfl
      exact ends.skipped completes

/-- Steps of a running core that let it go on, with their outcomes, the last one first, and with the
number of instructions executed. Devices may be exchanged between the steps. -/
inductive Runs (start : Board) : List Outcome → Nat → Board → Prop
  | start : Runs start [] 0 start
  | step (trace : Bool) (outcome : Outcome) (outcomes : List Outcome) (executed : Nat) (b : Board)
      (before : Runs start outcomes executed b) (running : b.core.runState = .running)
      (result : (b.step trace).result = .ok outcome) :
      Runs start (outcome :: outcomes) (executed + b.executesNext.toNat) (b.step trace).board
  | exchange (devices : DeviceTable) (outcomes : List Outcome) (executed : Nat) (b : Board)
      (before : Runs start outcomes executed b) : Runs start outcomes executed { b with devices }

theorem step_accounts (b : Board) (trace : Bool) (running : b.core.runState = .running)
    (result : (b.step trace).result = .ok outcome) :
    b.Accounts (b.fetchAndExecute trace).board (b.step trace).entries outcome
      (b.step trace).board := by
  have turns := b.step_turns trace
  rw [result] at turns
  exact turns.accounts running (b.fetchAndExecute_executes trace)

/-- Each counter has counted the outcomes of its kind. -/
theorem Runs.counters {n : Nat} (runs : start.Runs outcomes n b) (kind : ExceptionKind)
    (bounded : start.core.diagnostics.count kind ≤ Diagnostics.maximumCount) :
    b.core.diagnostics.count kind =
      min (start.core.diagnostics.count kind + outcomes.count (.exception kind))
        Diagnostics.maximumCount := by
  induction runs with
  | start => exact (Nat.min_eq_left bounded).symm
  | step trace outcome outcomes n b before running result ih =>
    rw [(step_accounts b trace running result).counters, ih, List.count_cons]
    by_cases counted : outcome = .exception kind
    · simp only [counted, if_true, beq_self_eq_true]
      omega
    · simp [counted]
  | exchange devices outcomes n b before ih => exact ih

theorem Runs.instructionCount {n : Nat} (runs : start.Runs outcomes n b) :
    b.core.instructionCount = start.core.instructionCount + BitVec.ofNat 32 n := by
  induction runs with
  | start => exact (BitVec.add_zero _).symm
  | step trace outcome outcomes n b before running result ih =>
    rw [(step_accounts b trace running result).instructions, ih, BitVec.ofNat_add,
      BitVec.add_assoc]
    cases b.executesNext <;> rfl
  | exchange devices outcomes n b before ih => exact ih

/-- A core that was just created has counted its reset. -/
theorem count_ofConfig (config : CoreConfig) (kind : ExceptionKind) :
    (Core.ofConfig config).diagnostics.count kind = if kind = .reset then 1 else 0 := by
  have counted := Diagnostics.initial.count_recordException .reset kind
  refine Eq.trans (b := (Diagnostics.initial.recordException .reset).count kind) rfl ?_
  rw [counted]
  cases kind <;> rfl

/-- A step enters at most one exception, which is its outcome and is counted once; an interrupt only
when a device asserts it and the instruction has left interrupts enabled. An instruction is counted
when it was fetched and due, and no store reaches the counter. So after any run from a new core the
counters of exceptions tell the outcomes, their sum being one more than the number of exceptions
unless a counter has come to its end, and the instruction counter tells how many instructions were
executed. -/
theorem steps_account :
    (∀ (b : Board) (trace : Bool) (outcome : Outcome), b.core.runState = .running →
      (b.step trace).result = .ok outcome →
      b.Accounts (b.fetchAndExecute trace).board (b.step trace).entries outcome
        (b.step trace).board) ∧
    (∀ (b : Board) (privileged : Bool) (v value : Word) (width : Width),
      (b.run (write privileged v value width)).2.core.instructionCount =
        b.core.instructionCount) ∧
    ∀ (config : CoreConfig) (registers : RegisterFile) (ram : Ram) (devices : DeviceTable)
      (outcomes : List Outcome) (n : Nat) (b : Board),
      Runs ⟨{ Core.ofConfig config with registers, ram }, devices⟩ outcomes n b →
      (∀ kind, b.core.diagnostics.count kind =
        min ((if kind = .reset then 1 else 0) + outcomes.count (.exception kind))
          Diagnostics.maximumCount) ∧
      (b.core.diagnostics.total = 1 + outcomes.countP Outcome.isException ↔
        ∀ kind, (if kind = .reset then 1 else 0) + outcomes.count (.exception kind) ≤
          Diagnostics.maximumCount) ∧
      b.core.instructionCount = BitVec.ofNat 32 n := by
  refine ⟨fun b trace outcome => b.step_accounts trace, fun b privileged v value width => ?_, ?_⟩
  · exact (b.write_busChange privileged v value width).sameCounters.instructionCount
  · intro config registers ram devices outcomes n b runs
    have counters : ∀ kind, b.core.diagnostics.count kind =
        min ((if kind = .reset then 1 else 0) + outcomes.count (.exception kind))
          Diagnostics.maximumCount := by
      intro kind
      have fresh := count_ofConfig config kind
      have counted := runs.counters kind (le_of_eq_of_le fresh (by cases kind <;> decide))
      rw [fresh] at counted
      exact counted
    have sum : 1 + outcomes.countP Outcome.isException = (ExceptionKind.all.map fun kind =>
        (if kind = .reset then 1 else 0) + outcomes.count (.exception kind)).sum := by
      rw [Outcome.countP_isException]
      simp [ExceptionKind.all, Nat.add_assoc]
    refine ⟨counters, ?_, ?_⟩
    · rw [sum]
      exact Diagnostics.total_eq_iff counters
    · exact runs.instructionCount.trans (BitVec.zero_add _)

/-- A call of the supervisor at 0, and at the vector a move that is not due. -/
def supervisorCall : Board where
  core :=
    { Core.ofConfig .bareMetal with ram := ⟨⟨#[0, 0, 0, 0xEF, 0, 0, 0, 0, 1, 0, 0xA0, 0x03]⟩⟩ }
  devices := .empty

theorem steps_account_supervisorCall :
    let called := (supervisorCall.step false).board
    let passed := (called.step false).board
    called.core.diagnostics.count .softwareInterrupt = 1 ∧
      passed.core.registers = called.core.registers.setPc 0xC ∧
      passed.core.diagnostics.total = 2 ∧ passed.core.instructionCount = 1 := by
  have calls : (supervisorCall.step false).result = .ok (.exception .softwareInterrupt) := by rfl
  have passes : ((supervisorCall.step false).board.step false).result = .ok .skipped := by rfl
  have first := steps_account.1 supervisorCall false _ rfl calls
  have next := steps_account.1 (supervisorCall.step false).board false _ rfl passes
  have runs := Runs.step false _ _ _ _ (.step false _ _ _ _ .start rfl calls) rfl passes
  obtain ⟨counters, sum, instructions⟩ := steps_account.2.2 .bareMetal _ _ _ _ _ _ runs
  refine ⟨(first.counters .softwareInterrupt).trans rfl, next.skipped rfl, ?_,
    instructions.trans rfl⟩
  refine (sum.mpr fun kind => ?_).trans rfl
  cases kind <;> decide

end Board
end ArmMachine
