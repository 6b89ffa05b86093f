import ArmMachine.Proofs.Execution.Entries

/-! Two boards that step together. What no stage of a step looks at makes no difference to its
result, and is as different after the step as it was before. -/
namespace ArmMachine
namespace Core

variable {R : Core → Core → Prop}

/-- Cores that are related cannot be told apart by what ends a step, and stay related. -/
structure Indistinct (R : Core → Core → Prop) : Prop where
  runState : ∀ {c c'}, R c c' → c'.runState = c.runState
  decode : ∀ {c c'}, R c c' → c'.decode = c.decode
  accepts : ∀ {c c'}, R c c' → ∀ kind, c'.accepts kind = c.accepts kind
  noteFault : ∀ {c c'}, R c c' → R c.noteFault c'.noteFault
  takeAbort : ∀ {c c'}, R c c' → ∀ kind, R (c.takeAbort kind) (c'.takeAbort kind)
  enter : ∀ {c c'}, R c c' → ∀ kind, R (c.enter kind) (c'.enter kind)
  setPending : ∀ {c c'}, R c c' → ∀ p, R (c.setPending p) (c'.setPending p)
  halt : ∀ {c c'}, R c c' → ∀ cause, R (c.halt cause) (c'.halt cause)

end Core

namespace Board

/-- The cores are related, and the devices are the same. -/
structure Alike (R : Core → Core → Prop) (b b' : Board) : Prop where
  core : R b.core b'.core
  devices : b'.devices = b.devices

section Ends
variable {R : Core → Core → Prop} (indistinct : Core.Indistinct R) {b b' : Board}
  (alike : b.Alike R b') (outcome : Outcome)
include indistinct alike

theorem Alike.dispatchPending :
    (b'.dispatchPending outcome).result = (b.dispatchPending outcome).result ∧
      (b.dispatchPending outcome).board.Alike R (b'.dispatchPending outcome).board := by
  have noted := indistinct.noteFault alike.core
  have decode := indistinct.decode noted
  cases pending : b.core.noteFault.decode.pending.exception? with
  | none =>
    have idle := Pending.exception?_eq_none.mp pending
    rw [dispatchPending_of_idle b outcome idle,
      dispatchPending_of_idle b' outcome ((congrArg DecodeState.pending decode).trans idle)]
    exact ⟨rfl, noted, alike.devices⟩
  | some kind =>
    rw [dispatchPending_of_pending b outcome pending,
      dispatchPending_of_pending b' outcome
        ((congrArg (·.pending.exception?) decode).trans pending)]
    have entered := indistinct.enter (indistinct.takeAbort noted kind) kind
    exact ⟨rfl, indistinct.setPending entered .none, alike.devices⟩

theorem Alike.takeInterrupt :
    (b'.takeInterrupt outcome).result = (b.takeInterrupt outcome).result ∧
      (b.takeInterrupt outcome).board.Alike R (b'.takeInterrupt outcome).board := by
  unfold Board.takeInterrupt
  rw [alike.devices, indistinct.accepts alike.core]
  split
  · exact ⟨rfl, indistinct.enter alike.core .irq, alike.devices⟩
  · exact ⟨rfl, alike⟩

/-- Boards whose instructions come to the same step to the same. -/
theorem Alike.step {trace : Bool}
    (result : (b'.fetchAndExecute trace).result = (b.fetchAndExecute trace).result)
    (done : (b.fetchAndExecute trace).board.Alike R (b'.fetchAndExecute trace).board) :
    (b'.step trace).result = (b.step trace).result ∧
      (b.step trace).board.Alike R (b'.step trace).board := by
  have runState := indistinct.runState alike.core
  cases state : b.core.runState with
  | halted cause =>
    simp only [Board.step, state, runState.trans state]
    exact ⟨trivial, alike⟩
  | running =>
    simp only [Board.step, state, runState.trans state, runningStep]
    generalize b.fetchAndExecute trace = executed at result done
    generalize b'.fetchAndExecute trace = executed' at result done
    obtain ⟨_, board, _⟩ := executed
    obtain ⟨result', _, _⟩ := executed'
    dsimp only at result done
    subst result
    cases result' with
    | error cause => exact ⟨rfl, indistinct.halt done.core cause, done.devices⟩
    | ok outcome =>
      obtain ⟨same, dispatched⟩ := done.dispatchPending indistinct outcome
      dsimp only
      rw [same]
      obtain ⟨same, interrupted⟩ :=
        dispatched.takeInterrupt indistinct (board.dispatchPending outcome).result
      exact ⟨congrArg Except.ok same, interrupted⟩

end Ends

/-- A change of a board that its own bookkeeping does not look at. -/
structure Hides (change : Board → Board) : Prop where
  pc : ∀ b, (change b).core.registers.pc = b.core.registers.pc
  current : ∀ b, (change b).core.registers.current = b.core.registers.current
  beginStep : ∀ b, (change b).mapCore .beginStep = change (b.mapCore .beginStep)
  accept : ∀ b word, (change b).accept word = change (b.accept word)
  setPending : ∀ b p, (change b).mapCore (fun c => c.setPending p) =
    change (b.mapCore fun c => c.setPending p)
  countInstruction : ∀ b, (change b).mapCore .countInstruction =
    change (b.mapCore .countInstruction)

/-- An action comes to the same on a changed board, which stays changed. -/
def Ignores {α : Type} (change : Board → Board) (b : Board) (x : Action α) : Prop :=
  (change b).run x = ((b.run x).1, change (b.run x).2)

theorem Ignores.bind {α β : Type} {change : Board → Board} {b : Board} {x : Action α}
    {f : α → Action β} (first : Ignores change b x)
    (next : ∀ a b', b.run x = (.ok a, b') → Ignores change b' (f a)) :
    Ignores change b (x >>= f) := by
  rw [Ignores] at first ⊢
  rw [run_bind, run_bind, first]
  generalize ran : b.run x = r
  obtain ⟨result, b'⟩ := r
  cases result with
  | error cause => rfl
  | ok a => exact next a b' ran

section Stages
variable {change : Board → Board} (hides : Hides change) {b : Board}
include hides

theorem Hides.executeFetched {i : Instruction} (executes : Ignores change b i.execute) :
    ((change b).executeFetched i).result = (b.executeFetched i).result ∧
      ((change b).executeFetched i).board = change (b.executeFetched i).board := by
  rw [Ignores] at executes
  unfold Board.executeFetched execute
  rw [hides.current]
  dsimp only
  rw [executes]
  split
  · generalize b.run i.execute = r
    obtain ⟨result, done⟩ := r
    cases result with
    | ok _ => exact ⟨rfl, hides.countInstruction done⟩
    | error cause =>
      cases cause with
      | abort fault => exact ⟨rfl, hides.countInstruction done⟩
      | _ => exact ⟨rfl, rfl⟩
  · exact ⟨rfl, rfl⟩

/-- Nothing that fetching and executing comes to depends on what the fetch and the instruction
ignore. -/
theorem Hides.fetchAndExecute (trace : Bool)
    (fetches : Ignores change (b.mapCore .beginStep) (fetch b.core.registers.pc))
    (executes : ∀ word fetched, b.fetchNext = (.ok word, fetched) →
      Ignores change (fetched.accept word) (Instruction.execute ⟨word⟩)) :
    ((change b).fetchAndExecute trace).result = (b.fetchAndExecute trace).result ∧
      ((change b).fetchAndExecute trace).board = change (b.fetchAndExecute trace).board := by
  rw [Ignores] at fetches
  simp only [Board.fetchAndExecute]
  rw [hides.pc, hides.beginStep, fetches, run_fetchNext]
  generalize stage : b.fetchNext = r
  obtain ⟨result, next⟩ := r
  cases result with
  | error cause =>
    cases cause with
    | abort fault => exact ⟨rfl, hides.setPending next .prefetchAbort⟩
    | _ => exact ⟨rfl, rfl⟩
  | ok word =>
    have ran := hides.executeFetched (executes word next stage)
    rw [← hides.accept] at ran
    exact ran

end Stages
end Board
end ArmMachine
