import ArmMachine.Proofs.Execution.Lockstep
import ArmMachine.Proofs.Execution.Protection
import ArmMachine.Proofs.Execution.Unprivileged

/-! What user mode cannot see does not matter to it. Two boards that differ only in the banks and
the saved status words of other modes go through the same user code in step, up to and including the
step that leaves user mode. -/
namespace ArmMachine

/-- User mode cannot tell the register files apart. -/
structure RegisterFile.SameUserView (r r' : RegisterFile) : Prop where
  current : r'.current = r.current
  cells : ∀ id, r'.cell .user id = r.cell .user id

theorem RegisterFile.SameUserView.eq_graft {r r' : RegisterFile} (view : r.SameUserView r') :
    r' = r.graft r' := by
  refine ext_cells (fun bank id => ?_) view.current rfl
  rw [cell_graft]
  split
  · rename_i user
    rw [user, view.cells]
  · rfl

theorem RegisterFile.sameUserView_graft (r t : RegisterFile) : r.SameUserView (r.graft t) :=
  ⟨rfl, r.cell_graft_user t⟩

/-- The cores differ only in what user mode does not see. -/
structure Core.SameUserView (c c' : Core) : Prop where
  registers : c.registers.SameUserView c'.registers
  rest : c' = { c with registers := c'.registers }

namespace Core

variable {c c' : Core}

/-- An update that leaves the registers alone and does not look at them tells no cores apart. -/
theorem SameUserView.of_blind {f : Core → Core} (view : c.SameUserView c')
    (blind : ∀ c r, f { c with registers := r } = { f c with registers := r }) :
    (f c).SameUserView (f c') := by
  have own : (f c).registers = c.registers := by
    have same := congrArg Core.registers (blind c c.registers)
    exact same
  have after : f c' = { f c with registers := c'.registers } := by
    rw [view.rest]
    exact blind c c'.registers
  constructor
  · rw [after, own]
    exact view.registers
  · rw [after]

theorem SameUserView.noteFault (view : c.SameUserView c') :
    c.noteFault.SameUserView c'.noteFault := by
  refine view.of_blind fun c r => ?_
  unfold Core.noteFault
  dsimp only
  split <;> rfl

theorem SameUserView.takeAbort (view : c.SameUserView c') (kind : ExceptionKind) :
    (c.takeAbort kind).SameUserView (c'.takeAbort kind) := by
  refine view.of_blind (f := fun c => c.takeAbort kind) fun c r => ?_
  unfold Core.takeAbort
  split <;> rfl

theorem SameUserView.setPending (view : c.SameUserView c') (p : Pending) :
    (c.setPending p).SameUserView (c'.setPending p) :=
  view.of_blind (f := fun c => c.setPending p) fun _ _ => rfl

theorem SameUserView.halt (view : c.SameUserView c') (cause : Failure) :
    (c.halt cause).SameUserView (c'.halt cause) :=
  view.of_blind (f := fun c => c.halt cause) fun _ _ => rfl

/-- Entering an exception shows user mode the vector and the new status. -/
theorem SameUserView.enter (view : c.SameUserView c') (kind : ExceptionKind) :
    (c.enter kind).SameUserView (c'.enter kind) := by
  have control : c'.mmu.control = c.mmu.control := by rw [view.rest]
  refine ⟨⟨?_, fun id => ?_⟩, ?_⟩
  · refine (c'.current_enteredRegisters kind).trans ?_
    rw [view.registers.current]
    exact (c.current_enteredRegisters kind).symm
  · refine (c'.cell_enteredRegisters kind .user id).trans ?_
    refine Eq.trans ?_ (c.cell_enteredRegisters kind .user id).symm
    have banked : ¬ (Bank.user = kind.bank ∧ id = .link) :=
      fun here => kind.bank_ne_user here.1.symm
    rw [if_neg banked, if_neg banked, vectorAddress_congr control, view.registers.cells]
  · rw [view.rest]
    rfl

theorem SameUserView.accepts (view : c.SameUserView c') (kind : ExceptionKind) :
    c'.accepts kind = c.accepts kind := by
  rw [Core.accepts, Core.accepts, view.registers.current]

theorem indistinct_sameUserView : Indistinct SameUserView where
  runState view := by rw [view.rest]
  decode view := by rw [view.rest]
  accepts view := view.accepts
  noteFault view := view.noteFault
  takeAbort view := view.takeAbort
  enter view := view.enter
  setPending view := view.setPending
  halt view := view.halt

end Core

namespace Board

/-- The boards differ only in what user mode does not see. -/
structure SameUserView (b b' : Board) : Prop where
  core : b.core.SameUserView b'.core
  devices : b'.devices = b.devices

theorem SameUserView.eq_graft {b b' : Board} (view : b.SameUserView b') :
    b' = b.graft b'.core.registers := by
  obtain ⟨core', devices'⟩ := b'
  obtain ⟨view, devices⟩ := view
  dsimp only at devices view ⊢
  rw [devices, graft, mapRegisters, mapCore, ← view.registers.eq_graft, ← view.rest]

theorem sameUserView_graft (b : Board) (t : RegisterFile) : b.SameUserView (b.graft t) :=
  ⟨⟨b.core.registers.sameUserView_graft t, rfl⟩, rfl⟩

/-- What user mode does not see is not looked at between its instructions either. -/
theorem hides_graft (t : RegisterFile) : Hides fun b => b.graft t where
  pc b := b.core.registers.pc_graft t
  current _ := rfl
  beginStep b := by simp only [graft, mapRegisters, mapCore, Core.beginStep, RegisterFile.pc_graft]
  accept b word := by
    simp only [graft, mapRegisters, accept, mapCore, Core.acceptFetch, RegisterFile.pc_graft,
      RegisterFile.setPc_graft]
  setPending _ _ := rfl
  countInstruction _ := rfl

theorem fetchAndExecute_graft (b : Board) (t : RegisterFile) (trace : Bool)
    (user : b.core.registers.current.privileged = false) :
    ((b.graft t).fetchAndExecute trace).result = (b.fetchAndExecute trace).result ∧
      ((b.graft t).fetchAndExecute trace).board = (b.fetchAndExecute trace).board.graft t := by
  refine (hides_graft t).fetchAndExecute trace ?_ fun word fetched read => ?_
  · exact (unprivileged_fetch b.core.registers.pc).graft (b.mapCore .beginStep) t user
  · have mode : (fetched.accept word).core.registers.current.privileged = false := by
      rw [registers_accept read]
      exact user
    exact (Instruction.unprivileged_execute ⟨word⟩).graft (fetched.accept word) t mode

/-- One step in user mode, which may be the one that leaves it. -/
theorem SameUserView.step {b b' : Board} (view : b.SameUserView b')
    (user : b.core.registers.current.privileged = false) (trace : Bool) :
    (b'.step trace).result = (b.step trace).result ∧
      (b.step trace).board.SameUserView (b'.step trace).board := by
  have fetched := b.fetchAndExecute_graft b'.core.registers trace user
  rw [← view.eq_graft] at fetched
  obtain ⟨result, done⟩ := fetched
  have after := (b.fetchAndExecute trace).board.sameUserView_graft b'.core.registers
  rw [← done] at after
  have alike : b.Alike Core.SameUserView b' := ⟨view.core, view.devices⟩
  obtain ⟨same, stepped⟩ := alike.step Core.indistinct_sameUserView result
    ⟨after.core, after.devices⟩
  exact ⟨same, stepped.core, stepped.devices⟩

theorem SameUserView.stepped {b b' : Board} (view : b.SameUserView b') (trace : Bool) (n : Nat)
    (user : ∀ k < n, (b.stepped trace k).core.registers.current.privileged = false) :
    (b.stepped trace n).SameUserView (b'.stepped trace n) := by
  induction n with
  | zero => exact view
  | succ n ih =>
    have before := ih fun k earlier => user k (Nat.lt_succ_of_lt earlier)
    exact (before.step (user n (Nat.lt_succ_self n)) trace).2

/-- As long as user code runs, and in the step that ends it, what other modes keep in their banks
and saved status words changes neither an outcome nor anything outside of these. -/
theorem user_code_sees_no_other_mode (b b' : Board) (trace : Bool) (n : Nat)
    (view : b.SameUserView b')
    (user : ∀ k < n, (b.stepped trace k).core.registers.current.mode? = some .user) :
    (∀ k < n, ((b'.stepped trace k).step trace).result = ((b.stepped trace k).step trace).result) ∧
      (b.stepped trace n).SameUserView (b'.stepped trace n) := by
  have mode : ∀ k < n, (b.stepped trace k).core.registers.current.privileged = false :=
    fun k earlier => StatusWord.privileged_of_mode? (user k earlier)
  refine ⟨fun k earlier => ?_, view.stepped trace n mode⟩
  have before := view.stepped trace k fun j sooner => mode j (Nat.lt_trans sooner earlier)
  exact (before.step (mode k earlier) trace).1

/-- The program with other contents where the abort and supervisor modes keep theirs. -/
def otherModes : RegisterFile :=
  ((RegisterFile.initial.setCell .abort .link 0x5EC2E7).setCell .supervisor .link 7).setSavedOf
    .abort ⟨0x1F⟩

/-- The second store is refused all the same, and the handler starts with the same status. -/
theorem user_code_sees_no_other_mode_userProgram :
    let other := userProgram.graft otherModes
    other ≠ userProgram ∧
      ((other.stepped false 1).step false).result = .ok (.exception .dataAbort) ∧
      (userProgram.stepped false 2).SameUserView (other.stepped false 2) := by
  have user : ∀ k < 2,
      (userProgram.stepped false k).core.registers.current.mode? = some .user := by
    intro k early
    match k with
    | 0 => rfl
    | 1 => rfl
  have refused : ((userProgram.stepped false 1).step false).result =
      .ok (.exception .dataAbort) := by rfl
  obtain ⟨outcomes, view⟩ := user_code_sees_no_other_mode userProgram
    (userProgram.graft otherModes) false 2 (userProgram.sameUserView_graft otherModes) user
  refine ⟨fun same => ?_, (outcomes 1 (by decide)).trans refused, view⟩
  have link := congrArg (fun b => b.core.registers.cell .abort .link) same
  revert link
  decide

end Board
end ArmMachine
