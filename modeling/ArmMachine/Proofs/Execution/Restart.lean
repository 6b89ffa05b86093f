import ArmMachine.Proofs.Execution.Counters
import ArmMachine.Proofs.Execution.Protection

/-! Starting again. A reset leaves nothing of a core but its memory and its counters, so from there
on it cannot be told from a new core with the same memory. -/
namespace ArmMachine

namespace Core

/-- The second core differs from the first one in its counters at most, and has counted some more
accesses. -/
def Ahead (hits lookups : Nat) (c c' : Core) : Prop :=
  ∃ diagnostics, c' = c.recount ⟨hits, lookups, diagnostics⟩

/-- The cores agree in everything but their counters. -/
def SameButCounters (c c' : Core) : Prop :=
  c' = { c with
    mmu := { c.mmu with hits := c'.mmu.hits, lookups := c'.mmu.lookups }
    diagnostics := c'.diagnostics }

variable {hits lookups : Nat} {c c' : Core}

theorem Ahead.sameButCounters (ahead : c.Ahead hits lookups c') : c.SameButCounters c' := by
  obtain ⟨diagnostics, rfl⟩ := ahead
  rfl

theorem Ahead.counted (ahead : c.Ahead hits lookups c') :
    c'.mmu.hits = c.mmu.hits + hits ∧ c'.mmu.lookups = c.mmu.lookups + lookups := by
  obtain ⟨diagnostics, rfl⟩ := ahead
  exact ⟨rfl, rfl⟩

/-- What ends a step counts on, and looks at no counter. -/
theorem indistinct_ahead (hits lookups : Nat) : Indistinct (Ahead hits lookups) where
  runState := by
    rintro c _ ⟨diagnostics, rfl⟩
    rfl
  decode := by
    rintro c _ ⟨diagnostics, rfl⟩
    rfl
  accepts := by
    rintro c _ ⟨diagnostics, rfl⟩ kind
    rfl
  noteFault := by
    rintro c _ ⟨diagnostics, rfl⟩
    exact ⟨diagnostics, c.noteFault_recount _⟩
  takeAbort := by
    rintro c _ ⟨diagnostics, rfl⟩ kind
    unfold takeAbort
    split
    · exact ⟨diagnostics.recordAbort ⟨c.decode.address, c.mmu.faultStatus, c.mmu.faultAddress⟩, rfl⟩
    · exact ⟨diagnostics, rfl⟩
  enter := by
    rintro c _ ⟨diagnostics, rfl⟩ kind
    exact ⟨diagnostics.recordException kind, rfl⟩
  setPending := by
    rintro c _ ⟨diagnostics, rfl⟩ p
    exact ⟨diagnostics, rfl⟩
  halt := by
    rintro c _ ⟨diagnostics, rfl⟩ cause
    exact ⟨diagnostics, rfl⟩

/-- Of the old state only memory, the profile and the counters are left. -/
theorem reset_ahead (s : Core) (config : CoreConfig)
    (profile : config.profile.allowsPaging = s.mmu.pagingAllowed) :
    { ofConfig config with ram := s.ram }.Ahead s.mmu.hits s.mmu.lookups s.reset := by
  let empty : Core :=
    { registers := .initial
      mmu := (Mmu.initial config.profile.allowsPaging).reset
      ram := s.ram
      decode := .idle 0
      instructionCount := 0
      runState := .running
      diagnostics := .initial }
  have cleared : empty.Ahead s.mmu.hits s.mmu.lookups s.cleared := by
    refine ⟨s.diagnostics, ?_⟩
    simp only [empty, Core.cleared, recount, Mmu.reset, Mmu.recount, Mmu.initial, profile,
      Nat.zero_add]
  exact (indistinct_ahead _ _).enter cleared .reset

end Core

namespace Board

open ArmMachine.Core (Ahead indistinct_ahead)

variable {b b' : Board} {hits lookups : Nat}

/-- Between the instructions of a step nothing looks at the counters. -/
theorem hides_recount (k : Counters) : Hides fun b => b.recount k where
  pc _ := rfl
  current _ := rfl
  beginStep _ := rfl
  accept _ _ := rfl
  setPending _ _ := rfl
  countInstruction _ := rfl

theorem Alike.eq_recount (ahead : b.Alike (Ahead hits lookups) b') :
    ∃ diagnostics, b' = b.recount ⟨hits, lookups, diagnostics⟩ := by
  obtain ⟨⟨diagnostics, core⟩, devices⟩ := ahead
  exact ⟨diagnostics, congr (congrArg Board.mk core) devices⟩

/-- One step has the same result, and counts the same number of accesses. -/
theorem step_ahead (ahead : b.Alike (Ahead hits lookups) b') (trace : Bool) :
    (b'.step trace).result = (b.step trace).result ∧
      (b.step trace).board.Alike (Ahead hits lookups) (b'.step trace).board := by
  obtain ⟨diagnostics, rfl⟩ := ahead.eq_recount
  obtain ⟨result, done⟩ := (hides_recount ⟨hits, lookups, diagnostics⟩).fetchAndExecute trace
    (blind_fetch b.core.registers.pc (b.mapCore .beginStep) ⟨hits, lookups, diagnostics⟩)
    fun word fetched _ => Instruction.blind_execute ⟨word⟩ (fetched.accept word) _
  refine ahead.step (indistinct_ahead hits lookups) result ?_
  rw [done]
  exact ⟨⟨diagnostics, rfl⟩, rfl⟩

theorem stepped_ahead (ahead : b.Alike (Ahead hits lookups) b') (trace : Bool) (n : Nat) :
    (b.stepped trace n).Alike (Ahead hits lookups) (b'.stepped trace n) := by
  induction n with
  | zero => exact ahead
  | succ n ih => exact (step_ahead ih trace).2

/-- The boards have come equally far from where they started: they agree in everything but their
counters, and have counted the same number of accesses. -/
structure SameProgress (start b start' b' : Board) : Prop where
  core : b.core.SameButCounters b'.core
  devices : b'.devices = b.devices
  hits : ∃ served, b.core.mmu.hits = start.core.mmu.hits + served ∧
    b'.core.mmu.hits = start'.core.mmu.hits + served
  lookups : ∃ asked, b.core.mmu.lookups = start.core.mmu.lookups + asked ∧
    b'.core.mmu.lookups = start'.core.mmu.lookups + asked

/-- A reset leaves nothing of a core but its memory, its profile and its counters; and from there on
no step can tell it from a new core of the same profile with the same memory. -/
theorem reset_starts_afresh (s : Core) (config : CoreConfig) (devices : DeviceTable) (trace : Bool)
    (profile : config.profile.allowsPaging = s.mmu.pagingAllowed) :
    let fresh : Board := ⟨{ Core.ofConfig config with ram := s.ram }, devices⟩
    let again : Board := ⟨s.reset, devices⟩
    fresh.core.SameButCounters again.core ∧ ∀ n,
      ((again.stepped trace n).step trace).result = ((fresh.stepped trace n).step trace).result ∧
      SameProgress fresh (fresh.stepped trace n) again (again.stepped trace n) := by
  intro fresh again
  have start : fresh.Alike (Ahead s.mmu.hits s.mmu.lookups) again :=
    ⟨s.reset_ahead config profile, rfl⟩
  refine ⟨start.core.sameButCounters, fun n => ?_⟩
  have after := stepped_ahead start trace n
  obtain ⟨hits, lookups⟩ := after.core.counted
  refine ⟨(step_ahead after trace).1, after.core.sameButCounters, after.devices, ?_, ?_⟩
  · exact ⟨_, (Nat.zero_add _).symm, hits.trans (Nat.add_comm _ _)⟩
  · exact ⟨_, (Nat.zero_add _).symm, lookups.trans (Nat.add_comm _ _)⟩

/-- The core of the user program once its second store was refused, reset, and a new core with the
same memory both run into the end of it. -/
theorem reset_starts_afresh_userProgram :
    let s := (userProgram.stepped false 2).core
    let again : Board := ⟨s.reset, .empty⟩
    s.registers.current.mode? = some .abort ∧ s.mmu.hits = 1 ∧
      again.core.registers = (Core.ofConfig .standard).registers ∧
      ((again.stepped false 4).step false).result = .error (.unmapped 0x10) := by
  have allows : CoreConfig.standard.profile.allowsPaging =
      (userProgram.stepped false 2).core.mmu.pagingAllowed := by rfl
  obtain ⟨same, progress⟩ := reset_starts_afresh (userProgram.stepped false 2).core .standard
    .empty false allows
  refine ⟨by rfl, by rfl, ?_, (progress 4).1.trans ?_⟩
  · rw [same]
  · rfl

end Board
end ArmMachine
